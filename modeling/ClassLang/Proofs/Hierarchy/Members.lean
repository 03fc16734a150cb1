import ClassLang.Proofs.Hierarchy.Ancestry

/-! # Members of a class

A member is looked up on the way from a class to its root, and the first class that has one of the
name decides. A class thus has its own members and, beyond these, all that its parent has: on the
way down a member can be overridden, and it is never lost. -/

namespace ClassLang

namespace Hierarchy

/-- The way up from the class `c`, up to but excluding `a`. -/
def wayBelow (h : Hierarchy) (a c : String) : List ClassDecl :=
  (h.ancestors c).takeWhile (·.name != a)

/-- Look-up gives the first member of the name that the class itself declares, and else what look-up
in the parent gives. What it gives for an ancestor it also gives for the class, unless a class on
the way declares the name. -/
structure NearestFirst {α : Type} (h : Hierarchy) (classes : List ClassDecl)
    (members : ClassDecl → List α) (name : α → String) (lookup : String → String → Option α) :
    Prop where
  own : ∀ k ∈ classes, ∀ before d after, members k = before ++ d :: after →
    (∀ e ∈ before, name e ≠ name d) → lookup k.name (name d) = some d
  inherited : ∀ k ∈ classes, ∀ p m, k.parent = some p → (∀ e ∈ members k, name e ≠ m) →
    lookup k.name m = lookup p m
  root : ∀ k ∈ classes, ∀ m, k.parent = none → (∀ e ∈ members k, name e ≠ m) →
    lookup k.name m = none
  undeclared : ∀ c m, c ∉ classes.map (·.name) → lookup c m = none
  kept : ∀ a c m d, h.isAncestorOrSelf a c = true → lookup a m = some d → lookup c m ≠ none
  unchanged : ∀ a c m d, h.isAncestorOrSelf a c = true → lookup a m = some d →
    (∀ k ∈ h.wayBelow a c, ∀ e ∈ members k, name e ≠ m) → lookup c m = some d

namespace Arranges

variable {h : Hierarchy} {classes : List ClassDecl} (harr : h.Arranges classes)

include harr

/-- A name occurs only once on the way up, so the way below an ancestor ends right before it. -/
theorem ancestors_eq_append {a c : String} (hac : h.isAncestorOrSelf a c = true) :
    h.ancestors c = h.wayBelow a c ++ h.ancestors a := by
  obtain ⟨below, hsplit⟩ := harr.suffix_of_isAncestorOrSelf hac
  obtain ⟨k, hk, rfl⟩ := isAncestorOrSelf_iff.mp hac
  have hstart : h.ancestors k.name = k :: k.parent.elim [] h.ancestors :=
    harr.ancestors_eq (harr.perm.mem_iff.mp (mem_of_mem_chain hk))
  have hbelow : ∀ e ∈ below, (e.name != k.name) = true := by
    intro e he
    have hnodup := harr.nodup_ancestors c
    rw [← hsplit, List.map_append, List.nodup_append, hstart] at hnodup
    simpa using hnodup.2.2 e.name (List.mem_map_of_mem he) k.name (by simp)
  have hway : h.wayBelow k.name c = below := by
    rw [wayBelow, ← hsplit, List.takeWhile_append_of_pos hbelow, hstart]
    simp
  rw [hway, hsplit]

section Lookup

variable {α : Type} (member : ClassDecl → Option α)

theorem findSome?_ancestors {k : ClassDecl} (hk : k ∈ classes) :
    (h.ancestors k.name).findSome? member =
      (member k).or (k.parent.bind fun p => (h.ancestors p).findSome? member) := by
  rw [harr.ancestors_eq hk, List.findSome?_cons]
  cases member k with
  | some a => rfl
  | none => cases k.parent <;> rfl

theorem findSome?_ancestors_of_isAncestorOrSelf {a c : String}
    (hac : h.isAncestorOrSelf a c = true) :
    (h.ancestors c).findSome? member =
      ((h.wayBelow a c).findSome? member).or ((h.ancestors a).findSome? member) := by
  rw [harr.ancestors_eq_append hac, List.findSome?_append]

end Lookup

theorem nearestFirst {α : Type} (members : ClassDecl → List α) (name : α → String) :
    h.NearestFirst classes members name
      (fun c m => (h.ancestors c).findSome? fun k => (members k).find? (name · == m)) := by
  have hnone {k : ClassDecl} {m : String} (hk : ∀ e ∈ members k, name e ≠ m) :
      (members k).find? (name · == m) = none := by
    simpa [List.find?_eq_none] using hk
  constructor
  case own =>
    intro k hk before d after hsplit hbefore
    have hown : (members k).find? (name · == name d) = some d :=
      List.find?_eq_some_iff_append.mpr ⟨by simp, before, after, hsplit, by simpa using hbefore⟩
    rw [harr.findSome?_ancestors _ hk, hown, Option.some_or]
  case inherited =>
    intro k hk p m hp hm
    rw [harr.findSome?_ancestors _ hk, hnone hm, hp, Option.none_or, Option.bind_some]
  case root =>
    intro k hk m hp hm
    rw [harr.findSome?_ancestors _ hk, hnone hm, hp, Option.none_or, Option.bind_none]
  case undeclared =>
    intro c m hc
    rw [harr.ancestors_of_undeclared hc, List.findSome?_nil]
  case kept =>
    intro a c m d hac hd
    rw [harr.findSome?_ancestors_of_isAncestorOrSelf _ hac, hd]
    simp
  case unchanged =>
    intro a c m d hac hd hway
    have hbelow : (h.wayBelow a c).findSome? (fun k => (members k).find? (name · == m)) = none :=
      List.findSome?_eq_none_iff.mpr fun k hk => hnone (hway k hk)
    rw [harr.findSome?_ancestors_of_isAncestorOrSelf _ hac, hbelow, Option.none_or, hd]

end Arranges

/-- In a built hierarchy methods and fields alike are looked up nearest first. -/
theorem nearestFirst_of_build {classes : List ClassDecl} {h : Hierarchy}
    (hbuild : build classes = .ok h) :
    h.NearestFirst classes (·.methods) (·.name) h.method? ∧
      h.NearestFirst classes (·.fields) (·.name) h.field? :=
  ⟨(arranges_of_build hbuild).nearestFirst (·.methods) (·.name),
    (arranges_of_build hbuild).nearestFirst (·.fields) (·.name)⟩

end Hierarchy

/-- Declares one method twice. -/
def bird : ClassDecl :=
  { name := "Bird", fields := [{ ty := .int, name := "age" }]
    methods := [{ name := "sing", ret := some .int }, { name := "sing" }, { name := "fly" }] }

/-- Overrides one of the two methods that it inherits. -/
def duck : ClassDecl :=
  { name := "Duck", parent := some "Bird", methods := [{ name := "fly", ret := some .bool }] }

def duckling : ClassDecl :=
  { name := "Duckling", parent := some "Duck" }

theorem build_birds : Hierarchy.build [duckling, bird, duck] = .ok ⟨[duckling, duck, bird]⟩ := by
  simp [Hierarchy.build, firstRepeated?, firstOrphanParent?, settle, sweep, ClassDecl.isReady,
    bird, duck, duckling, Except.map]

/-- The youngest class declares nothing: it sings as the root does at first, flies as its parent,
and has the field of the root. -/
theorem Hierarchy.birds_nearestFirst :
    build [duckling, bird, duck] = .ok ⟨[duckling, duck, bird]⟩ ∧
      method? ⟨[duckling, duck, bird]⟩ "Duckling" "sing" =
        some { name := "sing", ret := some .int } ∧
      method? ⟨[duckling, duck, bird]⟩ "Duckling" "fly" =
        some { name := "fly", ret := some .bool } ∧
      field? ⟨[duckling, duck, bird]⟩ "Duckling" "age" = some { ty := .int, name := "age" } := by
  obtain ⟨hmethods, hfields⟩ := nearestFirst_of_build build_birds
  refine ⟨build_birds, ?_, ?_, ?_⟩
  · apply hmethods.unchanged "Bird" "Duckling" "sing" _ (by decide)
    · exact hmethods.own bird (by simp) [] _ _ rfl (by simp)
    · simp [wayBelow, ancestors, chain, bird, duck, duckling]
  · apply (hmethods.inherited duckling (by simp) "Duck" "fly" rfl (by simp [duckling])).trans
    exact hmethods.own duck (by simp) [] _ _ rfl (by simp)
  · apply hfields.unchanged "Bird" "Duckling" "age" _ (by decide)
    · exact hfields.own bird (by simp) [] _ _ rfl (by simp)
    · simp [wayBelow, ancestors, chain, bird, duck, duckling]

end ClassLang

import ClassLang.Proofs.Hierarchy.Chains
import Mathlib.Data.List.Chain

/-! # What a hierarchy stands for

A hierarchy is made by inserting classes one after another, and it answers by name. The walk from a
class to its root asks for one parent after another, with nothing in the hierarchy that says it will
end. In a built hierarchy every class has been inserted after its parent, so the walk goes back in
the order: it comes to a root, meets no class twice, and makes the classes a partial order. -/

namespace ClassLang

theorem chain_sublist (name : String) (cs : List ClassDecl) : (chain name cs).Sublist cs := by
  induction cs generalizing name with
  | nil => simp
  | cons c earlier ih =>
    by_cases hc : c.name = name
    · subst hc
      cases hp : c.parent with
      | none => simp [chain_of_root hp]
      | some p =>
        rw [chain_of_parent hp]
        exact (ih p).cons_cons c
    · rw [chain_of_name_ne hc]
      exact (ih name).cons c

theorem ParentsFirst.isReady {later earlier : List ClassDecl} {c : ClassDecl}
    (horder : ParentsFirst (later ++ c :: earlier)) : c.isReady earlier = true := by
  induction later with
  | nil => exact horder.1
  | cons d later ih => exact ih horder.2

/-- The way from a class to its root. -/
structure ClassDecl.WayUp (classes : List ClassDecl) (c : ClassDecl) (way : List ClassDecl) :
    Prop where
  starts : way.head? = some c
  links : way.IsChain (ParentLink classes)
  nodup : (way.map (·.name)).Nodup
  ends : ∃ root, way.getLast? = some root ∧ root.parent = none

namespace Hierarchy

/-- One more class, behind all others in the order. -/
def insert (h : Hierarchy) (c : ClassDecl) : Hierarchy :=
  ⟨c :: h.placed⟩

theorem foldl_insert (h : Hierarchy) (cs : List ClassDecl) :
    cs.foldl insert h = ⟨cs.reverse ++ h.placed⟩ := by
  induction cs generalizing h with
  | nil => rfl
  | cons c cs ih =>
    rw [List.foldl_cons, ih]
    simp [insert]

/-- One step up: what the hierarchy holds under the name of the parent. -/
def parent? (h : Hierarchy) (c : ClassDecl) : Option ClassDecl :=
  c.parent.bind h.find?

/-- Steps up, for as long as there is a next class. -/
inductive Walks (h : Hierarchy) : (next : Option ClassDecl) → List ClassDecl → Prop
  | done : h.Walks none []
  | step {c : ClassDecl} {cs : List ClassDecl} (hcs : h.Walks (h.parent? c) cs) :
      h.Walks (some c) (c :: cs)

/-- The hierarchy stands for these classes: it has been made by inserting each of them once and
after its parent, it finds them by their names, and it leads from each of them to a root. -/
structure Represents (h : Hierarchy) (classes : List ClassDecl) : Prop where
  insertions : h.order.foldl insert {} = h
  ready : ∀ before c after, h.order = before ++ c :: after →
    c.isReady (before.foldl insert {}).placed = true
  perm : h.order.Perm classes
  nodup : h.order.Nodup
  lookup : (h.order.map (·.name)).filterMap h.find? = h.order
  parentsBefore : ∀ before c after, h.order = before ++ c :: after →
    ∀ p, c.parent = some p → ∃ d ∈ before, d.name = p
  find? : ∀ name c, h.find? name = some c ↔ c ∈ classes ∧ c.name = name
  walks : ∀ name, h.Walks (h.find? name) (h.ancestors name)
  wayUp : ∀ c ∈ classes, c.WayUp classes (h.ancestors c.name)
  undeclared : ∀ name, name ∉ classes.map (·.name) → h.ancestors name = []
  refl : ∀ c ∈ classes, h.isAncestorOrSelf c.name c.name = true
  trans : ∀ a b c, h.isAncestorOrSelf a b = true → h.isAncestorOrSelf b c = true →
    h.isAncestorOrSelf a c = true
  antisymm : ∀ a b, h.isAncestorOrSelf a b = true → h.isAncestorOrSelf b a = true → a = b

namespace Arranges

variable {h : Hierarchy} {classes : List ClassDecl} (harr : h.Arranges classes)

include harr

/-! ## Classes by name -/

theorem nodup_placed : (h.placed.map (·.name)).Nodup :=
  (harr.perm.map _).nodup_iff.mpr harr.nodup

theorem find?_eq_some_iff {name : String} {c : ClassDecl} :
    h.find? name = some c ↔ c ∈ classes ∧ c.name = name := by
  constructor
  · intro hc
    have hname : c.name = name := by simpa using List.find?_some hc
    exact ⟨harr.perm.mem_iff.mp (List.mem_of_find?_eq_some hc), hname⟩
  · rintro ⟨hc, rfl⟩
    have hsome : (h.find? c.name).isSome = true := by
      rw [find?, List.find?_isSome]
      exact ⟨c, harr.perm.mem_iff.mpr hc, by simp⟩
    obtain ⟨d, hd⟩ := Option.isSome_iff_exists.mp hsome
    have hname : d.name = c.name := by simpa using List.find?_some hd
    have hmem : d ∈ classes := harr.perm.mem_iff.mp (List.mem_of_find?_eq_some hd)
    rw [hd, List.inj_on_of_nodup_map harr.nodup hmem hc hname]

theorem find?_of_mem {c : ClassDecl} (hc : c ∈ classes) : h.find? c.name = some c :=
  harr.find?_eq_some_iff.mpr ⟨hc, rfl⟩

theorem find?_eq_none {name : String} (hname : name ∉ classes.map (·.name)) :
    h.find? name = none := by
  cases hc : h.find? name with
  | none => rfl
  | some c =>
    obtain ⟨hmem, rfl⟩ := harr.find?_eq_some_iff.mp hc
    exact absurd (List.mem_map_of_mem hmem) hname

theorem perm_order : h.order.Perm classes :=
  (List.reverse_perm _).trans harr.perm

theorem filterMap_find?_order : (h.order.map (·.name)).filterMap h.find? = h.order := by
  rw [List.filterMap_map]
  calc h.order.filterMap (h.find? ∘ (·.name))
    _ = h.order.filterMap some :=
      List.filterMap_congr fun c hc => harr.find?_of_mem (harr.perm_order.mem_iff.mp hc)
    _ = h.order := List.filterMap_some

/-! ## The order of insertions -/

theorem isReady_of_order {before after : List ClassDecl} {c : ClassDecl}
    (horder : h.order = before ++ c :: after) : c.isReady before.reverse = true := by
  have hplaced : h.placed = after.reverse ++ c :: before.reverse := by
    rw [← List.reverse_reverse h.placed]
    change h.order.reverse = _
    simp [horder]
  have hfirst := harr.parentsFirst
  rw [hplaced] at hfirst
  exact hfirst.isReady

theorem exists_parent_before {before after : List ClassDecl} {c : ClassDecl}
    (horder : h.order = before ++ c :: after) {p : String} (hp : c.parent = some p) :
    ∃ d ∈ before, d.name = p := by
  obtain ⟨d, hd, hname⟩ := ClassDecl.isReady_iff.mp (harr.isReady_of_order horder) p hp
  exact ⟨d, List.mem_reverse.mp hd, hname⟩

/-! ## Walks -/

theorem ancestors_of_undeclared {name : String} (hname : name ∉ classes.map (·.name)) :
    h.ancestors name = [] := by
  apply List.eq_nil_iff_forall_not_mem.mpr
  intro d hd
  exact hname (harr.contains_iff.mp (contains_of_mem_ancestors hd))

theorem nodup_ancestors (name : String) : ((h.ancestors name).map (·.name)).Nodup :=
  ((chain_sublist name h.placed).map _).nodup harr.nodup_placed

theorem walks_of_mem {c : ClassDecl} (hc : c ∈ classes) :
    h.Walks (some c) (h.ancestors c.name) := by
  induction harr.rooted hc with
  | @root c hc hp =>
    rw [harr.ancestors_of_root hc hp]
    apply Walks.step
    rw [parent?, hp]
    exact .done
  | @child c d hc hp hd ih =>
    rw [harr.ancestors_of_parent hc hp]
    apply Walks.step
    rw [parent?, hp, Option.bind_some, harr.find?_of_mem hd.mem]
    exact ih hd.mem

theorem walks (name : String) : h.Walks (h.find? name) (h.ancestors name) := by
  by_cases hname : name ∈ classes.map (·.name)
  · obtain ⟨c, hc, rfl⟩ := List.mem_map.mp hname
    rw [harr.find?_of_mem hc]
    exact harr.walks_of_mem hc
  · rw [harr.find?_eq_none hname, harr.ancestors_of_undeclared hname]
    exact .done

theorem head?_ancestors {c : ClassDecl} (hc : c ∈ classes) :
    (h.ancestors c.name).head? = some c := by
  rw [harr.ancestors_eq hc, List.head?_cons]

theorem isChain_ancestors {c : ClassDecl} (hc : c ∈ classes) :
    (h.ancestors c.name).IsChain (ParentLink classes) := by
  induction harr.rooted hc with
  | @root c hc hp =>
    rw [harr.ancestors_of_root hc hp]
    exact .singleton c
  | @child c d hc hp hd ih =>
    rw [harr.ancestors_of_parent hc hp]
    apply (ih hd.mem).cons
    intro e he
    rw [harr.head?_ancestors hd.mem] at he
    obtain rfl : d = e := by simpa using he
    exact ⟨hc, hd.mem, hp⟩

theorem exists_root {c : ClassDecl} (hc : c ∈ classes) :
    ∃ root, (h.ancestors c.name).getLast? = some root ∧ root.parent = none := by
  induction harr.rooted hc with
  | @root c hc hp =>
    rw [harr.ancestors_of_root hc hp]
    exact ⟨c, rfl, hp⟩
  | @child c d hc hp hd ih =>
    obtain ⟨root, hlast, hroot⟩ := ih hd.mem
    rw [harr.ancestors_of_parent hc hp, List.getLast?_cons, hlast]
    exact ⟨root, rfl, hroot⟩

theorem wayUp {c : ClassDecl} (hc : c ∈ classes) : c.WayUp classes (h.ancestors c.name) where
  starts := harr.head?_ancestors hc
  links := harr.isChain_ancestors hc
  nodup := harr.nodup_ancestors c.name
  ends := harr.exists_root hc

/-! ## The order of classes -/

/-- The walk from a class on the way is the rest of the way. -/
theorem suffix_of_mem_ancestors {c d : ClassDecl} (hc : c ∈ classes)
    (hd : d ∈ h.ancestors c.name) : h.ancestors d.name <:+ h.ancestors c.name := by
  induction harr.rooted hc with
  | @root c hc hp =>
    rw [harr.ancestors_of_root hc hp, List.mem_singleton] at hd
    rw [hd]
  | @child c e hc hp he ih =>
    rw [harr.ancestors_of_parent hc hp] at hd
    rcases List.mem_cons.mp hd with rfl | hd
    · exact List.suffix_rfl
    · rw [harr.ancestors_of_parent hc hp]
      exact (ih he.mem hd).trans (List.suffix_cons c _)

theorem suffix_of_isAncestorOrSelf {a c : String} (hac : h.isAncestorOrSelf a c = true) :
    h.ancestors a <:+ h.ancestors c := by
  obtain ⟨d, hd, rfl⟩ := isAncestorOrSelf_iff.mp hac
  obtain ⟨k, hk, rfl⟩ := List.mem_map.mp (harr.contains_iff.mp (contains_of_mem_ancestors hd))
  exact harr.suffix_of_mem_ancestors hk hd

theorem isAncestorOrSelf_self {c : ClassDecl} (hc : c ∈ classes) :
    h.isAncestorOrSelf c.name c.name = true :=
  isAncestorOrSelf_iff.mpr ⟨c, List.mem_of_head? (harr.head?_ancestors hc), rfl⟩

theorem isAncestorOrSelf_trans {a b c : String} (hab : h.isAncestorOrSelf a b = true)
    (hbc : h.isAncestorOrSelf b c = true) : h.isAncestorOrSelf a c = true := by
  obtain ⟨d, hd, hname⟩ := isAncestorOrSelf_iff.mp hab
  exact isAncestorOrSelf_iff.mpr ⟨d, (harr.suffix_of_isAncestorOrSelf hbc).subset hd, hname⟩

/-- Each of the two walks is the rest of the other, so they are one and start at the same class. -/
theorem isAncestorOrSelf_antisymm {a b : String} (hab : h.isAncestorOrSelf a b = true)
    (hba : h.isAncestorOrSelf b a = true) : a = b := by
  have hwalks : h.ancestors a = h.ancestors b :=
    (harr.suffix_of_isAncestorOrSelf hab).eq_of_length_le
      (harr.suffix_of_isAncestorOrSelf hba).length_le
  obtain ⟨d, hd, rfl⟩ := isAncestorOrSelf_iff.mp hab
  obtain ⟨e, he, rfl⟩ := isAncestorOrSelf_iff.mp hba
  have hmem {k : ClassDecl} {name : String} (hk : k ∈ h.ancestors name) : k ∈ classes :=
    harr.perm.mem_iff.mp (mem_of_mem_chain hk)
  have hheads := congrArg List.head? hwalks
  rw [harr.head?_ancestors (hmem hd), harr.head?_ancestors (hmem he)] at hheads
  exact congrArg ClassDecl.name (Option.some.inj hheads)

end Arranges

/-- Whatever classes a hierarchy could be built from, it stands for these classes. -/
theorem represents_of_build {classes : List ClassDecl} {h : Hierarchy}
    (hbuild : build classes = .ok h) : h.Represents classes := by
  have harr := arranges_of_build hbuild
  have hinsert (cs : List ClassDecl) : cs.foldl insert {} = ⟨cs.reverse⟩ := by
    rw [foldl_insert, List.append_nil]
  constructor
  case insertions => simp [hinsert, order]
  case ready =>
    intro before c after horder
    rw [hinsert]
    exact harr.isReady_of_order horder
  case perm => exact harr.perm_order
  case nodup => exact harr.perm_order.nodup_iff.mpr (.of_map _ harr.nodup)
  case lookup => exact harr.filterMap_find?_order
  case parentsBefore => exact fun _ _ _ horder _ hp => harr.exists_parent_before horder hp
  case find? => exact fun _ _ => harr.find?_eq_some_iff
  case walks => exact harr.walks
  case wayUp => exact fun _ hc => harr.wayUp hc
  case undeclared => exact fun _ hname => harr.ancestors_of_undeclared hname
  case refl => exact fun _ hc => harr.isAncestorOrSelf_self hc
  case trans => exact fun _ _ _ hab hbc => harr.isAncestorOrSelf_trans hab hbc
  case antisymm => exact fun _ _ hab hba => harr.isAncestorOrSelf_antisymm hab hba

end Hierarchy

def trunk : ClassDecl :=
  { name := "Trunk" }

def branch : ClassDecl :=
  { name := "Branch", parent := some "Trunk" }

def leaf : ClassDecl :=
  { name := "Leaf", parent := some "Branch" }

def twig : ClassDecl :=
  { name := "Twig", parent := some "Branch" }

/-- Two sweeps: both children of the branch have to wait for it, though one of them stands behind
its root in the source. -/
theorem build_tree : Hierarchy.build [leaf, trunk, twig, branch] =
    .ok ⟨[twig, leaf, branch, trunk]⟩ := by
  simp [Hierarchy.build, firstRepeated?, firstOrphanParent?, settle, sweep, ClassDecl.isReady,
    trunk, branch, leaf, twig, Except.map]

theorem Hierarchy.tree_represents :
    build [leaf, trunk, twig, branch] = .ok ⟨[twig, leaf, branch, trunk]⟩ ∧
      Represents ⟨[twig, leaf, branch, trunk]⟩ [leaf, trunk, twig, branch] :=
  ⟨build_tree, represents_of_build build_tree⟩

end ClassLang

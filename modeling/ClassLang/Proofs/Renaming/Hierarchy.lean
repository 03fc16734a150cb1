import ClassLang.Hierarchy.Assignable
import ClassLang.Hierarchy.Build
import ClassLang.Proofs.Renaming.Syntax

/-! # Hierarchies of renamed classes

Classes under other names are put in the same order, have the same members and stand in the same
relation to each other, as long as different classes keep different names. Where a hierarchy cannot
be built, the fault is the same under the other names. -/

namespace ClassLang

/-! ## Faults under other names -/

/-- A text in a fault either names no class, and stays, or is a type, and is written under the
other names. -/
inductive TextRenames (r : String → String) : String → String → Prop
  | fixed (text : String) : TextRenames r text text
  | ty (t : Ty) : TextRenames r t.render (t.rename r).render

inductive Fault.Renames (r : String → String) : Fault → Fault → Prop
  | unknownClass {c : String} : Renames r (.unknownClass c) (.unknownClass (r c))
  | unknownField {c x : String} : Renames r (.unknownField c x) (.unknownField (r c) x)
  | unknownMethod {c m : String} : Renames r (.unknownMethod c m) (.unknownMethod (r c) m)
  | unknownName {x : String} : Renames r (.unknownName x) (.unknownName x)
  | arityMismatch {expected received : Nat} :
      Renames r (.arityMismatch expected received) (.arityMismatch expected received)
  | typeMismatch {expected expected' received received' : String}
      (hexpected : TextRenames r expected expected')
      (hreceived : TextRenames r received received') :
      Renames r (.typeMismatch expected received) (.typeMismatch expected' received')
  | conditionNotBoolean {received received' : String}
      (hreceived : TextRenames r received received') :
      Renames r (.conditionNotBoolean received) (.conditionNotBoolean received')
  | indexNotInteger {received received' : String} (hreceived : TextRenames r received received') :
      Renames r (.indexNotInteger received) (.indexNotInteger received')
  | negativeArrayLength {k : Int} : Renames r (.negativeArrayLength k) (.negativeArrayLength k)
  | missingReturn {m : String} : Renames r (.missingReturn m) (.missingReturn m)
  | missingReturnValue {t : Ty} :
      Renames r (.missingReturnValue t.render) (.missingReturnValue (t.rename r).render)
  | unexpectedReturnValue : Renames r .unexpectedReturnValue .unexpectedReturnValue
  | cyclicHierarchy {cs : List String} :
      Renames r (.cyclicHierarchy cs) (.cyclicHierarchy (cs.map r))
  | duplicateClass {c : String} : Renames r (.duplicateClass c) (.duplicateClass (r c))
  | unrecognizedNode {node : String} : Renames r (.unrecognizedNode node) (.unrecognizedNode node)

/-- The same fault at the same place, under the other names. -/
structure Diagnostic.Renames (r : String → String) (d d' : Diagnostic) : Prop where
  fault : d.fault.Renames r d'.fault
  site : d'.site = d.site

theorem Fault.Renames.title_eq {r : String → String} {f f' : Fault} (hf : f.Renames r f') :
    f'.title = f.title := by
  cases hf <;> rfl

theorem Fault.Renames.mismatch {r : String → String} (t s : Ty) :
    Renames r (.typeMismatch t.render s.render)
      (.typeMismatch (t.rename r).render (s.rename r).render) :=
  .typeMismatch (.ty t) (.ty s)

/-- Both succeed, with the value that `f` gives for the first in the second, or both fail with the
same fault. -/
inductive Agree (r : String → String) {α β : Type} (f : α → β) :
    Except Diagnostic α → Except Diagnostic β → Prop
  | ok {a : α} {b : β} (hb : b = f a) : Agree r f (.ok a) (.ok b)
  | error {d d' : Diagnostic} (hd : d.Renames r d') : Agree r f (.error d) (.error d')

namespace Agree

variable {r : String → String} {α β γ δ : Type} {f : α → β} {g : γ → δ}

theorem fault {fault fault' : Fault} {site : Construct} (hfault : fault.Renames r fault') :
    Agree r f (.error ⟨fault, site⟩) (.error ⟨fault', site⟩) :=
  .error ⟨hfault, rfl⟩

theorem bind {x : Except Diagnostic α} {x' : Except Diagnostic β} {k : α → Except Diagnostic γ}
    {k' : β → Except Diagnostic δ} (hx : Agree r f x x') (hk : ∀ a, Agree r g (k a) (k' (f a))) :
    Agree r g (x >>= k) (x' >>= k') := by
  cases hx with
  | error hd => exact .error hd
  | ok hb =>
    rw [hb]
    exact hk _

/-- Two questions that are decided alike. -/
theorem ite {p p' : Prop} [Decidable p] [Decidable p'] (hp : p' ↔ p) {x y : Except Diagnostic α}
    {x' y' : Except Diagnostic β} (hx : Agree r f x x') (hy : Agree r f y y') :
    Agree r f (if p then x else y) (if p' then x' else y') := by
  by_cases h : p
  · rw [if_pos h, if_pos (hp.mpr h)]
    exact hx
  · rw [if_neg h, if_neg (mt hp.mp h)]
    exact hy

end Agree

/-! ## Types and members -/

namespace Ty

variable (r : String → String)

@[simp] theorem sameShape_rename (t s : Ty) :
    (t.rename r).sameShape (s.rename r) = t.sameShape s := by
  cases t <;> cases s <;> rfl

@[simp] theorem isPrimitive_rename (t : Ty) : (t.rename r).isPrimitive = t.isPrimitive := by
  cases t <;> rfl

theorem rename_eq_int_iff {t : Ty} : t.rename r = .int ↔ t = .int := by
  cases t <;> simp [rename]

theorem rename_eq_bool_iff {t : Ty} : t.rename r = .bool ↔ t = .bool := by
  cases t <;> simp [rename]

end Ty

namespace ClassDecl

variable (r : String → String) (c : ClassDecl)

theorem field?_rename (x : String) :
    (c.rename r).field? x = (c.field? x).map (VarDecl.rename r) := by
  rw [field?, field?, rename, List.find?_map]
  rfl

theorem method?_rename (m : String) :
    (c.rename r).method? m = (c.method? m).map (MethodDecl.rename r) := by
  rw [method?, method?, rename, List.find?_map]
  rfl

end ClassDecl

theorem findSome?_map_rename {α : Type} {r : String → String} {member : ClassDecl → Option α}
    {view : α → α} (hmember : ∀ c : ClassDecl, member (c.rename r) = (member c).map view)
    (cs : List ClassDecl) :
    (cs.map (ClassDecl.rename r)).findSome? member = (cs.findSome? member).map view := by
  induction cs with
  | nil => rfl
  | cons c cs ih =>
    rw [List.map_cons, List.findSome?_cons, List.findSome?_cons, hmember, ih]
    cases member c <;> rfl

section Injective

variable {r : String → String} (hr : Function.Injective r)

include hr

theorem any_name_rename (cs : List ClassDecl) (name : String) :
    (cs.map (ClassDecl.rename r)).any (·.name == r name) = cs.any (·.name == name) := by
  rw [List.any_map]
  congr 1
  funext c
  rw [Function.comp_apply, ClassDecl.rename, Bool.eq_iff_iff, beq_iff_eq, beq_iff_eq]
  exact hr.eq_iff

/-! ## Chains -/

theorem chain_rename (name : String) (cs : List ClassDecl) :
    chain (r name) (cs.map (ClassDecl.rename r)) = (chain name cs).map (ClassDecl.rename r) := by
  induction cs generalizing name with
  | nil => rfl
  | cons c earlier ih =>
    rw [List.map_cons]
    by_cases hc : c.name = name
    · subst hc
      change chain (c.rename r).name _ = _
      cases hp : c.parent with
      | none =>
        have hp' : (c.rename r).parent = none := by simp [ClassDecl.rename, hp]
        rw [chain_of_root hp, chain_of_root hp', List.map_singleton]
      | some p =>
        have hp' : (c.rename r).parent = some (r p) := by simp [ClassDecl.rename, hp]
        rw [chain_of_parent hp, chain_of_parent hp', ih, List.map_cons]
    · have hc' : (c.rename r).name ≠ r name := hr.ne hc
      rw [chain_of_name_ne hc, chain_of_name_ne hc', ih]

namespace Hierarchy

omit hr in
/-- The same hierarchy of the classes under their other names. -/
def rename (r : String → String) (h : Hierarchy) : Hierarchy :=
  ⟨h.placed.map (ClassDecl.rename r)⟩

variable (h : Hierarchy)

omit hr in
theorem order_rename : (h.rename r).order = h.order.map (ClassDecl.rename r) := by
  rw [order, order, rename, List.map_reverse]

theorem contains_rename (c : String) : (h.rename r).contains (r c) = h.contains c :=
  any_name_rename hr h.placed c

theorem ancestors_rename (c : String) :
    (h.rename r).ancestors (r c) = (h.ancestors c).map (ClassDecl.rename r) :=
  chain_rename hr c h.placed

theorem isAncestorOrSelf_rename (a c : String) :
    (h.rename r).isAncestorOrSelf (r a) (r c) = h.isAncestorOrSelf a c := by
  rw [isAncestorOrSelf, isAncestorOrSelf, ancestors_rename hr, any_name_rename hr]

theorem field?_rename (c x : String) :
    (h.rename r).field? (r c) x = (h.field? c x).map (VarDecl.rename r) := by
  rw [field?, field?, ancestors_rename hr, findSome?_map_rename fun k => k.field?_rename r x]

theorem method?_rename (c m : String) :
    (h.rename r).method? (r c) m = (h.method? c m).map (MethodDecl.rename r) := by
  rw [method?, method?, ancestors_rename hr, findSome?_map_rename fun k => k.method?_rename r m]

theorem assignable_rename (t s : Ty) :
    (h.rename r).assignable (t.rename r) (s.rename r) = h.assignable t s := by
  induction t generalizing s with
  | int => cases s <;> rfl
  | bool => cases s <;> rfl
  | array t ih =>
    cases s with
    | array s => exact ih s
    | _ => rfl
  | object c =>
    cases s with
    | object d =>
      have hname : (r c == r d) = (c == d) := by simp [hr.beq_eq]
      simp only [Ty.rename, assignable, hname, isAncestorOrSelf_rename hr]
    | _ => rfl

theorem comparable_rename (s t : Ty) :
    (h.rename r).comparable (s.rename r) (t.rename r) = h.comparable s t := by
  rw [comparable, comparable, assignable_rename hr, assignable_rename hr]

theorem requireClass_rename (site : Construct) (t : Ty) :
    Agree r id (h.requireClass site t) ((h.rename r).requireClass site (t.rename r)) := by
  cases t with
  | object c =>
    simp only [requireClass, Ty.rename, contains_rename hr]
    exact .ite Iff.rfl (.ok rfl) (.fault .unknownClass)
  | _ => exact .ok rfl

end Hierarchy

/-! ## Building -/

theorem firstRepeated?_rename (seen names : List String) :
    firstRepeated? (seen.map r) (names.map r) = (firstRepeated? seen names).map r := by
  induction names generalizing seen with
  | nil => rfl
  | cons n names ih =>
    simp only [List.map_cons, firstRepeated?, List.mem_map_of_injective hr]
    by_cases hn : n ∈ seen
    · simp [hn]
    · simpa [hn] using ih (n :: seen)

theorem firstOrphanParent?_rename (classes : List ClassDecl) :
    firstOrphanParent? (classes.map (ClassDecl.rename r)) = (firstOrphanParent? classes).map r := by
  have horphan (c : ClassDecl) :
      ((c.rename r).parent.filter fun p => !(classes.map (ClassDecl.rename r)).any (·.name == p)) =
        (c.parent.filter fun p => !classes.any (·.name == p)).map r := by
    rw [ClassDecl.rename, Option.filter_map]
    congr 2
    funext p
    rw [Function.comp_apply, any_name_rename hr]
  rw [firstOrphanParent?, firstOrphanParent?, List.findSome?_map, List.map_findSome?]
  congr 1
  funext c
  exact horphan c

theorem ClassDecl.isReady_rename (c : ClassDecl) (placed : List ClassDecl) :
    (c.rename r).isReady (placed.map (ClassDecl.rename r)) = c.isReady placed := by
  rw [isReady, isReady, rename]
  cases c.parent with
  | none => rfl
  | some p => exact any_name_rename hr placed p

theorem sweep_rename (placed waiting : List ClassDecl) :
    sweep (placed.map (ClassDecl.rename r)) (waiting.map (ClassDecl.rename r)) =
      ((sweep placed waiting).1.map (ClassDecl.rename r),
        (sweep placed waiting).2.map (ClassDecl.rename r)) := by
  induction waiting generalizing placed with
  | nil => rfl
  | cons c waiting ih =>
    have hready := ClassDecl.isReady_rename hr c placed
    rw [List.map_cons]
    by_cases hc : c.isReady placed = true
    · rw [sweep_of_ready hc, sweep_of_ready (hready.trans hc)]
      exact ih (c :: placed)
    · have hc' : c.isReady placed = false := by simpa using hc
      rw [sweep_of_not_ready hc', sweep_of_not_ready (hready.trans hc'), ih, List.map_cons]

theorem settle_rename (placed waiting : List ClassDecl) :
    Agree r (List.map (ClassDecl.rename r)) (settle placed waiting)
      (settle (placed.map (ClassDecl.rename r)) (waiting.map (ClassDecl.rename r))) := by
  induction placed, waiting using settle.induct with
  | case1 placed waiting hempty =>
    obtain rfl : waiting = [] := by simpa using hempty
    rw [List.map_nil, settle_nil, settle_nil]
    exact .ok rfl
  | case2 placed waiting hempty next hlt ih =>
    have hlt' :
        (sweep (placed.map (ClassDecl.rename r)) (waiting.map (ClassDecl.rename r))).2.length <
          (waiting.map (ClassDecl.rename r)).length := by
      simpa [sweep_rename hr] using hlt
    rw [settle_of_progress hlt, settle_of_progress hlt', sweep_rename hr]
    exact ih
  | case3 placed waiting hempty next hlt =>
    have hne : waiting ≠ [] := by simpa using hempty
    have hnames : ((sweep placed waiting).2.map (ClassDecl.rename r)).map (·.name) =
        ((sweep placed waiting).2.map (·.name)).map r := by
      simp [ClassDecl.rename]
    rw [settle_of_stuck hne hlt,
      settle_of_stuck (by simpa using hne) (by simpa [sweep_rename hr] using hlt),
      sweep_rename hr, hnames]
    exact .fault .cyclicHierarchy

theorem Hierarchy.build_rename (classes : List ClassDecl) :
    Agree r (Hierarchy.rename r) (build classes) (build (classes.map (ClassDecl.rename r))) := by
  have hnames : firstRepeated? [] ((classes.map (ClassDecl.rename r)).map (·.name)) =
      (firstRepeated? [] (classes.map (·.name))).map r := by
    rw [← firstRepeated?_rename hr, List.map_map, List.map_map]
    rfl
  rw [build, build, hnames, firstOrphanParent?_rename hr]
  cases firstRepeated? [] (classes.map (·.name)) with
  | some c => exact .fault .duplicateClass
  | none =>
    cases firstOrphanParent? classes with
    | some p => exact .fault .unknownClass
    | none => exact (settle_rename hr [] classes).bind fun placed => .ok rfl

end Injective
end ClassLang

import ClassLang.Proofs.Checker.Extension
import ClassLang.Proofs.Checker.Separate
import ClassLang.Proofs.Checker.Signatures

/-! # Changing code in one place

A method is given other locals and another body, or a field another initial value, in a program that
was accepted. What the program is then told is what the changed method or field is told on its own,
since no other code can see the change. -/

namespace ClassLang

/-- The classes differ at most in initial values, locals and bodies. -/
structure ClassDecl.SameSignature (c d : ClassDecl) : Prop where
  name : d.name = c.name
  parent : d.parent = c.parent
  fields : d.fields.map (fun v => (v.name, v.ty)) = c.fields.map fun v => (v.name, v.ty)
  methods : d.methods.map (·.toSignature) = c.methods.map (·.toSignature)

def Program.SameSignatures (p q : Program) : Prop :=
  List.Forall₂ ClassDecl.SameSignature p.classes q.classes

/-- The second program has `d` in the place of `c`. -/
def Program.Replaces (p q : Program) (c d : ClassDecl) : Prop :=
  ∃ before after, p.classes = before ++ c :: after ∧ q.classes = before ++ d :: after

/-- The second class has `m` in the place of a method of the same signature. -/
def ClassDecl.EditsMethod (c d : ClassDecl) (m : MethodDecl) : Prop :=
  ∃ before old after, c.methods = before ++ old :: after ∧ m.toSignature = old.toSignature ∧
    d = { c with methods := before ++ m :: after }

/-- The second class has `v`, behind the given fields, in the place of a field of the same name and
type. -/
def ClassDecl.EditsField (c d : ClassDecl) (earlier : List VarDecl) (v : VarDecl) : Prop :=
  ∃ old later, c.fields = earlier ++ old :: later ∧ v.name = old.name ∧ v.ty = old.ty ∧
    d = { c with fields := earlier ++ v :: later }

/-! ## Edits keep signatures -/

theorem map_find?_of_map_eq {α β : Type} {view : α → β} {as bs : List α}
    (hview : as.map view = bs.map view) (P : β → Bool) :
    (as.find? fun a => P (view a)).map view = (bs.find? fun b => P (view b)).map view := by
  have hfind (cs : List α) : (cs.find? fun a => P (view a)).map view = (cs.map view).find? P := by
    rw [List.find?_map]
    rfl
  rw [hfind, hfind, hview]

namespace ClassDecl

variable {c d : ClassDecl}

theorem SameSignature.refl (c : ClassDecl) : c.SameSignature c :=
  ⟨rfl, rfl, rfl, rfl⟩

theorem SameSignature.resembles (hcd : c.SameSignature d) : c.Resembles d where
  name := hcd.name
  parent := hcd.parent
  fieldType := fun x => by
    have hfind := map_find?_of_map_eq hcd.fields fun a => a.1 == x
    simpa [ClassDecl.field?, Option.map_map, Function.comp_def] using
      congrArg (Option.map Prod.snd) hfind
  signature := fun m => map_find?_of_map_eq hcd.methods fun a => a.name == m

theorem EditsMethod.sameSignature {m : MethodDecl} (hedit : c.EditsMethod d m) :
    c.SameSignature d := by
  obtain ⟨before, old, after, hmethods, hsig, rfl⟩ := hedit
  refine ⟨rfl, rfl, rfl, ?_⟩
  simp [hmethods, hsig]

theorem EditsField.sameSignature {earlier : List VarDecl} {v : VarDecl}
    (hedit : c.EditsField d earlier v) : c.SameSignature d := by
  obtain ⟨old, later, hfields, hname, hty, rfl⟩ := hedit
  refine ⟨rfl, rfl, ?_, rfl⟩
  simp [hfields, hname, hty]

end ClassDecl

namespace Program

variable {p q : Program} {h : Hierarchy} {c d : ClassDecl}

theorem Replaces.sameSignatures (hpq : p.Replaces q c d) (hcd : c.SameSignature d) :
    p.SameSignatures q := by
  obtain ⟨before, after, hp, hq⟩ := hpq
  have hsame (cs : List ClassDecl) : List.Forall₂ ClassDecl.SameSignature cs cs :=
    List.forall₂_same.mpr fun c _ => .refl c
  rw [SameSignatures, hp, hq]
  exact List.rel_append (hsame before) (.cons hcd (hsame after))

theorem SameSignatures.exists_build (hpq : p.SameSignatures q)
    (hbuild : Hierarchy.build p.classes = .ok h) :
    ∃ h', Hierarchy.build q.classes = .ok h' ∧ h.Embeds h' ∧ h'.Embeds h := by
  have hall : List.Forall₂ ClassDecl.Resembles p.classes q.classes :=
    hpq.imp fun _ _ hcd => hcd.resembles
  apply Hierarchy.exists_build_of_resembles hbuild
  · rw [ClassDecl.Resembles.map_name hall]
    exact (Hierarchy.arranges_of_build hbuild).nodup
  · intro c hc
    exact exists_mem_of_forall₂ hall hc
  · intro d hd
    exact exists_mem_of_forall₂ hall.flip hd

end Program

/-! ## All but one pass -/

theorem firstFault_of_all_ok {results : List (Except Diagnostic Unit)}
    (hall : ∀ r ∈ results, r = .ok ()) : firstFault results = .ok () := by
  induction results with
  | nil => rfl
  | cons r results ih =>
    rw [hall r List.mem_cons_self]
    exact ih fun s hs => hall s (List.mem_cons_of_mem r hs)

theorem firstFault_of_others {before after : List (Except Diagnostic Unit)}
    {result : Except Diagnostic Unit} (hbefore : ∀ r ∈ before, r = .ok ())
    (hafter : ∀ r ∈ after, r = .ok ()) : firstFault (before ++ result :: after) = result := by
  rw [firstFault_append, firstFault_cons, firstFault_of_all_ok hbefore,
    firstFault_of_all_ok hafter]
  cases result <;> rfl

section Others

variable {h : Hierarchy} {s : Checker}

theorem vars_outcome_of_wellTyped {vars : List VarDecl} (hvars : AllVarsWellTyped h s.scope vars) :
    (vars.forM (VarDecl.introduce h)).outcome s = .ok () :=
  CheckM.outcome_eq_ok.mpr ⟨_, vars_forM_eq_ok.mpr ⟨hvars, rfl⟩⟩

theorem methods_ok_of_wellTyped {cls : String} {methods : List MethodDecl}
    (hall : ∀ m ∈ methods, m.WellTyped h (some cls)) :
    ∀ r ∈ methods.map fun m => (m.check h).outcome (.inClass cls), r = .ok () := by
  intro r hr
  obtain ⟨m, hm, rfl⟩ := List.mem_map.mp hr
  exact CheckM.outcome_eq_ok.mpr ⟨_, MethodDecl.check_eq_ok_iff.mpr ⟨hall m hm, rfl⟩⟩

theorem ClassDecl.firstFault_fieldResults (c : ClassDecl) :
    firstFault (c.fieldResults h) =
      (c.fields.forM (VarDecl.introduce h)).outcome (.inClass c.name) :=
  (outcome_fields c.fields rfl).symm

/-- A class whose fields and other methods are well typed ends with what the method is told. -/
theorem ClassDecl.outcome_of_other_methods {c : ClassDecl} {before after : List MethodDecl}
    {m : MethodDecl} (hmethods : c.methods = before ++ m :: after)
    (hfields : AllVarsWellTyped h (.ofClass c.name) c.fields)
    (hbefore : ∀ n ∈ before, n.WellTyped h (some c.name))
    (hafter : ∀ n ∈ after, n.WellTyped h (some c.name)) :
    (c.check h).outcome s = (m.check h).outcome (.inClass c.name) := by
  rw [ClassDecl.outcome_check, ClassDecl.results, firstFault_append,
    ClassDecl.firstFault_fieldResults, vars_outcome_of_wellTyped hfields, ClassDecl.methodResults,
    hmethods, List.map_append, List.map_cons]
  exact firstFault_of_others (methods_ok_of_wellTyped hbefore) (methods_ok_of_wellTyped hafter)

/-- A variable of the same name and type leaves the same scope, so those behind it pass as they
did. -/
theorem vars_outcome_of_others {earlier later : List VarDecl} {old v : VarDecl}
    (hvars : AllVarsWellTyped h s.scope (earlier ++ old :: later)) (hname : v.name = old.name)
    (hty : v.ty = old.ty) :
    ((earlier ++ v :: later).forM (VarDecl.introduce h)).outcome s =
      (v.introduce h).outcome (s.throughFields h earlier) := by
  induction earlier generalizing s with
  | nil =>
    obtain ⟨-, hlater⟩ := hvars
    rw [← hname, ← hty] at hlater
    rw [List.nil_append, CheckM.outcome_forM_cons]
    change _ = (v.introduce h).outcome s
    cases hv : v.introduce h s with
    | ok a t =>
      obtain ⟨-, rfl⟩ := VarDecl.introduce_eq_ok.mp hv
      rw [CheckM.final_of_ok hv, vars_outcome_of_wellTyped hlater,
        CheckM.outcome_eq_ok.mpr ⟨_, hv⟩]
      rfl
    | error e t =>
      rw [CheckM.outcome_eq_error.mpr ⟨t, hv⟩]
      rfl
  | cons w earlier ih =>
    obtain ⟨hw, hrest⟩ := hvars
    have hrun := VarDecl.introduce_eq_ok.mpr ⟨hw, rfl⟩
    rw [List.cons_append, CheckM.outcome_forM_cons, CheckM.outcome_eq_ok.mpr ⟨_, hrun⟩,
      Checker.throughFields, List.foldl_cons, CheckM.final_of_ok hrun]
    exact ih hrest

/-- A class whose methods and other fields are well typed ends with what the field is told. -/
theorem ClassDecl.outcome_of_other_fields {c : ClassDecl} {earlier later : List VarDecl}
    {old v : VarDecl} (hfields : c.fields = earlier ++ v :: later)
    (hvars : AllVarsWellTyped h (.ofClass c.name) (earlier ++ old :: later))
    (hname : v.name = old.name) (hty : v.ty = old.ty)
    (hmethods : ∀ m ∈ c.methods, m.WellTyped h (some c.name)) :
    (c.check h).outcome s =
      (v.introduce h).outcome ((Checker.inClass c.name).throughFields h earlier) := by
  rw [ClassDecl.outcome_check, ClassDecl.results, firstFault_append,
    ClassDecl.firstFault_fieldResults, hfields, vars_outcome_of_others hvars hname hty,
    ClassDecl.methodResults, firstFault_of_all_ok (methods_ok_of_wellTyped hmethods)]
  cases (v.introduce h).outcome ((Checker.inClass c.name).throughFields h earlier) <;> rfl

theorem firstFault_of_wellTyped {classes : List ClassDecl}
    (hall : ∀ c ∈ classes, c.WellTyped h) :
    firstFault (classes.flatMap (ClassDecl.results h)) = .ok () := by
  rw [← outcome_classes classes {}, CheckM.outcome_eq_ok]
  exact ⟨_, classes_forM_eq_ok.mpr ⟨hall, rfl⟩⟩

/-- A program whose other classes are well typed ends with what the class is told. -/
theorem Program.check_of_other_classes {q : Program} {before after : List ClassDecl}
    {d : ClassDecl} (hq : q.classes = before ++ d :: after)
    (hbuild : Hierarchy.build q.classes = .ok h)
    (hothers : ∀ c ∈ before ++ after, c.WellTyped h) : q.check = (d.check h).outcome {} := by
  have hperm : h.order.Perm (before ++ d :: after) :=
    (List.reverse_perm _).trans (hq ▸ (Hierarchy.arranges_of_build hbuild).perm)
  have hd : d ∈ h.order := hperm.mem_iff.mpr (by simp)
  obtain ⟨front, back, horder⟩ := List.append_of_mem hd
  have hrest : (front ++ back).Perm (before ++ after) := by
    apply List.Perm.cons_inv (a := d)
    exact (List.perm_middle.symm.trans (horder ▸ hperm)).trans List.perm_middle
  have hpass : ∀ c ∈ front ++ back, c.WellTyped h := fun c hc => hothers c (hrest.mem_iff.mp hc)
  have hfront := firstFault_of_wellTyped fun c hc => hpass c (List.mem_append_left back hc)
  have hback := firstFault_of_wellTyped fun c hc => hpass c (List.mem_append_right front hc)
  rw [Program.check, hbuild]
  change (h.order.forM (ClassDecl.check h)).outcome {} = _
  rw [outcome_classes, horder, List.flatMap_append, List.flatMap_cons, firstFault_append,
    firstFault_append, hfront, hback, d.outcome_check]
  cases firstFault (d.results h) <;> rfl

end Others

section Edits

variable {p q : Program} {c d : ClassDecl}

/-- The changed program makes up a hierarchy that shows what the old one did, so everything but the
changed class is well typed still, and that class was. -/
theorem Program.Replaces.check_eq (hpq : p.Replaces q c d) (hcd : c.SameSignature d)
    (hp : p.check = .ok ()) : ∃ h, Hierarchy.build q.classes = .ok h ∧ c.WellTyped h ∧
      q.check = (d.check h).outcome {} := by
  obtain ⟨h₀, hbuild₀, hclasses⟩ := check_eq_ok_iff.mp hp
  obtain ⟨h, hbuild, hemb, -⟩ := (hpq.sameSignatures hcd).exists_build hbuild₀
  obtain ⟨before, after, hp, hq⟩ := hpq
  have hwt : ∀ k ∈ p.classes, k.WellTyped h := fun k hk => (hclasses k hk).mono hemb
  rw [hp] at hwt
  refine ⟨h, hbuild, hwt c (by simp), check_of_other_classes hq hbuild ?_⟩
  intro k hk
  apply hwt k
  rcases List.mem_append.mp hk with hk | hk <;> simp [hk]

theorem ClassDecl.EditsMethod.outcome {h : Hierarchy} {m : MethodDecl} {s : Checker}
    (hedit : c.EditsMethod d m) (hc : c.WellTyped h) :
    (d.check h).outcome s = (m.check h).outcome (.inClass c.name) := by
  obtain ⟨before, old, after, hmethods, -, rfl⟩ := hedit
  have hwt := hc.methods
  rw [hmethods] at hwt
  have hbefore : ∀ n ∈ before, n.WellTyped h (some c.name) :=
    fun n hn => hwt n (List.mem_append_left _ hn)
  have hafter : ∀ n ∈ after, n.WellTyped h (some c.name) :=
    fun n hn => hwt n (List.mem_append_right _ (List.mem_cons_of_mem old hn))
  exact ClassDecl.outcome_of_other_methods rfl hc.fields hbefore hafter

theorem ClassDecl.EditsField.outcome {h : Hierarchy} {earlier : List VarDecl} {v : VarDecl}
    {s : Checker} (hedit : c.EditsField d earlier v) (hc : c.WellTyped h) :
    (d.check h).outcome s =
      (v.introduce h).outcome ((Checker.inClass c.name).throughFields h earlier) := by
  obtain ⟨old, later, hfields, hname, hty, rfl⟩ := hedit
  exact ClassDecl.outcome_of_other_fields rfl (hfields ▸ hc.fields) hname hty hc.methods

/-- In a program that was accepted, a method with other locals and another body decides alone what
the program is told, and so does a field with another initial value. No other code sees the change:
programs of the same signatures let every declaration end alike. -/
theorem Program.check_of_edit (hp : p.check = .ok ()) :
    (∀ q c d m, p.Replaces q c d → c.EditsMethod d m →
      ∃ h, Hierarchy.build q.classes = .ok h ∧
        q.check = (m.check h).outcome (.inClass c.name)) ∧
    (∀ q c d earlier v, p.Replaces q c d → c.EditsField d earlier v →
      ∃ h, Hierarchy.build q.classes = .ok h ∧ q.check = (v.check h).outcome
        (((Checker.inClass c.name).throughFields h earlier).declare v.name v.ty)) ∧
    ∀ q, p.SameSignatures q → ∃ h h', Hierarchy.build p.classes = .ok h ∧
      Hierarchy.build q.classes = .ok h' ∧ (∀ k : ClassDecl, k.check h' = k.check h) ∧
        (∀ m : MethodDecl, m.check h' = m.check h) ∧ ∀ v : VarDecl, v.check h' = v.check h := by
  refine ⟨?_, ?_, ?_⟩
  · intro q c d m hpq hedit
    obtain ⟨h, hbuild, hc, hq⟩ := hpq.check_eq hedit.sameSignature hp
    exact ⟨h, hbuild, hq.trans (hedit.outcome hc)⟩
  · intro q c d earlier v hpq hedit
    obtain ⟨h, hbuild, hc, hq⟩ := hpq.check_eq hedit.sameSignature hp
    exact ⟨h, hbuild, hq.trans (hedit.outcome hc)⟩
  · intro q hpq
    obtain ⟨h, hbuild, -⟩ := check_eq_ok_iff.mp hp
    obtain ⟨h', hbuild', hto, hfrom⟩ := hpq.exists_build hbuild
    have hlike := hto.alike hfrom
    exact ⟨h, h', hbuild, hbuild', congrFun hlike.checkClass, congrFun hlike.checkMethod,
      hlike.checkVar⟩

end Edits

/-- A body that returns a number where an item is due. -/
def countingFirst : MethodDecl :=
  { name := "first", ret := some (.object "Item"), body := [.ret (some (.int 0))] }

def countingShelf : ClassDecl :=
  { shelf with methods := countingFirst :: shelf.methods.tail }

theorem Program.countingShelf_check : (Program.mk [shelf, item]).check = .ok () ∧
    ∃ h, Hierarchy.build [countingShelf, item] = .ok h ∧
      (Program.mk [countingShelf, item]).check =
        (countingFirst.check h).outcome (.inClass "Shelf") ∧
      (Program.mk [countingShelf, item]).check =
        .error ⟨.typeMismatch "Item" "int", .ret⟩ := by
  have hreplaces : (Program.mk [shelf, item]).Replaces ⟨[countingShelf, item]⟩ shelf
      countingShelf := ⟨[], [item], rfl, rfl⟩
  have hedit : shelf.EditsMethod countingShelf countingFirst := ⟨[], _, _, rfl, rfl, rfl⟩
  have haccepted : (Program.mk [shelf, item]).check = .ok () := by decide +kernel
  obtain ⟨h, hbuild, hcheck⟩ := (check_of_edit haccepted).1 _ _ _ _ hreplaces hedit
  exact ⟨haccepted, h, hbuild, hcheck, by decide +kernel⟩

end ClassLang

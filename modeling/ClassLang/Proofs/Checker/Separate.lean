import ClassLang.Proofs.Checker.Acceptance

/-! # Checks that remember nothing

One checker goes through a whole program. Each field and each method is judged by it as by a new
checker that has entered the class only for this, so nothing that an earlier class, field or method
leaves behind has a part in a later result. -/

namespace ClassLang

namespace CheckM

/-- The checker after the action, also where the action fails. -/
def final {α : Type} (act : CheckM α) (s : Checker) : Checker :=
  match act s with
  | .ok _ t => t
  | .error _ t => t

theorem final_of_ok {α : Type} {act : CheckM α} {s t : Checker} {a : α}
    (hact : act s = .ok a t) : act.final s = t := by
  simp [final, hact]

theorem final_ask {α : Type} (f : Checker → Except Diagnostic α) (s : Checker) :
    (ask f).final s = s := by
  unfold final ask
  cases f s <;> rfl

theorem modify_bind_apply {β : Type} (f : Checker → Checker) (next : Unit → CheckM β)
    (s : Checker) : (modify f >>= next) s = next () (f s) := rfl

theorem outcome_bind {β : Type} (act : CheckM Unit) (next : Unit → CheckM β) (s : Checker) :
    (act >>= next).outcome s = act.outcome s >>= fun _ => (next ()).outcome (act.final s) := by
  unfold outcome final
  rw [bind_apply]
  cases act s <;> rfl

theorem final_bind {β : Type} (act : CheckM Unit) (next : Unit → CheckM β) (s : Checker) :
    (act >>= next).final s = match act.outcome s with
      | .ok _ => (next ()).final (act.final s)
      | .error _ => act.final s := by
  unfold outcome final
  rw [bind_apply]
  cases act s <;> rfl

theorem outcome_forM_cons {α : Type} (f : α → CheckM Unit) (a : α) (as : List α) (s : Checker) :
    ((a :: as).forM f).outcome s =
      (f a).outcome s >>= fun _ => (as.forM f).outcome ((f a).final s) :=
  outcome_bind (f a) (fun _ => as.forM f) s

/-- The outcome of the action, and the scope that it leaves, depend on the scope alone. -/
def ScopeOnly {α : Type} (act : CheckM α) : Prop :=
  ∀ s t, s.scope = t.scope →
    act.outcome s = act.outcome t ∧ (act.final s).scope = (act.final t).scope

namespace ScopeOnly

theorem bind {β : Type} {act : CheckM Unit} {next : Unit → CheckM β} (hact : act.ScopeOnly)
    (hnext : (next ()).ScopeOnly) : (act >>= next).ScopeOnly := by
  intro s t hscope
  obtain ⟨hout, hfinal⟩ := hact s t hscope
  obtain ⟨hout', hfinal'⟩ := hnext _ _ hfinal
  rw [outcome_bind, outcome_bind, final_bind, final_bind, hout, hout']
  refine ⟨rfl, ?_⟩
  cases act.outcome t with
  | ok a => exact hfinal'
  | error d => exact hfinal

theorem askScope {α : Type} (f : Scope → Except Diagnostic α) : (askScope f).ScopeOnly := by
  intro s t hscope
  rw [CheckM.askScope, outcome_ask, outcome_ask, final_ask, final_ask, hscope]
  exact ⟨rfl, rfl⟩

theorem modify (f : Scope → Scope) :
    ScopeOnly (modify fun s : Checker => { s with scope := f s.scope }) :=
  fun _ _ hscope => ⟨rfl, congrArg f hscope⟩

end ScopeOnly

end CheckM

/-- The first fault among the results, if there is one. -/
def firstFault : List (Except Diagnostic Unit) → Except Diagnostic Unit
  | [] => .ok ()
  | .ok () :: results => firstFault results
  | .error d :: _ => .error d

theorem firstFault_cons (result : Except Diagnostic Unit)
    (results : List (Except Diagnostic Unit)) :
    firstFault (result :: results) = result >>= fun _ => firstFault results := by
  cases result <;> rfl

theorem firstFault_append (results rest : List (Except Diagnostic Unit)) :
    firstFault (results ++ rest) = firstFault results >>= fun _ => firstFault rest := by
  induction results with
  | nil => rfl
  | cons result results ih =>
    rw [List.cons_append, firstFault_cons, firstFault_cons, ih]
    cases result <;> rfl

/-- A new checker that has entered the class and done nothing else. -/
def Checker.inClass (className : String) : Checker :=
  ({} : Checker).enterClass className

/-- The checker after it has gone through the fields. -/
def Checker.throughFields (h : Hierarchy) (s : Checker) (fields : List VarDecl) : Checker :=
  fields.foldl (fun t v => (v.introduce h).final t) s

namespace ClassDecl

/-- Each field is looked at by a new checker that knows the earlier fields of the class. -/
def fieldResults (h : Hierarchy) (c : ClassDecl) : List (Except Diagnostic Unit) :=
  c.fields.mapIdx fun i v =>
    (v.introduce h).outcome ((Checker.inClass c.name).throughFields h (c.fields.take i))

/-- Each method is looked at by a new checker. -/
def methodResults (h : Hierarchy) (c : ClassDecl) : List (Except Diagnostic Unit) :=
  c.methods.map fun m => (m.check h).outcome (.inClass c.name)

def results (h : Hierarchy) (c : ClassDecl) : List (Except Diagnostic Unit) :=
  c.fieldResults h ++ c.methodResults h

end ClassDecl

/-- The program is put in order, and then every field and every method is looked at on its own. -/
def Program.checkSeparately (p : Program) : Except Diagnostic Unit := do
  let h ← Hierarchy.build p.classes
  firstFault (h.order.flatMap (ClassDecl.results h))

section Runs

variable {h : Hierarchy} {s t : Checker}

theorem VarDecl.introduce_scopeOnly (h : Hierarchy) (v : VarDecl) : (v.introduce h).ScopeOnly := by
  apply CheckM.ScopeOnly.bind (.modify (·.declare v.name v.ty))
  apply CheckM.ScopeOnly.bind (.askScope fun _ => h.requireClass .varDecl v.ty)
  apply CheckM.ScopeOnly.bind (.modify (·.bindObject v.name v.ty))
  cases v.init with
  | none => exact .modify id
  | some e => exact .askScope (checkInit h v.ty e)

/-- A run through fields ends as if a new checker came for each of them, if the scopes agree. -/
theorem outcome_fields (fields : List VarDecl) (hscope : s.scope = t.scope) :
    (fields.forM (VarDecl.introduce h)).outcome s = firstFault (fields.mapIdx fun i v =>
      (v.introduce h).outcome (t.throughFields h (fields.take i))) := by
  -- The first field moves both checkers on, and their scopes agree again.
  induction fields generalizing s t with
  | nil => rfl
  | cons v fields ih =>
    obtain ⟨hout, hfinal⟩ := v.introduce_scopeOnly h s t hscope
    rw [CheckM.outcome_forM_cons, List.mapIdx_cons, firstFault_cons, ih hfinal, hout]
    rfl

/-- All that a method finds in the checker is the class that it is in. -/
theorem MethodDecl.check_congr {m : MethodDecl} (hself : s.scope.self = t.scope.self) :
    m.check h s = m.check h t := by
  have henter : s.enterMethod m.toSignature = t.enterMethod m.toSignature := by
    simp [Checker.enterMethod, Scope.clear, hself]
  rw [MethodDecl.check, CheckM.modify_bind_apply, CheckM.modify_bind_apply, henter]

theorem outcome_methods (methods : List MethodDecl) (hself : s.scope.self = t.scope.self) :
    (methods.forM (MethodDecl.check h)).outcome s =
      firstFault (methods.map fun m => (m.check h).outcome t) := by
  induction methods generalizing s with
  | nil => rfl
  | cons m methods ih =>
    have hout : (m.check h).outcome s = (m.check h).outcome t := by
      unfold CheckM.outcome
      rw [MethodDecl.check_congr hself]
    rw [CheckM.outcome_forM_cons, List.map_cons, firstFault_cons, ← hout]
    cases hm : m.check h s with
    | ok a s' =>
      rw [CheckM.final_of_ok hm, ih ((MethodDecl.self_of_check hm).trans hself)]
    | error d s' =>
      rw [CheckM.outcome_eq_error.mpr ⟨s', hm⟩]
      rfl

/-- Whatever the checker has been through before, a class ends with the first fault of its fields
and methods, each looked at on its own. -/
theorem ClassDecl.outcome_check (c : ClassDecl) (s : Checker) :
    (c.check h).outcome s = firstFault (c.results h) := by
  have henter : (c.check h).outcome s = (do
      c.fields.forM (VarDecl.introduce h)
      c.methods.forM (MethodDecl.check h) : CheckM Unit).outcome (s.enterClass c.name) := rfl
  have hfields : (c.fields.forM (VarDecl.introduce h)).outcome (s.enterClass c.name) =
      firstFault (c.fieldResults h) := outcome_fields c.fields rfl
  rw [henter, CheckM.outcome_bind, results, firstFault_append, ← hfields]
  cases hrun : c.fields.forM (VarDecl.introduce h) (s.enterClass c.name) with
  | ok a t =>
    have hself : t.scope.self = (Checker.inClass c.name).scope.self := by
      obtain ⟨-, rfl⟩ := vars_forM_eq_ok.mp hrun
      exact Scope.foldl_introduce_self ..
    rw [CheckM.final_of_ok hrun, outcome_methods c.methods hself, methodResults]
  | error d t =>
    rw [CheckM.outcome_eq_error.mpr ⟨t, hrun⟩]
    rfl

theorem outcome_classes (classes : List ClassDecl) (s : Checker) :
    (classes.forM (ClassDecl.check h)).outcome s =
      firstFault (classes.flatMap (ClassDecl.results h)) := by
  induction classes generalizing s with
  | nil => rfl
  | cons c classes ih =>
    rw [CheckM.outcome_forM_cons, List.flatMap_cons, firstFault_append, ih, c.outcome_check]

end Runs

/-- One checker for the whole program finds what new checkers find, each of which sees one field or
one method. -/
theorem Program.check_eq_checkSeparately (p : Program) : p.check = p.checkSeparately := by
  rw [Program.check, Program.checkSeparately]
  simp only [outcome_classes]

end ClassLang

import ClassLang.Proofs.Checker.Places

/-! # Where a program is refused

A program whose classes make up a hierarchy is refused at a place that the checker comes to, by the
one question that the code there is asked, or else for a declaration: a type names no class, or a
method need not return. -/

namespace ClassLang

/-! ## Runs that fail -/

namespace CheckM

variable {α β : Type} {s t : Checker} {d : Diagnostic}

theorem bind_eq_error {act : CheckM Unit} {next : Unit → CheckM β} :
    (act >>= next) s = .error d t ↔
      act s = .error d t ∨ ∃ s', act s = .ok () s' ∧ next () s' = .error d t := by
  rw [bind_apply]
  cases act s <;> simp

theorem ask_eq_error {f : Checker → Except Diagnostic α} :
    ask f s = .error d t ↔ f s = .error d ∧ t = s := by
  unfold ask
  cases f s <;> simp [eq_comm]

theorem askScope_eq_error {f : Scope → Except Diagnostic α} :
    askScope f s = .error d t ↔ f s.scope = .error d ∧ t = s :=
  ask_eq_error

/-- What comes before the element that fails has passed. -/
theorem forM_eq_error {f : α → CheckM Unit} {as : List α} (hrun : as.forM f s = .error d t) :
    ∃ before a after s', as = before ++ a :: after ∧ before.forM f s = .ok () s' ∧
      f a s' = .error d t := by
  induction as generalizing s with
  | nil => cases hrun
  | cons a as ih =>
    rcases bind_eq_error.mp hrun with ha | ⟨s', ha, has⟩
    · exact ⟨[], a, as, s, rfl, rfl, ha⟩
    · obtain ⟨before, b, after, s'', rfl, hbefore, hb⟩ := ih has
      exact ⟨a :: before, b, after, s'', rfl, bind_eq_ok.mpr ⟨s', ha, hbefore⟩, hb⟩

end CheckM

/-! ## Statements -/

/-- What a statement is asked itself, before the statements inside it. -/
def Stmt.question (h : Hierarchy) : Stmt → Checker → Except Diagnostic Unit
  | block _, _ => .ok ()
  | assign target value, s => checkAssign h target value s.scope
  | call receiver m args, s => discard (Expr.inferCall h s.scope .callStmt receiver m args)
  | ifThen cond _, s | ifElse cond _ _, s => checkCondition h .ifStmt cond s.scope
  | .while cond _, s => checkCondition h .whileStmt cond s.scope
  | print arg, s => checkPrint h arg s.scope
  | ret value, s => checkReturn h value s

namespace Stmt

variable {h : Hierarchy}

mutual
/-- A statement is refused by the question of one that the checker comes to in it. -/
theorem exists_reaches_of_error : ∀ (st : Stmt) {s t : Checker} {d : Diagnostic},
    st.check h s = .error d t → ∃ n s', st.Reaches h s n s' ∧ n.question h s' = .error d
  | block body, _, _, _, hrun => by
    obtain ⟨before, st, after, s', rfl, hbefore, n, s'', hreach, hn⟩ :=
      exists_reaches_of_checkAll_error body hrun
    exact ⟨n, s'', .block hbefore hreach, hn⟩
  | assign .., s, _, _, hrun => ⟨_, s, .self, (CheckM.askScope_eq_error.mp hrun).1⟩
  | call .., s, _, _, hrun => ⟨_, s, .self, (CheckM.askScope_eq_error.mp hrun).1⟩
  | ifThen cond thn, s, _, _, hrun => by
    rw [check] at hrun
    rcases CheckM.bind_eq_error.mp hrun with hcond | ⟨_, hcond, hthn⟩
    · exact ⟨_, s, .self, (CheckM.askScope_eq_error.mp hcond).1⟩
    · obtain ⟨hcond, rfl⟩ := CheckM.askScope_eq_ok.mp hcond
      obtain ⟨n, s', hreach, hn⟩ := exists_reaches_of_error thn hthn
      exact ⟨n, s', .thenOnly hcond hreach, hn⟩
  | ifElse cond thn els, s, _, _, hrun => by
    rw [check] at hrun
    rcases CheckM.bind_eq_error.mp hrun with hcond | ⟨_, hcond, hrest⟩
    · exact ⟨_, s, .self, (CheckM.askScope_eq_error.mp hcond).1⟩
    · obtain ⟨hcond, rfl⟩ := CheckM.askScope_eq_ok.mp hcond
      rcases CheckM.bind_eq_error.mp hrest with hrecord | ⟨_, hrecord, hrest⟩
      · cases hrecord
      · cases hrecord
        rcases CheckM.bind_eq_error.mp hrest with hthn | ⟨s', hthn, hels⟩
        · obtain ⟨n, s', hreach, hn⟩ := exists_reaches_of_error thn hthn
          exact ⟨n, s', .thenBranch hcond hreach, hn⟩
        · obtain ⟨n, s'', hreach, hn⟩ := exists_reaches_of_error els hels
          exact ⟨n, s'', .elseBranch hcond hthn hreach, hn⟩
  | .while cond body, s, _, _, hrun => by
    rw [check] at hrun
    rcases CheckM.bind_eq_error.mp hrun with hcond | ⟨_, hcond, hbody⟩
    · exact ⟨_, s, .self, (CheckM.askScope_eq_error.mp hcond).1⟩
    · obtain ⟨hcond, rfl⟩ := CheckM.askScope_eq_ok.mp hcond
      obtain ⟨n, s', hreach, hn⟩ := exists_reaches_of_error body hbody
      exact ⟨n, s', .loop hcond hreach, hn⟩
  | print _, s, _, _, hrun => ⟨_, s, .self, (CheckM.askScope_eq_error.mp hrun).1⟩
  | ret _, s, _, _, hrun => ⟨_, s, .self, (CheckM.ask_eq_error.mp hrun).1⟩

theorem exists_reaches_of_checkAll_error : ∀ (ss : List Stmt) {s t : Checker} {d : Diagnostic},
    checkAll h ss s = .error d t → ∃ before st after s', ss = before ++ st :: after ∧
      checkAll h before s = .ok () s' ∧ ∃ n s'', st.Reaches h s' n s'' ∧ n.question h s'' = .error d
  | [], _, _, _, hrun => by cases hrun
  | st :: ss, s, _, _, hrun => by
    rw [checkAll] at hrun
    rcases CheckM.bind_eq_error.mp hrun with hst | ⟨s', hst, hss⟩
    · exact ⟨[], st, ss, s, rfl, rfl, exists_reaches_of_error st hst⟩
    · obtain ⟨before, n, after, s'', rfl, hbefore, hn⟩ := exists_reaches_of_checkAll_error ss hss
      exact ⟨st :: before, n, after, s'', rfl, CheckM.bind_eq_ok.mpr ⟨s', hst, hbefore⟩, hn⟩
end

theorem Reaches.within {st n : Stmt} {s t : Checker} (hn : st.Reaches h s n t) : n.Within st := by
  induction hn with
  | self => exact .self
  | block _ _ ih => exact .block (by simp) ih
  | thenOnly _ _ ih => exact .thenOnly ih
  | thenBranch _ _ ih => exact .thenBranch ih
  | elseBranch _ _ _ ih => exact .elseBranch ih
  | loop _ _ ih => exact .loop ih

theorem Reaches.returnType?_eq {st n : Stmt} {s t : Checker} (hn : st.Reaches h s n t) :
    t.returnType? = s.returnType? := by
  induction hn with
  | self => rfl
  | block hbefore _ ih =>
    obtain ⟨-, rfl⟩ := (checkAll_eq_ok_iff _ _ _).mp hbefore
    exact ih
  | thenOnly _ _ ih => exact ih
  | thenBranch _ _ ih => exact ih
  | elseBranch _ hthn _ ih =>
    obtain ⟨-, rfl⟩ := (check_eq_ok_iff _ _ _).mp hthn
    exact ih
  | loop _ _ ih => exact ih

end Stmt

/-! ## Declarations -/

/-- What the code at a place is asked. -/
def Place.question (h : Hierarchy) : Place → Checker → Except Diagnostic Unit
  | fieldInit _ v e, s | localInit _ _ v e, s => checkInit h v.ty e s.scope
  | stmt _ st, s => st.question h s

section Questions

variable {h : Hierarchy} {s : Checker}

theorem Stmt.question_faults (hs : s.scope.Declared h) (st : Stmt) :
    Faults (Diagnostic.Justified h s.scope) (st.question h s) := by
  cases st with
  | block body => exact .ok
  | assign target value => exact checkAssign_faults hs
  | call receiver m args => exact .map (Expr.inferCall_faults hs (.inr rfl) receiver m args)
  | ifThen cond thn | ifElse cond thn els => exact checkCondition_faults hs (.inl rfl)
  | «while» cond body => exact checkCondition_faults hs (.inr rfl)
  | print arg => exact checkPrint_faults hs
  | ret value => exact checkReturn_faults hs

theorem Place.question_faults (hs : s.scope.Declared h) (pl : Place) :
    Faults (Diagnostic.Justified h s.scope) (pl.question h s) := by
  cases pl with
  | fieldInit earlier v e | localInit m earlier v e => exact checkInit_faults hs
  | stmt m st => exact st.question_faults hs

end Questions

/-- A class that is declared twice, has an unknown parent or is below itself. -/
def Fault.OfHierarchy : Fault → Prop
  | duplicateClass _ | unknownClass _ | cyclicHierarchy _ => True
  | _ => False

theorem settle_faults (placed waiting : List ClassDecl) :
    Faults (fun d => d.fault.OfHierarchy) (settle placed waiting) := by
  induction placed, waiting using settle.induct with
  | case1 placed waiting hempty =>
    rw [settle, if_pos hempty]
    exact .ok
  | case2 placed waiting hempty next hlt ih =>
    rwa [settle_of_progress hlt]
  | case3 placed waiting hempty next hstuck =>
    rw [settle_of_stuck (by simpa using hempty) hstuck]
    exact .error trivial

theorem Hierarchy.build_faults (classes : List ClassDecl) :
    Faults (fun d => d.fault.OfHierarchy) (build classes) := by
  unfold build
  split
  · exact .error trivial
  · split
    · exact .error trivial
    · exact .map (settle_faults [] classes)

/-- A type that names no class, or a method that need not return. -/
def Fault.OfDeclaration : Fault → Prop
  | unknownClass _ | missingReturn _ => True
  | _ => False

section Declarations

variable {h : Hierarchy} {c : ClassDecl} {s t : Checker} {d : Diagnostic}

theorem Hierarchy.ofDeclaration_of_requireClass {site : Construct} {ty : Ty}
    (hd : h.requireClass site ty = .error d) : d.fault.OfDeclaration := by
  cases ty with
  | object c =>
    rw [requireClass] at hd
    split_ifs at hd
    cases hd
    trivial
  | _ => cases hd

theorem Param.ofDeclaration_of_error {p : Param} (hrun : p.introduce h s = .error d t) :
    d.fault.OfDeclaration := by
  rcases CheckM.bind_eq_error.mp hrun with hdeclare | ⟨_, -, hcheck⟩
  · cases hdeclare
  · rcases CheckM.bind_eq_error.mp hcheck with hclass | ⟨_, -, hbind⟩
    · exact Hierarchy.ofDeclaration_of_requireClass (CheckM.ask_eq_error.mp hclass).1
    · cases hbind

theorem VarDecl.exists_init_of_error {v : VarDecl} (hrun : v.introduce h s = .error d t) :
    d.fault.OfDeclaration ∨ h.requireClass .varDecl v.ty = .ok () ∧ ∃ e, v.init = some e ∧
      checkInit h v.ty e ((s.declare v.name v.ty).bindObject v.name v.ty).scope = .error d := by
  rcases CheckM.bind_eq_error.mp hrun with hdeclare | ⟨_, hdeclare, hcheck⟩
  · cases hdeclare
  · cases hdeclare
    rcases CheckM.bind_eq_error.mp hcheck with hclass | ⟨_, hclass, hrest⟩
    · exact .inl (Hierarchy.ofDeclaration_of_requireClass (CheckM.ask_eq_error.mp hclass).1)
    · obtain ⟨hknown, rfl⟩ := CheckM.ask_eq_ok.mp hclass
      rcases CheckM.bind_eq_error.mp hrest with hbind | ⟨_, hbind, hinit⟩
      · cases hbind
      · cases hbind
        cases hv : v.init with
        | none =>
          rw [hv] at hinit
          cases hinit
        | some e =>
          rw [hv] at hinit
          exact .inr ⟨hknown, e, rfl, (CheckM.askScope_eq_error.mp hinit).1⟩

theorem exists_reachesInit_of_error {vars : List VarDecl}
    (hrun : vars.forM (VarDecl.introduce h) s = .error d t) :
    d.fault.OfDeclaration ∨ ∃ earlier v e t', ReachesInit h vars s earlier v e t' ∧
      checkInit h v.ty e t'.scope = .error d := by
  obtain ⟨earlier, v, later, s', hsplit, hearlier, hv⟩ := CheckM.forM_eq_error hrun
  rcases v.exists_init_of_error hv with hd | ⟨hclass, e, hinit, hd⟩
  · exact .inl hd
  · exact .inr ⟨earlier, v, e, _, ⟨⟨later, hsplit⟩, hinit, hclass, s', hearlier, rfl⟩, hd⟩

theorem MethodDecl.exists_reaches_of_checkBody {body : List Stmt}
    (hrun : checkBody h body s = .error d t) :
    ∃ before st after s', body = before ++ st :: after ∧ checkBody h before s = .ok () s' ∧
      ∃ n s'', st.Reaches h s' n s'' ∧ n.question h s'' = .error d := by
  obtain ⟨before, st, after, s', hsplit, hbefore, hst⟩ := CheckM.forM_eq_error hrun
  rcases CheckM.bind_eq_error.mp hst with hst | ⟨_, -, hrecord⟩
  · exact ⟨before, st, after, s', hsplit, hbefore, st.exists_reaches_of_error hst⟩
  · split_ifs at hrecord <;> cases hrecord

theorem MethodDecl.ofDeclaration_of_checkReturns {m : MethodDecl}
    (hd : m.checkReturns s = .error d) : d.fault.OfDeclaration := by
  unfold checkReturns at hd
  split_ifs at hd
  cases hd
  trivial

/-- A class is refused for a declaration, or by the question of a place in it. -/
theorem ClassDecl.exists_reaches_of_error (hrun : c.check h s = .error d t) :
    d.fault.OfDeclaration ∨ ∃ pl t', c.Reaches h s pl t' ∧ pl.question h t' = .error d := by
  rcases CheckM.bind_eq_error.mp hrun with henter | ⟨_, henter, hrest⟩
  · cases henter
  cases henter
  rcases CheckM.bind_eq_error.mp hrest with hfields | ⟨s₁, hfields, hmethods⟩
  · rcases exists_reachesInit_of_error hfields with hd | ⟨earlier, v, e, t', hv, hd⟩
    · exact .inl hd
    · exact .inr ⟨.fieldInit earlier v e, t', .fieldInit hv, hd⟩
  obtain ⟨before, m, after, s₂, hsplit, hbefore, hm⟩ := CheckM.forM_eq_error hmethods
  rcases CheckM.bind_eq_error.mp hm with henter | ⟨_, henter, hrest⟩
  · cases henter
  cases henter
  rcases CheckM.bind_eq_error.mp hrest with hparams | ⟨s₃, hparams, hrest⟩
  · obtain ⟨_, _, _, _, _, _, hp⟩ := CheckM.forM_eq_error hparams
    exact .inl (Param.ofDeclaration_of_error hp)
  have henters : c.Enters h s m s₃ := .intro hfields hsplit hbefore hparams
  rcases CheckM.bind_eq_error.mp hrest with hlocals | ⟨s₄, hlocals, hrest⟩
  · rcases exists_reachesInit_of_error hlocals with hd | ⟨earlier, v, e, t', hv, hd⟩
    · exact .inl hd
    · exact .inr ⟨.localInit m earlier v e, t', .localInit henters hv, hd⟩
  rcases CheckM.bind_eq_error.mp hrest with hbody | ⟨s₅, -, hreturns⟩
  · obtain ⟨before, st, after, s', hsplit, hbefore, n, t', hn, hd⟩ :=
      MethodDecl.exists_reaches_of_checkBody hbody
    exact .inr ⟨.stmt m n, t', .stmt henters hlocals hsplit hbefore hn, hd⟩
  · exact .inl (MethodDecl.ofDeclaration_of_checkReturns (CheckM.ask_eq_error.mp hreturns).1)

theorem ClassDecl.Enters.mem {m : MethodDecl} (hm : c.Enters h s m t) : m ∈ c.methods := by
  obtain ⟨-, hmethods, -, -⟩ := hm
  simp [hmethods]

/-- What the checker comes to stands in the text. -/
theorem ClassDecl.Reaches.holds {pl : Place} (hpl : c.Reaches h s pl t) : c.Holds pl := by
  cases hpl with
  | fieldInit hv => exact ⟨hv.split, hv.init⟩
  | localInit hm hv => exact ⟨hm.mem, hv.split, hv.init⟩
  | stmt hm _ hbody _ hst => exact ⟨hm.mem, _, by simp [hbody], hst.within⟩

/-- In a method the checker knows the result type that the text gives. -/
theorem ClassDecl.Reaches.returnType?_eq {m : MethodDecl} {st : Stmt}
    (hpl : c.Reaches h s (.stmt m st) t) : t.returnType? = m.ret := by
  cases hpl with
  | stmt hm hlocals _ hbefore hst =>
    rw [hst.returnType?_eq, ← hm.returnType?_eq]
    obtain ⟨-, rfl⟩ := vars_forM_eq_ok.mp hlocals
    obtain ⟨-, rfl⟩ := MethodDecl.checkBody_eq_ok.mp hbefore
    rfl

end Declarations

/-- A refused program is refused for its hierarchy, for a declaration, or by the question of a place
that the checker comes to. -/
theorem Program.exists_reaches_of_error {p : Program} {d : Diagnostic} (hd : p.check = .error d) :
    Hierarchy.build p.classes = .error d ∨ d.fault.OfDeclaration ∨
      ∃ h c pl t, p.Reaches h c pl t ∧ pl.question h t = .error d := by
  cases hbuild : Hierarchy.build p.classes with
  | error d' =>
    rw [Program.check, hbuild] at hd
    cases hd
    exact .inl rfl
  | ok h =>
    rw [Program.check, hbuild] at hd
    obtain ⟨t, hrun⟩ := CheckM.outcome_eq_error.mp hd
    obtain ⟨before, c, after, s, hsplit, hbefore, hc⟩ := CheckM.forM_eq_error hrun
    rcases ClassDecl.exists_reaches_of_error hc with hd | ⟨pl, t', hpl, hd⟩
    · exact .inr (.inl hd)
    · exact .inr (.inr ⟨h, c, pl, t', .intro hbuild hsplit hbefore hpl, hd⟩)

end ClassLang

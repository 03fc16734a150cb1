import ClassLang.Proofs.Checker.Coverage
import ClassLang.Proofs.Checker.Truthful

/-! # The places that a check comes to

Code stands in a class as the initial value of a field, as the initial value of a local, or as a
statement. The checker comes to such a place once everything before it has passed. It then stands in
a scope that can be read off the text, and in an accepted program it comes to every place. -/

namespace ClassLang

/-- A place with code in it, each with the method and the variables that are declared before it. -/
inductive Place where
  | fieldInit (earlier : List VarDecl) (v : VarDecl) (e : Expr)
  | localInit (m : MethodDecl) (earlier : List VarDecl) (v : VarDecl) (e : Expr)
  | stmt (m : MethodDecl) (st : Stmt)

/-- The name that a variable declares. -/
def VarDecl.declared (v : VarDecl) : Param :=
  ⟨v.ty, v.name⟩

namespace Place

def InMethod : Place → Prop
  | fieldInit .. => False
  | localInit .. | stmt .. => True

/-- The names declared at the place, in the order of their declarations. -/
def declared : Place → List Param
  | fieldInit earlier v _ => (earlier ++ [v]).map VarDecl.declared
  | localInit m earlier v _ => m.params ++ (earlier ++ [v]).map VarDecl.declared
  | stmt m _ => m.params ++ m.locals.map VarDecl.declared

/-- The expression is the initial value of the variable. -/
def Starts : Place → VarDecl → Expr → Prop
  | fieldInit _ v e, w, n | localInit _ _ v e, w, n => w = v ∧ n = e
  | stmt .., _, _ => False

/-- The expression is a part of the code at the place, not of a statement inside it. -/
def Uses : Place → Expr → Prop
  | fieldInit _ _ e, n | localInit _ _ _ e, n => n = e
  | stmt _ st, n => st.Uses n

/-- The expression stands somewhere in the expressions at the place. -/
def Has (pl : Place) (n : Expr) : Prop :=
  ∃ e, pl.Uses e ∧ n.Within e

/-- The method is called at the place, in an expression or as a statement. -/
def Calls (pl : Place) (r : Expr) (n : String) (args : List Expr) : Prop :=
  pl.Has (.call r n args) ∨ ∃ m, pl = .stmt m (.call r n args)

end Place

/-- The place stands in the text of the class. -/
def ClassDecl.Holds (c : ClassDecl) : Place → Prop
  | .fieldInit earlier v e => (∃ later, c.fields = earlier ++ v :: later) ∧ v.init = some e
  | .localInit m earlier v e =>
    m ∈ c.methods ∧ (∃ later, m.locals = earlier ++ v :: later) ∧ v.init = some e
  | .stmt m st => m ∈ c.methods ∧ ∃ n ∈ m.body, st.Within n

/-! ## Coming to a place -/

/-- Checking a statement from the one state comes to a statement in it in the other state. -/
inductive Stmt.Reaches (h : Hierarchy) : Stmt → Checker → Stmt → Checker → Prop
  | self {st : Stmt} {s : Checker} : Reaches h st s st s
  | block {before after : List Stmt} {st n : Stmt} {s s' t : Checker}
      (hbefore : checkAll h before s = .ok () s') (hst : Reaches h st s' n t) :
      Reaches h (.block (before ++ st :: after)) s n t
  | thenOnly {cond : Expr} {thn n : Stmt} {s t : Checker}
      (hcond : checkCondition h .ifStmt cond s.scope = .ok ())
      (hthn : Reaches h thn (s.record [thn.thenEvidence]) n t) :
      Reaches h (.ifThen cond thn) s n t
  | thenBranch {cond : Expr} {thn els n : Stmt} {s t : Checker}
      (hcond : checkCondition h .ifStmt cond s.scope = .ok ())
      (hthn : Reaches h thn (s.record [thn.thenEvidence]) n t) :
      Reaches h (.ifElse cond thn els) s n t
  | elseBranch {cond : Expr} {thn els n : Stmt} {s s' t : Checker}
      (hcond : checkCondition h .ifStmt cond s.scope = .ok ())
      (hthn : thn.check h (s.record [thn.thenEvidence]) = .ok () s')
      (hels : Reaches h els (s'.record [els.elseEvidence]) n t) :
      Reaches h (.ifElse cond thn els) s n t
  | loop {cond : Expr} {body n : Stmt} {s t : Checker}
      (hcond : checkCondition h .whileStmt cond s.scope = .ok ())
      (hbody : Reaches h body (s.record body.loopEvidence) n t) :
      Reaches h (.while cond body) s n t

/-- Going through variables from the one state comes to the initial value of `v` in the other: those
before it have passed, and its own type has. -/
structure ReachesInit (h : Hierarchy) (vars : List VarDecl) (s : Checker)
    (earlier : List VarDecl) (v : VarDecl) (e : Expr) (t : Checker) : Prop where
  split : ∃ later, vars = earlier ++ v :: later
  init : v.init = some e
  type_ok : h.requireClass .varDecl v.ty = .ok ()
  run : ∃ s', earlier.forM (VarDecl.introduce h) s = .ok () s' ∧
    t = (s'.declare v.name v.ty).bindObject v.name v.ty

/-- Checking a class from the one state comes to the end of the parameters of `m` in the other. -/
inductive ClassDecl.Enters (h : Hierarchy) (c : ClassDecl) (s : Checker) :
    MethodDecl → Checker → Prop
  | intro {before after : List MethodDecl} {m : MethodDecl} {s₁ s₂ t : Checker}
      (hfields : c.fields.forM (VarDecl.introduce h) (s.enterClass c.name) = .ok () s₁)
      (hmethods : c.methods = before ++ m :: after)
      (hbefore : before.forM (MethodDecl.check h) s₁ = .ok () s₂)
      (hparams : m.params.forM (Param.introduce h) (s₂.enterMethod m.toSignature) = .ok () t) :
      Enters h c s m t

/-- Checking a class from the one state comes to a place in it in the other state. -/
inductive ClassDecl.Reaches (h : Hierarchy) (c : ClassDecl) (s : Checker) : Place → Checker → Prop
  | fieldInit {earlier : List VarDecl} {v : VarDecl} {e : Expr} {t : Checker}
      (hv : ReachesInit h c.fields (s.enterClass c.name) earlier v e t) :
      Reaches h c s (.fieldInit earlier v e) t
  | localInit {m : MethodDecl} {earlier : List VarDecl} {v : VarDecl} {e : Expr} {s' t : Checker}
      (hm : c.Enters h s m s') (hv : ReachesInit h m.locals s' earlier v e t) :
      Reaches h c s (.localInit m earlier v e) t
  | stmt {m : MethodDecl} {before after : List Stmt} {st n : Stmt} {s₁ s₂ s₃ t : Checker}
      (hm : c.Enters h s m s₁) (hlocals : m.locals.forM (VarDecl.introduce h) s₁ = .ok () s₂)
      (hbody : m.body = before ++ st :: after)
      (hbefore : MethodDecl.checkBody h before s₂ = .ok () s₃) (hst : st.Reaches h s₃ n t) :
      Reaches h c s (.stmt m n) t

/-- Checking the program comes to a place of the class in the given state. -/
inductive Program.Reaches (p : Program) (h : Hierarchy) (c : ClassDecl) : Place → Checker → Prop
  | intro {before after : List ClassDecl} {s t : Checker} {pl : Place}
      (hbuild : Hierarchy.build p.classes = .ok h) (horder : h.order = before ++ c :: after)
      (hbefore : before.forM (ClassDecl.check h) {} = .ok () s) (hpl : c.Reaches h s pl t) :
      p.Reaches h c pl t

/-! ## The scope at a place -/

/-- All the names are introduced, the last of the list last. -/
def Scope.introduceAll (Γ : Scope) (ds : List Param) : Scope :=
  ds.foldl (fun Γ d => Γ.introduce d.name d.ty) Γ

/-- The scope that the text of the class gives to a place. -/
def Place.scope (pl : Place) (c : ClassDecl) : Scope :=
  (Scope.ofClass c.name).introduceAll pl.declared

theorem Scope.introduceAll_append (Γ : Scope) (ds es : List Param) :
    Γ.introduceAll (ds ++ es) = (Γ.introduceAll ds).introduceAll es :=
  List.foldl_append

theorem Scope.foldl_introduce_eq (Γ : Scope) (vars : List VarDecl) :
    vars.foldl (fun Γ v => Γ.introduce v.name v.ty) Γ =
      Γ.introduceAll (vars.map VarDecl.declared) := by
  rw [introduceAll, List.foldl_map]
  rfl

theorem Scope.introduceAll_self (Γ : Scope) (ds : List Param) :
    (Γ.introduceAll ds).self = Γ.self :=
  foldl_introduce_self ..

section Scopes

variable {h : Hierarchy} {c : ClassDecl} {s t : Checker}

theorem Stmt.Reaches.scope_eq {st n : Stmt} (hn : st.Reaches h s n t) : t.scope = s.scope := by
  induction hn with
  | self => rfl
  | block hbefore _ ih =>
    obtain ⟨-, rfl⟩ := (Stmt.checkAll_eq_ok_iff _ _ _).mp hbefore
    exact ih
  | thenOnly _ _ ih => exact ih
  | thenBranch _ _ ih => exact ih
  | elseBranch _ hthn _ ih =>
    obtain ⟨-, rfl⟩ := (Stmt.check_eq_ok_iff _ _ _).mp hthn
    exact ih
  | loop _ _ ih => exact ih

/-- The types of the variables up to the one with the initial value have passed. -/
theorem ReachesInit.knows {vars earlier : List VarDecl} {v : VarDecl} {e : Expr}
    (hv : ReachesInit h vars s earlier v e t) :
    ∀ d ∈ (earlier ++ [v]).map VarDecl.declared, h.Knows d.ty := by
  obtain ⟨-, -, htype, s', hrun, -⟩ := hv
  obtain ⟨hearlier, -⟩ := vars_forM_eq_ok.mp hrun
  intro d hd
  obtain ⟨w, hw, rfl⟩ := List.mem_map.mp hd
  rcases List.mem_append.mp hw with hw | hw
  · obtain ⟨Γ, hwt⟩ := hearlier.exists_scope hw
    exact hwt.knows
  · obtain rfl := List.mem_singleton.mp hw
    exact Hierarchy.requireClass_eq_ok.mp htype

theorem ReachesInit.scope_eq {vars earlier : List VarDecl} {v : VarDecl} {e : Expr}
    (hv : ReachesInit h vars s earlier v e t) :
    t.scope = s.scope.introduceAll ((earlier ++ [v]).map VarDecl.declared) := by
  obtain ⟨-, -, -, s', hrun, rfl⟩ := hv
  obtain ⟨-, rfl⟩ := vars_forM_eq_ok.mp hrun
  rw [← Scope.foldl_introduce_eq, List.foldl_append]
  rfl

theorem ClassDecl.Enters.fields {m : MethodDecl} (hm : c.Enters h s m t) :
    AllVarsWellTyped h (.ofClass c.name) c.fields := by
  obtain ⟨hfields, -, -, -⟩ := hm
  exact (vars_forM_eq_ok.mp hfields).1

theorem ClassDecl.Enters.knows {m : MethodDecl} (hm : c.Enters h s m t) :
    ∀ d ∈ m.params, h.Knows d.ty := by
  obtain ⟨-, -, -, hparams⟩ := hm
  exact (params_forM_eq_ok.mp hparams).1

theorem ClassDecl.Enters.scope_eq {m : MethodDecl} (hm : c.Enters h s m t) :
    t.scope = (Scope.ofClass c.name).introduceAll m.params := by
  obtain ⟨hfields, -, hbefore, hparams⟩ := hm
  obtain ⟨-, rfl⟩ := vars_forM_eq_ok.mp hfields
  obtain ⟨-, rfl⟩ := params_forM_eq_ok.mp hparams
  -- Neither the fields nor the earlier methods have changed the class, and all else is cleared.
  have hself := CheckM.forM_keeps (I := fun s => s.scope.self = some c.name)
    (fun m _ s t hs hrun => (MethodDecl.self_of_check hrun).trans hs)
    (Scope.foldl_introduce_self ..) hbefore
  change Scope.introduceAll (Scope.clear _) m.params = _
  rw [Scope.clear, hself]
  rfl

theorem ClassDecl.Enters.returnType?_eq {m : MethodDecl} (hm : c.Enters h s m t) :
    t.returnType? = m.ret := by
  obtain ⟨-, -, -, hparams⟩ := hm
  obtain ⟨-, rfl⟩ := params_forM_eq_ok.mp hparams
  rfl

/-- The checker comes to a place in the scope that the text gives it. -/
theorem ClassDecl.Reaches.scope_eq {pl : Place} (hpl : c.Reaches h s pl t) :
    t.scope = pl.scope c := by
  cases hpl with
  | fieldInit hv => exact hv.scope_eq
  | localInit hm hv =>
    rw [hv.scope_eq, hm.scope_eq, ← Scope.introduceAll_append]
    rfl
  | stmt hm hlocals _ hbefore hst =>
    obtain ⟨-, rfl⟩ := vars_forM_eq_ok.mp hlocals
    obtain ⟨-, rfl⟩ := MethodDecl.checkBody_eq_ok.mp hbefore
    rw [hst.scope_eq]
    change List.foldl _ _ _ = _
    rw [Scope.foldl_introduce_eq, hm.scope_eq, ← Scope.introduceAll_append]
    rfl

/-- Every name declared at a place that the checker comes to has a known type. -/
theorem ClassDecl.Reaches.knows {pl : Place} (hpl : c.Reaches h s pl t) :
    ∀ d ∈ pl.declared, h.Knows d.ty := by
  intro d hd
  cases hpl with
  | fieldInit hv => exact hv.knows d hd
  | localInit hm hv =>
    rcases List.mem_append.mp hd with hd | hd
    · exact hm.knows d hd
    · exact hv.knows d hd
  | stmt hm hlocals _ _ _ =>
    rcases List.mem_append.mp hd with hd | hd
    · exact hm.knows d hd
    · obtain ⟨v, hv, rfl⟩ := List.mem_map.mp hd
      obtain ⟨Γ, hwt⟩ := (vars_forM_eq_ok.mp hlocals).1.exists_scope hv
      exact hwt.knows

theorem Program.Reaches.arranges {p : Program} {pl : Place} (hr : p.Reaches h c pl t) :
    h.Arranges p.classes := by
  obtain ⟨hbuild, -, -, -⟩ := hr
  exact Hierarchy.arranges_of_build hbuild

theorem Program.Reaches.scope_eq {p : Program} {pl : Place} (hr : p.Reaches h c pl t) :
    t.scope = pl.scope c := by
  obtain ⟨-, -, -, hpl⟩ := hr
  exact hpl.scope_eq

theorem Program.Reaches.knows {p : Program} {pl : Place} (hr : p.Reaches h c pl t) :
    ∀ d ∈ pl.declared, h.Knows d.ty := by
  obtain ⟨-, -, -, hpl⟩ := hr
  exact hpl.knows

end Scopes

/-! ## All places of an accepted program -/

section Accepted

variable {h : Hierarchy} {Γ : Scope}

theorem Stmt.allWellTyped_append {result : Option Ty} {before after : List Stmt} :
    Stmt.AllWellTyped h Γ result (before ++ after) ↔
      Stmt.AllWellTyped h Γ result before ∧ Stmt.AllWellTyped h Γ result after := by
  simp only [Stmt.allWellTyped_iff, List.forall_mem_append]

theorem AllVarsWellTyped.of_append {vars rest : List VarDecl}
    (hall : AllVarsWellTyped h Γ (vars ++ rest)) :
    AllVarsWellTyped h Γ vars ∧ AllVarsWellTyped h (Γ.introduceAll (vars.map VarDecl.declared)) rest := by
  induction vars generalizing Γ with
  | nil => exact ⟨trivial, hall⟩
  | cons v vars ih =>
    obtain ⟨hv, hrest⟩ := hall
    exact ⟨⟨hv, (ih hrest).1⟩, (ih hrest).2⟩

/-- Inside a well-typed statement the checker comes to every statement. -/
theorem Stmt.WellTyped.exists_reaches {st n : Stmt} {s : Checker}
    (hst : st.WellTyped h s.scope s.returnType?) (hn : n.Within st) :
    ∃ t, st.Reaches h s n t := by
  induction hn generalizing s with
  | self => exact ⟨s, .self⟩
  | @block body st hmem _ ih =>
    obtain ⟨before, after, rfl⟩ := List.append_of_mem hmem
    obtain ⟨hbefore, hst, -⟩ := Stmt.allWellTyped_append.mp hst
    obtain ⟨t, ht⟩ := ih (s := s.record (Stmt.evidenceAll before)) hst
    exact ⟨t, .block ((Stmt.checkAll_eq_ok_iff before s _).mpr ⟨hbefore, rfl⟩) ht⟩
  | @thenOnly cond thn _ ih =>
    obtain ⟨hcond, hthn⟩ := hst
    obtain ⟨t, ht⟩ := ih (s := s.record [thn.thenEvidence]) hthn
    exact ⟨t, .thenOnly (checkCondition_eq_ok.mpr hcond) ht⟩
  | @thenBranch cond thn els _ ih =>
    obtain ⟨hcond, hthn, -⟩ := hst
    obtain ⟨t, ht⟩ := ih (s := s.record [thn.thenEvidence]) hthn
    exact ⟨t, .thenBranch (checkCondition_eq_ok.mpr hcond) ht⟩
  | @elseBranch cond thn els _ ih =>
    obtain ⟨hcond, hthn, hels⟩ := hst
    let s' := (s.record [thn.thenEvidence]).record thn.evidence
    have hrun : thn.check h (s.record [thn.thenEvidence]) = .ok () s' :=
      (Stmt.check_eq_ok_iff thn _ _).mpr ⟨hthn, rfl⟩
    obtain ⟨t, ht⟩ := ih (s := s'.record [els.elseEvidence]) hels
    exact ⟨t, .elseBranch (checkCondition_eq_ok.mpr hcond) hrun ht⟩
  | @loop cond body _ ih =>
    obtain ⟨hcond, hbody⟩ := hst
    obtain ⟨t, ht⟩ := ih (s := s.record body.loopEvidence) hbody
    exact ⟨t, .loop (checkCondition_eq_ok.mpr hcond) ht⟩

theorem AllVarsWellTyped.exists_reachesInit {vars earlier : List VarDecl} {v : VarDecl} {e : Expr}
    {s : Checker} (hall : AllVarsWellTyped h s.scope vars)
    (hsplit : ∃ later, vars = earlier ++ v :: later) (hinit : v.init = some e) :
    ∃ t, ReachesInit h vars s earlier v e t := by
  obtain ⟨later, rfl⟩ := hsplit
  obtain ⟨hearlier, hv, -⟩ := hall.of_append
  exact ⟨_, ⟨later, rfl⟩, hinit, Hierarchy.requireClass_eq_ok.mpr hv.knows, _,
    vars_forM_eq_ok.mpr ⟨hearlier, rfl⟩, rfl⟩

namespace ClassDecl

variable {c : ClassDecl}

theorem WellTyped.exists_enters (hc : c.WellTyped h) {m : MethodDecl} (hm : m ∈ c.methods)
    (s : Checker) : ∃ t, c.Enters h s m t := by
  obtain ⟨before, after, hmethods⟩ := List.append_of_mem hm
  have hself : (c.fields.foldl (fun Γ v => Γ.introduce v.name v.ty)
      (Scope.ofClass c.name)).self = some c.name := Scope.foldl_introduce_self ..
  have hbefore : ∀ n ∈ before, n.WellTyped h (some c.name) :=
    fun n hn => hc.methods n (hmethods ▸ List.mem_append_left _ hn)
  exact ⟨_, .intro (vars_forM_eq_ok.mpr ⟨hc.fields, rfl⟩) hmethods
    (methods_forM_eq_ok.mpr ⟨hself.symm ▸ hbefore, rfl⟩)
    (params_forM_eq_ok.mpr ⟨(hc.methods m hm).params, rfl⟩)⟩

/-- Inside a well-typed class the checker comes to every place, whatever state it starts in. -/
theorem WellTyped.exists_reaches (hc : c.WellTyped h) {pl : Place} (hpl : c.Holds pl)
    (s : Checker) : ∃ t, c.Reaches h s pl t := by
  cases pl with
  | fieldInit earlier v e =>
    obtain ⟨hsplit, hinit⟩ := hpl
    obtain ⟨t, ht⟩ := AllVarsWellTyped.exists_reachesInit (s := s.enterClass c.name) hc.fields
      hsplit hinit
    exact ⟨t, .fieldInit ht⟩
  | localInit m earlier v e =>
    obtain ⟨hm, hsplit, hinit⟩ := hpl
    obtain ⟨s', hs'⟩ := hc.exists_enters hm s
    have hlocals : AllVarsWellTyped h s'.scope m.locals := hs'.scope_eq ▸ (hc.methods m hm).locals
    obtain ⟨t, ht⟩ := hlocals.exists_reachesInit hsplit hinit
    exact ⟨t, .localInit hs' ht⟩
  | stmt m n =>
    obtain ⟨hm, st, hst, hn⟩ := hpl
    obtain ⟨s', hs'⟩ := hc.exists_enters hm s
    have hlocals : AllVarsWellTyped h s'.scope m.locals := hs'.scope_eq ▸ (hc.methods m hm).locals
    -- The state in which the body starts; its scope is that of the text.
    let s₂ := s'.inScope (m.locals.foldl (fun Γ v => Γ.introduce v.name v.ty) s'.scope)
    have hscope : s₂.scope = m.bodyScope (some c.name) := by
      simp only [s₂, Checker.inScope, hs'.scope_eq]
      rfl
    have hbody : ∀ k ∈ m.body, k.WellTyped h s₂.scope s₂.returnType? := by
      rw [hscope, show s₂.returnType? = m.ret from hs'.returnType?_eq]
      exact (hc.methods m hm).body
    obtain ⟨before, after, hsplit⟩ := List.append_of_mem hst
    have hbefore : ∀ k ∈ before, k.WellTyped h s₂.scope s₂.returnType? :=
      fun k hk => hbody k (hsplit ▸ List.mem_append_left _ hk)
    obtain ⟨t, ht⟩ :=
      Stmt.WellTyped.exists_reaches (s := s₂.record (bodyEvidence before)) (hbody st hst) hn
    exact ⟨t, .stmt hs' (vars_forM_eq_ok.mpr ⟨hlocals, rfl⟩) hsplit
      (MethodDecl.checkBody_eq_ok.mpr ⟨hbefore, rfl⟩) ht⟩

end ClassDecl

end Accepted

/-! ## Typing at a place -/

section Typing

variable {h : Hierarchy} {Γ : Scope} {c : ClassDecl} {pl : Place}

theorem AllVarsWellTyped.of_split {vars earlier : List VarDecl} {v : VarDecl}
    (hall : AllVarsWellTyped h Γ vars) (hsplit : ∃ later, vars = earlier ++ v :: later) :
    v.WellTyped h (Γ.introduceAll ((earlier ++ [v]).map VarDecl.declared)) := by
  obtain ⟨later, rfl⟩ := hsplit
  obtain ⟨-, hv, -⟩ := hall.of_append
  rw [List.map_append, Scope.introduceAll_append]
  exact hv

theorem MethodDecl.bodyScope_eq (m : MethodDecl) (c : ClassDecl) (st : Stmt) :
    m.bodyScope (some c.name) = (Place.stmt m st).scope c := by
  rw [bodyScope, Scope.foldl_introduce_eq, Place.scope, Place.declared,
    Scope.introduceAll_append]
  rfl

namespace ClassDecl

/-- An initial value fits its variable in the scope of the place. -/
theorem WellTyped.accepts_of_starts (hc : c.WellTyped h) (hpl : c.Holds pl) {v : VarDecl}
    {e : Expr} (he : pl.Starts v e) :
    ∃ t, HasType h (pl.scope c) e (some t) ∧ h.Accepts v.ty t := by
  cases pl with
  | fieldInit earlier w f =>
    obtain ⟨rfl, rfl⟩ := he
    obtain ⟨hsplit, hinit⟩ := hpl
    exact (hc.fields.of_split hsplit).init e hinit
  | localInit m earlier w f =>
    obtain ⟨rfl, rfl⟩ := he
    obtain ⟨hm, hsplit, hinit⟩ := hpl
    rw [Place.scope, Place.declared, Scope.introduceAll_append]
    exact ((hc.methods m hm).locals.of_split hsplit).init e hinit
  | stmt m st => exact he.elim

theorem WellTyped.stmt_of_holds {m : MethodDecl} {st : Stmt} (hc : c.WellTyped h)
    (hpl : c.Holds (.stmt m st)) : st.WellTyped h ((Place.stmt m st).scope c) m.ret := by
  obtain ⟨hm, n, hn, hst⟩ := hpl
  rw [← m.bodyScope_eq]
  exact ((hc.methods m hm).body n hn).of_within hst

/-- In the scope of its place every expression has a type, but for receivers and texts to print. -/
theorem WellTyped.hasType_of_has (hc : c.WellTyped h) (hpl : c.Holds pl) {n : Expr}
    (hn : pl.Has n) :
    (∃ r, HasType h (pl.scope c) n r) ∨ (n = .this ∨ ∃ x, n = .var x) ∨ ∃ t, n = .str t := by
  obtain ⟨e, he, hn⟩ := hn
  have htyped {r : Option Ty} (hr : HasType h (pl.scope c) e r) :
      (∃ r, HasType h (pl.scope c) n r) ∨ (n = .this ∨ ∃ x, n = .var x) ∨ ∃ t, n = .str t :=
    (hr.exists_of_within hn).imp_right .inl
  cases pl with
  | fieldInit earlier v f =>
    obtain ⟨t, ht, -⟩ := hc.accepts_of_starts hpl ⟨rfl, he⟩
    exact htyped ht
  | localInit m earlier v f =>
    obtain ⟨t, ht, -⟩ := hc.accepts_of_starts hpl ⟨rfl, he⟩
    exact htyped ht
  | stmt m st =>
    rcases (hc.stmt_of_holds hpl).hasType_of_uses he with ⟨r, hr⟩ | hform | ⟨t, rfl, rfl⟩
    · exact htyped hr
    · rw [hn.eq_of_this_or_var hform]
      exact .inr (.inl hform)
    · cases hn
      exact .inr (.inr ⟨t, rfl⟩)

/-- Only `this`, names and texts can stand in a statement without being typed. -/
theorem WellTyped.exists_hasType_of_has (hc : c.WellTyped h) (hpl : c.Holds pl) {n : Expr}
    (hn : pl.Has n) (hthis : n ≠ .this) (hvar : ∀ x, n ≠ .var x) (hstr : ∀ t, n ≠ .str t) :
    ∃ r, HasType h (pl.scope c) n r := by
  rcases hc.hasType_of_has hpl hn with htyped | (heq | ⟨x, heq⟩) | ⟨t, heq⟩
  · exact htyped
  · exact absurd heq hthis
  · exact absurd heq (hvar x)
  · exact absurd heq (hstr t)

theorem WellTyped.hasType_of_calls (hc : c.WellTyped h) (hpl : c.Holds pl) {r : Expr} {n : String}
    {args : List Expr} (hcall : pl.Calls r n args) :
    ∃ t, HasType h (pl.scope c) (.call r n args) t := by
  rcases hcall with hhas | ⟨m, rfl⟩
  · exact hc.exists_hasType_of_has hpl hhas nofun nofun nofun
  · exact hc.stmt_of_holds hpl

end ClassDecl

end Typing

/-- In a program of well-typed classes the checker comes to every place. -/
theorem Program.exists_reaches {p : Program} {h : Hierarchy}
    (hbuild : Hierarchy.build p.classes = .ok h) (hclasses : ∀ c ∈ p.classes, c.WellTyped h)
    {c : ClassDecl} (hc : c ∈ p.classes) {pl : Place} (hpl : c.Holds pl) :
    ∃ t, p.Reaches h c pl t := by
  have hmem {k : ClassDecl} : k ∈ h.order ↔ k ∈ p.classes := by
    rw [Hierarchy.mem_order, (Hierarchy.arranges_of_build hbuild).perm.mem_iff]
  obtain ⟨before, after, horder⟩ := List.append_of_mem (hmem.mpr hc)
  have hbefore : ∀ k ∈ before, k.WellTyped h :=
    fun k hk => hclasses k (hmem.mp (horder ▸ List.mem_append_left _ hk))
  obtain ⟨t, ht⟩ := (hclasses c hc).exists_reaches hpl (before.foldl (fun t k => k.leave t) {})
  exact ⟨t, .intro hbuild horder (classes_forM_eq_ok.mpr ⟨hbefore, rfl⟩) ht⟩

end ClassLang

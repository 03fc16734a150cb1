import ClassLang.Proofs.Checker.Annotations
import ClassLang.Proofs.Hierarchy.Subtyping

/-! # Subsumption

Values are stored by assignments, as initial values and as arguments. Wherever a value is stored,
one of a narrower type may be stored in its place: the code around it is accepted as before, and of
the same type. A variable is bound to its class before its initial value is looked at, so there the
types are those that the expressions have after that. -/

namespace ClassLang

/-- The second expression yields a value that may be stored where one of the first may. -/
def Hierarchy.Subsumes (h : Hierarchy) (Γ : Scope) (e e' : Expr) : Prop :=
  ∃ t t', e.infer h Γ = .ok (some t) ∧ e'.infer h Γ = .ok (some t') ∧
    h.assignable t t' = true ∧ h.Knows t'

/-- One expression `e` that is stored has been exchanged for `e'`. The expression as a whole may be
`e` only if it is stored itself; otherwise `e` is an argument in it. Receivers and indexed arrays
have no arguments in them. -/
inductive Expr.Exchanges (e e' : Expr) : (stored : Bool) → Expr → Expr → Prop
  | self : Exchanges e e' true e e'
  | arg {stored : Bool} {r a a' : Expr} {m : String} {before after : List Expr}
      (ha : Exchanges e e' true a a') :
      Exchanges e e' stored (.call r m (before ++ a :: after)) (.call r m (before ++ a' :: after))
  | left {stored : Bool} {op : BinaryOp} {l l' r : Expr} (hl : Exchanges e e' false l l') :
      Exchanges e e' stored (.binop op l r) (.binop op l' r)
  | right {stored : Bool} {op : BinaryOp} {l r r' : Expr} (hr : Exchanges e e' false r r') :
      Exchanges e e' stored (.binop op l r) (.binop op l r')
  | operand {stored : Bool} {op : UnaryOp} {a a' : Expr} (ha : Exchanges e e' false a a') :
      Exchanges e e' stored (.unop op a) (.unop op a')
  | position {stored : Bool} {a i i' : Expr} (hi : Exchanges e e' false i i') :
      Exchanges e e' stored (.index a i) (.index a i')

/-- One stored expression, anywhere in the statement, has been exchanged. -/
inductive Stmt.Exchanges (e e' : Expr) : Stmt → Stmt → Prop
  | value {t v v' : Expr} (hv : Expr.Exchanges e e' true v v') :
      Exchanges e e' (.assign t v) (.assign t v')
  | target {t t' v : Expr} (ht : Expr.Exchanges e e' false t t') :
      Exchanges e e' (.assign t v) (.assign t' v)
  | arg {r a a' : Expr} {m : String} {before after : List Expr}
      (ha : Expr.Exchanges e e' true a a') :
      Exchanges e e' (.call r m (before ++ a :: after)) (.call r m (before ++ a' :: after))
  | ifThen {c c' : Expr} {thn : Stmt} (hc : Expr.Exchanges e e' false c c') :
      Exchanges e e' (.ifThen c thn) (.ifThen c' thn)
  | ifElse {c c' : Expr} {thn els : Stmt} (hc : Expr.Exchanges e e' false c c') :
      Exchanges e e' (.ifElse c thn els) (.ifElse c' thn els)
  | while {c c' : Expr} {body : Stmt} (hc : Expr.Exchanges e e' false c c') :
      Exchanges e e' (.while c body) (.while c' body)
  | printed {a a' : Expr} (ha : Expr.Exchanges e e' false a a') :
      Exchanges e e' (.print (some a)) (.print (some a'))
  | returned {a a' : Expr} (ha : Expr.Exchanges e e' false a a') :
      Exchanges e e' (.ret (some a)) (.ret (some a'))
  | block {before after : List Stmt} {st st' : Stmt} (hst : Exchanges e e' st st') :
      Exchanges e e' (.block (before ++ st :: after)) (.block (before ++ st' :: after))
  | thenOnly {c : Expr} {thn thn' : Stmt} (hthn : Exchanges e e' thn thn') :
      Exchanges e e' (.ifThen c thn) (.ifThen c thn')
  | thenBranch {c : Expr} {thn thn' els : Stmt} (hthn : Exchanges e e' thn thn') :
      Exchanges e e' (.ifElse c thn els) (.ifElse c thn' els)
  | elseBranch {c : Expr} {thn els els' : Stmt} (hels : Exchanges e e' els els') :
      Exchanges e e' (.ifElse c thn els) (.ifElse c thn els')
  | loop {c : Expr} {body body' : Stmt} (hbody : Exchanges e e' body body') :
      Exchanges e e' (.while c body) (.while c body')

/-! ## Narrower types -/

/-- The same type, or a known one that may be stored in its place. -/
def Hierarchy.Narrows (h : Hierarchy) (r r' : Option Ty) : Prop :=
  r' = r ∨ ∃ t t', r = some t ∧ r' = some t' ∧ h.assignable t t' = true ∧ h.Knows t'

namespace Hierarchy.Arranges

variable {h : Hierarchy} {classes : List ClassDecl} (harr : h.Arranges classes)

include harr

theorem accepts_of_narrows {param t : Ty} {r' : Option Ty} (hp : h.Accepts param t)
    (hr : h.Narrows (some t) r') : ∃ t', r' = some t' ∧ h.Accepts param t' := by
  rcases hr with rfl | ⟨_, t', ⟨⟩, rfl, hassign, hknows⟩
  · exact ⟨t, rfl, hp⟩
  · exact ⟨t', rfl, harr.assignable_trans hp.assignable hassign, hp.knows_param, hknows⟩

theorem hasArgs_exchange {Γ : Scope} {a a' : Expr}
    (ha : ∀ r, HasType h Γ a r → ∃ r', HasType h Γ a' r' ∧ h.Narrows r r')
    {before after : List Expr} {params : List Param}
    (hargs : HasArgs h Γ params (before ++ a :: after)) :
    HasArgs h Γ params (before ++ a' :: after) := by
  induction before generalizing params with
  | nil =>
    cases hargs with
    | cons he hp hafter =>
      obtain ⟨r', he', hr'⟩ := ha _ he
      obtain ⟨t', rfl, hp'⟩ := harr.accepts_of_narrows hp hr'
      exact .cons he' hp' hafter
  | cons b before ih =>
    cases hargs with
    | cons hb hp hrest => exact .cons hb hp (ih hrest)

/-- What is stored may become narrower. All else keeps its type, since the result of a call does not
depend on its arguments. -/
theorem hasType_exchange {Γ : Scope} {e e' : Expr} (hsub : h.Subsumes Γ e e') {stored : Bool}
    {a a' : Expr} (hex : Expr.Exchanges e e' stored a a') {r : Option Ty} (ha : HasType h Γ a r) :
    ∃ r', HasType h Γ a' r' ∧ h.Narrows r r' ∧ (stored = false → r' = r) := by
  induction hex generalizing r with
  | self =>
    obtain ⟨t, t', ht, ht', hassign, hknows⟩ := hsub
    obtain rfl := ha.unique ((Expr.infer_eq_ok_iff e _).mp ht)
    exact ⟨some t', (Expr.infer_eq_ok_iff e' _).mp ht', .inr ⟨t, t', rfl, rfl, hassign, hknows⟩,
      nofun⟩
  | arg _ ih =>
    cases ha with
    | call hr hd hargs =>
      refine ⟨_, .call hr hd (harr.hasArgs_exchange ?_ hargs), .inl rfl, fun _ => rfl⟩
      intro r hr
      obtain ⟨r', hr', hnarrows, -⟩ := ih hr
      exact ⟨r', hr', hnarrows⟩
  | left _ ih =>
    obtain ⟨s, t, u, hl, hr, hresult, rfl⟩ := Expr.hasType_binop_iff.mp ha
    obtain ⟨_, hl', -, hsame⟩ := ih hl
    obtain rfl := hsame rfl
    exact ⟨_, Expr.hasType_binop_iff.mpr ⟨s, t, u, hl', hr, hresult, rfl⟩, .inl rfl, fun _ => rfl⟩
  | right _ ih =>
    obtain ⟨s, t, u, hl, hr, hresult, rfl⟩ := Expr.hasType_binop_iff.mp ha
    obtain ⟨_, hr', -, hsame⟩ := ih hr
    obtain rfl := hsame rfl
    exact ⟨_, Expr.hasType_binop_iff.mpr ⟨s, t, u, hl, hr', hresult, rfl⟩, .inl rfl, fun _ => rfl⟩
  | operand _ ih =>
    cases ha with
    | unop ha =>
      obtain ⟨_, ha', -, hsame⟩ := ih ha
      obtain rfl := hsame rfl
      exact ⟨_, .unop ha', .inl rfl, fun _ => rfl⟩
  | position _ ih =>
    cases ha with
    | index ha hi =>
      obtain ⟨_, hi', -, hsame⟩ := ih hi
      obtain rfl := hsame rfl
      exact ⟨_, .index ha hi', .inl rfl, fun _ => rfl⟩

theorem hasType_of_exchange {Γ : Scope} {e e' : Expr} (hsub : h.Subsumes Γ e e') {a a' : Expr}
    (hex : Expr.Exchanges e e' false a a') {r : Option Ty} (ha : HasType h Γ a r) :
    HasType h Γ a' r := by
  obtain ⟨_, ha', -, hsame⟩ := harr.hasType_exchange hsub hex ha
  obtain rfl := hsame rfl
  exact ha'

end Hierarchy.Arranges

/-! ## Statements -/

namespace Stmt.Exchanges

variable {e e' : Expr} {st st' : Stmt}

theorem isReturn_eq (hex : Exchanges e e' st st') : st'.isReturn = st.isReturn := by
  cases hex <;> rfl

theorem isIf_eq (hex : Exchanges e e' st st') : st'.isIf = st.isIf := by
  cases hex <;> rfl

theorem branchShape_eq (hex : Exchanges e e' st st') : st'.branchShape = st.branchShape := by
  cases hex with
  | block hst => exact branchShape_block_congr hst.isReturn_eq hst.isIf_eq
  | _ => rfl

theorem loopEvidence_eq (hex : Exchanges e e' st st') : st'.loopEvidence = st.loopEvidence := by
  cases hex with
  | block hst => exact loopEvidence_block_congr hst.isReturn_eq
  | _ => rfl

/-- Evidence is about statements only. -/
theorem evidence_eq (hex : Exchanges e e' st st') : st'.evidence = st.evidence := by
  induction hex with
  | block _ ih => simp [evidence, evidenceAll_eq_flatMap, ih]
  | thenOnly hthn ih => simp [evidence, thenEvidence, hthn.branchShape_eq, ih]
  | thenBranch hthn ih => simp [evidence, thenEvidence, hthn.branchShape_eq, ih]
  | elseBranch hels ih => simp [evidence, elseEvidence, hels.branchShape_eq, ih]
  | loop hbody ih => simp [evidence, hbody.loopEvidence_eq, ih]
  | _ => rfl

variable {h : Hierarchy} {classes : List ClassDecl} {Γ : Scope} {result : Option Ty}

theorem wellTyped (harr : h.Arranges classes) (hsub : h.Subsumes Γ e e')
    (hex : Exchanges e e' st st') (hst : st.WellTyped h Γ result) :
    st'.WellTyped h Γ result := by
  induction hex with
  | value hv =>
    obtain ⟨t, s, ht, hs, hfits⟩ := hst
    obtain ⟨s', hs', hnarrows, -⟩ := harr.hasType_exchange hsub hv hs
    refine ⟨t, s', ht, hs', ?_⟩
    rcases hnarrows with rfl | ⟨u, u', rfl, rfl, hassign, -⟩
    · exact hfits
    · rintro _ ⟨⟩
      obtain ⟨w, hw, hwu⟩ := hfits u rfl
      exact ⟨w, hw, harr.assignable_trans hwu hassign⟩
  | target ht =>
    obtain ⟨t, s, htarget, hs, hfits⟩ := hst
    exact ⟨t, s, harr.hasType_of_exchange hsub ht htarget, hs, hfits⟩
  | arg ha =>
    obtain ⟨t, hcall⟩ := hst
    exact ⟨t, harr.hasType_of_exchange hsub (.arg ha) hcall⟩
  | ifThen hc | «while» hc =>
    obtain ⟨hcond, hbody⟩ := hst
    exact ⟨harr.hasType_of_exchange hsub hc hcond, hbody⟩
  | ifElse hc =>
    obtain ⟨hcond, hthn, hels⟩ := hst
    exact ⟨harr.hasType_of_exchange hsub hc hcond, hthn, hels⟩
  | printed ha =>
    rcases hst with htext | ⟨t, ht, hprim⟩
    · cases ha <;> cases htext
    · exact .inr ⟨t, harr.hasType_of_exchange hsub ha ht, hprim⟩
  | returned ha =>
    cases result with
    | none => exact hst
    | some t =>
      obtain ⟨s, hs, hshape⟩ := hst
      exact ⟨s, harr.hasType_of_exchange hsub ha hs, hshape⟩
  | block _ ih =>
    obtain ⟨hbefore, hst, hafter⟩ := Stmt.allWellTyped_append.mp hst
    exact Stmt.allWellTyped_append.mpr ⟨hbefore, ih hst, hafter⟩
  | thenOnly _ ih | loop _ ih =>
    obtain ⟨hcond, hbody⟩ := hst
    exact ⟨hcond, ih hbody⟩
  | thenBranch _ ih =>
    obtain ⟨hcond, hthn, hels⟩ := hst
    exact ⟨hcond, ih hthn, hels⟩
  | elseBranch _ ih =>
    obtain ⟨hcond, hthn, hels⟩ := hst
    exact ⟨hcond, hthn, ih hels⟩

end Stmt.Exchanges

/-! ## Variables -/

theorem VarDecl.check_eq_ok {h : Hierarchy} {t : Ty} {x : String} {e : Expr} {s s' : Checker} :
    (VarDecl.mk t x (some e)).check h s = .ok () s' ↔
      (h.Knows t ∧ ∃ u, HasType h (s.scope.bindObject x t) e (some u) ∧ h.Accepts t u) ∧
        s' = s.bindObject x t := by
  rw [VarDecl.check]
  simp only [CheckM.bind_eq_ok, CheckM.modify_eq_ok, CheckM.ask_eq_ok, CheckM.askScope_eq_ok]
  constructor
  · rintro ⟨_, ⟨hknows, rfl⟩, _, rfl, hinit, rfl⟩
    have hknows := Hierarchy.requireClass_eq_ok.mp hknows
    exact ⟨⟨hknows, (checkInit_eq_ok hknows).mp hinit⟩, rfl⟩
  · rintro ⟨⟨hknows, hinit⟩, rfl⟩
    exact ⟨s, ⟨Hierarchy.requireClass_eq_ok.mpr hknows, rfl⟩, _, rfl,
      (checkInit_eq_ok hknows).mpr hinit, rfl⟩

/-- The names that methods are called on in the expression are bound alike in the two scopes. -/
def Expr.CallsAlike (Γ Γ' : Scope) (e : Expr) : Prop :=
  ∀ x m args, (Expr.call (.var x) m args).Within e → Γ'.objects[x]? = Γ.objects[x]?

section Frame

variable {h : Hierarchy} {Γ Γ' : Scope}

theorem Scope.typeOf_congr (hself : Γ'.self = Γ.self) (htypes : Γ'.types = Γ.types)
    (site : Construct) (x : String) : Γ'.typeOf h site x = Γ.typeOf h site x := by
  simp only [typeOf, type?, ownField?, hself, htypes]

theorem Scope.elementType_congr (hself : Γ'.self = Γ.self) (htypes : Γ'.types = Γ.types)
    (a : Expr) : Γ'.elementType h a = Γ.elementType h a := by
  cases a <;> simp only [elementType, typeOf_congr hself htypes]

theorem Scope.classOfReceiver_congr (hself : Γ'.self = Γ.self) {site : Construct} {r : Expr}
    {m : String} {args : List Expr} (he : (Expr.call r m args).CallsAlike Γ Γ') :
    Γ'.classOfReceiver site r = Γ.classOfReceiver site r := by
  cases r with
  | var x => simp only [classOfReceiver, he x m args .self]
  | this => simp only [classOfReceiver, className, hself]
  | _ => rfl

namespace Expr

mutual
/-- Bindings matter to an expression only by the methods that it calls on names. -/
theorem infer_congr (hself : Γ'.self = Γ.self) (htypes : Γ'.types = Γ.types) :
    ∀ e : Expr, e.CallsAlike Γ Γ' → e.infer h Γ' = e.infer h Γ
  | int _, _ | bool _, _ | str _, _ | newObject _, _ | newArray .., _ => by simp only [infer]
  | var x, _ => by simp only [infer, Scope.typeOf_congr hself htypes]
  | this, _ => by simp only [infer, Scope.className, hself]
  | field r x, he => by
    have hr : r.CallsAlike Γ Γ' := fun y m args hy => he y m args (.object hy)
    simp only [infer, infer_congr hself htypes r hr]
  | call r m args, he => by
    have hargs : ∀ a ∈ args, a.CallsAlike Γ Γ' :=
      fun a ha y n as hy => he y n as (.arg ha hy)
    simp only [infer, Scope.classOfReceiver_congr hself he,
      checkArgs_congr hself htypes args hargs]
  | index a i, he => by
    have hi : i.CallsAlike Γ Γ' := fun y m args hy => he y m args (.position hy)
    simp only [infer, Scope.elementType_congr hself htypes, infer_congr hself htypes i hi]
  | binop op l r, he => by
    have hl : l.CallsAlike Γ Γ' := fun y m args hy => he y m args (.left hy)
    have hr : r.CallsAlike Γ Γ' := fun y m args hy => he y m args (.right hy)
    simp only [infer, infer_congr hself htypes l hl, infer_congr hself htypes r hr]
  | unop op e, he => by
    have hoperand : e.CallsAlike Γ Γ' := fun y m args hy => he y m args (.operand hy)
    simp only [infer, infer_congr hself htypes e hoperand]

theorem checkArgs_congr (hself : Γ'.self = Γ.self) (htypes : Γ'.types = Γ.types)
    {site : Construct} : ∀ args : List Expr, (∀ a ∈ args, a.CallsAlike Γ Γ') →
      ∀ params : List Param, checkArgs h Γ' site params args = checkArgs h Γ site params args
  | [], _, params => by cases params <;> simp only [checkArgs]
  | a :: args, hargs, params => by
    obtain ⟨ha, hargs⟩ := List.forall_mem_cons.mp hargs
    cases params with
    | nil => simp only [checkArgs]
    | cons p params =>
      simp only [checkArgs, infer_congr hself htypes a ha, checkArgs_congr hself htypes args hargs]
end

end Expr

end Frame

theorem Hierarchy.subsumes_bindObject_iff {h : Hierarchy} {Γ : Scope} {x : String} {t : Ty}
    {e e' : Expr} (he : e.CallsAlike Γ (Γ.bindObject x t))
    (he' : e'.CallsAlike Γ (Γ.bindObject x t)) :
    h.Subsumes (Γ.bindObject x t) e e' ↔ h.Subsumes Γ e e' := by
  have hself : (Γ.bindObject x t).self = Γ.self := by cases t <;> rfl
  have htypes : (Γ.bindObject x t).types = Γ.types := by cases t <;> rfl
  rw [Subsumes, Subsumes, Expr.infer_congr hself htypes e he, Expr.infer_congr hself htypes e' he']

/-- In a built hierarchy a value may be exchanged for one of a narrower type wherever it is stored:
as an argument in an expression, which keeps its type; in a statement, which leaves the checker as
before; and as or in the initial value of a variable, with the types that hold once the variable is
bound. Binding it only matters if methods are called on its name. -/
theorem Hierarchy.subsumption_of_build {classes : List ClassDecl} {h : Hierarchy}
    (hbuild : build classes = .ok h) :
    (∀ Γ e e', h.Subsumes Γ e e' → ∀ a a' r, Expr.Exchanges e e' false a a' →
      a.infer h Γ = .ok r → a'.infer h Γ = .ok r) ∧
    (∀ (s : Checker) e e', h.Subsumes s.scope e e' → ∀ st st' s', Stmt.Exchanges e e' st st' →
      st.check h s = .ok () s' → st'.check h s = .ok () s') ∧
    (∀ (s : Checker) x t e e', h.Subsumes (s.scope.bindObject x t) e e' →
      ∀ a a' s', Expr.Exchanges e e' true a a' →
        (VarDecl.mk t x (some a)).check h s = .ok () s' →
          (VarDecl.mk t x (some a')).check h s = .ok () s') ∧
    (∀ Γ x t e e', e.CallsAlike Γ (Γ.bindObject x t) → e'.CallsAlike Γ (Γ.bindObject x t) →
      (h.Subsumes (Γ.bindObject x t) e e' ↔ h.Subsumes Γ e e')) := by
  have harr := arranges_of_build hbuild
  refine ⟨?_, ?_, ?_, fun _ _ _ _ _ => subsumes_bindObject_iff⟩
  · intro Γ e e' hsub a a' r hex ha
    rw [Expr.infer_eq_ok_iff] at ha ⊢
    exact harr.hasType_of_exchange hsub hex ha
  · intro s e e' hsub st st' s' hex hst
    rw [Stmt.check_eq_ok_iff] at hst ⊢
    rw [hex.evidence_eq]
    exact ⟨hex.wellTyped harr hsub hst.1, hst.2⟩
  · intro s x t e e' hsub a a' s' hex hv
    rw [VarDecl.check_eq_ok] at hv ⊢
    obtain ⟨⟨hknows, u, hu, haccepts⟩, rfl⟩ := hv
    obtain ⟨r', hr', hnarrows, -⟩ := harr.hasType_exchange hsub hex hu
    obtain ⟨u', rfl, haccepts'⟩ := harr.accepts_of_narrows haccepts hnarrows
    exact ⟨⟨hknows, u', hr', haccepts'⟩, rfl⟩

def cup : ClassDecl :=
  { name := "Cup" }

def mug : ClassDecl :=
  { name := "Mug", parent := some "Cup" }

def kettle : ClassDecl :=
  { name := "Kettle"
    methods := [{ name := "pour", params := [⟨.object "Cup", "into"⟩], ret := some (.object "Cup")
                  body := [.ret (some (.var "into"))] }] }

theorem build_kettle_cup_mug :
    Hierarchy.build [kettle, mug, cup] = .ok ⟨[mug, cup, kettle]⟩ := by
  simp [Hierarchy.build, firstRepeated?, firstOrphanParent?, settle, sweep, ClassDecl.isReady,
    kettle, mug, cup, Except.map]

namespace Hierarchy

/-- A mug is a cup: it is assigned, poured into and kept where a cup was. -/
theorem mug_subsumption :
    build [kettle, mug, cup] = .ok ⟨[mug, cup, kettle]⟩ ∧
    ∃ s : Checker, Subsumes ⟨[mug, cup, kettle]⟩ s.scope (.newObject "Cup") (.newObject "Mug") ∧
      (Expr.call (.var "k") "pour" [.newObject "Mug"]).infer ⟨[mug, cup, kettle]⟩ s.scope =
        .ok (some (.object "Cup")) ∧
      (Stmt.block [.assign (.var "c") (.newObject "Mug")]).check ⟨[mug, cup, kettle]⟩ s = .ok () s ∧
      (Stmt.call (.var "k") "pour" [.newObject "Mug"]).check ⟨[mug, cup, kettle]⟩ s = .ok () s ∧
      (VarDecl.mk (.object "Cup") "c" (some (.newObject "Mug"))).check ⟨[mug, cup, kettle]⟩ s =
        .ok () (s.bind "c" "Cup") := by
  let s : Checker := (Checker.declare {} "c" (.object "Cup")).bind "k" "Kettle"
  have hsub (Γ : Scope) : Subsumes ⟨[mug, cup, kettle]⟩ Γ (.newObject "Cup") (.newObject "Mug") :=
    ⟨.object "Cup", .object "Mug", rfl, rfl, rfl, by rintro _ ⟨⟩; rfl⟩
  obtain ⟨hexpr, hstmt, hvar, -⟩ := subsumption_of_build build_kettle_cup_mug
  refine ⟨build_kettle_cup_mug, s, hsub _, ?_, ?_, ?_, ?_⟩
  · exact hexpr _ _ _ (hsub _) (.call (.var "k") "pour" ([] ++ .newObject "Cup" :: [])) _ _
      (.arg .self) rfl
  · exact hstmt s _ _ (hsub _) (.block ([] ++ .assign (.var "c") (.newObject "Cup") :: [])) _ s
      (.block (.value .self)) rfl
  · exact hstmt s _ _ (hsub _) (.call (.var "k") "pour" ([] ++ .newObject "Cup" :: [])) _ s
      (.arg .self) rfl
  · exact hvar s "c" (.object "Cup") _ _ (hsub _) _ _ _ .self rfl

/-- The cup that is poured has the type of a new cup before the name is bound again, and is refused
after that: cups do not pour. -/
theorem poured_cup_refused :
    build [kettle, mug, cup] = .ok ⟨[mug, cup, kettle]⟩ ∧
    ∃ s : Checker,
      Subsumes ⟨[mug, cup, kettle]⟩ s.scope (.newObject "Cup")
        (.call (.var "x") "pour" [.newObject "Cup"]) ∧
      (VarDecl.mk (.object "Cup") "x" (some (.newObject "Cup"))).check ⟨[mug, cup, kettle]⟩ s =
        .ok () (s.bind "x" "Cup") ∧
      (VarDecl.mk (.object "Cup") "x" (some (.call (.var "x") "pour" [.newObject "Cup"]))).check
          ⟨[mug, cup, kettle]⟩ s =
        .error ⟨.unknownMethod "Cup" "pour", .call⟩ (s.bind "x" "Cup") := by
  have hsub : Subsumes ⟨[mug, cup, kettle]⟩ (Scope.bind {} "x" "Kettle") (.newObject "Cup")
      (.call (.var "x") "pour" [.newObject "Cup"]) :=
    ⟨.object "Cup", .object "Cup", rfl, rfl, rfl, by rintro _ ⟨⟩; rfl⟩
  exact ⟨build_kettle_cup_mug, Checker.bind {} "x" "Kettle", hsub, rfl, rfl⟩

end Hierarchy
end ClassLang

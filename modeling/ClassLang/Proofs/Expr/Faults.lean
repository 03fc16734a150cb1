import ClassLang.Proofs.Expr.Inversion
import ClassLang.Returns.Trace

/-! # What the faults of an expression say

A fault that ends an inference says something about the hierarchy or the scope, and this is so: the
class that it calls unknown is not declared, the member that it misses is on no class of the chain,
the name that it does not know is not bound. The scope has to know the class of `this`, and may bind
names to declared classes only. -/

namespace ClassLang

/-- Every fault that the computation may end with has the property. -/
def Faults {α : Type} (P : Diagnostic → Prop) (x : Except Diagnostic α) : Prop :=
  ∀ d, x = .error d → P d

namespace Faults

variable {α β : Type} {P : Diagnostic → Prop}

theorem ok {a : α} : Faults P (.ok a) := by
  rintro d ⟨⟩

theorem error {d : Diagnostic} (hd : P d) : Faults P (.error d : Except Diagnostic α) := by
  rintro _ ⟨⟩
  exact hd

theorem bind {x : Except Diagnostic α} {f : α → Except Diagnostic β} (hx : Faults P x)
    (hf : ∀ a, x = .ok a → Faults P (f a)) : Faults P (x >>= f) := by
  cases x with
  | error d => exact error (hx d rfl)
  | ok a => exact hf a rfl

theorem map {x : Except Diagnostic α} {f : α → β} (hx : Faults P x) : Faults P (f <$> x) := by
  cases x with
  | error d => exact error (hx d rfl)
  | ok a => exact ok

end Faults

/-- A call, as an expression or as a statement. -/
def Construct.IsCall (site : Construct) : Prop :=
  site = .call ∨ site = .callStmt

theorem Construct.IsCall.ne_this {site : Construct} (hsite : site.IsCall) : site ≠ .this := by
  rcases hsite with rfl | rfl <;> decide

/-- What the diagnostic says is true of the hierarchy and the scope, and it stands where such a
fault belongs. -/
inductive Diagnostic.Justified (h : Hierarchy) (Γ : Scope) : Diagnostic → Prop
  | unknownClass {c : String} {site : Construct} (hc : h.contains c = false)
      (hsite : site ≠ .this) : Justified h Γ ⟨.unknownClass c, site⟩
  | unknownField {c x : String} (hc : h.contains c = true) (hx : h.field? c x = none) :
      Justified h Γ ⟨.unknownField c x, .field⟩
  | unknownMethod {c m : String} {site : Construct} (hc : h.contains c = true)
      (hm : h.method? c m = none) (hsite : site.IsCall) : Justified h Γ ⟨.unknownMethod c m, site⟩
  | unknownName {x : String} {site : Construct} (hsite : site = .var ∨ site = .index)
      (hx : Γ.type? h x = none) : Justified h Γ ⟨.unknownName x, site⟩
  | unknownReceiver {x : String} {site : Construct} (hsite : site.IsCall)
      (hx : Γ.objects[x]? = none) : Justified h Γ ⟨.unknownName x, site⟩
  | arityMismatch {k : ClassDecl} {m : MethodDecl} {arity : Nat} {site : Construct}
      (hk : k ∈ h.placed) (hm : m ∈ k.methods) (hne : m.params.length ≠ arity)
      (hsite : site.IsCall) : Justified h Γ ⟨.arityMismatch m.params.length arity, site⟩
  | typeMismatch {expected received : String} {site : Construct} (hsite : site ≠ .this) :
      Justified h Γ ⟨.typeMismatch expected received, site⟩
  | conditionNotBoolean {received : String} {site : Construct}
      (hsite : site = .ifStmt ∨ site = .whileStmt) :
      Justified h Γ ⟨.conditionNotBoolean received, site⟩
  | indexNotInteger {received : String} : Justified h Γ ⟨.indexNotInteger received, .index⟩
  | negativeArrayLength {k : Int} (hk : k < 0) : Justified h Γ ⟨.negativeArrayLength k, .newArray⟩
  | missingReturn {k : ClassDecl} {m : MethodDecl} (hk : k ∈ h.placed) (hm : m ∈ k.methods)
      (hret : m.ret.isSome = true) (hv : verdict (bodyEvidence m.body) = false) :
      Justified h Γ ⟨.missingReturn m.name, .methodDecl⟩
  | missingReturnValue {expected : String} : Justified h Γ ⟨.missingReturnValue expected, .ret⟩
  | unexpectedReturnValue : Justified h Γ ⟨.unexpectedReturnValue, .ret⟩
  | unrecognizedNode : Justified h Γ ⟨.unrecognizedNode "StrLit", .expr⟩

/-- The diagnostic is justified in some scope. -/
def Diagnostic.Founded (h : Hierarchy) (d : Diagnostic) : Prop :=
  ∃ Γ, d.Justified h Γ

theorem Faults.founded {α : Type} {h : Hierarchy} {Γ : Scope} {x : Except Diagnostic α}
    (hx : Faults (Diagnostic.Justified h Γ) x) : Faults (Diagnostic.Founded h) x :=
  fun d hd => ⟨Γ, hx d hd⟩

/-- The class of `this` is known and declared, and so are the classes that names are bound to. -/
structure Scope.Declared (h : Hierarchy) (Γ : Scope) : Prop where
  self : ∃ c, Γ.self = some c ∧ h.contains c = true
  objects : ∀ {x c : String}, Γ.objects[x]? = some c → h.contains c = true

section Questions

variable {h : Hierarchy} {Γ : Scope} {site : Construct}

theorem needValue_faults (hsite : site ≠ .this) {r : Option Ty} :
    Faults (Diagnostic.Justified h Γ) (needValue site r) := by
  cases r with
  | none => exact .error (.typeMismatch hsite)
  | some t => exact .ok

theorem BinaryOp.result_faults {op : BinaryOp} {s t : Ty} :
    Faults (Diagnostic.Justified h Γ) (op.result h s t) := by
  unfold result
  split_ifs
  · exact .error (.typeMismatch (by decide))
  · exact .ok
  · exact .error (.typeMismatch (by decide))
  · exact .error (.typeMismatch (by decide))
  · exact .ok

theorem UnaryOp.result_faults {op : UnaryOp} {t : Ty} :
    Faults (Diagnostic.Justified h Γ) (op.result t) := by
  unfold result
  split_ifs
  · exact .ok
  · exact .error (.typeMismatch (by decide))

namespace Hierarchy

theorem requireClass_faults (hsite : site ≠ .this) {t : Ty} :
    Faults (Diagnostic.Justified h Γ) (h.requireClass site t) := by
  cases t with
  | object c =>
    rw [requireClass]
    split_ifs with hc
    · exact .ok
    · exact .error (.unknownClass (by simpa using hc) hsite)
  | _ => exact .ok

theorem selectField_faults {x : String} {t : Ty} :
    Faults (Diagnostic.Justified h Γ) (h.selectField x t) := by
  cases t with
  | object c =>
    rw [selectField]
    split_ifs with hc
    · cases hx : h.field? c x with
      | none => exact .error (.unknownField hc hx)
      | some f => exact .ok
    · exact .error (.unknownClass (by simpa using hc) (by decide))
  | _ => exact .error (.typeMismatch (by decide))

theorem acceptArg_faults (hsite : site ≠ .this) {param arg : Ty} :
    Faults (Diagnostic.Justified h Γ) (h.acceptArg site param arg) := by
  unfold acceptArg
  cases param.sameShape arg with
  | false => exact .error (.typeMismatch hsite)
  | true =>
    simp only [Bool.true_eq_false, if_false]
    refine .bind (requireClass_faults hsite) fun _ _ => ?_
    refine .bind (requireClass_faults hsite) fun _ _ => ?_
    split_ifs
    · exact .error (.typeMismatch hsite)
    · exact .ok

theorem exists_class_of_method? {c m : String} {d : MethodDecl} (hd : h.method? c m = some d) :
    ∃ k ∈ h.placed, d ∈ k.methods := by
  obtain ⟨k, hk, hkd⟩ := List.exists_of_findSome?_eq_some hd
  exact ⟨k, mem_of_mem_chain hk, List.mem_of_find?_eq_some hkd⟩

theorem resolve_faults (hsite : site.IsCall) {c m : String} {arity : Nat}
    (hc : h.contains c = true) : Faults (Diagnostic.Justified h Γ) (h.resolve site c m arity) := by
  unfold resolve
  cases hd : h.method? c m with
  | none => exact .error (.unknownMethod hc hd hsite)
  | some d =>
    obtain ⟨k, hk, hdk⟩ := exists_class_of_method? hd
    simp only
    split_ifs with hlen
    · exact .ok
    · exact .error (.arityMismatch hk hdk hlen hsite)

end Hierarchy

namespace Scope

theorem typeOf_faults (hsite : site = .var ∨ site = .index) {x : String} :
    Faults (Diagnostic.Justified h Γ) (Γ.typeOf h site x) := by
  unfold typeOf
  cases hx : Γ.type? h x with
  | none => exact .error (.unknownName hsite hx)
  | some t => exact .ok

theorem elementType_faults {a : Expr} :
    Faults (Diagnostic.Justified h Γ) (Γ.elementType h a) := by
  cases a with
  | var x =>
    refine .bind (typeOf_faults (.inr rfl)) fun t _ => ?_
    cases t with
    | array t => exact .ok
    | _ => exact .error (.typeMismatch (by decide))
  | _ => exact .error (.typeMismatch (by decide))

theorem Declared.className_eq (hΓ : Γ.Declared h) (site : Construct) :
    ∃ c, Γ.className site = .ok c ∧ h.contains c = true := by
  obtain ⟨c, hself, hc⟩ := hΓ.self
  exact ⟨c, className_eq_ok.mpr hself, hc⟩

theorem classOfReceiver_faults (hΓ : Γ.Declared h) (hsite : site.IsCall) {r : Expr} :
    Faults (Diagnostic.Justified h Γ) (Γ.classOfReceiver site r) := by
  cases r with
  | this =>
    obtain ⟨c, hself, -⟩ := hΓ.className_eq site
    rw [classOfReceiver, hself]
    exact .ok
  | var x =>
    rw [classOfReceiver]
    cases hx : Γ.objects[x]? with
    | none => exact .error (.unknownReceiver hsite hx)
    | some c => exact .ok
  | _ => exact .error (.typeMismatch hsite.ne_this)

theorem Declared.contains_of_receiver (hΓ : Γ.Declared h) {r : Expr} {c : String}
    (hr : Γ.Receiver r c) : h.contains c = true := by
  cases hr with
  | this hself =>
    obtain ⟨d, hd, hcontains⟩ := hΓ.self
    exact Option.some.inj (hd.symm.trans hself) ▸ hcontains
  | var hx => exact hΓ.objects hx

end Scope

end Questions

namespace Expr

variable {h : Hierarchy} {Γ : Scope}

theorem misfit?_bind_faults {β : Type} {P : Diagnostic → Prop} {want : Ty} {e : Expr}
    {k : Option String → Except Diagnostic β} (he : Faults P (e.infer h Γ))
    (hk : ∀ found, Faults P (k found)) :
    Faults P (if e.isText then pure (some "String") >>= k
      else misfit? want <$> e.infer h Γ >>= k) := by
  split_ifs
  · exact hk (some "String")
  · exact .bind (.map he) fun found _ => hk found

theorem inferCall_faults_of_args (hΓ : Γ.Declared h) {site : Construct} (hsite : site.IsCall)
    {r : Expr} {m : String} {args : List Expr}
    (hargs : ∀ params, Faults (Diagnostic.Justified h Γ) (checkArgs h Γ site params args)) :
    Faults (Diagnostic.Justified h Γ) (inferCall h Γ site r m args) := by
  refine .bind (Scope.classOfReceiver_faults hΓ hsite) fun c hc => ?_
  have hcontains := hΓ.contains_of_receiver (Scope.classOfReceiver_eq_ok.mp hc)
  refine .bind (Hierarchy.resolve_faults hsite hcontains) fun d _ => ?_
  exact .bind (hargs d.params) fun _ _ => .ok

mutual
theorem infer_faults (hΓ : Γ.Declared h) :
    ∀ e : Expr, Faults (Diagnostic.Justified h Γ) (e.infer h Γ)
  | int _ => .ok
  | bool _ => .ok
  | str _ => .error .unrecognizedNode
  | var x => by
    rw [infer]
    exact .bind (Scope.typeOf_faults (.inl rfl)) fun _ _ => .ok
  | this => by
    obtain ⟨c, hself, -⟩ := hΓ.className_eq .this
    rw [infer, hself]
    exact .ok
  | field r x => by
    rw [infer]
    split_ifs
    · refine .bind (infer_faults hΓ r) fun _ _ => ?_
      refine .bind (needValue_faults (by decide)) fun _ _ => ?_
      exact .bind Hierarchy.selectField_faults fun _ _ => .ok
    · exact .error (.typeMismatch (by decide))
  | call r m args => by
    rw [infer_call]
    apply inferCall_faults_of_args hΓ (.inl rfl)
    exact fun params => checkArgs_faults hΓ (.inl rfl) params args
  | newObject c => by
    rw [infer]
    split_ifs with hc
    · exact .ok
    · exact .error (.unknownClass (by simpa using hc) (by decide))
  | newArray t k => by
    rw [infer]
    split_ifs with _ hk
    · exact .error (.typeMismatch (by decide))
    · exact .error (.negativeArrayLength hk)
    · exact .ok
  | index a i => by
    rw [infer]
    refine .bind Scope.elementType_faults fun _ _ => ?_
    apply misfit?_bind_faults (infer_faults hΓ i)
    intro found
    cases found with
    | none => exact .ok
    | some received => exact .error .indexNotInteger
  | binop op l r => by
    rw [infer]
    refine .bind (infer_faults hΓ l) fun _ _ => ?_
    refine .bind (needValue_faults (by decide)) fun _ _ => ?_
    refine .bind (infer_faults hΓ r) fun _ _ => ?_
    refine .bind (needValue_faults (by decide)) fun _ _ => ?_
    exact .bind BinaryOp.result_faults fun _ _ => .ok
  | unop op e => by
    rw [infer]
    refine .bind (infer_faults hΓ e) fun _ _ => ?_
    refine .bind (needValue_faults (by decide)) fun _ _ => ?_
    exact .bind UnaryOp.result_faults fun _ _ => .ok

theorem checkArgs_faults (hΓ : Γ.Declared h) {site : Construct} (hsite : site.IsCall) :
    ∀ (params : List Param) (args : List Expr),
      Faults (Diagnostic.Justified h Γ) (checkArgs h Γ site params args)
  | p :: params, e :: args => by
    rw [checkArgs]
    refine .bind (infer_faults hΓ e) fun _ _ => ?_
    refine .bind (needValue_faults hsite.ne_this) fun _ _ => ?_
    refine .bind (Hierarchy.acceptArg_faults hsite.ne_this) fun _ _ => ?_
    exact checkArgs_faults hΓ hsite params args
  | [], _ => by
    rw [checkArgs]
    · exact .ok
    · simp
  | _ :: _, [] => by
    rw [checkArgs]
    · exact .ok
    · simp
end

theorem inferValue_faults (hΓ : Γ.Declared h) {site : Construct} (hsite : site ≠ .this)
    (e : Expr) : Faults (Diagnostic.Justified h Γ) (e.inferValue h Γ site) :=
  .bind (infer_faults hΓ e) fun _ _ => needValue_faults hsite

theorem inferCall_faults (hΓ : Γ.Declared h) {site : Construct} (hsite : site.IsCall)
    (r : Expr) (m : String) (args : List Expr) :
    Faults (Diagnostic.Justified h Γ) (inferCall h Γ site r m args) :=
  inferCall_faults_of_args hΓ hsite fun params => checkArgs_faults hΓ hsite params args

end Expr
end ClassLang

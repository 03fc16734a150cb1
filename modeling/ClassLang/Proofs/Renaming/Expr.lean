import ClassLang.Expr.Infer
import ClassLang.Proofs.Renaming.Hierarchy

/-! # Expressions under renaming

In a scope and a hierarchy under other class names, a renamed expression has the renamed type, or
the same fault. A type is compared with the integers and the booleans by its form and never by the
text that it is written as, so a class may be given the name of a primitive type. -/

namespace ClassLang

/-- Names have the same types and classes in both scopes, under the other class names. -/
structure Scope.Renames (r : String → String) (Γ Γ' : Scope) : Prop where
  self : Γ'.self = Γ.self.map r
  types : ∀ x : String, Γ'.types[x]? = Γ.types[x]?.map (Ty.rename r)
  objects : ∀ x : String, Γ'.objects[x]? = Γ.objects[x]?.map r

/-! ## Values and operators -/

section Values

variable {r : String → String}

theorem needValue_rename (site : Construct) (found : Option Ty) :
    Agree r (Ty.rename r) (needValue site found) (needValue site (found.map (Ty.rename r))) := by
  cases found with
  | none => exact .fault (.typeMismatch (.fixed _) (.fixed _))
  | some t => exact .ok rfl

theorem Agree.needValue {α β : Type} {f : α → β} {x x' : Except Diagnostic (Option Ty)}
    {k : Ty → Except Diagnostic α} {k' : Ty → Except Diagnostic β} {site : Construct}
    (hx : Agree r (Option.map (Ty.rename r)) x x') (hk : ∀ t, Agree r f (k t) (k' (t.rename r))) :
    Agree r f (x >>= fun found => ClassLang.needValue site found >>= k)
      (x' >>= fun found => ClassLang.needValue site found >>= k') := by
  apply hx.bind
  intro found
  exact (needValue_rename site found).bind hk

theorem UnaryOp.result_rename (op : UnaryOp) (t : Ty) :
    Agree r (Ty.rename r) (op.result t) (op.result (t.rename r)) := by
  cases op with
  | neg => exact .ite (t.rename_eq_int_iff r) (.ok rfl) (.fault (.mismatch .int t))
  | not => exact .ite (t.rename_eq_bool_iff r) (.ok rfl) (.fault (.mismatch .bool t))

/-- A misfit is found or not alike, and told by the text of the renamed type. -/
theorem misfit?_rename {β γ : Type} {f : β → γ} {want : Ty}
    (hwant : ∀ t, Ty.rename r t = want ↔ t = want)
    {k : Option String → Except Diagnostic β} {k' : Option String → Except Diagnostic γ}
    (hnone : Agree r f (k none) (k' none))
    (hsome : ∀ text text', TextRenames r text text' → Agree r f (k (some text)) (k' (some text')))
    (found : Option Ty) :
    Agree r f (k (misfit? want found)) (k' (misfit? want (found.map (Ty.rename r)))) := by
  cases found with
  | none => exact hsome _ _ (.fixed "void")
  | some t =>
    rw [Option.map_some, misfit?, misfit?]
    by_cases ht : t = want
    · rw [if_pos ht, if_pos ((hwant t).mpr ht)]
      exact hnone
    · rw [if_neg ht, if_neg (mt (hwant t).mp ht)]
      exact hsome _ _ (.ty t)

end Values

section Questions

variable {r : String → String} (hr : Function.Injective r) {h : Hierarchy} {Γ Γ' : Scope}

include hr

theorem BinaryOp.result_rename (op : BinaryOp) (s t : Ty) :
    Agree r (Ty.rename r) (op.result h s t) (op.result (h.rename r) (s.rename r) (t.rename r)) := by
  rw [result, result, Hierarchy.comparable_rename hr]
  refine .ite Iff.rfl (.fault (.mismatch s t)) (.ite Iff.rfl ?_ (.ite ?_ ?_ (.ok rfl)))
  · exact .ite (s.rename_eq_int_iff r) (.ok rfl) (.fault (.mismatch .int s))
  · simp [s.rename_eq_int_iff r]
  · exact .fault (.mismatch .bool s)

namespace Hierarchy

theorem selectField_rename (x : String) (t : Ty) :
    Agree r (Ty.rename r) (h.selectField x t) ((h.rename r).selectField x (t.rename r)) := by
  cases t with
  | object c =>
    simp only [selectField, Ty.rename, contains_rename hr, field?_rename hr]
    apply Agree.ite Iff.rfl _ (.fault .unknownClass)
    cases h.field? c x with
    | none => exact .fault .unknownField
    | some f => exact .ok rfl
  | int => exact .fault (.typeMismatch (.fixed _) (.ty .int))
  | bool => exact .fault (.typeMismatch (.fixed _) (.ty .bool))
  | array t => exact .fault (.typeMismatch (.fixed _) (.ty (.array t)))

theorem acceptArg_rename (site : Construct) (param arg : Ty) :
    Agree r id (h.acceptArg site param arg)
      ((h.rename r).acceptArg site (param.rename r) (arg.rename r)) := by
  rw [acceptArg, acceptArg, Ty.sameShape_rename, assignable_rename hr]
  apply Agree.ite Iff.rfl (.fault (.mismatch param arg))
  apply (requireClass_rename hr h site param).bind
  intro _
  apply (requireClass_rename hr h site arg).bind
  intro _
  exact .ite Iff.rfl (.fault (.mismatch param arg)) (.ok rfl)

theorem resolve_rename (site : Construct) (c m : String) (arity : Nat) :
    Agree r (MethodDecl.rename r) (h.resolve site c m arity)
      ((h.rename r).resolve site (r c) m arity) := by
  rw [resolve, resolve, method?_rename hr]
  cases h.method? c m with
  | none => exact .fault .unknownMethod
  | some d =>
    have hlength : (d.rename r).params.length = d.params.length := List.length_map _
    simp only [Option.map_some, hlength]
    exact .ite Iff.rfl (.ok rfl) (.fault .arityMismatch)

end Hierarchy

namespace Scope.Renames

variable (hΓ : Γ.Renames r Γ')

include hΓ

omit hr in
theorem className (site : Construct) : Agree r r (Γ.className site) (Γ'.className site) := by
  rw [Scope.className, Scope.className, hΓ.self]
  cases Γ.self with
  | none => exact .fault .unknownName
  | some c => exact .ok rfl

omit hr in
theorem classOfReceiver (site : Construct) (e : Expr) :
    Agree r r (Γ.classOfReceiver site e) (Γ'.classOfReceiver site (e.rename r)) := by
  cases e with
  | this => exact hΓ.className site
  | var x =>
    rw [Expr.rename, Scope.classOfReceiver, Scope.classOfReceiver, hΓ.objects]
    cases Γ.objects[x]? with
    | none => exact .fault .unknownName
    | some c => exact .ok rfl
  | _ => exact .fault (.typeMismatch (.fixed _) (.fixed _))

theorem type? (x : String) : Γ'.type? (h.rename r) x = (Γ.type? h x).map (Ty.rename r) := by
  have hfield : (Γ'.ownField? (h.rename r) x).map (·.ty) =
      ((Γ.ownField? h x).map (·.ty)).map (Ty.rename r) := by
    rw [ownField?, ownField?, hΓ.self]
    cases Γ.self with
    | none => rfl
    | some c =>
      simp only [Option.map_some, Option.bind_some, Hierarchy.field?_rename hr, Option.map_map]
      rfl
  rw [Scope.type?, Scope.type?, hΓ.types, hfield]
  cases Γ.types[x]? <;> rfl

theorem typeOf (site : Construct) (x : String) :
    Agree r (Ty.rename r) (Γ.typeOf h site x) (Γ'.typeOf (h.rename r) site x) := by
  rw [Scope.typeOf, Scope.typeOf, hΓ.type? hr]
  cases Γ.type? h x with
  | none => exact .fault .unknownName
  | some t => exact .ok rfl

theorem elementType (e : Expr) :
    Agree r (Ty.rename r) (Γ.elementType h e) (Γ'.elementType (h.rename r) (e.rename r)) := by
  cases e with
  | var x =>
    apply (hΓ.typeOf hr .index x).bind
    intro t
    cases t with
    | array t => exact .ok rfl
    | int => exact .fault (.typeMismatch (.fixed _) (.ty .int))
    | bool => exact .fault (.typeMismatch (.fixed _) (.ty .bool))
    | object c => exact .fault (.typeMismatch (.fixed _) (.ty (.object c)))
  | _ => exact .fault (.typeMismatch (.fixed _) (.fixed _))

end Scope.Renames

end Questions

/-! ## Types of expressions -/

namespace Expr

variable {r : String → String} {h : Hierarchy} {Γ Γ' : Scope}

/-- The only text that is no type is that of a string literal. -/
theorem misfit?_bind_rename {β γ : Type} {f : β → γ} {want : Ty}
    (hwant : ∀ t, Ty.rename r t = want ↔ t = want) {e : Expr}
    {k : Option String → Except Diagnostic β} {k' : Option String → Except Diagnostic γ}
    (he : Agree r (Option.map (Ty.rename r)) (e.infer h Γ) ((e.rename r).infer (h.rename r) Γ'))
    (hnone : Agree r f (k none) (k' none))
    (hsome : ∀ text text', TextRenames r text text' → Agree r f (k (some text)) (k' (some text'))) :
    Agree r f (if e.isText then pure (some "String") >>= k else misfit? want <$> e.infer h Γ >>= k)
      (if (e.rename r).isText then pure (some "String") >>= k'
        else misfit? want <$> (e.rename r).infer (h.rename r) Γ' >>= k') := by
  rw [isText_rename]
  apply Agree.ite Iff.rfl (hsome _ _ (.fixed "String"))
  rw [map_eq_pure_bind, map_eq_pure_bind, bind_assoc, bind_assoc]
  apply he.bind
  intro found
  exact misfit?_rename hwant hnone hsome found

theorem inferCall_rename_of_args (hr : Function.Injective r) (hΓ : Γ.Renames r Γ')
    {site : Construct} {args : List Expr}
    (hargs : ∀ params, Agree r id (checkArgs h Γ site params args)
      (checkArgs (h.rename r) Γ' site (params.map (Param.rename r)) (renameAll r args)))
    (receiver : Expr) (m : String) :
    Agree r (Option.map (Ty.rename r)) (inferCall h Γ site receiver m args)
      (inferCall (h.rename r) Γ' site (receiver.rename r) m (renameAll r args)) := by
  rw [inferCall, inferCall, length_renameAll]
  apply (hΓ.classOfReceiver site receiver).bind
  intro c
  apply (Hierarchy.resolve_rename hr site c m args.length).bind
  intro d
  exact (hargs d.params).bind fun _ => .ok rfl

mutual
theorem infer_rename (hr : Function.Injective r) (hΓ : Γ.Renames r Γ') : ∀ e : Expr,
    Agree r (Option.map (Ty.rename r)) (e.infer h Γ) ((e.rename r).infer (h.rename r) Γ')
  | int _ | bool _ => .ok rfl
  | str _ => .fault .unrecognizedNode
  | var x => (hΓ.typeOf hr .var x).bind fun _ => .ok rfl
  | this => (hΓ.className .this).bind fun _ => .ok rfl
  | field e x => by
    rw [rename, infer, infer, isReference_rename, kind_rename]
    apply Agree.ite Iff.rfl _ (.fault (.typeMismatch (.fixed _) (.fixed _)))
    apply (infer_rename hr hΓ e).needValue
    intro t
    exact (Hierarchy.selectField_rename hr x t).bind fun _ => .ok rfl
  | call e m args => by
    rw [rename, infer_call, infer_call]
    apply inferCall_rename_of_args hr hΓ
    intro params
    exact checkArgs_rename hr hΓ .call params args
  | newObject c => by
    rw [rename, infer, infer, Hierarchy.contains_rename hr]
    exact .ite Iff.rfl (.ok rfl) (.fault .unknownClass)
  | newArray t k => by
    rw [rename, infer, infer, Ty.isPrimitive_rename]
    refine .ite Iff.rfl (.fault (.typeMismatch (.fixed _) (.ty t))) ?_
    exact .ite Iff.rfl (.fault .negativeArrayLength) (.ok rfl)
  | index a i => by
    rw [rename, infer, infer]
    apply (hΓ.elementType hr a).bind
    intro t
    refine misfit?_bind_rename (fun _ => Ty.rename_eq_int_iff r) (infer_rename hr hΓ i) (.ok rfl) ?_
    intro _ _ htext
    exact .fault (.indexNotInteger htext)
  | binop op left right => by
    rw [rename, infer, infer]
    apply (infer_rename hr hΓ left).needValue
    intro s
    apply (infer_rename hr hΓ right).needValue
    intro t
    exact (op.result_rename hr s t).bind fun _ => .ok rfl
  | unop op e => by
    rw [rename, infer, infer]
    apply (infer_rename hr hΓ e).needValue
    intro t
    exact (op.result_rename t).bind fun _ => .ok rfl

theorem checkArgs_rename (hr : Function.Injective r) (hΓ : Γ.Renames r Γ') (site : Construct) :
    ∀ (params : List Param) (args : List Expr), Agree r id (checkArgs h Γ site params args)
      (checkArgs (h.rename r) Γ' site (params.map (Param.rename r)) (renameAll r args))
  | p :: params, e :: args => by
    rw [List.map_cons, renameAll, checkArgs, checkArgs]
    apply (infer_rename hr hΓ e).needValue
    intro t
    apply (Hierarchy.acceptArg_rename hr site p.ty t).bind
    intro _
    exact checkArgs_rename hr hΓ site params args
  | [], _ | _ :: _, [] => by
    simp only [List.map_nil, List.map_cons, renameAll, checkArgs]
    exact .ok rfl
end

theorem inferValue_rename (hr : Function.Injective r) (hΓ : Γ.Renames r Γ') (site : Construct)
    (e : Expr) :
    Agree r (Ty.rename r) (e.inferValue h Γ site) ((e.rename r).inferValue (h.rename r) Γ' site) :=
  (infer_rename hr hΓ e).bind (needValue_rename site)

theorem inferCall_rename (hr : Function.Injective r) (hΓ : Γ.Renames r Γ') (site : Construct)
    (receiver : Expr) (m : String) (args : List Expr) :
    Agree r (Option.map (Ty.rename r)) (inferCall h Γ site receiver m args)
      (inferCall (h.rename r) Γ' site (receiver.rename r) m (renameAll r args)) :=
  inferCall_rename_of_args hr hΓ (fun params => checkArgs_rename hr hΓ site params args) receiver m

end Expr
end ClassLang

import ClassLang.Proofs.Expr.Inversion

/-! # Inference and the typing rules

Inference finds a type, or the absence of a value, if and only if the rules give it. -/

namespace ClassLang.Expr

variable {h : Hierarchy} {Γ : Scope}

theorem hasType_var_iff {x : String} {t : Ty} :
    HasType h Γ (var x) (some t) ↔ Γ.type? h x = some t := by
  rw [Scope.type?_eq_some]
  constructor
  · intro hx
    cases hx with
    | var hx => exact .inl hx
    | ownField hx hc hf => exact .inr ⟨hx, _, _, hc, hf, rfl⟩
  · rintro (hx | ⟨hx, c, f, hc, hf, rfl⟩)
    · exact .var hx
    · exact .ownField hx hc hf

/-- The operator's own test looks at the left operand only, and the rules at both. -/
theorem hasType_binop_iff {op : BinaryOp} {e e' : Expr} {r : Option Ty} :
    HasType h Γ (binop op e e') r ↔ ∃ s t u, HasType h Γ e (some s) ∧ HasType h Γ e' (some t) ∧
      op.result h s t = .ok u ∧ r = some u := by
  simp only [BinaryOp.result_eq_ok]
  constructor
  · intro hr
    cases hr with
    | arithmetic hop he he' =>
      exact ⟨.int, .int, .int, he, he', ⟨by simp [Hierarchy.comparable, Hierarchy.assignable],
        .inl ⟨hop, rfl, rfl⟩⟩, rfl⟩
    | @logical _ _ _ s t hop he he' hst hs _ =>
      have harith := BinaryOp.isArithmetic_of_isLogical hop
      exact ⟨s, t, .bool, he, he', ⟨hst, .inr ⟨harith, fun _ => hs, rfl⟩⟩, rfl⟩
    | @comparison _ _ _ s t harith hop he he' hst =>
      refine ⟨s, t, .bool, he, he', ⟨hst, .inr ⟨harith, ?_, rfl⟩⟩, rfl⟩
      rw [hop]
      exact fun hlog => absurd hlog Bool.false_ne_true
  · rintro ⟨s, t, u, he, he', ⟨hst, hop⟩, rfl⟩
    have hint := Hierarchy.eq_int_iff_of_comparable hst
    rcases hop with ⟨harith, rfl, rfl⟩ | ⟨harith, hlog, rfl⟩
    · obtain rfl := hint.mp rfl
      exact .arithmetic harith he he'
    · cases hop : op.isLogical with
      | true => exact .logical hop he he' hst (hlog hop) fun ht => hlog hop (hint.mpr ht)
      | false => exact .comparison harith hop he he' hst

mutual
theorem infer_eq_ok_iff : ∀ (e : Expr) (r : Option Ty), e.infer h Γ = .ok r ↔ HasType h Γ e r
  | int k, r => by
    rw [infer, Except.ok.injEq]
    exact ⟨fun hr => hr ▸ .int, fun | .int => rfl⟩
  | bool b, r => by
    rw [infer, Except.ok.injEq]
    exact ⟨fun hr => hr ▸ .bool, fun | .bool => rfl⟩
  | str s, r => by
    rw [infer]
    constructor
    · rintro ⟨⟩
    · rintro ⟨⟩
  | var x, r => by
    rw [infer_var_eq_ok]
    constructor
    · rintro ⟨t, hx, rfl⟩
      exact hasType_var_iff.mpr hx
    · intro hr
      cases r with
      | none => cases hr
      | some t => exact ⟨t, hasType_var_iff.mp hr, rfl⟩
  | this, r => by
    rw [infer_this_eq_ok]
    constructor
    · rintro ⟨c, hc, rfl⟩
      exact .this hc
    · intro hr
      cases hr with
      | this hc => exact ⟨_, hc, rfl⟩
  | field e x, r => by
    rw [infer_field_eq_ok]
    constructor
    · rintro ⟨href, c, f, he, hc, hf, rfl⟩
      exact .field href ((infer_eq_ok_iff e _).mp he) hc hf
    · intro hr
      cases hr with
      | field href he hc hf => exact ⟨href, _, _, (infer_eq_ok_iff e _).mpr he, hc, hf, rfl⟩
  | call e m args, r => by
    rw [infer_call, inferCall_eq_ok]
    constructor
    · rintro ⟨c, d, hc, hd, hlen, hargs, rfl⟩
      exact .call hc hd ((checkArgs_eq_ok_iff d.params args hlen).mp hargs)
    · intro hr
      cases hr with
      | @call _ _ c _ d hc hd hargs =>
        exact ⟨c, d, hc, hd, hargs.length_eq,
          (checkArgs_eq_ok_iff d.params args hargs.length_eq).mpr hargs, rfl⟩
  | newObject c, r => by
    rw [infer_newObject_eq_ok]
    constructor
    · rintro ⟨hc, rfl⟩
      exact .newObject hc
    · intro hr
      cases hr with
      | newObject hc => exact ⟨hc, rfl⟩
  | newArray t k, r => by
    rw [infer_newArray_eq_ok]
    constructor
    · rintro ⟨ht, hk, rfl⟩
      exact .newArray ht hk
    · intro hr
      cases hr with
      | newArray ht hk => exact ⟨ht, hk, rfl⟩
  | index a i, r => by
    rw [infer_index_eq_ok]
    constructor
    · rintro ⟨x, t, rfl, hx, hi, rfl⟩
      exact .index (hasType_var_iff.mpr hx) ((infer_eq_ok_iff i _).mp hi)
    · intro hr
      cases hr with
      | index hx hi =>
        exact ⟨_, _, rfl, hasType_var_iff.mp hx, (infer_eq_ok_iff i _).mpr hi, rfl⟩
  | binop op e e', r => by
    rw [infer_binop_eq_ok, hasType_binop_iff]
    simp only [infer_eq_ok_iff e, infer_eq_ok_iff e']
  | unop op e, r => by
    rw [infer_unop_eq_ok, infer_eq_ok_iff e]
    constructor
    · rintro ⟨he, rfl⟩
      exact .unop he
    · intro hr
      cases hr with
      | unop he => exact ⟨he, rfl⟩

theorem checkArgs_eq_ok_iff {site : Construct} : ∀ (params : List Param) (args : List Expr),
    params.length = args.length →
      (checkArgs h Γ site params args = .ok () ↔ HasArgs h Γ params args)
  | [], [], _ => ⟨fun _ => .nil, fun _ => rfl⟩
  | p :: params, e :: args, hlen => by
    rw [checkArgs_cons_eq_ok]
    have hlen' : params.length = args.length := by simpa using hlen
    constructor
    · rintro ⟨t, he, hp, hargs⟩
      exact .cons ((infer_eq_ok_iff e _).mp he) hp ((checkArgs_eq_ok_iff params args hlen').mp hargs)
    · intro hr
      cases hr with
      | cons he hp hargs =>
        exact ⟨_, (infer_eq_ok_iff e _).mpr he, hp,
          (checkArgs_eq_ok_iff params args hlen').mpr hargs⟩
end

/-- A call asks the same of its parts at every site. -/
theorem inferCall_eq_ok_iff {site : Construct} {e : Expr} {m : String} {args : List Expr}
    {r : Option Ty} : inferCall h Γ site e m args = .ok r ↔ HasType h Γ (call e m args) r := by
  rw [← infer_eq_ok_iff, infer_call, inferCall_eq_ok, inferCall_eq_ok]
  apply exists₂_congr
  intro c d
  apply and_congr_right'
  apply and_congr_right'
  apply and_congr_right
  intro hlen
  rw [checkArgs_eq_ok_iff _ _ hlen, checkArgs_eq_ok_iff _ _ hlen]

/-- Inference answers with what the rules give, and with a fault where they give nothing. -/
theorem infer_iff_hasType (h : Hierarchy) (Γ : Scope) (e : Expr) :
    (∀ r, e.infer h Γ = .ok r ↔ HasType h Γ e r) ∧
      ((∃ d, e.infer h Γ = .error d) ↔ ¬ ∃ r, HasType h Γ e r) := by
  refine ⟨infer_eq_ok_iff e, ?_⟩
  simp only [← infer_eq_ok_iff]
  cases e.infer h Γ <;> simp

end ClassLang.Expr

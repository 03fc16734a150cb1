import ClassLang.Expr.Infer
import ClassLang.Expr.Rules
import Mathlib.Tactic.ByContra
import Mathlib.Tactic.SplitIfs

/-! # What a successful inference has found

One equivalence for each question that inference asks: it is answered without a fault if and only
if the stated facts hold. Proofs about inference use these and open no definition again. -/

namespace ClassLang

theorem bind_eq_ok {ε α β : Type} {x : Except ε α} {f : α → Except ε β} {b : β} :
    (x >>= f) = .ok b ↔ ∃ a, x = .ok a ∧ f a = .ok b := by
  cases x with
  | error e =>
    constructor
    · rintro ⟨⟩
    · rintro ⟨_, ⟨⟩, _⟩
  | ok a =>
    constructor
    · intro h
      exact ⟨a, rfl, h⟩
    · rintro ⟨_, ⟨⟩, h⟩
      exact h

theorem map_eq_ok {ε α β : Type} {x : Except ε α} {f : α → β} {b : β} :
    (f <$> x) = .ok b ↔ ∃ a, x = .ok a ∧ f a = b := by
  cases x <;> simp [Functor.map, Except.map]

theorem pure_eq_ok {ε α : Type} {a b : α} : (pure a : Except ε α) = .ok b ↔ b = a := by
  simp [pure, Except.pure, eq_comm]

theorem needValue_eq_ok {site : Construct} {r : Option Ty} {t : Ty} :
    needValue site r = .ok t ↔ r = some t := by
  cases r <;> simp [needValue]

theorem misfit?_eq_none {want : Ty} {r : Option Ty} : misfit? want r = none ↔ r = some want := by
  cases r <;> simp [misfit?]

theorem UnaryOp.result_eq_ok {op : UnaryOp} {operand t : Ty} :
    op.result operand = .ok t ↔ operand = op.ty ∧ t = op.ty := by
  unfold result
  split_ifs with hop <;> simp [hop, eq_comm]

namespace Hierarchy

theorem field?_eq_some {h : Hierarchy} {c x : String} {f : VarDecl} :
    h.field? c x = some f ↔ Nearest (·.field? x) (h.ancestors c) f :=
  nearest_iff.symm

theorem method?_eq_some {h : Hierarchy} {c m : String} {d : MethodDecl} :
    h.method? c m = some d ↔ Nearest (·.method? m) (h.ancestors c) d :=
  nearest_iff.symm

end Hierarchy

namespace Scope

variable {Γ : Scope} {h : Hierarchy} {site : Construct}

theorem className_eq_ok {c : String} : Γ.className site = .ok c ↔ Γ.self = some c := by
  unfold className
  cases Γ.self <;> simp

theorem typeOf_eq_ok {x : String} {t : Ty} :
    Γ.typeOf h site x = .ok t ↔ Γ.type? h x = some t := by
  unfold typeOf
  cases Γ.type? h x <;> simp

theorem classOfReceiver_eq_ok {r : Expr} {c : String} :
    Γ.classOfReceiver site r = .ok c ↔ Γ.Receiver r c := by
  cases r with
  | this =>
    rw [classOfReceiver, className_eq_ok]
    exact ⟨.this, fun | .this hc => hc⟩
  | var x =>
    have hvar : Γ.classOfReceiver site (.var x) = .ok c ↔ Γ.objects[x]? = some c := by
      rw [classOfReceiver]
      cases Γ.objects[x]? <;> simp
    rw [hvar]
    exact ⟨.var, fun | .var hc => hc⟩
  | _ =>
    constructor
    · rintro ⟨⟩
    · rintro ⟨⟩

/-- A name has the type of its declaration, or else of the nearest field of this name. -/
theorem type?_eq_some {x : String} {t : Ty} :
    Γ.type? h x = some t ↔ Γ.types[x]? = some t ∨ Γ.types[x]? = none ∧
      ∃ c f, Γ.self = some c ∧ Nearest (·.field? x) (h.ancestors c) f ∧ f.ty = t := by
  simp only [← Hierarchy.field?_eq_some]
  unfold type? ownField?
  cases Γ.types[x]? with
  | some s => simp
  | none => cases Γ.self <;> simp

theorem elementType_eq_ok {a : Expr} {t : Ty} :
    Γ.elementType h a = .ok t ↔ ∃ x, a = .var x ∧ Γ.type? h x = some (.array t) := by
  cases a with
  | var x =>
    rw [elementType, bind_eq_ok]
    constructor
    · rintro ⟨s, hs, hst⟩
      cases s with
      | array u =>
        cases hst
        exact ⟨x, rfl, typeOf_eq_ok.mp hs⟩
      | _ => cases hst
    · rintro ⟨_, hx, hs⟩
      cases hx
      exact ⟨_, typeOf_eq_ok.mpr hs, rfl⟩
  | _ =>
    constructor
    · rintro ⟨⟩
    · rintro ⟨_, ⟨⟩, _⟩

end Scope

namespace Hierarchy

variable {h : Hierarchy} {site : Construct}

theorem requireClass_eq_ok {t : Ty} :
    h.requireClass site t = .ok () ↔ h.Knows t := by
  cases t with
  | object c =>
    rw [requireClass]
    split_ifs with hc <;> simp [Knows, hc]
  | _ => simp [requireClass, Knows]

theorem selectField_eq_ok {x : String} {s t : Ty} :
    h.selectField x s = .ok t ↔ ∃ c f, s = .object c ∧ h.contains c = true ∧
      Nearest (·.field? x) (h.ancestors c) f ∧ f.ty = t := by
  cases s with
  | object c =>
    rw [selectField]
    split_ifs with hc
    · simp only [← field?_eq_some]
      cases hf : h.field? c x <;> simp [hc, hf]
    · simp [hc]
  | _ => simp [selectField]

theorem acceptArg_eq_ok {param arg : Ty} :
    h.acceptArg site param arg = .ok () ↔ h.Accepts param arg := by
  unfold acceptArg
  cases hshape : param.sameShape arg with
  | false =>
    constructor
    · rintro ⟨⟩
    · intro haccepts
      rw [sameShape_of_assignable haccepts.assignable] at hshape
      cases hshape
  | true =>
    simp only [Bool.true_eq_false, if_false, bind_eq_ok]
    constructor
    · rintro ⟨_, hparam, _, harg, hassign⟩
      refine ⟨?_, requireClass_eq_ok.mp hparam, requireClass_eq_ok.mp harg⟩
      by_contra hnot
      rw [if_pos (by simpa using hnot)] at hassign
      cases hassign
    · rintro ⟨hassign, hparam, harg⟩
      refine ⟨(), requireClass_eq_ok.mpr hparam, (), requireClass_eq_ok.mpr harg, ?_⟩
      simp [hassign, pure, Except.pure]

theorem resolve_eq_ok {className m : String} {arity : Nat} {d : MethodDecl} :
    h.resolve site className m arity = .ok d ↔
      Nearest (·.method? m) (h.ancestors className) d ∧ d.params.length = arity := by
  rw [← method?_eq_some]
  unfold resolve
  cases h.method? className m with
  | none => simp
  | some d' =>
    simp only
    split_ifs with hlen
    · constructor
      · rintro ⟨⟩
        exact ⟨rfl, hlen⟩
      · rintro ⟨⟨⟩, -⟩
        rfl
    · constructor
      · rintro ⟨⟩
      · rintro ⟨⟨⟩, hd⟩
        exact absurd hd hlen

end Hierarchy

theorem BinaryOp.result_eq_ok {op : BinaryOp} {h : Hierarchy} {s t u : Ty} :
    op.result h s t = .ok u ↔ h.comparable s t = true ∧
      (op.isArithmetic = true ∧ s = .int ∧ u = .int ∨
        op.isArithmetic = false ∧ (op.isLogical = true → s ≠ .int) ∧ u = .bool) := by
  unfold result
  cases h.comparable s t <;> cases op.isArithmetic <;> cases op.isLogical <;>
    by_cases hs : s = .int <;> simp [hs, eq_comm]

theorem BinaryOp.isArithmetic_of_isLogical {op : BinaryOp} (hop : op.isLogical = true) :
    op.isArithmetic = false := by
  cases op with
  | and => rfl
  | or => rfl
  | _ => cases hop

/-- Of two comparable types the one is the integers if and only if the other is. -/
theorem Hierarchy.eq_int_iff_of_comparable {h : Hierarchy} {s t : Ty}
    (hst : h.comparable s t = true) : s = .int ↔ t = .int := by
  cases s <;> cases t <;> simp_all [comparable, assignable]

namespace Expr

variable {h : Hierarchy} {Γ : Scope} {r : Option Ty}

theorem infer_var_eq_ok {x : String} :
    (var x).infer h Γ = .ok r ↔ ∃ t, Γ.type? h x = some t ∧ r = some t := by
  rw [infer, bind_eq_ok]
  simp only [Scope.typeOf_eq_ok, pure_eq_ok]

theorem infer_this_eq_ok :
    this.infer h Γ = .ok r ↔ ∃ c, Γ.self = some c ∧ r = some (.object c) := by
  rw [infer, bind_eq_ok]
  simp only [Scope.className_eq_ok, pure_eq_ok]

theorem infer_field_eq_ok {e : Expr} {x : String} :
    (field e x).infer h Γ = .ok r ↔ e.isReference = true ∧ ∃ c f,
      e.infer h Γ = .ok (some (.object c)) ∧ h.contains c = true ∧
        Nearest (·.field? x) (h.ancestors c) f ∧ r = some f.ty := by
  rw [infer]
  split_ifs with href
  · simp only [bind_eq_ok, needValue_eq_ok, Hierarchy.selectField_eq_ok, pure_eq_ok]
    constructor
    · rintro ⟨_, he, _, rfl, _, ⟨c, f, rfl, hc, hf, rfl⟩, rfl⟩
      exact ⟨href, c, f, he, hc, hf, rfl⟩
    · rintro ⟨-, c, f, he, hc, hf, rfl⟩
      exact ⟨_, he, _, rfl, _, ⟨c, f, rfl, hc, hf, rfl⟩, rfl⟩
  · simp [href]

theorem infer_newObject_eq_ok {c : String} :
    (newObject c).infer h Γ = .ok r ↔ h.contains c = true ∧ r = some (.object c) := by
  rw [infer]
  split_ifs with hc <;> simp [hc, eq_comm]

theorem infer_newArray_eq_ok {t : Ty} {k : Int} :
    (newArray t k).infer h Γ = .ok r ↔ t.isPrimitive = true ∧ 0 ≤ k ∧ r = some (.array t) := by
  rw [infer]
  split_ifs with ht hk
  · simp [ht]
  · have hneg : ¬ 0 ≤ k := by omega
    simp [hneg]
  · have hnonneg : 0 ≤ k := by omega
    simp [ht, hnonneg, eq_comm]

/-- Where one type is wanted and all else is refused. A string literal is refused before its type
is asked for, and it has none. -/
theorem misfit?_bind_eq_ok {β : Type} {want : Ty} {e : Expr}
    {k : Option String → Except Diagnostic β} {b : β} (hk : ∀ s, k (some s) ≠ .ok b) :
    (if e.isText then pure (some "String") >>= k else misfit? want <$> e.infer h Γ >>= k) = .ok b ↔
      e.infer h Γ = .ok (some want) ∧ k none = .ok b := by
  cases htext : e.isText with
  | true =>
    cases e <;> simp only [isText, Bool.false_eq_true] at htext
    simpa [infer] using hk "String"
  | false =>
    simp only [Bool.false_eq_true, if_false, bind_eq_ok, map_eq_ok]
    constructor
    · rintro ⟨found, ⟨t, he, rfl⟩, hb⟩
      cases hfound : misfit? want t with
      | none => exact ⟨misfit?_eq_none.mp hfound ▸ he, hfound ▸ hb⟩
      | some s => exact absurd (hfound ▸ hb) (hk s)
    · rintro ⟨he, hb⟩
      exact ⟨none, ⟨_, he, misfit?_eq_none.mpr rfl⟩, hb⟩

theorem infer_index_eq_ok {a i : Expr} :
    (index a i).infer h Γ = .ok r ↔ ∃ x t, a = var x ∧ Γ.type? h x = some (.array t) ∧
      i.infer h Γ = .ok (some .int) ∧ r = some t := by
  rw [infer, bind_eq_ok]
  constructor
  · rintro ⟨t, ha, hi⟩
    obtain ⟨x, rfl, hx⟩ := Scope.elementType_eq_ok.mp ha
    obtain ⟨hi, hr⟩ := (misfit?_bind_eq_ok (by rintro _ ⟨⟩)).mp hi
    exact ⟨x, t, rfl, hx, hi, pure_eq_ok.mp hr⟩
  · rintro ⟨x, t, rfl, hx, hi, rfl⟩
    refine ⟨t, Scope.elementType_eq_ok.mpr ⟨x, rfl, hx⟩, ?_⟩
    exact (misfit?_bind_eq_ok (by rintro _ ⟨⟩)).mpr ⟨hi, rfl⟩

theorem infer_binop_eq_ok {op : BinaryOp} {e e' : Expr} :
    (binop op e e').infer h Γ = .ok r ↔ ∃ s t u, e.infer h Γ = .ok (some s) ∧
      e'.infer h Γ = .ok (some t) ∧ op.result h s t = .ok u ∧ r = some u := by
  rw [infer]
  simp only [bind_eq_ok, needValue_eq_ok, pure_eq_ok]
  constructor
  · rintro ⟨_, he, s, rfl, _, he', t, rfl, u, hu, rfl⟩
    exact ⟨s, t, u, he, he', hu, rfl⟩
  · rintro ⟨s, t, u, he, he', hu, rfl⟩
    exact ⟨_, he, s, rfl, _, he', t, rfl, u, hu, rfl⟩

theorem infer_unop_eq_ok {op : UnaryOp} {e : Expr} :
    (unop op e).infer h Γ = .ok r ↔ e.infer h Γ = .ok (some op.ty) ∧ r = some op.ty := by
  rw [infer]
  simp only [bind_eq_ok, needValue_eq_ok, UnaryOp.result_eq_ok, pure_eq_ok]
  constructor
  · rintro ⟨_, he, _, rfl, _, ⟨rfl, rfl⟩, rfl⟩
    exact ⟨he, rfl⟩
  · rintro ⟨he, rfl⟩
    exact ⟨_, he, _, rfl, _, ⟨rfl, rfl⟩, rfl⟩

theorem checkArgs_cons_eq_ok {site : Construct} {p : Param} {params : List Param} {e : Expr}
    {args : List Expr} :
    checkArgs h Γ site (p :: params) (e :: args) = .ok () ↔
      ∃ t, e.infer h Γ = .ok (some t) ∧ h.Accepts p.ty t ∧
        checkArgs h Γ site params args = .ok () := by
  rw [checkArgs]
  simp only [bind_eq_ok, needValue_eq_ok]
  constructor
  · rintro ⟨_, he, t, rfl, _, haccepts, hargs⟩
    exact ⟨t, he, Hierarchy.acceptArg_eq_ok.mp haccepts, hargs⟩
  · rintro ⟨t, he, haccepts, hargs⟩
    exact ⟨_, he, t, rfl, (), Hierarchy.acceptArg_eq_ok.mpr haccepts, hargs⟩

theorem inferCall_eq_ok {site : Construct} {e : Expr} {m : String} {args : List Expr} :
    inferCall h Γ site e m args = .ok r ↔ ∃ c d, Γ.Receiver e c ∧
      Nearest (·.method? m) (h.ancestors c) d ∧ d.params.length = args.length ∧
        checkArgs h Γ site d.params args = .ok () ∧ r = d.ret := by
  rw [inferCall]
  simp only [bind_eq_ok, Scope.classOfReceiver_eq_ok, Hierarchy.resolve_eq_ok, pure_eq_ok]
  constructor
  · rintro ⟨c, hc, d, ⟨hd, hlen⟩, _, hargs, rfl⟩
    exact ⟨c, d, hc, hd, hlen, hargs, rfl⟩
  · rintro ⟨c, d, hc, hd, hlen, hargs, rfl⟩
    exact ⟨c, hc, d, ⟨hd, hlen⟩, (), hargs, rfl⟩

end Expr
end ClassLang

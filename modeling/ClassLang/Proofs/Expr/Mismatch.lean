import ClassLang.Proofs.Expr.Faults
import ClassLang.Proofs.Expr.Typing
import ClassLang.Proofs.Renaming.Syntax

/-! # Mismatches of expressions

The two sides of a mismatch are texts, and an object type is written as its class name alone. As
long as class names are plain, different types have different texts, and no type is written like a
word that stands beside it in a diagnostic. A mismatch then never says that something was found
instead of itself. -/

namespace ClassLang

/-! ## Plain names -/

/-- The name is not written like another type, and like no other word of a diagnostic. -/
def PlainName (c : String) : Prop :=
  (∀ ch ∈ c.toList, ch ≠ ' ' ∧ ch ≠ '[' ∧ ch ≠ ']') ∧ c ∉ ["int", "boolean", "void", "array"]

def AllPlain (names : List String) : Prop :=
  ∀ c ∈ names, PlainName c

theorem allPlain_append {names names' : List String} :
    AllPlain (names ++ names') ↔ AllPlain names ∧ AllPlain names' :=
  List.forall_mem_append

theorem AllPlain.of_flatMap {α : Type} {names : α → List String} {as : List α}
    (h : AllPlain (as.flatMap names)) {a : α} (ha : a ∈ as) : AllPlain (names a) :=
  fun c hc => h c (List.mem_flatMap.mpr ⟨a, ha, hc⟩)

theorem AllPlain.of_elim {α : Type} {names : α → List String} {o : Option α}
    (h : AllPlain (o.elim [] names)) {a : α} (ha : o = some a) : AllPlain (names a) := by
  rwa [ha] at h

theorem PlainName.not_mem {c : String} (hc : PlainName c) : ' ' ∉ c.toList ∧ '[' ∉ c.toList :=
  ⟨fun h => (hc.1 _ h).1 rfl, fun h => (hc.1 _ h).2.1 rfl⟩

namespace Ty

def Plain (t : Ty) : Prop :=
  AllPlain t.classNames

theorem plain_object {c : String} : (object c).Plain ↔ PlainName c :=
  List.forall_mem_singleton

theorem plain_of_isPrimitive {t : Ty} (ht : t.isPrimitive = true) : t.Plain := by
  cases t with
  | int | bool => exact List.forall_mem_nil _
  | array | object => cases ht

theorem Plain.ne_of_mem {c w : String} (hc : (object c).Plain)
    (hw : w ∈ ["int", "boolean", "void", "array"]) : w ≠ c := by
  rintro rfl
  exact (plain_object.mp hc).2 hw

/-- An array is written with brackets, unlike all words and names. -/
theorem ne_render_array {w : String} (hw : '[' ∉ w.toList) (t : Ty) : w ≠ (array t).render := by
  rintro rfl
  simp [render] at hw

theorem Plain.void_ne {t : Ty} (ht : t.Plain) : "void" ≠ t.render := by
  cases t with
  | int | bool => decide
  | array t => exact ne_render_array (by decide) t
  | object c => exact ht.ne_of_mem (by decide)

theorem Plain.space_notMem {t : Ty} (ht : t.Plain) : ' ' ∉ t.render.toList := by
  induction t with
  | int | bool => decide
  | array t ih => simpa [render] using ih ht
  | object c => exact (plain_object.mp ht).not_mem.1

theorem Plain.ne_of_space {t : Ty} (ht : t.Plain) {w : String} (hw : ' ' ∈ w.toList) :
    w ≠ t.render := by
  rintro rfl
  exact ht.space_notMem hw

/-- The written form of a type tells the type. -/
theorem Plain.eq_of_render_eq {s t : Ty} (hs : s.Plain) (ht : t.Plain)
    (heq : s.render = t.render) : s = t := by
  induction s generalizing t with
  | int =>
    cases t with
    | int => rfl
    | bool => exact absurd heq (by decide)
    | array t => exact absurd heq (ne_render_array (by decide) t)
    | object c => exact absurd heq (ht.ne_of_mem (by decide))
  | bool =>
    cases t with
    | int => exact absurd heq (by decide)
    | bool => rfl
    | array t => exact absurd heq (ne_render_array (by decide) t)
    | object c => exact absurd heq (ht.ne_of_mem (by decide))
  | array s ih =>
    cases t with
    | int | bool => exact absurd heq.symm (ne_render_array (by decide) s)
    | array t =>
      rw [render, render, String.append_left_inj] at heq
      have hst : s = t := ih hs ht heq
      rw [hst]
    | object c =>
      exact absurd heq.symm (ne_render_array (plain_object.mp ht).not_mem.2 s)
  | object c =>
    cases t with
    | int | bool => exact absurd heq.symm (hs.ne_of_mem (by decide))
    | array t => exact absurd heq (ne_render_array (plain_object.mp hs).not_mem.2 t)
    | object d => exact congrArg object heq

theorem Plain.render_ne {s t : Ty} (hs : s.Plain) (ht : t.Plain) (hne : s ≠ t) :
    s.render ≠ t.render :=
  fun heq => hne (hs.eq_of_render_eq ht heq)

theorem ne_of_sameShape {s t : Ty} (hst : s.sameShape t = false) : s ≠ t := by
  rintro rfl
  rw [sameShape_self] at hst
  cases hst

end Ty

theorem UnaryOp.plain_ty (op : UnaryOp) : op.ty.Plain := by
  cases op <;> exact Ty.plain_of_isPrimitive rfl

/-- No kind of expression is called by more than one word. -/
theorem Expr.ne_kind_of_space {w : String} (hw : ' ' ∈ w.toList) (e : Expr) : w ≠ e.kind := by
  rintro rfl
  cases e <;> simp [kind] at hw

theorem Hierarchy.ne_of_assignable {h : Hierarchy} {s t : Ty} (hst : h.assignable s t = false) :
    s ≠ t := by
  rintro rfl
  rw [assignable_self] at hst
  cases hst

theorem Hierarchy.ne_of_comparable {h : Hierarchy} {s t : Ty} (hst : h.comparable s t = false) :
    s ≠ t := by
  rw [comparable, Bool.or_eq_false_iff] at hst
  exact ne_of_assignable hst.1

/-! ## Plain hierarchies and scopes -/

def Hierarchy.Plain (h : Hierarchy) : Prop :=
  ∀ k ∈ h.placed, AllPlain k.classNames

/-- The class of `this` and the types of the declared names. Which classes names can be called on
does not matter, as these are not written in a mismatch. -/
structure Scope.Plain (Γ : Scope) : Prop where
  self : ∀ c, Γ.self = some c → PlainName c
  types : ∀ (x : String) (t : Ty), Γ.types[x]? = some t → t.Plain

theorem ClassDecl.plain_parts {c : ClassDecl} (hc : AllPlain c.classNames) :
    PlainName c.name ∧ (∀ v ∈ c.fields, AllPlain v.classNames) ∧
      ∀ m ∈ c.methods, AllPlain m.classNames := by
  rw [classNames, allPlain_append, allPlain_append] at hc
  obtain ⟨⟨hname, hfields⟩, hmethods⟩ := hc
  exact ⟨hname _ List.mem_cons_self, fun v hv => hfields.of_flatMap hv,
    fun m hm => hmethods.of_flatMap hm⟩

theorem VarDecl.plain_parts {v : VarDecl} (hv : AllPlain v.classNames) :
    v.ty.Plain ∧ ∀ e, v.init = some e → AllPlain e.classNames := by
  rw [classNames, allPlain_append] at hv
  exact ⟨hv.1, fun e he => hv.2.of_elim he⟩

theorem MethodDecl.plain_parts {m : MethodDecl} (hm : AllPlain m.classNames) :
    (∀ p ∈ m.params, p.ty.Plain) ∧ (∀ t, m.ret = some t → t.Plain) ∧
      (∀ v ∈ m.locals, AllPlain v.classNames) ∧ ∀ st ∈ m.body, AllPlain st.classNames := by
  rw [classNames, allPlain_append, allPlain_append, Signature.classNames, allPlain_append] at hm
  obtain ⟨⟨⟨hparams, hret⟩, hlocals⟩, hbody⟩ := hm
  exact ⟨fun p hp => hparams.of_flatMap hp, fun t ht => hret.of_elim ht,
    fun v hv => hlocals.of_flatMap hv, fun st hst => hbody.of_flatMap hst⟩

section Inferred

variable {h : Hierarchy} {Γ : Scope}

theorem Hierarchy.Plain.name (hh : h.Plain) {c : String} (hc : h.contains c = true) :
    PlainName c := by
  obtain ⟨k, hk, rfl⟩ := contains_iff.mp hc
  exact (ClassDecl.plain_parts (hh k hk)).1

theorem Hierarchy.Plain.field (hh : h.Plain) {c x : String} {f : VarDecl}
    (hf : Nearest (·.field? x) (h.ancestors c) f) : f.ty.Plain := by
  obtain ⟨below, k, above, hchain, hfield, -⟩ := hf
  have hk : k ∈ h.placed := mem_of_mem_chain (show k ∈ h.ancestors c by simp [hchain])
  have hf : f ∈ k.fields := List.mem_of_find?_eq_some hfield
  exact (VarDecl.plain_parts ((ClassDecl.plain_parts (hh k hk)).2.1 f hf)).1

theorem Hierarchy.Plain.method (hh : h.Plain) {c m : String} {d : MethodDecl}
    (hd : Nearest (·.method? m) (h.ancestors c) d) :
    (∀ p ∈ d.params, p.ty.Plain) ∧ ∀ t, d.ret = some t → t.Plain := by
  obtain ⟨k, hk, hdk⟩ := exists_class_of_method? (method?_eq_some.mpr hd)
  obtain ⟨hparams, hret, -⟩ := MethodDecl.plain_parts ((ClassDecl.plain_parts (hh k hk)).2.2 d hdk)
  exact ⟨hparams, hret⟩

theorem HasType.plain_of_var (hh : h.Plain) (hΓ : Γ.Plain) {x : String} {t : Ty}
    (hx : HasType h Γ (.var x) (some t)) : t.Plain := by
  cases hx with
  | var hx => exact hΓ.types x t hx
  | ownField _ _ hf => exact hh.field hf

/-- Types come from declarations, whatever the expression says. -/
theorem HasType.plain (hh : h.Plain) (hΓ : Γ.Plain) {e : Expr} {r : Option Ty}
    (he : HasType h Γ e r) : ∀ t, r = some t → t.Plain := by
  intro t ht
  cases he with
  | int | bool | arithmetic | logical | comparison =>
    cases ht
    exact Ty.plain_of_isPrimitive rfl
  | @unop op =>
    cases ht
    exact op.plain_ty
  | var hx =>
    cases ht
    exact plain_of_var hh hΓ (.var hx)
  | ownField _ _ hf | field _ _ _ hf =>
    cases ht
    exact hh.field hf
  | this hc =>
    cases ht
    exact Ty.plain_object.mpr (hΓ.self _ hc)
  | newObject hc =>
    cases ht
    exact Ty.plain_object.mpr (hh.name hc)
  | @newArray u _ hu _ =>
    cases ht
    exact (Ty.plain_of_isPrimitive hu : u.Plain)
  | index ha _ =>
    cases ht
    exact (plain_of_var hh hΓ ha : (Ty.array t).Plain)
  | call _ hd _ => exact (hh.method hd).2 t ht

theorem Expr.plain_of_infer (hh : h.Plain) (hΓ : Γ.Plain) {e : Expr} {r : Option Ty}
    (he : e.infer h Γ = .ok r) : ∀ t, r = some t → t.Plain :=
  ((infer_eq_ok_iff e r).mp he).plain hh hΓ

end Inferred

/-! ## Consistent diagnostics -/

/-- The diagnostic does not say of a text that it was found instead of itself. -/
def Diagnostic.Consistent (d : Diagnostic) : Prop :=
  match d.fault with
  | .typeMismatch expected received => expected ≠ received
  | .conditionNotBoolean received => received ≠ "boolean"
  | .indexNotInteger received => received ≠ "int"
  | _ => True

section Questions

variable {h : Hierarchy} {Γ : Scope} {site : Construct}

theorem needValue_consistent {r : Option Ty} :
    Faults Diagnostic.Consistent (needValue site r) := by
  cases r with
  | none => exact .error (show "value" ≠ "void" by decide)
  | some t => exact .ok

theorem BinaryOp.result_consistent {op : BinaryOp} {s t : Ty} (hs : s.Plain) (ht : t.Plain) :
    Faults Diagnostic.Consistent (op.result h s t) := by
  unfold result
  split_ifs with hcomp _ hint hlogical
  · exact .error (hs.render_ne ht (Hierarchy.ne_of_comparable hcomp))
  · exact .ok
  · exact .error (Ty.Plain.render_ne (Ty.plain_of_isPrimitive rfl) hs (Ne.symm hint))
  · have hint : s = .int := by simpa using (Bool.and_eq_true_iff.mp hlogical).2
    rw [hint]
    exact .error (show "boolean" ≠ "int" by decide)
  · exact .ok

theorem UnaryOp.result_consistent {op : UnaryOp} {t : Ty} (ht : t.Plain) :
    Faults Diagnostic.Consistent (op.result t) := by
  unfold result
  split_ifs with hop
  · exact .ok
  · exact .error (op.plain_ty.render_ne ht (Ne.symm hop))

/-- What is found instead of a primitive type is written otherwise. -/
theorem ne_render_of_misfit? {want : Ty} (hwant : want.isPrimitive = true) {r : Option Ty}
    (hr : ∀ t, r = some t → t.Plain) {received : String} (hm : misfit? want r = some received) :
    received ≠ want.render := by
  cases r with
  | none =>
    obtain rfl := Option.some.inj hm
    cases want with
    | int | bool => decide
    | array | object => cases hwant
  | some t =>
    rw [misfit?] at hm
    split_ifs at hm with hne
    obtain rfl := Option.some.inj hm
    exact (hr t rfl).render_ne (Ty.plain_of_isPrimitive hwant) hne

namespace Hierarchy

theorem requireClass_consistent {t : Ty} :
    Faults Diagnostic.Consistent (h.requireClass site t) := by
  cases t with
  | object c =>
    rw [requireClass]
    split_ifs
    · exact .ok
    · exact .error trivial
  | _ => exact .ok

theorem selectField_consistent {x : String} {t : Ty} :
    Faults Diagnostic.Consistent (h.selectField x t) := by
  cases t with
  | object c =>
    rw [selectField]
    split_ifs
    · cases h.field? c x with
      | none => exact .error trivial
      | some f => exact .ok
    · exact .error trivial
  | int | bool => exact .error (by decide : "object" ≠ _)
  | array t => exact .error (Ty.ne_render_array (by decide) t)

theorem acceptArg_consistent {param arg : Ty} (hparam : param.Plain) (harg : arg.Plain) :
    Faults Diagnostic.Consistent (h.acceptArg site param arg) := by
  unfold acceptArg
  cases hshape : param.sameShape arg with
  | false => exact .error (hparam.render_ne harg (Ty.ne_of_sameShape hshape))
  | true =>
    simp only [Bool.true_eq_false, if_false]
    refine .bind requireClass_consistent fun _ _ => ?_
    refine .bind requireClass_consistent fun _ _ => ?_
    split_ifs with hassign
    · exact .error (hparam.render_ne harg (ne_of_assignable hassign))
    · exact .ok

theorem resolve_consistent {c m : String} {arity : Nat} :
    Faults Diagnostic.Consistent (h.resolve site c m arity) := by
  unfold resolve
  cases h.method? c m with
  | none => exact .error trivial
  | some d =>
    simp only
    split_ifs
    · exact .ok
    · exact .error trivial

end Hierarchy

namespace Scope

theorem className_consistent : Faults Diagnostic.Consistent (Γ.className site) := by
  unfold className
  cases Γ.self with
  | none => exact .error trivial
  | some c => exact .ok

theorem typeOf_consistent {x : String} : Faults Diagnostic.Consistent (Γ.typeOf h site x) := by
  unfold typeOf
  cases Γ.type? h x with
  | none => exact .error trivial
  | some t => exact .ok

theorem classOfReceiver_consistent {r : Expr} :
    Faults Diagnostic.Consistent (Γ.classOfReceiver site r) := by
  cases r with
  | this => exact className_consistent
  | var x =>
    rw [classOfReceiver]
    cases Γ.objects[x]? with
    | none => exact .error trivial
    | some c => exact .ok
  | _ => exact .error (Expr.ne_kind_of_space (by decide) _)

theorem elementType_consistent (hh : h.Plain) (hΓ : Γ.Plain) {a : Expr} :
    Faults Diagnostic.Consistent (Γ.elementType h a) := by
  cases a with
  | var x =>
    refine .bind typeOf_consistent fun t ht => ?_
    cases t with
    | array t => exact .ok
    | int | bool => exact .error (by decide : "array" ≠ _)
    | object c =>
      have hx : (Expr.var x).infer h Γ = .ok (some (.object c)) :=
        Expr.infer_var_eq_ok.mpr ⟨_, typeOf_eq_ok.mp ht, rfl⟩
      have hc := Expr.plain_of_infer hh hΓ hx _ rfl
      exact .error (hc.ne_of_mem (by decide))
  | _ => exact .error (Expr.ne_kind_of_space (by decide) _)

end Scope

end Questions

namespace Expr

variable {h : Hierarchy} {Γ : Scope}

theorem misfit?_bind_consistent (hh : h.Plain) (hΓ : Γ.Plain) {β : Type} {want : Ty}
    (hwant : want.isPrimitive = true) {e : Expr} {k : Option String → Except Diagnostic β}
    (he : Faults Diagnostic.Consistent (e.infer h Γ))
    (hk : ∀ found, found ≠ some want.render → Faults Diagnostic.Consistent (k found)) :
    Faults Diagnostic.Consistent (if e.isText then pure (some "String") >>= k
      else misfit? want <$> e.infer h Γ >>= k) := by
  split_ifs
  · apply hk
    cases want with
    | int | bool => decide
    | array | object => cases hwant
  · refine .bind (.map he) fun found hfound => hk found ?_
    rintro rfl
    obtain ⟨r, hr, hm⟩ := map_eq_ok.mp hfound
    exact ne_render_of_misfit? hwant (plain_of_infer hh hΓ hr) hm rfl

theorem inferCall_consistent_of_args (hh : h.Plain) {site : Construct} {r : Expr} {m : String}
    {args : List Expr} (hargs : ∀ params : List Param, (∀ p ∈ params, p.ty.Plain) →
      Faults Diagnostic.Consistent (checkArgs h Γ site params args)) :
    Faults Diagnostic.Consistent (inferCall h Γ site r m args) := by
  refine .bind Scope.classOfReceiver_consistent fun c _ => ?_
  refine .bind Hierarchy.resolve_consistent fun d hd => ?_
  obtain ⟨hmethod, -⟩ := Hierarchy.resolve_eq_ok.mp hd
  exact .bind (hargs d.params (hh.method hmethod).1) fun _ _ => .ok

mutual
theorem infer_consistent (hh : h.Plain) (hΓ : Γ.Plain) : ∀ e : Expr, AllPlain e.classNames →
    Faults Diagnostic.Consistent (e.infer h Γ)
  | int _, _ => .ok
  | bool _, _ => .ok
  | str _, _ => .error trivial
  | var x, _ => by
    rw [infer]
    exact .bind Scope.typeOf_consistent fun _ _ => .ok
  | this, _ => by
    rw [infer]
    exact .bind Scope.className_consistent fun _ _ => .ok
  | field r x, he => by
    rw [infer]
    split_ifs
    · refine .bind (infer_consistent hh hΓ r he) fun _ _ => ?_
      refine .bind needValue_consistent fun _ _ => ?_
      exact .bind Hierarchy.selectField_consistent fun _ _ => .ok
    · exact .error (ne_kind_of_space (by decide) r)
  | call r m args, he => by
    rw [classNames, allPlain_append] at he
    rw [infer_call]
    apply inferCall_consistent_of_args hh
    exact fun params hparams => checkArgs_consistent hh hΓ .call params args hparams he.2
  | newObject c, _ => by
    rw [infer]
    split_ifs
    · exact .ok
    · exact .error trivial
  | newArray t k, he => by
    rw [infer]
    split_ifs
    · exact .error (Ty.Plain.ne_of_space he (by decide))
    · exact .error trivial
    · exact .ok
  | index a i, he => by
    rw [classNames, allPlain_append] at he
    rw [infer]
    refine .bind (Scope.elementType_consistent hh hΓ) fun _ _ => ?_
    refine misfit?_bind_consistent hh hΓ rfl (infer_consistent hh hΓ i he.2) fun found hne => ?_
    cases found with
    | none => exact .ok
    | some received => exact .error fun heq : received = "int" => hne (congrArg some heq)
  | binop op l r, he => by
    rw [classNames, allPlain_append] at he
    rw [infer]
    refine .bind (infer_consistent hh hΓ l he.1) fun _ hl => ?_
    refine .bind needValue_consistent fun s hs => ?_
    refine .bind (infer_consistent hh hΓ r he.2) fun _ hr => ?_
    refine .bind needValue_consistent fun t ht => ?_
    have hsp : s.Plain := plain_of_infer hh hΓ hl s (needValue_eq_ok.mp hs)
    have htp : t.Plain := plain_of_infer hh hΓ hr t (needValue_eq_ok.mp ht)
    exact .bind (BinaryOp.result_consistent hsp htp) fun _ _ => .ok
  | unop op e, he => by
    rw [infer]
    refine .bind (infer_consistent hh hΓ e he) fun _ hr => ?_
    refine .bind needValue_consistent fun t ht => ?_
    have htp : t.Plain := plain_of_infer hh hΓ hr t (needValue_eq_ok.mp ht)
    exact .bind (UnaryOp.result_consistent htp) fun _ _ => .ok

theorem checkArgs_consistent (hh : h.Plain) (hΓ : Γ.Plain) (site : Construct) :
    ∀ (params : List Param) (args : List Expr), (∀ p ∈ params, p.ty.Plain) →
      AllPlain (allClassNames args) → Faults Diagnostic.Consistent (checkArgs h Γ site params args)
  | p :: params, e :: args, hparams, hargs => by
    rw [allClassNames, allPlain_append] at hargs
    obtain ⟨hp, hparams⟩ := List.forall_mem_cons.mp hparams
    rw [checkArgs]
    refine .bind (infer_consistent hh hΓ e hargs.1) fun _ hr => ?_
    refine .bind needValue_consistent fun t ht => ?_
    have htp : t.Plain := plain_of_infer hh hΓ hr t (needValue_eq_ok.mp ht)
    refine .bind (Hierarchy.acceptArg_consistent hp htp) fun _ _ => ?_
    exact checkArgs_consistent hh hΓ site params args hparams hargs.2
  | [], _, _, _ => by
    rw [checkArgs]
    · exact .ok
    · simp
  | _ :: _, [], _, _ => by
    rw [checkArgs]
    · exact .ok
    · simp
end

theorem inferValue_consistent (hh : h.Plain) (hΓ : Γ.Plain) {site : Construct} {e : Expr}
    (he : AllPlain e.classNames) : Faults Diagnostic.Consistent (e.inferValue h Γ site) :=
  .bind (infer_consistent hh hΓ e he) fun _ _ => needValue_consistent

theorem plain_of_inferValue (hh : h.Plain) (hΓ : Γ.Plain) {site : Construct} {e : Expr} {t : Ty}
    (he : e.inferValue h Γ site = .ok t) : t.Plain := by
  obtain ⟨r, hr, ht⟩ := bind_eq_ok.mp he
  exact plain_of_infer hh hΓ hr t (needValue_eq_ok.mp ht)

theorem inferCall_consistent (hh : h.Plain) (hΓ : Γ.Plain) {site : Construct} {r : Expr}
    {m : String} {args : List Expr} (hargs : AllPlain (allClassNames args)) :
    Faults Diagnostic.Consistent (inferCall h Γ site r m args) :=
  inferCall_consistent_of_args hh fun params hparams =>
    checkArgs_consistent hh hΓ site params args hparams hargs

end Expr
end ClassLang

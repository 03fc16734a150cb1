import ClassLang.Proofs.Checker.Acceptance
import ClassLang.Proofs.Hierarchy.Embedding

/-! # Adding classes

What is well typed in a hierarchy is well typed in every hierarchy that it lies within. Classes may
thus be added to an accepted program without looking at its own classes again. -/

namespace ClassLang

namespace Hierarchy.Embeds

variable {h h' : Hierarchy} (hemb : h.Embeds h')

include hemb

theorem knows {t : Ty} (ht : h.Knows t) : h'.Knows t :=
  fun c hc => hemb.contains (ht c hc)

theorem assignable {t s : Ty} (hts : h.assignable t s = true) : h'.assignable t s = true := by
  induction t generalizing s with
  | int | bool =>
    cases s <;> simp_all [Hierarchy.assignable]
  | array t ih =>
    cases s with
    | array s => exact ih hts
    | _ => cases hts
  | object c =>
    cases s with
    | object d =>
      rw [Hierarchy.assignable, Bool.or_eq_true] at hts ⊢
      exact hts.imp_right hemb.isAncestorOrSelf
    | _ => cases hts

theorem comparable {s t : Ty} (hst : h.comparable s t = true) : h'.comparable s t = true := by
  rw [Hierarchy.comparable, Bool.or_eq_true] at hst ⊢
  exact hst.imp hemb.assignable hemb.assignable

theorem accepts {t s : Ty} (hts : h.Accepts t s) : h'.Accepts t s :=
  ⟨hemb.assignable hts.assignable, hemb.knows hts.knows_param, hemb.knows hts.knows_arg⟩

theorem nearest_field {c x : String} {f : VarDecl}
    (hf : Nearest (·.field? x) (h.ancestors c) f) :
    ∃ f', Nearest (·.field? x) (h'.ancestors c) f' ∧ f'.ty = f.ty := by
  simp only [← Hierarchy.field?_eq_some] at hf ⊢
  exact hemb.field? hf

theorem nearest_method {c m : String} {d : MethodDecl}
    (hd : Nearest (·.method? m) (h.ancestors c) d) :
    ∃ d', Nearest (·.method? m) (h'.ancestors c) d' ∧ d'.toSignature = d.toSignature := by
  simp only [← Hierarchy.method?_eq_some] at hd ⊢
  exact hemb.method? hd

end Hierarchy.Embeds

section Typing

variable {h h' : Hierarchy} {Γ : Scope}

mutual
theorem HasType.mono (hemb : h.Embeds h') : ∀ {e : Expr} {r : Option Ty},
    HasType h Γ e r → HasType h' Γ e r
  | _, _, .int => .int
  | _, _, .bool => .bool
  | _, _, .var hx => .var hx
  | _, _, .ownField hx hc hf => by
    obtain ⟨f', hf', hty⟩ := hemb.nearest_field hf
    exact hty ▸ .ownField hx hc hf'
  | _, _, .this hc => .this hc
  | _, _, .field href hr hc hf => by
    obtain ⟨f', hf', hty⟩ := hemb.nearest_field hf
    exact hty ▸ .field href (hr.mono hemb) (hemb.contains hc) hf'
  | _, _, .newObject hc => .newObject (hemb.contains hc)
  | _, _, .newArray ht hk => .newArray ht hk
  | _, _, .index ha hi => .index (ha.mono hemb) (hi.mono hemb)
  | _, _, .arithmetic hop hl hr => .arithmetic hop (hl.mono hemb) (hr.mono hemb)
  | _, _, .logical hop hl hr hst hs ht =>
    .logical hop (hl.mono hemb) (hr.mono hemb) (hemb.comparable hst) hs ht
  | _, _, .comparison ha hop hl hr hst =>
    .comparison ha hop (hl.mono hemb) (hr.mono hemb) (hemb.comparable hst)
  | _, _, .unop he => .unop (he.mono hemb)
  | _, _, .call (d := d) hr hd hargs => by
    obtain ⟨d', hd', hsig⟩ := hemb.nearest_method hd
    have hret : d'.ret = d.ret := congrArg Signature.ret hsig
    have hparams : d'.params = d.params := congrArg Signature.params hsig
    exact hret ▸ .call hr hd' (hparams ▸ hargs.mono hemb)

theorem HasArgs.mono (hemb : h.Embeds h') : ∀ {params : List Param} {args : List Expr},
    HasArgs h Γ params args → HasArgs h' Γ params args
  | _, _, .nil => .nil
  | _, _, .cons he hp hargs => .cons (he.mono hemb) (hemb.accepts hp) (hargs.mono hemb)
end

theorem AssignFits.mono (hemb : h.Embeds h') {target value : Expr}
    (hfits : AssignFits h Γ target value) : AssignFits h' Γ target value := by
  obtain ⟨t, s, ht, hs, hassign⟩ := hfits
  refine ⟨t, s, ht.mono hemb, hs.mono hemb, ?_⟩
  intro u hu
  obtain ⟨w, hw, hwu⟩ := hassign u hu
  exact ⟨w, hw, hemb.assignable hwu⟩

theorem PrintFits.mono (hemb : h.Embeds h') {arg : Option Expr} (hfits : PrintFits h Γ arg) :
    PrintFits h' Γ arg := by
  cases arg with
  | none => trivial
  | some e =>
    rcases hfits with htext | ⟨t, ht, hprim⟩
    · exact .inl htext
    · exact .inr ⟨t, ht.mono hemb, hprim⟩

theorem ReturnFits.mono (hemb : h.Embeds h') {result : Option Ty} {value : Option Expr}
    (hfits : ReturnFits h Γ result value) : ReturnFits h' Γ result value := by
  cases result with
  | none => cases value <;> exact hfits
  | some t =>
    cases value with
    | none => exact hfits
    | some e =>
      obtain ⟨s, hs, hshape⟩ := hfits
      exact ⟨s, hs.mono hemb, hshape⟩

mutual
theorem Stmt.WellTyped.mono (hemb : h.Embeds h') {result : Option Ty} : ∀ {st : Stmt},
    st.WellTyped h Γ result → st.WellTyped h' Γ result
  | .block _, hst => Stmt.AllWellTyped.mono hemb hst
  | .assign .., hst => AssignFits.mono hemb hst
  | .call .., ⟨t, ht⟩ => ⟨t, ht.mono hemb⟩
  | .ifThen .., ⟨hcond, hthn⟩ => ⟨hcond.mono hemb, hthn.mono hemb⟩
  | .ifElse .., ⟨hcond, hthn, hels⟩ => ⟨hcond.mono hemb, hthn.mono hemb, hels.mono hemb⟩
  | .while .., ⟨hcond, hbody⟩ => ⟨hcond.mono hemb, hbody.mono hemb⟩
  | .print _, hst => PrintFits.mono hemb hst
  | .ret _, hst => ReturnFits.mono hemb hst

theorem Stmt.AllWellTyped.mono (hemb : h.Embeds h') {result : Option Ty} : ∀ {ss : List Stmt},
    Stmt.AllWellTyped h Γ result ss → Stmt.AllWellTyped h' Γ result ss
  | [], _ => trivial
  | _ :: _, ⟨hst, hss⟩ => ⟨Stmt.WellTyped.mono hemb hst, Stmt.AllWellTyped.mono hemb hss⟩
end

theorem VarDecl.WellTyped.mono (hemb : h.Embeds h') {v : VarDecl} (hv : v.WellTyped h Γ) :
    v.WellTyped h' Γ := by
  refine ⟨hemb.knows hv.knows, ?_⟩
  intro e he
  obtain ⟨t, ht, haccepts⟩ := hv.init e he
  exact ⟨t, ht.mono hemb, hemb.accepts haccepts⟩

theorem AllVarsWellTyped.mono (hemb : h.Embeds h') {vs : List VarDecl}
    (hvs : AllVarsWellTyped h Γ vs) : AllVarsWellTyped h' Γ vs := by
  induction vs generalizing Γ with
  | nil => trivial
  | cons v vs ih => exact ⟨hvs.1.mono hemb, ih hvs.2⟩

theorem MethodDecl.WellTyped.mono (hemb : h.Embeds h') {cls : Option String} {m : MethodDecl}
    (hm : m.WellTyped h cls) : m.WellTyped h' cls where
  params := fun p hp => hemb.knows (hm.params p hp)
  locals := hm.locals.mono hemb
  body := fun st hst => (hm.body st hst).mono hemb
  returns := hm.returns

theorem ClassDecl.WellTyped.mono (hemb : h.Embeds h') {c : ClassDecl} (hc : c.WellTyped h) :
    c.WellTyped h' where
  fields := hc.fields.mono hemb
  methods := fun m hm => (hc.methods m hm).mono hemb

end Typing

/-- Whatever the checker holds, a class passes if and only if it is well typed. -/
theorem ClassDecl.outcome_eq_ok_iff {h : Hierarchy} {c : ClassDecl} {s : Checker} :
    (c.check h).outcome s = .ok () ↔ c.WellTyped h := by
  rw [CheckM.outcome_eq_ok]
  simp [ClassDecl.check_eq_ok_iff]

/-- Classes added to an accepted program take nothing away from it: its own classes still pass, and
the whole is accepted if and only if the new classes pass, each in a new checker. -/
theorem Program.check_append_iff {p q : List ClassDecl} {h : Hierarchy}
    (hp : (Program.mk p).check = .ok ()) (hbuild : Hierarchy.build (p ++ q) = .ok h) :
    (∀ c ∈ p, (c.check h).outcome {} = .ok ()) ∧
      ((Program.mk (p ++ q)).check = .ok () ↔ ∀ c ∈ q, (c.check h).outcome {} = .ok ()) := by
  obtain ⟨h₀, hbuild₀, hclasses⟩ := Program.check_eq_ok_iff.mp hp
  have hemb : h₀.Embeds h := by
    apply (Hierarchy.arranges_of_build hbuild₀).embeds (Hierarchy.arranges_of_build hbuild)
    intro c hc
    exact ⟨c, List.mem_append_left q hc, .refl c⟩
  have hold : ∀ c ∈ p, c.WellTyped h := fun c hc => (hclasses c hc).mono hemb
  simp only [ClassDecl.outcome_eq_ok_iff]
  refine ⟨hold, ?_⟩
  rw [Program.check_eq_ok_iff]
  constructor
  · rintro ⟨h', hbuild', hall⟩ c hc
    obtain rfl : h = h' := Except.ok.inj (hbuild.symm.trans hbuild')
    exact hall c (List.mem_append_right p hc)
  · intro hnew
    refine ⟨h, hbuild, ?_⟩
    intro c hc
    rcases List.mem_append.mp hc with hc | hc
    · exact hold c hc
    · exact hnew c hc

/-- A class whose methods name a result type that is not declared with it. -/
def shelf : ClassDecl :=
  { name := "Shelf"
    methods := [
      { name := "first", ret := some (.object "Item"), body := [.ret (some .this)] },
      { name := "settled", ret := some .bool
        body := [.ret (some (.binop .eq (.call .this "first" []) (.call .this "first" [])))] }] }

/-- A class that declares the type, below the class that named it. -/
def item : ClassDecl :=
  { name := "Item", parent := some "Shelf"
    methods := [
      { name := "isFirst", params := [⟨.object "Shelf", "s"⟩], ret := some .bool
        body := [.ret (some (.binop .eq .this (.call (.var "s") "first" [])))] }] }

theorem build_shelf_item : Hierarchy.build ([shelf] ++ [item]) = .ok ⟨[item, shelf]⟩ := by
  simp [Hierarchy.build, firstRepeated?, firstOrphanParent?, settle, sweep, ClassDecl.isReady,
    shelf, item, Except.map]

theorem Program.check_append_item : (Program.mk [shelf]).check = .ok () ∧
    (∀ c ∈ [shelf], (c.check ⟨[item, shelf]⟩).outcome {} = .ok ()) ∧
      ((Program.mk ([shelf] ++ [item])).check = .ok () ↔
        ∀ c ∈ [item], (c.check ⟨[item, shelf]⟩).outcome {} = .ok ()) :=
  ⟨by decide +kernel, check_append_iff (by decide +kernel) build_shelf_item⟩

end ClassLang

import ClassLang.Proofs.Returns.Neutral

/-! # Inserting neutral statements

The evidence of a branch or a loop is found by a look at the statements that stand directly in it,
so what is put into a block could show in evidence that is recorded outside of it. A neutral
statement never does: wherever it is inserted the evidence stays the same, and with it the verdict.
If it is well typed, the check of the method takes no notice of it. -/

namespace ClassLang

/-- The statement `s` has been inserted into a block, which is the statement itself or stands
somewhere in it. The body of a method counts as a block. -/
inductive Stmt.Inserts (s : Stmt) : Stmt → Stmt → Prop
  | here {before after : List Stmt} :
      Inserts s (.block (before ++ after)) (.block (before ++ s :: after))
  | block {before after : List Stmt} {st st' : Stmt} (hst : Inserts s st st') :
      Inserts s (.block (before ++ st :: after)) (.block (before ++ st' :: after))
  | thenOnly {cond : Expr} {thn thn' : Stmt} (hthn : Inserts s thn thn') :
      Inserts s (.ifThen cond thn) (.ifThen cond thn')
  | thenBranch {cond : Expr} {thn thn' els : Stmt} (hthn : Inserts s thn thn') :
      Inserts s (.ifElse cond thn els) (.ifElse cond thn' els)
  | elseBranch {cond : Expr} {thn els els' : Stmt} (hels : Inserts s els els') :
      Inserts s (.ifElse cond thn els) (.ifElse cond thn els')
  | loop {cond : Expr} {body body' : Stmt} (hbody : Inserts s body body') :
      Inserts s (.while cond body) (.while cond body')

namespace CheckM

variable {α β : Type} {s : Checker}

theorem bind_congr {act : CheckM α} {next next' : α → CheckM β}
    (hnext : ∀ a t, act s = .ok a t → next a t = next' a t) :
    (act >>= next) s = (act >>= next') s := by
  rw [bind_apply, bind_apply]
  cases hact : act s with
  | ok a t => exact hnext a t hact
  | error d t => rfl

theorem askScope_bind_congr {f : Scope → Except Diagnostic α} {next next' : α → CheckM β}
    (hnext : ∀ a, next a s = next' a s) : (askScope f >>= next) s = (askScope f >>= next') s := by
  apply bind_congr
  intro a t ht
  obtain ⟨-, rfl⟩ := askScope_eq_ok.mp ht
  exact hnext a

theorem record_bind_apply (es : List Evidence) (next : Unit → CheckM β) :
    (record es >>= next) s = next () (s.record es) := by
  rw [bind_apply, record_apply]

theorem forM_append_congr {f : α → CheckM Unit} {before as bs : List α}
    (hrest : ∀ t, before.forM f s = .ok () t → as.forM f t = bs.forM f t) :
    (before ++ as).forM f s = (before ++ bs).forM f s := by
  simp only [List.forM_eq_forM, List.forM_append] at hrest ⊢
  exact bind_congr fun _ => hrest

end CheckM

variable {h : Hierarchy}

/-- The statement is well typed where the checker stands. -/
def Checker.Admits (h : Hierarchy) (c : Checker) (s : Stmt) : Prop :=
  s.WellTyped h c.scope c.returnType?

theorem Checker.Admits.record {c : Checker} {s : Stmt} (hc : c.Admits h s) (es : List Evidence) :
    (c.record es).Admits h s :=
  hc

theorem MethodDecl.checkBody_cons (st : Stmt) (body : List Stmt) :
    checkBody h (st :: body) =
      (do st.check h; if st.isReturn then CheckM.record [.ret] : CheckM Unit) >>=
        fun _ => checkBody h body :=
  rfl

/-- Statements behind others are come to with more evidence, if at all. -/
theorem MethodDecl.checkBody_append_congr {before as bs : List Stmt} {c : Checker}
    (hrest : ∀ es, checkBody h as (c.record es) = checkBody h bs (c.record es)) :
    checkBody h (before ++ as) c = checkBody h (before ++ bs) c := by
  apply CheckM.forM_append_congr
  intro t ht
  obtain ⟨-, rfl⟩ := checkBody_eq_ok.mp ht
  exact hrest _

namespace Stmt

theorem checkAll_append_congr {before as bs : List Stmt} {c : Checker}
    (hrest : ∀ es, checkAll h as (c.record es) = checkAll h bs (c.record es)) :
    checkAll h (before ++ as) c = checkAll h (before ++ bs) c := by
  simp only [checkAll_eq_forM] at hrest ⊢
  apply CheckM.forM_append_congr
  intro t ht
  rw [← checkAll_eq_forM] at ht
  obtain ⟨-, rfl⟩ := (checkAll_eq_ok_iff _ _ _).mp ht
  exact hrest _

variable {s st st' : Stmt} {body body' : List Stmt}

theorem check_of_neutral (hs : s.neutral = true) {c : Checker} (hc : c.Admits h s) :
    s.check h c = .ok () c := by
  rw [check_eq_ok_iff, evidence_of_neutral hs, Checker.record_nil]
  exact ⟨hc, rfl⟩

namespace Inserts

theorem isReturn_eq (hi : Inserts s st st') : st'.isReturn = st.isReturn := by
  cases hi <;> rfl

theorem isIf_eq (hi : Inserts s st st') : st'.isIf = st.isIf := by
  cases hi <;> rfl

/-! ## Evidence -/

theorem branchShape_eq (hs : s.neutral = true) (hi : Inserts s st st') :
    st'.branchShape = st.branchShape := by
  cases hi with
  | here => simp [branchShape, direct, not_isReturn_of_neutral hs, not_isIf_of_neutral hs]
  | block hst => exact branchShape_block_congr hst.isReturn_eq hst.isIf_eq
  | _ => rfl

theorem loopEvidence_eq (hs : s.neutral = true) (hi : Inserts s st st') :
    st'.loopEvidence = st.loopEvidence := by
  cases hi with
  | here => simp [loopEvidence, direct, not_isReturn_of_neutral hs]
  | block hst => exact loopEvidence_block_congr hst.isReturn_eq
  | _ => rfl

theorem thenEvidence_eq (hs : s.neutral = true) (hi : Inserts s st st') :
    st'.thenEvidence = st.thenEvidence := by
  rw [thenEvidence, thenEvidence, hi.branchShape_eq hs]

theorem elseEvidence_eq (hs : s.neutral = true) (hi : Inserts s st st') :
    st'.elseEvidence = st.elseEvidence := by
  rw [elseEvidence, elseEvidence, hi.branchShape_eq hs]

theorem evidence_eq (hs : s.neutral = true) (hi : Inserts s st st') :
    st'.evidence = st.evidence := by
  induction hi with
  | here => simp [evidence, evidenceAll_eq_flatMap, evidence_of_neutral hs]
  | block _ ih => simp [evidence, evidenceAll_eq_flatMap, ih]
  | thenOnly hthn ih => rw [evidence, evidence, hthn.thenEvidence_eq hs, ih]
  | thenBranch hthn ih => rw [evidence, evidence, hthn.thenEvidence_eq hs, ih]
  | elseBranch hels ih => rw [evidence, evidence, hels.elseEvidence_eq hs, ih]
  | loop hbody ih => rw [evidence, evidence, hbody.loopEvidence_eq hs, ih]

theorem bodyEvidence_eq (hs : s.neutral = true) (hi : Inserts s (.block body) (.block body')) :
    bodyEvidence body' = bodyEvidence body := by
  cases hi with
  | here => simp [bodyEvidence, evidence_of_neutral hs, not_isReturn_of_neutral hs]
  | block hst => simp [bodyEvidence, hst.evidence_eq hs, hst.isReturn_eq]

/-! ## Checks -/

/-- From a state that admits the inserted statement the check ends as before, whether it succeeds or
fails, and in the same state. -/
theorem check_eq (hs : s.neutral = true) (hi : Inserts s st st') {c : Checker}
    (hc : c.Admits h s) : st'.check h c = st.check h c := by
  -- All that a check changes on the way is the evidence, so the statement is admitted at its turn.
  induction hi generalizing c with
  | here =>
    apply checkAll_append_congr
    intro es
    rw [checkAll, CheckM.bind_apply, check_of_neutral hs (hc.record es)]
  | block _ ih =>
    apply checkAll_append_congr
    intro es
    rw [checkAll, checkAll, CheckM.bind_apply, CheckM.bind_apply, ih (hc.record es)]
  | thenOnly hthn ih =>
    rw [check, check, hthn.thenEvidence_eq hs]
    apply CheckM.askScope_bind_congr
    intro _
    rw [CheckM.record_bind_apply, CheckM.record_bind_apply, ih (hc.record _)]
  | thenBranch hthn ih =>
    rw [check, check, hthn.thenEvidence_eq hs]
    apply CheckM.askScope_bind_congr
    intro _
    rw [CheckM.record_bind_apply, CheckM.record_bind_apply, CheckM.bind_apply, CheckM.bind_apply,
      ih (hc.record _)]
  | elseBranch hels ih =>
    rw [check, check, hels.elseEvidence_eq hs]
    apply CheckM.askScope_bind_congr
    intro _
    rw [CheckM.record_bind_apply, CheckM.record_bind_apply]
    apply CheckM.bind_congr
    intro _ t ht
    obtain ⟨-, rfl⟩ := (check_eq_ok_iff _ _ _).mp ht
    rw [CheckM.record_bind_apply, CheckM.record_bind_apply, ih (((hc.record _).record _).record _)]
  | loop hbody ih =>
    rw [check, check, hbody.loopEvidence_eq hs]
    apply CheckM.askScope_bind_congr
    intro _
    rw [CheckM.record_bind_apply, CheckM.record_bind_apply, ih (hc.record _)]

theorem checkBody_eq (hs : s.neutral = true) (hi : Inserts s (.block body) (.block body'))
    {c : Checker} (hc : c.Admits h s) :
    MethodDecl.checkBody h body' c = MethodDecl.checkBody h body c := by
  cases hi with
  | here =>
    apply MethodDecl.checkBody_append_congr
    intro es
    rw [MethodDecl.checkBody_cons, CheckM.bind_apply, CheckM.bind_apply,
      check_of_neutral hs (hc.record es), not_isReturn_of_neutral hs]
    rfl
  | block hst =>
    apply MethodDecl.checkBody_append_congr
    intro es
    rw [MethodDecl.checkBody_cons, MethodDecl.checkBody_cons, hst.isReturn_eq, CheckM.bind_apply,
      CheckM.bind_apply, CheckM.bind_apply, CheckM.bind_apply, hst.check_eq hs (hc.record es)]

/-- A method is told the same with either body, if the statement is well typed there. -/
theorem methodCheck_eq (hs : s.neutral = true) (hi : Inserts s (.block body) (.block body'))
    {m : MethodDecl} {c : Checker} (hwell : s.WellTyped h (m.bodyScope c.scope.self) m.ret) :
    ({ m with body := body' } : MethodDecl).check h c =
      ({ m with body := body } : MethodDecl).check h c := by
  rw [MethodDecl.check, MethodDecl.check]
  apply CheckM.bind_congr
  intro _ s₁ h₁
  obtain rfl := CheckM.modify_eq_ok.mp h₁
  apply CheckM.bind_congr
  intro _ s₂ h₂
  obtain ⟨-, rfl⟩ := params_forM_eq_ok.mp h₂
  apply CheckM.bind_congr
  intro _ s₃ h₃
  obtain ⟨-, rfl⟩ := vars_forM_eq_ok.mp h₃
  rw [CheckM.bind_apply, CheckM.bind_apply, hi.checkBody_eq hs]
  · rfl
  · exact hwell

end Inserts

/-- A neutral statement, inserted anywhere in a body, leaves the evidence of the body and with it
the verdict as they are. In a method where it is well typed, the check ends as it did without it,
and in the same state. -/
theorem bodyEvidence_of_inserts (hs : s.neutral = true)
    (hi : Inserts s (.block body) (.block body')) :
    bodyEvidence body' = bodyEvidence body ∧
    verdict (bodyEvidence body') = verdict (bodyEvidence body) ∧
    ∀ (h : Hierarchy) (m : MethodDecl) (c : Checker), m.body = body →
      s.WellTyped h (m.bodyScope c.scope.self) m.ret →
        ({ m with body := body' } : MethodDecl).check h c = m.check h c := by
  have hevidence := hi.bodyEvidence_eq hs
  refine ⟨hevidence, congrArg verdict hevidence, ?_⟩
  rintro h m c rfl hwell
  exact hi.methodCheck_eq hs hwell

/-- A branch in a loop with nothing in its else-block. -/
def poll : MethodDecl :=
  { name := "poll", params := [⟨.bool, "go"⟩], ret := some .int
    body := [.while (.var "go")
        (.block [.ifElse (.var "go") (.block [.ret (some (.int 1))]) (.block [])]),
      .ret (some (.int 2))] }

def pause : Stmt :=
  .while (.var "go") (.block [.print none, .block []])

/-- The same with a pause in the else-block. -/
def patientBody : List Stmt :=
  [.while (.var "go")
      (.block [.ifElse (.var "go") (.block [.ret (some (.int 1))]) (.block [pause])]),
    .ret (some (.int 2))]

theorem pause_inserts : Inserts pause (.block poll.body) (.block patientBody) :=
  @Inserts.block pause [] [.ret (some (.int 2))] _ _
    (.loop (@Inserts.block pause [] [] _ _ (.elseBranch (@Inserts.here pause [] []))))

theorem poll_bodyEvidence : pause.neutral = true ∧
    Inserts pause (.block poll.body) (.block patientBody) ∧
    bodyEvidence patientBody = bodyEvidence poll.body ∧
    verdict (bodyEvidence patientBody) = true ∧
    ({ poll with body := patientBody } : MethodDecl).check {} {} = poll.check {} {} := by
  obtain ⟨hevidence, hverdict, hcheck⟩ := bodyEvidence_of_inserts rfl pause_inserts
  have hwell : pause.WellTyped {} (poll.bodyScope none) poll.ret :=
    ((check_eq_ok_iff pause ⟨poll.bodyScope none, poll.toSignature, []⟩ _).mp rfl).1
  exact ⟨rfl, pause_inserts, hevidence, hverdict, hcheck {} poll {} rfl hwell⟩

end Stmt
end ClassLang

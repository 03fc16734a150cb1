import ClassLang.Proofs.Checker.Acceptance
import ClassLang.Proofs.Expr.Faults
import ClassLang.Proofs.Hierarchy.Chains

/-! # Diagnostics tell the truth

The diagnostic of a refused program says something about the program that can be read off its text,
and it stands at a construct where such a fault belongs. -/

namespace ClassLang

/-- The class of this name, or one that its parent links lead to. -/
def Program.OnChain (p : Program) (c : String) (d : ClassDecl) : Prop :=
  ∃ k ∈ p.classes, k.name = c ∧ Relation.ReflTransGen (ParentLink p.classes) k d

/-- What the diagnostic says of the program is so. Of a name that is not found and of types that do
not match only the place is told. -/
def Diagnostic.Truthful (p : Program) (d : Diagnostic) : Prop :=
  d.site ≠ .this ∧ match d.fault with
    | .unknownClass c => c ∉ p.classes.map (·.name)
    | .duplicateClass c => 2 ≤ (p.classes.map (·.name)).count c ∧ d.site = .classDecl
    | .cyclicHierarchy cs =>
      cs ≠ [] ∧ (∀ c ∈ cs, c ∈ p.classes.map (·.name)) ∧
        (∀ k ∈ p.classes, k.name ∈ cs → ∃ q ∈ cs, k.parent = some q) ∧ d.site = .program
    | .unknownMethod c m =>
      c ∈ p.classes.map (·.name) ∧ (∀ k, p.OnChain c k → ∀ e ∈ k.methods, e.name ≠ m) ∧
        d.site.IsCall
    | .unknownField c x =>
      c ∈ p.classes.map (·.name) ∧ (∀ k, p.OnChain c k → ∀ f ∈ k.fields, f.name ≠ x) ∧
        d.site = .field
    | .arityMismatch expected received =>
      expected ≠ received ∧
        (∃ k ∈ p.classes, ∃ m ∈ k.methods, m.params.length = expected) ∧ d.site.IsCall
    | .negativeArrayLength k => k < 0 ∧ d.site = .newArray
    | .missingReturn n =>
      (∃ k ∈ p.classes, ∃ m ∈ k.methods, m.name = n ∧ m.ret.isSome = true ∧
        verdict (bodyEvidence m.body) = false) ∧ d.site = .methodDecl
    | .missingReturnValue _ | .unexpectedReturnValue => d.site = .ret
    | .conditionNotBoolean _ => d.site = .ifStmt ∨ d.site = .whileStmt
    | .indexNotInteger _ => d.site = .index
    | .unrecognizedNode n => n = "StrLit" ∧ d.site = .expr
    | .unknownName _ | .typeMismatch .. => True

/-! ## Faults of a run -/

namespace CheckM

/-- Every fault that the action may end with, from this checker, has the property. -/
def FaultsFrom {α : Type} (P : Diagnostic → Prop) (s : Checker) (act : CheckM α) : Prop :=
  ∀ d t, act s = .error d t → P d

namespace FaultsFrom

variable {α β : Type} {P : Diagnostic → Prop} {s : Checker}

theorem ask {f : Checker → Except Diagnostic α} (hf : Faults P (f s)) :
    FaultsFrom P s (ask f) := by
  intro d t hrun
  unfold CheckM.ask at hrun
  cases hfs : f s with
  | ok a => simp [hfs] at hrun
  | error d' =>
    rw [hfs] at hrun
    cases hrun
    exact hf d hfs

theorem modify_bind {f : Checker → Checker} {next : Unit → CheckM β}
    (hnext : FaultsFrom P (f s) (next ())) : FaultsFrom P s (modify f >>= next) :=
  hnext

theorem modify (f : Checker → Checker) : FaultsFrom P s (modify f : CheckM Unit) := by
  rintro d t ⟨⟩

theorem bind {act : CheckM Unit} {next : Unit → CheckM β} (hact : FaultsFrom P s act)
    (hnext : ∀ t, act s = .ok () t → FaultsFrom P t (next ())) :
    FaultsFrom P s (act >>= next) := by
  intro d t hrun
  rw [bind_apply] at hrun
  cases hs : act s with
  | ok a s' =>
    rw [hs] at hrun
    exact hnext s' hs d t hrun
  | error d' s' =>
    rw [hs] at hrun
    cases hrun
    exact hact d t hs

/-- What is asked changes nothing, so the next action starts from the same checker. -/
theorem ask_bind {f : Checker → Except Diagnostic Unit} {next : Unit → CheckM β}
    (hf : Faults P (f s)) (hnext : f s = .ok () → FaultsFrom P s (next ())) :
    FaultsFrom P s (CheckM.ask f >>= next) := by
  refine bind (ask hf) fun t hrun => ?_
  obtain ⟨hok, rfl⟩ := ask_eq_ok.mp hrun
  exact hnext hok

/-- An invariant that every element keeps when it passes is there when a later one fails. -/
theorem forM {I : Checker → Prop} {f : α → CheckM Unit} {as : List α}
    (hfaults : ∀ a ∈ as, ∀ s, I s → FaultsFrom P s (f a))
    (hkeep : ∀ a ∈ as, ∀ s t, I s → f a s = .ok () t → I t) (hs : I s) :
    FaultsFrom P s (as.forM f) := by
  induction as generalizing s with
  | nil => exact modify id
  | cons a as ih =>
    apply bind (hfaults a List.mem_cons_self s hs)
    intro t ha
    apply ih (fun b hb => hfaults b (List.mem_cons_of_mem a hb))
      (fun b hb => hkeep b (List.mem_cons_of_mem a hb))
    exact hkeep a List.mem_cons_self s t hs ha

end FaultsFrom

theorem forM_keeps {α : Type} {I : Checker → Prop} {f : α → CheckM Unit} {as : List α}
    (hkeep : ∀ a ∈ as, ∀ s t, I s → f a s = .ok () t → I t) {s t : Checker} (hs : I s)
    (hrun : as.forM f s = .ok () t) : I t := by
  induction as generalizing s with
  | nil =>
    cases hrun
    exact hs
  | cons a as ih =>
    obtain ⟨s', ha, has⟩ := CheckM.bind_eq_ok.mp hrun
    exact ih (fun b hb => hkeep b (List.mem_cons_of_mem a hb))
      (hkeep a List.mem_cons_self s s' hs ha) has

end CheckM

section Statements

variable {h : Hierarchy} {Γ : Scope} {s : Checker}

theorem checkAssign_faults (hΓ : Γ.Declared h) {target value : Expr} :
    Faults (Diagnostic.Justified h Γ) (checkAssign h target value Γ) := by
  refine .bind (Expr.infer_faults hΓ target) fun t _ => ?_
  refine .bind (Expr.infer_faults hΓ value) fun r _ => ?_
  cases r with
  | none => exact .ok
  | some u =>
    cases t with
    | none => exact .error (.typeMismatch (by decide))
    | some w =>
      simp only
      split_ifs
      · exact .ok
      · exact .error (.typeMismatch (by decide))

theorem checkCondition_faults (hΓ : Γ.Declared h) {site : Construct}
    (hsite : site = .ifStmt ∨ site = .whileStmt) {cond : Expr} :
    Faults (Diagnostic.Justified h Γ) (checkCondition h site cond Γ) := by
  apply Expr.misfit?_bind_faults (Expr.infer_faults hΓ cond)
  intro found
  cases found with
  | none => exact .ok
  | some received => exact .error (.conditionNotBoolean hsite)

theorem checkPrint_faults (hΓ : Γ.Declared h) {arg : Option Expr} :
    Faults (Diagnostic.Justified h Γ) (checkPrint h arg Γ) := by
  cases arg with
  | none => exact .ok
  | some e =>
    rw [checkPrint]
    split_ifs
    · exact .ok
    · refine .bind (Expr.inferValue_faults hΓ (by decide) e) fun t _ => ?_
      split_ifs
      · exact .ok
      · exact .error (.typeMismatch (by decide))

theorem checkReturn_faults (hs : s.scope.Declared h) {value : Option Expr} :
    Faults (Diagnostic.Justified h s.scope) (checkReturn h value s) := by
  unfold checkReturn
  cases value with
  | none =>
    cases s.returnType? with
    | none => exact .ok
    | some t => exact .error .missingReturnValue
  | some e =>
    cases s.returnType? with
    | none => exact .error .unexpectedReturnValue
    | some t =>
      refine .bind (Expr.inferValue_faults hs (by decide) e) fun u _ => ?_
      split_ifs
      · exact .ok
      · exact .error (.typeMismatch (by decide))

theorem checkInit_faults (hΓ : Γ.Declared h) {t : Ty} {e : Expr} :
    Faults (Diagnostic.Justified h Γ) (checkInit h t e Γ) := by
  refine .bind (Expr.inferValue_faults hΓ (by decide) e) fun u _ => ?_
  refine .bind (Hierarchy.requireClass_faults (by decide)) fun _ _ => ?_
  split_ifs
  · exact .ok
  · exact .error (.typeMismatch (by decide))

namespace Stmt

mutual
theorem check_faults : ∀ (st : Stmt) {s : Checker}, s.scope.Declared h →
    CheckM.FaultsFrom (Diagnostic.Founded h) s (st.check h)
  | block body, _, hs => checkAll_faults body hs
  | assign .., _, hs => by
    rw [check]
    exact .ask (checkAssign_faults hs).founded
  | call receiver m args, _, hs => by
    rw [check]
    exact .ask (.map (Expr.inferCall_faults hs (.inr rfl) receiver m args).founded)
  | ifThen cond thn, _, hs => by
    rw [check]
    refine .ask_bind (checkCondition_faults hs (.inl rfl)).founded fun _ => ?_
    exact .modify_bind (check_faults thn hs)
  | ifElse cond thn els, _, hs => by
    rw [check]
    refine .ask_bind (checkCondition_faults hs (.inl rfl)).founded fun _ => ?_
    apply CheckM.FaultsFrom.modify_bind
    refine .bind (check_faults thn hs) fun t hthn => ?_
    obtain ⟨-, rfl⟩ := (check_eq_ok_iff thn _ _).mp hthn
    exact .modify_bind (check_faults els hs)
  | .while cond body, _, hs => by
    rw [check]
    refine .ask_bind (checkCondition_faults hs (.inr rfl)).founded fun _ => ?_
    exact .modify_bind (check_faults body hs)
  | print _, _, hs => by
    rw [check]
    exact .ask (checkPrint_faults hs).founded
  | ret _, _, hs => by
    rw [check]
    exact .ask (checkReturn_faults hs).founded

theorem checkAll_faults : ∀ (ss : List Stmt) {s : Checker}, s.scope.Declared h →
    CheckM.FaultsFrom (Diagnostic.Founded h) s (checkAll h ss)
  | [], _, _ => .modify id
  | st :: ss, _, hs => by
    rw [checkAll]
    refine .bind (check_faults st hs) fun t hst => ?_
    obtain ⟨-, rfl⟩ := (check_eq_ok_iff st _ _).mp hst
    exact checkAll_faults ss hs
end

end Stmt

end Statements

section Declarations

variable {h : Hierarchy} {Γ : Scope} {s t : Checker}

/-- A name is bound to a class only once that is known to be declared. -/
theorem Scope.Declared.introduce (hΓ : Γ.Declared h) {x : String} {ty : Ty} (hty : h.Knows ty) :
    (Γ.introduce x ty).Declared h := by
  refine ⟨by simpa using hΓ.self, ?_⟩
  intro y c hy
  cases ty with
  | object d =>
    change (Γ.objects.insert x d)[y]? = some c at hy
    rw [Std.TreeMap.getElem?_insert] at hy
    split_ifs at hy
    · exact Option.some.inj hy ▸ hty d rfl
    · exact hΓ.objects hy
  | _ => exact hΓ.objects hy

theorem Param.introduce_faults (p : Param) :
    CheckM.FaultsFrom (Diagnostic.Founded h) s (p.introduce h) := by
  apply CheckM.FaultsFrom.modify_bind
  refine .ask_bind (Hierarchy.requireClass_faults (Γ := s.scope) (by decide)).founded fun _ => ?_
  exact .modify _

theorem Param.introduce_keeps {p : Param} (hs : s.scope.Declared h)
    (hrun : p.introduce h s = .ok () t) : t.scope.Declared h := by
  obtain ⟨hknows, rfl⟩ := Param.introduce_eq_ok.mp hrun
  exact hs.introduce hknows

theorem VarDecl.introduce_faults (v : VarDecl) (hs : s.scope.Declared h) :
    CheckM.FaultsFrom (Diagnostic.Founded h) s (v.introduce h) := by
  apply CheckM.FaultsFrom.modify_bind
  refine .ask_bind (Hierarchy.requireClass_faults (Γ := s.scope) (by decide)).founded
    fun hclass => ?_
  have hknows : h.Knows v.ty := Hierarchy.requireClass_eq_ok.mp hclass
  apply CheckM.FaultsFrom.modify_bind
  cases v.init with
  | none => exact .modify id
  | some e => exact .ask (checkInit_faults (hs.introduce hknows)).founded

theorem VarDecl.introduce_keeps {v : VarDecl} (hs : s.scope.Declared h)
    (hrun : v.introduce h s = .ok () t) : t.scope.Declared h := by
  obtain ⟨hv, rfl⟩ := VarDecl.introduce_eq_ok.mp hrun
  exact hs.introduce hv.knows

theorem vars_faults (vars : List VarDecl) (hs : s.scope.Declared h) :
    CheckM.FaultsFrom (Diagnostic.Founded h) s (vars.forM (VarDecl.introduce h)) :=
  .forM (I := fun s => s.scope.Declared h) (fun v _ _ hs => v.introduce_faults hs)
    (fun _ _ _ _ => VarDecl.introduce_keeps) hs

namespace MethodDecl

theorem checkBody_faults (body : List Stmt) (hs : s.scope.Declared h) :
    CheckM.FaultsFrom (Diagnostic.Founded h) s (checkBody h body) := by
  rw [checkBody]
  refine .forM (I := fun s => s.scope.Declared h) ?_ ?_ hs
  · intro st _ s hs
    refine .bind (st.check_faults hs) fun _ _ => ?_
    split_ifs
    · exact .modify _
    · exact .modify id
  · intro st _ s t hs hrun
    obtain ⟨s', hst, hrecord⟩ := CheckM.bind_eq_ok.mp hrun
    obtain ⟨-, rfl⟩ := (Stmt.check_eq_ok_iff st _ _).mp hst
    obtain rfl := recordIf_eq_ok.mp hrecord
    exact hs

theorem checkReturns_faults {k : ClassDecl} {m : MethodDecl} (hk : k ∈ h.placed)
    (hm : m ∈ k.methods) (hs : s.evidence = bodyEvidence m.body) :
    Faults (Diagnostic.Justified h s.scope) (m.checkReturns s) := by
  unfold checkReturns
  split_ifs with hmissing
  · rw [hs, Bool.and_eq_true, Bool.not_eq_true'] at hmissing
    exact .error (.missingReturn hk hm hmissing.1 hmissing.2)
  · exact .ok

theorem check_faults {k : ClassDecl} {m : MethodDecl} (hk : k ∈ h.placed) (hm : m ∈ k.methods)
    (hself : ∃ c, s.scope.self = some c ∧ h.contains c = true) :
    CheckM.FaultsFrom (Diagnostic.Founded h) s (m.check h) := by
  apply CheckM.FaultsFrom.modify_bind
  have hs : (s.enterMethod m.toSignature).scope.Declared h :=
    ⟨hself, by simp [Checker.enterMethod, Scope.clear]⟩
  have hkeep (p : Param) (_ : p ∈ m.params) (s t : Checker) :
      s.scope.Declared h → p.introduce h s = .ok () t → t.scope.Declared h :=
    Param.introduce_keeps
  refine .bind (.forM (fun p _ _ _ => p.introduce_faults) hkeep hs) fun _ hparams => ?_
  have hs := CheckM.forM_keeps hkeep hs hparams
  obtain ⟨-, rfl⟩ := params_forM_eq_ok.mp hparams
  refine .bind (vars_faults m.locals hs) fun _ hlocals => ?_
  have hs := CheckM.forM_keeps (fun _ _ _ _ => VarDecl.introduce_keeps) hs hlocals
  obtain ⟨-, rfl⟩ := vars_forM_eq_ok.mp hlocals
  refine .bind (checkBody_faults m.body hs) fun _ hbody => ?_
  obtain ⟨-, rfl⟩ := checkBody_eq_ok.mp hbody
  -- The evidence was empty when the method was entered, and only the body has added to it.
  exact .ask (checkReturns_faults hk hm (List.nil_append _)).founded

end MethodDecl

theorem ClassDecl.check_faults {c : ClassDecl} (hc : c ∈ h.placed) :
    CheckM.FaultsFrom (Diagnostic.Founded h) s (c.check h) := by
  have hcontains : h.contains c.name = true := Hierarchy.contains_iff.mpr ⟨c, hc, rfl⟩
  apply CheckM.FaultsFrom.modify_bind
  have hs : (s.enterClass c.name).scope.Declared h :=
    ⟨⟨c.name, rfl, hcontains⟩, by simp [Checker.enterClass, Scope.ofClass]⟩
  refine .bind (vars_faults c.fields hs) fun _ hfields => ?_
  have hself := (CheckM.forM_keeps (fun _ _ _ _ => VarDecl.introduce_keeps) hs hfields).self
  refine .forM (I := fun s => ∃ d, s.scope.self = some d ∧ h.contains d = true)
    (fun m hm s hself => MethodDecl.check_faults hc hm hself) ?_ hself
  rintro m - s t hself hrun
  rwa [MethodDecl.self_of_check hrun]

end Declarations

/-! ## From the hierarchy to the text -/

section Program

variable {p : Program} {h : Hierarchy} {d : Diagnostic}

theorem Hierarchy.Arranges.mem_ancestors_of_onChain (harr : h.Arranges p.classes) {c : String}
    {k : ClassDecl} (hk : p.OnChain c k) : k ∈ h.ancestors c := by
  obtain ⟨e, he, rfl, hpath⟩ := hk
  exact harr.mem_ancestors_of_path he hpath

theorem Diagnostic.Founded.truthful (hd : d.Founded h) (harr : h.Arranges p.classes) :
    d.Truthful p := by
  have hnames {c : String} : h.contains c = true ↔ c ∈ p.classes.map (·.name) := harr.contains_iff
  obtain ⟨Γ, hd⟩ := hd
  cases hd with
  | unknownClass hc hsite =>
    refine ⟨hsite, ?_⟩
    simp only [← hnames, hc, Bool.false_eq_true, not_false_eq_true]
  | unknownField hc hx =>
    refine ⟨by simp, hnames.mp hc, ?_, rfl⟩
    intro k hk f hf
    have hnone := List.findSome?_eq_none_iff.mp hx k (harr.mem_ancestors_of_onChain hk)
    simpa using List.find?_eq_none.mp hnone f hf
  | unknownMethod hc hm hsite =>
    refine ⟨hsite.ne_this, hnames.mp hc, ?_, hsite⟩
    intro k hk e he
    have hnone := List.findSome?_eq_none_iff.mp hm k (harr.mem_ancestors_of_onChain hk)
    simpa using List.find?_eq_none.mp hnone e he
  | arityMismatch hk hm hne hsite =>
    exact ⟨hsite.ne_this, hne, ⟨_, harr.perm.mem_iff.mp hk, _, hm, rfl⟩, hsite⟩
  | missingReturn hk hm hret hv =>
    exact ⟨by simp, ⟨_, harr.perm.mem_iff.mp hk, _, hm, rfl, hret, hv⟩, rfl⟩
  | unknownName hsite => exact ⟨by rcases hsite with rfl | rfl <;> simp, trivial⟩
  | unknownReceiver hsite => exact ⟨hsite.ne_this, trivial⟩
  | typeMismatch hsite => exact ⟨hsite, trivial⟩
  | conditionNotBoolean hsite => exact ⟨by rcases hsite with rfl | rfl <;> simp, hsite⟩
  | indexNotInteger => exact ⟨by simp, rfl⟩
  | negativeArrayLength hk => exact ⟨by simp, hk, rfl⟩
  | missingReturnValue => exact ⟨by simp, rfl⟩
  | unexpectedReturnValue => exact ⟨by simp, rfl⟩
  | unrecognizedNode => exact ⟨by simp, rfl, rfl⟩

theorem two_le_count_of_firstRepeated? {names : List String} {n : String}
    (hn : firstRepeated? [] names = some n) : 2 ≤ names.count n := by
  obtain ⟨before, after, rfl, hbefore, -⟩ := firstRepeated?_eq_some hn
  have hcount : 0 < before.count n := List.count_pos_iff.mpr (by simpa using hbefore)
  rw [List.count_append, List.count_cons_self]
  omega

/-- A class without a root has a parent, and that has no root either. -/
theorem exists_parent_of_mem_unrooted {classes : List ClassDecl}
    (hparents : ∀ c ∈ classes, c.ParentDeclared classes) {c : ClassDecl}
    (hc : c ∈ unrooted classes) : ∃ d ∈ unrooted classes, c.parent = some d.name := by
  obtain ⟨hmem, hroot⟩ := mem_unrooted.mp hc
  cases hp : c.parent with
  | none => exact absurd (.root hmem hp) hroot
  | some q =>
    obtain ⟨d, hd, rfl⟩ := List.mem_map.mp (hparents c hmem q hp)
    exact ⟨d, mem_unrooted.mpr ⟨hd, fun hd' => hroot (.child hmem hp hd')⟩, rfl⟩

theorem cyclicHierarchy_truthful (hnodup : (p.classes.map (·.name)).Nodup)
    (hparents : ∀ c ∈ p.classes, c.ParentDeclared p.classes) (hne : unrooted p.classes ≠ []) :
    Diagnostic.Truthful p ⟨.cyclicHierarchy ((unrooted p.classes).map (·.name)), .program⟩ := by
  refine ⟨by simp, by simpa using hne, ?_, ?_, rfl⟩
  · intro n hn
    obtain ⟨c, hc, rfl⟩ := List.mem_map.mp hn
    exact List.mem_map_of_mem (mem_unrooted.mp hc).1
  · intro k hk hlisted
    obtain ⟨c, hc, hname⟩ := List.mem_map.mp hlisted
    obtain rfl := List.inj_on_of_nodup_map hnodup (mem_unrooted.mp hc).1 hk hname
    obtain ⟨d, hd, hparent⟩ := exists_parent_of_mem_unrooted hparents hc
    exact ⟨d.name, List.mem_map_of_mem hd, hparent⟩

theorem truthful_of_build (hbuild : Hierarchy.build p.classes = .error d) : d.Truthful p := by
  cases hnames : firstRepeated? [] (p.classes.map (·.name)) with
  | some n =>
    rw [Hierarchy.build, hnames] at hbuild
    cases hbuild
    exact ⟨by simp, two_le_count_of_firstRepeated? hnames, rfl⟩
  | none =>
    cases horphan : firstOrphanParent? p.classes with
    | some q =>
      rw [Hierarchy.build, hnames, horphan] at hbuild
      cases hbuild
      obtain ⟨_, _, _, -, -, hq, -⟩ := firstOrphanParent?_eq_some horphan
      exact ⟨by simp, hq⟩
    | none =>
      have hnodup := (firstRepeated?_eq_none.mp hnames).1
      have hparents := firstOrphanParent?_eq_none.mp horphan
      obtain ⟨h, -, heq⟩ := Hierarchy.build_eq_of_declared hnodup hparents
      rw [heq] at hbuild
      split_ifs at hbuild with hnil
      cases hbuild
      exact cyclicHierarchy_truthful hnodup hparents hnil

/-- Whatever a refused program is told is true of it. -/
theorem Program.truthful_of_check (hd : p.check = .error d) : d.Truthful p := by
  cases hbuild : Hierarchy.build p.classes with
  | error d' =>
    rw [Program.check, hbuild] at hd
    cases hd
    exact truthful_of_build hbuild
  | ok h =>
    rw [Program.check, hbuild] at hd
    have hclasses : CheckM.FaultsFrom (Diagnostic.Founded h) {}
        (h.order.forM (ClassDecl.check h)) :=
      .forM (I := fun _ => True)
        (fun c hc _ _ => ClassDecl.check_faults (Hierarchy.mem_order.mp hc))
        (fun _ _ _ _ _ _ => trivial) trivial
    obtain ⟨t, hrun⟩ := CheckM.outcome_eq_error.mp hd
    exact (hclasses d t hrun).truthful (Hierarchy.arranges_of_build hbuild)

end Program

/-- A call of a method that neither the class nor its parent has. -/
def Program.strayCall : Program :=
  ⟨[{ name := "Leaf", parent := some "Base"
      methods := [
        { name := "run", params := [⟨.object "Leaf", "x"⟩]
          body := [.call (.var "x") "stop" []] }] },
    { name := "Base", methods := [{ name := "start" }] }]⟩

theorem Program.strayCall_truthful :
    strayCall.check = .error ⟨.unknownMethod "Leaf" "stop", .callStmt⟩ ∧
      Diagnostic.Truthful strayCall ⟨.unknownMethod "Leaf" "stop", .callStmt⟩ :=
  ⟨by decide +kernel, truthful_of_check (by decide +kernel)⟩

end ClassLang

import ClassLang.Proofs.Checker.Coherence
import ClassLang.Proofs.Checker.Refusals
import ClassLang.Proofs.Expr.Mismatch

/-! # Diagnostics do not contradict themselves

The checker comes to every place with a scope made of declarations of the program, and asks about
types that come from declarations too. If the class names of the program are plain, no diagnostic
says that a type was found where the same type was expected. -/

namespace ClassLang

/-! ## Scopes of plain declarations -/

namespace Scope

variable {Γ : Scope}

theorem plain_ofClass {c : String} (hc : PlainName c) : (ofClass c).Plain := by
  constructor
  · rintro _ ⟨⟩
    exact hc
  · intro x t hx
    simp [ofClass] at hx

theorem Plain.introduce (hΓ : Γ.Plain) {x : String} {t : Ty} (ht : t.Plain) :
    (Γ.introduce x t).Plain := by
  constructor
  · intro c hc
    rw [introduce_self] at hc
    exact hΓ.self c hc
  · intro y s hy
    rw [introduce_types] at hy
    split_ifs at hy with hxy
    · exact Option.some.inj hy ▸ ht
    · exact hΓ.types y s hy

theorem Plain.introduceAll (hΓ : Γ.Plain) {ds : List Param} (hds : ∀ d ∈ ds, d.ty.Plain) :
    (Γ.introduceAll ds).Plain := by
  induction ds generalizing Γ with
  | nil => exact hΓ
  | cons d ds ih =>
    obtain ⟨hd, hds⟩ := List.forall_mem_cons.mp hds
    exact ih (hΓ.introduce hd) hds

end Scope

namespace Stmt

theorem allPlain_of_mem {ss : List Stmt} (hss : AllPlain (allClassNames ss)) {s : Stmt}
    (hs : s ∈ ss) : AllPlain s.classNames := by
  induction ss with
  | nil => cases hs
  | cons s' ss ih =>
    rw [allClassNames, allPlain_append] at hss
    rcases List.mem_cons.mp hs with rfl | hs
    · exact hss.1
    · exact ih hss.2 hs

theorem Within.allPlain {n st : Stmt} (hn : n.Within st) (hst : AllPlain st.classNames) :
    AllPlain n.classNames := by
  induction hn with
  | self => exact hst
  | block hs _ ih =>
    rw [classNames] at hst
    exact ih (allPlain_of_mem hst hs)
  | thenOnly _ ih | loop _ ih =>
    rw [classNames, allPlain_append] at hst
    exact ih hst.2
  | thenBranch _ ih =>
    rw [classNames, allPlain_append, allPlain_append] at hst
    exact ih hst.1.2
  | elseBranch _ ih =>
    rw [classNames, allPlain_append, allPlain_append] at hst
    exact ih hst.2

end Stmt

/-! ## The questions of a place -/

section Questions

variable {h : Hierarchy} {Γ : Scope} (hh : h.Plain) (hΓ : Γ.Plain)

include hh hΓ

theorem checkAssign_consistent {target value : Expr} (htarget : AllPlain target.classNames)
    (hvalue : AllPlain value.classNames) :
    Faults Diagnostic.Consistent (checkAssign h target value Γ) := by
  refine .bind (Expr.infer_consistent hh hΓ target htarget) fun t ht => ?_
  refine .bind (Expr.infer_consistent hh hΓ value hvalue) fun s hs => ?_
  have htp := Expr.plain_of_infer hh hΓ ht
  have hsp := Expr.plain_of_infer hh hΓ hs
  cases s with
  | none => cases t <;> exact .ok
  | some s =>
    cases t with
    | none => exact .error (hsp s rfl).void_ne
    | some t =>
      simp only
      split_ifs with hassign
      · exact .ok
      · have hne : t ≠ s := Hierarchy.ne_of_assignable (Bool.eq_false_iff.mpr hassign)
        exact .error ((htp t rfl).render_ne (hsp s rfl) hne)

theorem checkCondition_consistent {site : Construct} {cond : Expr}
    (hcond : AllPlain cond.classNames) :
    Faults Diagnostic.Consistent (checkCondition h site cond Γ) := by
  unfold checkCondition
  have hinfer := Expr.infer_consistent hh hΓ cond hcond
  refine Expr.misfit?_bind_consistent hh hΓ rfl hinfer fun found hne => ?_
  cases found with
  | none => exact .ok
  | some received => exact .error fun heq : received = "boolean" => hne (congrArg some heq)

theorem checkPrint_consistent {arg : Option Expr}
    (harg : AllPlain (arg.elim [] Expr.classNames)) :
    Faults Diagnostic.Consistent (checkPrint h arg Γ) := by
  cases arg with
  | none => exact .ok
  | some e =>
    rw [checkPrint]
    split_ifs
    · exact .ok
    · refine .bind (Expr.inferValue_consistent hh hΓ harg) fun t ht => ?_
      split_ifs
      · exact .ok
      · exact .error ((Expr.plain_of_inferValue hh hΓ ht).ne_of_space (by decide))

theorem checkInit_consistent {t : Ty} (ht : t.Plain) {e : Expr} (he : AllPlain e.classNames) :
    Faults Diagnostic.Consistent (checkInit h t e Γ) := by
  refine .bind (Expr.inferValue_consistent hh hΓ he) fun s hs => ?_
  refine .bind Hierarchy.requireClass_consistent fun _ _ => ?_
  split_ifs with hassign
  · exact .ok
  · have hne : t ≠ s := Hierarchy.ne_of_assignable (Bool.eq_false_iff.mpr hassign)
    exact .error (ht.render_ne (Expr.plain_of_inferValue hh hΓ hs) hne)

omit hΓ in
theorem checkReturn_consistent {s : Checker} (hs : s.scope.Plain)
    (hret : ∀ t, s.returnType? = some t → t.Plain) {value : Option Expr}
    (hvalue : AllPlain (value.elim [] Expr.classNames)) :
    Faults Diagnostic.Consistent (checkReturn h value s) := by
  unfold checkReturn
  cases hr : s.returnType? with
  | none =>
    cases value with
    | none => exact .ok
    | some e => exact .error trivial
  | some t =>
    cases value with
    | none => exact .error trivial
    | some e =>
      refine .bind (Expr.inferValue_consistent hh hs hvalue) fun received hreceived => ?_
      split_ifs with hshape
      · exact .ok
      · have hne : t ≠ received := Ty.ne_of_sameShape (Bool.eq_false_iff.mpr hshape)
        exact .error ((hret t hr).render_ne (Expr.plain_of_inferValue hh hs hreceived) hne)

omit hΓ in
theorem Stmt.question_consistent {s : Checker} (hs : s.scope.Plain)
    (hret : ∀ t, s.returnType? = some t → t.Plain) {n : Stmt} (hn : AllPlain n.classNames) :
    Faults Diagnostic.Consistent (n.question h s) := by
  cases n with
  | block _ => exact .ok
  | assign target value =>
    rw [classNames, allPlain_append] at hn
    exact checkAssign_consistent hh hs hn.1 hn.2
  | call receiver m args =>
    rw [classNames, allPlain_append] at hn
    exact .map (Expr.inferCall_consistent hh hs hn.2)
  | ifThen cond thn | «while» cond body =>
    rw [classNames, allPlain_append] at hn
    exact checkCondition_consistent hh hs hn.1
  | ifElse cond thn els =>
    rw [classNames, allPlain_append, allPlain_append] at hn
    exact checkCondition_consistent hh hs hn.1.1
  | print arg => exact checkPrint_consistent hh hs hn
  | ret value => exact checkReturn_consistent hh hs hret hn

end Questions

/-! ## Programs -/

theorem ClassDecl.plain_scope {c : ClassDecl} (hc : AllPlain c.classNames) {pl : Place}
    (hpl : c.Holds pl) : (pl.scope c).Plain := by
  obtain ⟨hname, hfields, hmethods⟩ := plain_parts hc
  have hvars {vars : List VarDecl} (h : ∀ v ∈ vars, AllPlain v.classNames) :
      ∀ d ∈ vars.map VarDecl.declared, d.ty.Plain := by
    intro d hd
    obtain ⟨v, hv, rfl⟩ := List.mem_map.mp hd
    exact (VarDecl.plain_parts (h v hv)).1
  apply (Scope.plain_ofClass hname).introduceAll
  cases pl with
  | fieldInit earlier v e =>
    obtain ⟨⟨later, hsplit⟩, -⟩ := hpl
    rw [List.append_cons] at hsplit
    apply hvars
    exact fun w hw => hfields w (hsplit ▸ List.mem_append_left later hw)
  | localInit m earlier v e =>
    obtain ⟨hm, ⟨later, hsplit⟩, -⟩ := hpl
    obtain ⟨hparams, -, hlocals, -⟩ := MethodDecl.plain_parts (hmethods m hm)
    rw [List.append_cons] at hsplit
    refine List.forall_mem_append.mpr ⟨hparams, hvars ?_⟩
    exact fun w hw => hlocals w (hsplit ▸ List.mem_append_left later hw)
  | stmt m st =>
    obtain ⟨hparams, -, hlocals, -⟩ := MethodDecl.plain_parts (hmethods m hpl.1)
    exact List.forall_mem_append.mpr ⟨hparams, hvars hlocals⟩

/-- Nothing that the checker asks at a place has an answer that contradicts itself. -/
theorem ClassDecl.Reaches.question_consistent {h : Hierarchy} (hh : h.Plain) {c : ClassDecl}
    (hc : AllPlain c.classNames) {s t : Checker} {pl : Place} (hpl : c.Reaches h s pl t) :
    Faults Diagnostic.Consistent (pl.question h t) := by
  have hholds := hpl.holds
  have hscope : t.scope.Plain := hpl.scope_eq ▸ plain_scope hc hholds
  obtain ⟨-, hfields, hmethods⟩ := plain_parts hc
  cases pl with
  | fieldInit earlier v e =>
    obtain ⟨⟨later, hsplit⟩, hinit⟩ := hholds
    obtain ⟨hty, he⟩ := VarDecl.plain_parts (hfields v (by simp [hsplit]))
    exact checkInit_consistent hh hscope hty (he e hinit)
  | localInit m earlier v e =>
    obtain ⟨hm, ⟨later, hsplit⟩, hinit⟩ := hholds
    obtain ⟨-, -, hlocals, -⟩ := MethodDecl.plain_parts (hmethods m hm)
    obtain ⟨hty, he⟩ := VarDecl.plain_parts (hlocals v (by simp [hsplit]))
    exact checkInit_consistent hh hscope hty (he e hinit)
  | stmt m st =>
    obtain ⟨hm, n, hn, hst⟩ := hholds
    obtain ⟨-, hret, -, hbody⟩ := MethodDecl.plain_parts (hmethods m hm)
    apply Stmt.question_consistent hh hscope
    · rwa [hpl.returnType?_eq]
    · exact hst.allPlain (hbody n hn)

theorem Diagnostic.consistent_of_declaration {d : Diagnostic} (hd : d.fault.OfDeclaration) :
    d.Consistent := by
  obtain ⟨fault, site⟩ := d
  cases fault with
  | unknownClass | missingReturn => trivial
  | _ => cases hd

theorem Diagnostic.consistent_of_hierarchy {d : Diagnostic} (hd : d.fault.OfHierarchy) :
    d.Consistent := by
  obtain ⟨fault, site⟩ := d
  cases fault with
  | duplicateClass | unknownClass | cyclicHierarchy => trivial
  | _ => cases hd

/-- The diagnostic of a refused program never contradicts itself, if no class name of the program is
written like another type or like a word of the diagnostics. -/
theorem Program.consistent_of_check {p : Program} (hnames : ∀ c ∈ p.classNames, PlainName c)
    {d : Diagnostic} (hd : p.check = .error d) : d.Consistent := by
  have hclasses : ∀ k ∈ p.classes, AllPlain k.classNames :=
    fun k hk => AllPlain.of_flatMap hnames hk
  rcases exists_reaches_of_error hd with hbuild | hdecl | ⟨h, c, pl, t, hr, hquestion⟩
  · exact Diagnostic.consistent_of_hierarchy (Hierarchy.build_faults p.classes d hbuild)
  · exact Diagnostic.consistent_of_declaration hdecl
  · have harr := hr.arranges
    have hh : h.Plain := fun k hk => hclasses k (harr.perm.subset hk)
    obtain ⟨-, horder, -, hpl⟩ := hr
    have hc : c ∈ h.order := by simp [horder]
    have hc : c ∈ p.classes := harr.perm.subset (Hierarchy.mem_order.mp hc)
    exact hpl.question_consistent hh (hclasses c hc) d hquestion

/-- Boxes of jars are wanted, and one box is given. -/
def jar : ClassDecl :=
  { name := "Jar", fields := [{ ty := .array (.array (.object "Jar")), name := "jars" }]
    methods := [{ name := "unpack", params := [⟨.array (.object "Jar"), "box"⟩]
                  body := [.assign (.var "jars") (.var "box")] }] }

theorem Program.jar_consistent :
    (∀ c ∈ (Program.mk [jar]).classNames, PlainName c) ∧
      (Program.mk [jar]).check = .error ⟨.typeMismatch "Jar[][]" "Jar[]", .assign⟩ ∧
      Diagnostic.Consistent ⟨.typeMismatch "Jar[][]" "Jar[]", .assign⟩ := by
  have hjar : PlainName "Jar" := by simp [PlainName]
  have hnames : ∀ c ∈ (Program.mk [jar]).classNames, PlainName c := by
    simp [classNames, ClassDecl.classNames, VarDecl.classNames, MethodDecl.classNames,
      Signature.classNames, Ty.classNames, Stmt.classNames, Expr.classNames, jar, hjar]
  have hcheck : (Program.mk [jar]).check = .error ⟨.typeMismatch "Jar[][]" "Jar[]", .assign⟩ := by
    decide +kernel
  exact ⟨hnames, hcheck, consistent_of_check hnames hcheck⟩

/-- A class may be named like a type, and then the two are not told apart in writing. -/
example :
    let impostor : ClassDecl :=
      { name := "int", fields := [{ ty := .int, name := "x", init := some .this }] }
    (Program.mk [impostor]).check = .error ⟨.typeMismatch "int" "int", .varDecl⟩ := by
  decide +kernel

end ClassLang

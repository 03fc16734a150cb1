import ClassLang.Proofs.Checker.Acceptance
import ClassLang.Proofs.Hierarchy.Chains

/-! # No part of an accepted program is left unchecked

Every expression that stands anywhere in an accepted program, at whatever depth and also behind a
return, is of a form that the rules know, and every object type in it names a declared class. -/

namespace ClassLang

/-- The expression is the other one or stands somewhere in it. -/
inductive Expr.Within (n : Expr) : Expr → Prop
  | self : n.Within n
  | left {op : BinaryOp} {l r : Expr} (hl : n.Within l) : n.Within (.binop op l r)
  | right {op : BinaryOp} {l r : Expr} (hr : n.Within r) : n.Within (.binop op l r)
  | operand {op : UnaryOp} {e : Expr} (he : n.Within e) : n.Within (.unop op e)
  | receiver {r : Expr} {m : String} {args : List Expr} (hr : n.Within r) :
      n.Within (.call r m args)
  | arg {r a : Expr} {m : String} {args : List Expr} (ha : a ∈ args) (hn : n.Within a) :
      n.Within (.call r m args)
  | array {a i : Expr} (ha : n.Within a) : n.Within (.index a i)
  | position {a i : Expr} (hi : n.Within i) : n.Within (.index a i)
  | object {r : Expr} {x : String} (hr : n.Within r) : n.Within (.field r x)

/-- The statement is the other one or stands somewhere in it. -/
inductive Stmt.Within (n : Stmt) : Stmt → Prop
  | self : n.Within n
  | block {body : List Stmt} {s : Stmt} (hs : s ∈ body) (hn : n.Within s) :
      n.Within (.block body)
  | thenOnly {cond : Expr} {thn : Stmt} (hn : n.Within thn) : n.Within (.ifThen cond thn)
  | thenBranch {cond : Expr} {thn els : Stmt} (hn : n.Within thn) :
      n.Within (.ifElse cond thn els)
  | elseBranch {cond : Expr} {thn els : Stmt} (hn : n.Within els) :
      n.Within (.ifElse cond thn els)
  | loop {cond : Expr} {body : Stmt} (hn : n.Within body) : n.Within (.while cond body)

/-- The expression is a part of the statement itself, not of a statement inside it. -/
inductive Stmt.Uses : Stmt → Expr → Prop
  | target {t v : Expr} : Uses (.assign t v) t
  | value {t v : Expr} : Uses (.assign t v) v
  | receiver {r : Expr} {m : String} {args : List Expr} : Uses (.call r m args) r
  | arg {r a : Expr} {m : String} {args : List Expr} (ha : a ∈ args) : Uses (.call r m args) a
  | ifThen {cond : Expr} {thn : Stmt} : Uses (.ifThen cond thn) cond
  | ifElse {cond : Expr} {thn els : Stmt} : Uses (.ifElse cond thn els) cond
  | while {cond : Expr} {body : Stmt} : Uses (.while cond body) cond
  | printed {e : Expr} : Uses (.print (some e)) e
  | returned {e : Expr} : Uses (.ret (some e)) e

namespace Program

def HasStmt (p : Program) (s : Stmt) : Prop :=
  ∃ c ∈ p.classes, ∃ m ∈ c.methods, ∃ t ∈ m.body, s.Within t

/-- The expression stands somewhere in the program: in an initial value, or in the expressions of
the given statement. -/
inductive Occurs (p : Program) (n : Expr) : Option Stmt → Prop
  | field {c : ClassDecl} {v : VarDecl} {e : Expr} (hc : c ∈ p.classes) (hv : v ∈ c.fields)
      (he : v.init = some e) (hn : n.Within e) : p.Occurs n none
  | local {c : ClassDecl} {m : MethodDecl} {v : VarDecl} {e : Expr} (hc : c ∈ p.classes)
      (hm : m ∈ c.methods) (hv : v ∈ m.locals) (he : v.init = some e) (hn : n.Within e) :
      p.Occurs n none
  | stmt {s : Stmt} {e : Expr} (hs : p.HasStmt s) (he : s.Uses e) (hn : n.Within e) :
      p.Occurs n (some s)

/-- The type is not of objects, or of those of a class of the program. -/
def Declares (p : Program) (t : Ty) : Prop :=
  ∀ c, t = .object c → c ∈ p.classes.map (·.name)

/-- Every expression of the program is of a form that has a meaning where it stands, and every
object type that it declares a name with is of one of its classes. -/
structure WellPlaced (p : Program) : Prop where
  text : ∀ s site, p.Occurs (.str s) site → site = some (.print (some (.str s)))
  newObject : ∀ c site, p.Occurs (.newObject c) site → c ∈ p.classes.map (·.name)
  newArray : ∀ t k site, p.Occurs (.newArray t k) site → t.isPrimitive = true ∧ 0 ≤ k
  call : ∀ r m args site, p.Occurs (.call r m args) site → r = .this ∨ ∃ x, r = .var x
  callStmt : ∀ r m args, p.HasStmt (.call r m args) → r = .this ∨ ∃ x, r = .var x
  field : ∀ r x site, p.Occurs (.field r x) site → r.isReference = true
  index : ∀ a i site, p.Occurs (.index a i) site → ∃ x, a = .var x
  fieldTypes : ∀ c ∈ p.classes, ∀ v ∈ c.fields, p.Declares v.ty
  paramTypes : ∀ c ∈ p.classes, ∀ m ∈ c.methods, ∀ q ∈ m.params, p.Declares q.ty
  localTypes : ∀ c ∈ p.classes, ∀ m ∈ c.methods, ∀ v ∈ m.locals, p.Declares v.ty

end Program

/-- What the rules ask of an expression beyond its parts. -/
def Expr.FormFits (h : Hierarchy) : Expr → Prop
  | .str _ => False
  | .newObject c => h.contains c = true
  | .newArray t k => t.isPrimitive = true ∧ 0 ≤ k
  | .call r _ _ => r = .this ∨ ∃ x, r = .var x
  | .field r _ => r.isReference = true
  | .index a _ => ∃ x, a = .var x
  | .binop .. | .unop .. | .var _ | .this | .int _ | .bool _ => True

section Rules

variable {h : Hierarchy} {Γ : Scope}

theorem Scope.Receiver.eq {r : Expr} {c : String} (hr : Γ.Receiver r c) :
    r = .this ∨ ∃ x, r = .var x := by
  cases hr with
  | this _ => exact .inl rfl
  | var _ => exact .inr ⟨_, rfl⟩

theorem HasType.formFits {e : Expr} {r : Option Ty} (he : HasType h Γ e r) : e.FormFits h := by
  cases he with
  | field href _ _ _ => exact href
  | newObject hc => exact hc
  | newArray ht hk => exact ⟨ht, hk⟩
  | index _ _ => exact ⟨_, rfl⟩
  | call hr _ _ => exact hr.eq
  | _ => trivial

theorem HasArgs.exists_hasType {params : List Param} {args : List Expr}
    (hargs : HasArgs h Γ params args) {e : Expr} (he : e ∈ args) :
    ∃ t, HasType h Γ e (some t) := by
  induction args generalizing params with
  | nil => simp at he
  | cons a args ih =>
    cases hargs with
    | cons ha _ hrest =>
      rcases List.mem_cons.mp he with rfl | he
      · exact ⟨_, ha⟩
      · exact ih hrest he

/-- Expressions without parts. -/
theorem Expr.Within.eq_of_this_or_var {n e : Expr} (hn : n.Within e)
    (he : e = .this ∨ ∃ x, e = .var x) : n = e := by
  rcases he with rfl | ⟨x, rfl⟩
  · cases hn
    rfl
  · cases hn
    rfl

/-- The rules give a type to every part of an expression that has one. A receiver need not have a
type of its own, but it is `this` or a name. -/
theorem HasType.exists_of_within {n e : Expr} {r : Option Ty} (he : HasType h Γ e r)
    (hn : n.Within e) : (∃ r', HasType h Γ n r') ∨ n = .this ∨ ∃ x, n = .var x := by
  induction hn generalizing r with
  | self => exact .inl ⟨r, he⟩
  | left _ ih =>
    cases he with
    | arithmetic _ hl _ => exact ih hl
    | logical _ hl _ _ _ _ => exact ih hl
    | comparison _ _ hl _ _ => exact ih hl
  | right _ ih =>
    cases he with
    | arithmetic _ _ hr => exact ih hr
    | logical _ _ hr _ _ _ => exact ih hr
    | comparison _ _ _ hr _ => exact ih hr
  | operand _ ih =>
    cases he with
    | unop he => exact ih he
  | receiver hn _ =>
    cases he with
    | call hr _ _ =>
      rw [hn.eq_of_this_or_var hr.eq]
      exact .inr hr.eq
  | arg ha _ ih =>
    cases he with
    | call _ _ hargs =>
      obtain ⟨t, ht⟩ := hargs.exists_hasType ha
      exact ih ht
  | array _ ih =>
    cases he with
    | index ha _ => exact ih ha
  | position _ ih =>
    cases he with
    | index _ hi => exact ih hi
  | object _ ih =>
    cases he with
    | field _ hr _ _ => exact ih hr

theorem Expr.formFits_of_this_or_var {e : Expr} (he : e = .this ∨ ∃ x, e = .var x) :
    e.FormFits h := by
  rcases he with rfl | ⟨x, rfl⟩ <;> trivial

theorem HasType.formFits_of_within {n e : Expr} {r : Option Ty} (he : HasType h Γ e r)
    (hn : n.Within e) : n.FormFits h := by
  rcases he.exists_of_within hn with ⟨r', hr'⟩ | hform
  · exact hr'.formFits
  · exact Expr.formFits_of_this_or_var hform

/-- The rules reach every statement inside a well-typed one. -/
theorem Stmt.WellTyped.of_within {result : Option Ty} {s t : Stmt} (ht : t.WellTyped h Γ result)
    (hs : s.Within t) : s.WellTyped h Γ result := by
  induction hs with
  | self => exact ht
  | block hmem _ ih => exact ih (Stmt.allWellTyped_iff.mp ht _ hmem)
  | thenOnly _ ih => exact ih ht.2
  | thenBranch _ ih => exact ih ht.2.1
  | elseBranch _ ih => exact ih ht.2.2
  | loop _ ih => exact ih ht.2

theorem Expr.eq_str_of_isText {e : Expr} (he : e.isText = true) : ∃ s, e = .str s := by
  cases e with
  | str s => exact ⟨s, rfl⟩
  | _ => cases he

/-- The rules give a type to every expression that a statement uses, but for a receiver and for a
text to print. -/
theorem Stmt.WellTyped.hasType_of_uses {result : Option Ty} {s : Stmt} {e : Expr}
    (hs : s.WellTyped h Γ result) (he : s.Uses e) :
    (∃ r, HasType h Γ e r) ∨ (e = .this ∨ ∃ x, e = .var x) ∨
      ∃ t, e = .str t ∧ s = .print (some (.str t)) := by
  cases he with
  | target =>
    obtain ⟨t, _, ht, _, _⟩ := hs
    exact .inl ⟨t, ht⟩
  | value =>
    obtain ⟨_, t, _, ht, _⟩ := hs
    exact .inl ⟨t, ht⟩
  | receiver =>
    obtain ⟨t, ht⟩ := hs
    cases ht with
    | call hr _ _ => exact .inr (.inl hr.eq)
  | arg ha =>
    obtain ⟨t, ht⟩ := hs
    cases ht with
    | call _ _ hargs =>
      obtain ⟨t, ht⟩ := hargs.exists_hasType ha
      exact .inl ⟨some t, ht⟩
  | ifThen => exact .inl ⟨_, hs.1⟩
  | ifElse => exact .inl ⟨_, hs.1⟩
  | «while» => exact .inl ⟨_, hs.1⟩
  | printed =>
    rcases hs with htext | ⟨t, ht, _⟩
    · obtain ⟨t, rfl⟩ := Expr.eq_str_of_isText htext
      exact .inr (.inr ⟨t, rfl, rfl⟩)
    · exact .inl ⟨some t, ht⟩
  | returned =>
    cases result with
    | none => exact hs.elim
    | some _ =>
      obtain ⟨t, ht, _⟩ := hs
      exact .inl ⟨some t, ht⟩

theorem Stmt.WellTyped.formFits_or_text {result : Option Ty} {s : Stmt} {n e : Expr}
    (hs : s.WellTyped h Γ result) (he : s.Uses e) (hn : n.Within e) :
    n.FormFits h ∨ ∃ t, n = .str t ∧ s = .print (some (.str t)) := by
  rcases hs.hasType_of_uses he with ⟨r, hr⟩ | hform | ⟨t, rfl, rfl⟩
  · exact .inl (hr.formFits_of_within hn)
  · rw [hn.eq_of_this_or_var hform]
    exact .inl (Expr.formFits_of_this_or_var hform)
  · cases hn
    exact .inr ⟨t, rfl, rfl⟩

theorem AllVarsWellTyped.exists_scope {vs : List VarDecl} (hvs : AllVarsWellTyped h Γ vs)
    {v : VarDecl} (hv : v ∈ vs) : ∃ Δ, v.WellTyped h Δ := by
  induction vs generalizing Γ with
  | nil => simp at hv
  | cons w vs ih =>
    rcases List.mem_cons.mp hv with rfl | hv
    · exact ⟨_, hvs.1⟩
    · exact ih hvs.2 hv

theorem VarDecl.WellTyped.formFits {v : VarDecl} {n e : Expr} (hv : v.WellTyped h Γ)
    (he : v.init = some e) (hn : n.Within e) : n.FormFits h := by
  obtain ⟨t, ht, _⟩ := hv.init e he
  exact ht.formFits_of_within hn

end Rules

namespace Program

variable {p : Program} {h : Hierarchy}

/-- In a program of well-typed classes every expression is as the rules ask, or is a text to
print. -/
theorem Occurs.formFits_or_text {n : Expr} {site : Option Stmt} (hn : p.Occurs n site)
    (hp : ∀ c ∈ p.classes, c.WellTyped h) :
    n.FormFits h ∨ ∃ t, n = .str t ∧ site = some (.print (some (.str t))) := by
  cases hn with
  | field hc hv he hn =>
    obtain ⟨Γ, hwt⟩ := (hp _ hc).fields.exists_scope hv
    exact .inl (hwt.formFits he hn)
  | «local» hc hm hv he hn =>
    obtain ⟨Γ, hwt⟩ := ((hp _ hc).methods _ hm).locals.exists_scope hv
    exact .inl (hwt.formFits he hn)
  | stmt hs he hn =>
    obtain ⟨c, hc, m, hm, t, ht, hst⟩ := hs
    have hwt := (((hp c hc).methods m hm).body t ht).of_within hst
    simpa using hwt.formFits_or_text he hn

theorem Occurs.formFits {n : Expr} {site : Option Stmt} (hn : p.Occurs n site)
    (hp : ∀ c ∈ p.classes, c.WellTyped h) (htext : ∀ t, n ≠ .str t) : n.FormFits h := by
  rcases hn.formFits_or_text hp with hfits | ⟨t, rfl, _⟩
  · exact hfits
  · exact (htext t rfl).elim

end Program

/-- Nothing in an accepted program is skipped by its check. -/
theorem Program.wellPlaced_of_check {p : Program} (hp : p.check = .ok ()) : p.WellPlaced := by
  obtain ⟨h, hbuild, hclasses⟩ := check_eq_ok_iff.mp hp
  have hdeclared {c : String} : h.contains c = true ↔ c ∈ p.classes.map (·.name) :=
    (Hierarchy.arranges_of_build hbuild).contains_iff
  have hdeclares {t : Ty} (ht : h.Knows t) : p.Declares t :=
    fun c hc => hdeclared.mp (ht c hc)
  exact {
    text := by
      intro s site hocc
      rcases hocc.formFits_or_text hclasses with hfits | ⟨t, hs, hsite⟩
      · exact hfits.elim
      · cases hs
        exact hsite
    newObject := fun c site hocc => hdeclared.mp (hocc.formFits hclasses (by simp))
    newArray := fun t k site hocc => hocc.formFits hclasses (by simp)
    call := fun r m args site hocc => hocc.formFits hclasses (by simp)
    callStmt := by
      intro r m args ⟨c, hc, d, hd, t, ht, hs⟩
      obtain ⟨_, hcall⟩ := (((hclasses c hc).methods d hd).body t ht).of_within hs
      exact hcall.formFits
    field := fun r x site hocc => hocc.formFits hclasses (by simp)
    index := fun a i site hocc => hocc.formFits hclasses (by simp)
    fieldTypes := by
      intro c hc v hv
      obtain ⟨Γ, hwt⟩ := (hclasses c hc).fields.exists_scope hv
      exact hdeclares hwt.knows
    paramTypes := fun c hc m hm q hq => hdeclares (((hclasses c hc).methods m hm).params q hq)
    localTypes := by
      intro c hc m hm v hv
      obtain ⟨Γ, hwt⟩ := ((hclasses c hc).methods m hm).locals.exists_scope hv
      exact hdeclares hwt.knows }

/-- A class before its parent, a loop, and a text to print behind the return. -/
def Program.tally : Program :=
  ⟨[{ name := "Tally", parent := some "Base"
      fields := [{ ty := .int, name := "total", init := some (.int 0) }]
      methods := [
        { name := "add", params := [⟨.object "Base", "b"⟩, ⟨.int, "k"⟩], ret := some .int
          locals := [
            { ty := .object "Tally", name := "t", init := some (.newObject "Tally") },
            { ty := .array .int, name := "xs", init := some (.newArray .int 4) }]
          body := [
            .assign (.field (.var "t") "total") (.var "k"),
            .while (.binop .lt (.var "k") (.int 3)) (.block [
              .call .this "add" [.newObject "Base", .unop .neg (.index (.var "xs") (.var "k"))]]),
            .ret (some (.call (.var "t") "add" [.var "t", .int 1])),
            .block [.print (some (.str "total"))]] }] },
    { name := "Base" }]⟩

theorem Program.wellPlaced_tally : tally.check = .ok () ∧ tally.WellPlaced :=
  ⟨by decide +kernel, wellPlaced_of_check (by decide +kernel)⟩

end ClassLang

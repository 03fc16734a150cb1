import ClassLang.Decl
import Mathlib.Data.Set.Function
import Mathlib.GroupTheory.GroupAction.MultipleTransitivity

/-! # Renaming classes

Class names stand in class declarations, as names of parents, in types and in object constructions.
A renaming changes them in all these places, and leaves the names of variables, fields and methods.
It may be any function that keeps the class names of the program apart. -/

namespace ClassLang

/-! ## Renaming -/

def Ty.rename (r : String → String) : Ty → Ty
  | .int => .int
  | .bool => .bool
  | .array t => .array (t.rename r)
  | .object c => .object (r c)

namespace Expr

mutual
def rename (r : String → String) : Expr → Expr
  | binop op left right => binop op (left.rename r) (right.rename r)
  | unop op e => unop op (e.rename r)
  | call receiver m args => call (receiver.rename r) m (renameAll r args)
  | newArray t k => newArray (t.rename r) k
  | index a i => index (a.rename r) (i.rename r)
  | newObject c => newObject (r c)
  | field receiver x => field (receiver.rename r) x
  | var x => var x
  | this => this
  | int k => int k
  | bool b => bool b
  | str s => str s

def renameAll (r : String → String) : List Expr → List Expr
  | [] => []
  | e :: es => e.rename r :: renameAll r es
end

@[simp] theorem length_renameAll (r : String → String) (es : List Expr) :
    (renameAll r es).length = es.length := by
  induction es with
  | nil => rfl
  | cons e es ih => simp [renameAll, ih]

@[simp] theorem kind_rename (r : String → String) (e : Expr) : (e.rename r).kind = e.kind := by
  cases e <;> simp [rename, kind]

@[simp] theorem isText_rename (r : String → String) (e : Expr) :
    (e.rename r).isText = e.isText := by
  cases e <;> simp [rename, isText]

@[simp] theorem isReference_rename (r : String → String) (e : Expr) :
    (e.rename r).isReference = e.isReference := by
  cases e <;> simp [rename, isReference]

end Expr

namespace Stmt

mutual
def rename (r : String → String) : Stmt → Stmt
  | block body => block (renameAll r body)
  | assign target value => assign (target.rename r) (value.rename r)
  | call receiver m args => call (receiver.rename r) m (Expr.renameAll r args)
  | ifThen cond thn => ifThen (cond.rename r) (thn.rename r)
  | ifElse cond thn els => ifElse (cond.rename r) (thn.rename r) (els.rename r)
  | .while cond body => .while (cond.rename r) (body.rename r)
  | print arg => print (arg.map (Expr.rename r))
  | ret value => ret (value.map (Expr.rename r))

def renameAll (r : String → String) : List Stmt → List Stmt
  | [] => []
  | s :: ss => s.rename r :: renameAll r ss
end

theorem renameAll_eq_map (r : String → String) (ss : List Stmt) :
    renameAll r ss = ss.map (rename r) := by
  induction ss with
  | nil => rfl
  | cons s ss ih => simp [renameAll, ih]

@[simp] theorem isReturn_rename (r : String → String) (s : Stmt) :
    (s.rename r).isReturn = s.isReturn := by
  cases s <;> simp [rename, isReturn]

@[simp] theorem isIf_rename (r : String → String) (s : Stmt) : (s.rename r).isIf = s.isIf := by
  cases s <;> simp [rename, isIf]

end Stmt

def Param.rename (r : String → String) (p : Param) : Param :=
  { p with ty := p.ty.rename r }

def VarDecl.rename (r : String → String) (v : VarDecl) : VarDecl :=
  { v with ty := v.ty.rename r, init := v.init.map (Expr.rename r) }

def Signature.rename (r : String → String) (m : Signature) : Signature :=
  { m with params := m.params.map (Param.rename r), ret := m.ret.map (Ty.rename r) }

def MethodDecl.rename (r : String → String) (m : MethodDecl) : MethodDecl :=
  { m.toSignature.rename r with
    locals := m.locals.map (VarDecl.rename r), body := m.body.map (Stmt.rename r) }

def ClassDecl.rename (r : String → String) (c : ClassDecl) : ClassDecl where
  name := r c.name
  parent := c.parent.map r
  fields := c.fields.map (VarDecl.rename r)
  methods := c.methods.map (MethodDecl.rename r)

def Program.rename (r : String → String) (p : Program) : Program :=
  ⟨p.classes.map (ClassDecl.rename r)⟩

/-! ## The class names of a program -/

/-- The class names in a type, also those of the elements of arrays. -/
def Ty.classNames : Ty → List String
  | .int | .bool => []
  | .array t => t.classNames
  | .object c => [c]

namespace Expr

mutual
def classNames : Expr → List String
  | binop _ left right => left.classNames ++ right.classNames
  | unop _ e => e.classNames
  | call receiver _ args => receiver.classNames ++ allClassNames args
  | newArray t _ => t.classNames
  | index a i => a.classNames ++ i.classNames
  | newObject c => [c]
  | field receiver _ => receiver.classNames
  | var _ | this | int _ | bool _ | str _ => []

def allClassNames : List Expr → List String
  | [] => []
  | e :: es => e.classNames ++ allClassNames es
end

end Expr

namespace Stmt

mutual
def classNames : Stmt → List String
  | block body => allClassNames body
  | assign target value => target.classNames ++ value.classNames
  | call receiver _ args => receiver.classNames ++ Expr.allClassNames args
  | ifThen cond thn => cond.classNames ++ thn.classNames
  | ifElse cond thn els => cond.classNames ++ thn.classNames ++ els.classNames
  | .while cond body => cond.classNames ++ body.classNames
  | print arg => arg.elim [] Expr.classNames
  | ret value => value.elim [] Expr.classNames

def allClassNames : List Stmt → List String
  | [] => []
  | s :: ss => s.classNames ++ allClassNames ss
end

end Stmt

def VarDecl.classNames (v : VarDecl) : List String :=
  v.ty.classNames ++ v.init.elim [] Expr.classNames

def Signature.classNames (m : Signature) : List String :=
  m.params.flatMap (·.ty.classNames) ++ m.ret.elim [] Ty.classNames

def MethodDecl.classNames (m : MethodDecl) : List String :=
  m.toSignature.classNames ++ m.locals.flatMap VarDecl.classNames ++
    m.body.flatMap Stmt.classNames

def ClassDecl.classNames (c : ClassDecl) : List String :=
  c.name :: c.parent.toList ++ c.fields.flatMap VarDecl.classNames ++
    c.methods.flatMap MethodDecl.classNames

/-- Wherever they stand, declared or not. -/
def Program.classNames (p : Program) : List String :=
  p.classes.flatMap ClassDecl.classNames

/-! ## Renamings that agree on the class names -/

section Congruence

variable {r r' : String → String}

theorem Ty.rename_congr {t : Ty} (h : ∀ c ∈ t.classNames, r c = r' c) :
    t.rename r = t.rename r' := by
  induction t with
  | int | bool => rfl
  | array t ih => rw [rename, rename, ih h]
  | object c => rw [rename, rename, h c List.mem_cons_self]

theorem map_eq_map_of_elim {α : Type} {names : α → List String} {f g : α → α}
    (hfg : ∀ a, (∀ c ∈ names a, r c = r' c) → f a = g a) {o : Option α}
    (h : ∀ c ∈ o.elim [] names, r c = r' c) : o.map f = o.map g := by
  cases o with
  | none => rfl
  | some a => exact congrArg some (hfg a h)

theorem map_eq_map_of_flatMap {α : Type} {names : α → List String} {f g : α → α}
    (hfg : ∀ a, (∀ c ∈ names a, r c = r' c) → f a = g a) {as : List α}
    (h : ∀ c ∈ as.flatMap names, r c = r' c) : as.map f = as.map g := by
  apply List.map_congr_left
  intro a ha
  apply hfg
  intro c hc
  exact h c (List.mem_flatMap.mpr ⟨a, ha, hc⟩)

namespace Expr

mutual
theorem rename_congr : ∀ {e : Expr}, (∀ c ∈ e.classNames, r c = r' c) → e.rename r = e.rename r'
  | binop .., h => by
    rw [classNames, List.forall_mem_append] at h
    rw [rename, rename, rename_congr h.1, rename_congr h.2]
  | unop .., h => by
    rw [classNames] at h
    rw [rename, rename, rename_congr h]
  | call .., h => by
    rw [classNames, List.forall_mem_append] at h
    rw [rename, rename, rename_congr h.1, renameAll_congr h.2]
  | newArray .., h => by
    rw [rename, rename, Ty.rename_congr h]
  | index .., h => by
    rw [classNames, List.forall_mem_append] at h
    rw [rename, rename, rename_congr h.1, rename_congr h.2]
  | newObject c, h => by
    rw [rename, rename, h c List.mem_cons_self]
  | field .., h => by
    rw [classNames] at h
    rw [rename, rename, rename_congr h]
  | var _, _ | this, _ | int _, _ | bool _, _ | str _, _ => by
    rw [rename, rename]

theorem renameAll_congr : ∀ {es : List Expr}, (∀ c ∈ allClassNames es, r c = r' c) →
    renameAll r es = renameAll r' es
  | [], _ => rfl
  | e :: es, h => by
    rw [allClassNames, List.forall_mem_append] at h
    rw [renameAll, renameAll, rename_congr h.1, renameAll_congr h.2]
end

end Expr

namespace Stmt

mutual
theorem rename_congr : ∀ {s : Stmt}, (∀ c ∈ s.classNames, r c = r' c) → s.rename r = s.rename r'
  | block _, h => by
    rw [rename, rename, renameAll_congr h]
  | assign .., h => by
    rw [classNames, List.forall_mem_append] at h
    rw [rename, rename, Expr.rename_congr h.1, Expr.rename_congr h.2]
  | call .., h => by
    rw [classNames, List.forall_mem_append] at h
    rw [rename, rename, Expr.rename_congr h.1, Expr.renameAll_congr h.2]
  | ifThen .., h => by
    rw [classNames, List.forall_mem_append] at h
    rw [rename, rename, Expr.rename_congr h.1, rename_congr h.2]
  | ifElse .., h => by
    rw [classNames, List.forall_mem_append, List.forall_mem_append] at h
    rw [rename, rename, Expr.rename_congr h.1.1, rename_congr h.1.2, rename_congr h.2]
  | .while .., h => by
    rw [classNames, List.forall_mem_append] at h
    rw [rename, rename, Expr.rename_congr h.1, rename_congr h.2]
  | print _, h => by
    rw [rename, rename, map_eq_map_of_elim (fun _ => Expr.rename_congr) h]
  | ret _, h => by
    rw [rename, rename, map_eq_map_of_elim (fun _ => Expr.rename_congr) h]

theorem renameAll_congr : ∀ {ss : List Stmt}, (∀ c ∈ allClassNames ss, r c = r' c) →
    renameAll r ss = renameAll r' ss
  | [], _ => rfl
  | s :: ss, h => by
    rw [allClassNames, List.forall_mem_append] at h
    rw [renameAll, renameAll, rename_congr h.1, renameAll_congr h.2]
end

end Stmt

theorem VarDecl.rename_congr {v : VarDecl} (h : ∀ c ∈ v.classNames, r c = r' c) :
    v.rename r = v.rename r' := by
  rw [classNames, List.forall_mem_append] at h
  rw [rename, rename, Ty.rename_congr h.1,
    map_eq_map_of_elim (fun _ => Expr.rename_congr) h.2]

theorem Signature.rename_congr {m : Signature} (h : ∀ c ∈ m.classNames, r c = r' c) :
    m.rename r = m.rename r' := by
  rw [classNames, List.forall_mem_append] at h
  have hparam (p : Param) (hp : ∀ c ∈ p.ty.classNames, r c = r' c) : p.rename r = p.rename r' := by
    rw [Param.rename, Param.rename, Ty.rename_congr hp]
  rw [rename, rename, map_eq_map_of_flatMap hparam h.1,
    map_eq_map_of_elim (fun _ => Ty.rename_congr) h.2]

theorem MethodDecl.rename_congr {m : MethodDecl} (h : ∀ c ∈ m.classNames, r c = r' c) :
    m.rename r = m.rename r' := by
  rw [classNames, List.forall_mem_append, List.forall_mem_append] at h
  rw [rename, rename, Signature.rename_congr h.1.1,
    map_eq_map_of_flatMap (fun _ => VarDecl.rename_congr) h.1.2,
    map_eq_map_of_flatMap (fun _ => Stmt.rename_congr) h.2]

theorem ClassDecl.rename_congr {c : ClassDecl} (h : ∀ k ∈ c.classNames, r k = r' k) :
    c.rename r = c.rename r' := by
  rw [classNames, List.forall_mem_append, List.forall_mem_append, List.forall_mem_cons] at h
  obtain ⟨⟨⟨hname, hparent⟩, hfields⟩, hmethods⟩ := h
  have hparent' : c.parent.map r = c.parent.map r' := by
    apply Option.map_congr
    intro p hp
    exact hparent p (by simp [Option.mem_def.mp hp])
  rw [rename, rename, hname, hparent',
    map_eq_map_of_flatMap (fun _ => VarDecl.rename_congr) hfields,
    map_eq_map_of_flatMap (fun _ => MethodDecl.rename_congr) hmethods]

theorem Program.rename_congr {p : Program} (h : ∀ c ∈ p.classNames, r c = r' c) :
    p.rename r = p.rename r' := by
  rw [rename, rename, map_eq_map_of_flatMap (fun _ => ClassDecl.rename_congr) h]

end Congruence

/-- What keeps the names of a list apart goes on to a function that keeps all names apart. -/
theorem exists_injective_eqOn {r : String → String} {names : List String}
    (hr : Set.InjOn r {c | c ∈ names}) :
    ∃ r' : String → String, Function.Injective r' ∧ ∀ c ∈ names, r c = r' c := by
  let old : Fin names.dedup.length ↪ String :=
    ⟨names.dedup.get, List.nodup_iff_injective_get.mp names.nodup_dedup⟩
  have hold (i : Fin names.dedup.length) : old i ∈ names :=
    List.mem_dedup.mp (List.get_mem names.dedup i)
  let new : Fin names.dedup.length ↪ String :=
    ⟨r ∘ old, fun i j hij => old.injective (hr (hold i) (hold j) hij)⟩
  obtain ⟨σ, hσ⟩ := (Equiv.Perm.isMultiplyPretransitive String _).exists_smul_eq old new
  refine ⟨σ, σ.injective, ?_⟩
  intro c hc
  obtain ⟨i, rfl⟩ := List.get_of_mem (List.mem_dedup.mpr hc)
  exact (congrFun (congrArg DFunLike.coe hσ) i).symm

end ClassLang

import ClassLang.Scope

/-! # Typing rules

When an expression has a type, said by rules rather than by a search. The rules name no fault and
no order in which parts are looked at. -/

namespace ClassLang

/-- The member that the classes of a chain give, where the first class that has one decides. -/
def Nearest {α : Type} (member : ClassDecl → Option α) (chain : List ClassDecl) (a : α) : Prop :=
  ∃ below c above, chain = below ++ c :: above ∧ member c = some a ∧ ∀ d ∈ below, member d = none

theorem nearest_iff {α : Type} {member : ClassDecl → Option α} {chain : List ClassDecl} {a : α} :
    Nearest member chain a ↔ chain.findSome? member = some a :=
  List.findSome?_eq_some_iff.symm

/-- An object type names a declared class. -/
def Hierarchy.Knows (h : Hierarchy) (t : Ty) : Prop :=
  ∀ c, t = .object c → h.contains c = true

/-- An argument fits a parameter: it may stand there, and the classes that the two types name are
declared. -/
structure Hierarchy.Accepts (h : Hierarchy) (param arg : Ty) : Prop where
  assignable : h.assignable param arg = true
  knows_param : h.Knows param
  knows_arg : h.Knows arg

/-- The class whose methods a receiver has. -/
inductive Scope.Receiver (Γ : Scope) : Expr → String → Prop
  | this {c : String} (hc : Γ.self = some c) : Γ.Receiver .this c
  | var {x c : String} (hc : Γ.objects[x]? = some c) : Γ.Receiver (.var x) c

mutual
/-- The expression has the type, or yields no value if there is none. -/
inductive HasType (h : Hierarchy) (Γ : Scope) : Expr → Option Ty → Prop
  | int {k : Int} : HasType h Γ (.int k) (some .int)
  | bool {b : Bool} : HasType h Γ (.bool b) (some .bool)
  | var {x : String} {t : Ty} (hx : Γ.types[x]? = some t) : HasType h Γ (.var x) (some t)
  | ownField {x c : String} {f : VarDecl} (hx : Γ.types[x]? = none) (hc : Γ.self = some c)
      (hf : Nearest (·.field? x) (h.ancestors c) f) : HasType h Γ (.var x) (some f.ty)
  | this {c : String} (hc : Γ.self = some c) : HasType h Γ .this (some (.object c))
  | field {r : Expr} {x c : String} {f : VarDecl} (href : r.isReference = true)
      (hr : HasType h Γ r (some (.object c))) (hc : h.contains c = true)
      (hf : Nearest (·.field? x) (h.ancestors c) f) : HasType h Γ (.field r x) (some f.ty)
  | newObject {c : String} (hc : h.contains c = true) :
      HasType h Γ (.newObject c) (some (.object c))
  | newArray {t : Ty} {k : Int} (ht : t.isPrimitive = true) (hk : 0 ≤ k) :
      HasType h Γ (.newArray t k) (some (.array t))
  | index {x : String} {i : Expr} {t : Ty} (ha : HasType h Γ (.var x) (some (.array t)))
      (hi : HasType h Γ i (some .int)) : HasType h Γ (.index (.var x) i) (some t)
  | arithmetic {op : BinaryOp} {l r : Expr} (hop : op.isArithmetic = true)
      (hl : HasType h Γ l (some .int)) (hr : HasType h Γ r (some .int)) :
      HasType h Γ (.binop op l r) (some .int)
  | logical {op : BinaryOp} {l r : Expr} {s t : Ty} (hop : op.isLogical = true)
      (hl : HasType h Γ l (some s)) (hr : HasType h Γ r (some t))
      (hst : h.comparable s t = true) (hs : s ≠ .int) (ht : t ≠ .int) :
      HasType h Γ (.binop op l r) (some .bool)
  | comparison {op : BinaryOp} {l r : Expr} {s t : Ty} (ha : op.isArithmetic = false)
      (hop : op.isLogical = false) (hl : HasType h Γ l (some s)) (hr : HasType h Γ r (some t))
      (hst : h.comparable s t = true) : HasType h Γ (.binop op l r) (some .bool)
  | unop {op : UnaryOp} {e : Expr} (he : HasType h Γ e (some op.ty)) :
      HasType h Γ (.unop op e) (some op.ty)
  | call {r : Expr} {m c : String} {args : List Expr} {d : MethodDecl} (hr : Γ.Receiver r c)
      (hd : Nearest (·.method? m) (h.ancestors c) d) (hargs : HasArgs h Γ d.params args) :
      HasType h Γ (.call r m args) d.ret

/-- As many arguments as parameters, and each fits its own. -/
inductive HasArgs (h : Hierarchy) (Γ : Scope) : List Param → List Expr → Prop
  | nil : HasArgs h Γ [] []
  | cons {p : Param} {e : Expr} {t : Ty} {params : List Param} {args : List Expr}
      (he : HasType h Γ e (some t)) (hp : h.Accepts p.ty t) (hargs : HasArgs h Γ params args) :
      HasArgs h Γ (p :: params) (e :: args)
end

theorem HasArgs.length_eq {h : Hierarchy} {Γ : Scope} :
    ∀ {params : List Param} {args : List Expr}, HasArgs h Γ params args →
      params.length = args.length
  | [], [], _ => rfl
  | _ :: _, _ :: _, .cons _ _ hargs => congrArg (· + 1) hargs.length_eq

end ClassLang

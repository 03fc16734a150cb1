import ClassLang.Hierarchy.Assignable
import Std.Data.TreeMap

/-! # Scopes

What the names in an expression stand for: the class that `this` is of, the types of the declared
names, and the classes of those names that calls may be made on. -/

namespace ClassLang

structure Scope where
  self : Option String := none
  types : Std.TreeMap String Ty := ∅
  /-- Names that hold an object, with the class they were declared with. -/
  objects : Std.TreeMap String String := ∅

namespace Scope

/-- The scope of a class before anything is declared in it. -/
def ofClass (className : String) : Scope :=
  { self := className }

/-- Nothing declared; `this` stays. -/
def clear (Γ : Scope) : Scope :=
  { self := Γ.self }

def declare (Γ : Scope) (x : String) (t : Ty) : Scope :=
  { Γ with types := Γ.types.insert x t }

def bind (Γ : Scope) (x className : String) : Scope :=
  { Γ with objects := Γ.objects.insert x className }

/-- Only a name of object type can be called on. -/
def bindObject (Γ : Scope) (x : String) : Ty → Scope
  | .object c => Γ.bind x c
  | _ => Γ

def className (Γ : Scope) (site : Construct) : Except Diagnostic String :=
  match Γ.self with
  | some c => .ok c
  | none => .error ⟨.unknownName "this", site⟩

/-- A field of the class of `this`, its own or inherited. -/
def ownField? (Γ : Scope) (h : Hierarchy) (x : String) : Option VarDecl :=
  Γ.self.bind fun c => h.field? c x

/-- A declared name hides a field. -/
def type? (Γ : Scope) (h : Hierarchy) (x : String) : Option Ty :=
  Γ.types[x]? <|> (Γ.ownField? h x).map (·.ty)

def typeOf (Γ : Scope) (h : Hierarchy) (site : Construct) (x : String) : Except Diagnostic Ty :=
  match Γ.type? h x with
  | some t => .ok t
  | none => .error ⟨.unknownName x, site⟩

/-- The class whose methods a receiver has. A field is no receiver, even of object type. -/
def classOfReceiver (Γ : Scope) (site : Construct) : Expr → Except Diagnostic String
  | .this => Γ.className site
  | .var x =>
    match Γ.objects[x]? with
    | some c => .ok c
    | none => .error ⟨.unknownName x, site⟩
  | e => .error ⟨.typeMismatch "object reference" e.kind, site⟩

end Scope
end ClassLang

import ClassLang.Stmt.Basic

/-! # Declarations

Parameters, variables, methods, classes, and the program they make up. -/

namespace ClassLang

structure Param where
  ty : Ty
  name : String
  deriving DecidableEq, Repr, Inhabited

/-- A field of a class or a local of a method. -/
structure VarDecl where
  ty : Ty
  name : String
  init : Option Expr := none
  deriving Repr, Inhabited

/-- What a caller sees of a method. A method without a result type returns no value. -/
structure Signature where
  name : String
  params : List Param := []
  ret : Option Ty := none
  deriving DecidableEq, Repr, Inhabited

structure MethodDecl extends Signature where
  locals : List VarDecl := []
  body : List Stmt := []
  deriving Repr, Inhabited

structure ClassDecl where
  name : String
  parent : Option String := none
  fields : List VarDecl := []
  methods : List MethodDecl := []
  deriving Repr, Inhabited

namespace ClassDecl

/-- Of two fields of one name the first counts. -/
def field? (c : ClassDecl) (x : String) : Option VarDecl :=
  c.fields.find? (·.name == x)

/-- Of two methods of one name the first counts. -/
def method? (c : ClassDecl) (m : String) : Option MethodDecl :=
  c.methods.find? (·.name == m)

end ClassDecl

structure Program where
  classes : List ClassDecl
  deriving Repr, Inhabited

end ClassLang

import ClassLang.Text.Quoted

/-! # Diagnostics

A diagnostic is a fault together with the construct in which it was found. The wording of faults,
of the tips that go with them and of the report stands here alone. -/

namespace ClassLang

/-- The places where a fault can be found. -/
inductive Construct where
  | program | classDecl | methodDecl | param | varDecl
  | assign | callStmt | ifStmt | whileStmt | print | ret
  | binop | unop | call | newArray | index | newObject | field | var | this | expr
  deriving DecidableEq, Repr

def Construct.label : Construct → String
  | program => "Program"
  | classDecl => "ClassDecl"
  | methodDecl => "MethodDecl"
  | param => "Param"
  | varDecl => "VarDecl"
  | assign => "Assign"
  | callStmt => "CallStmt"
  | ifStmt => "If"
  | whileStmt => "While"
  | print => "Print"
  | ret => "Return"
  | binop => "Binop"
  | unop => "Unop"
  | call => "Call"
  | newArray => "NewArray"
  | index => "ArrayElm"
  | newObject => "NewObj"
  | field => "Field"
  | var => "Id"
  | this => "This"
  | expr => "Exp"

def Construct.phrase (k : Construct) : String :=
  "In " ++ k.label

inductive Fault where
  | unknownClass (className : String)
  | unknownField (className field : String)
  | unknownMethod (className method : String)
  | unknownName (name : String)
  | arityMismatch (expected received : Nat)
  /-- Not only types disagree: also a kind of expression, or a value and its absence. -/
  | typeMismatch (expected received : String)
  | conditionNotBoolean (received : String)
  | indexNotInteger (received : String)
  | negativeArrayLength (length : Int)
  | missingReturn (method : String)
  | missingReturnValue (expected : String)
  | unexpectedReturnValue
  | cyclicHierarchy (classNames : List String)
  | duplicateClass (className : String)
  | unrecognizedNode (node : String)
  deriving DecidableEq, Repr

namespace Fault

def title : Fault → String
  | unknownClass _ => "UnknownClass"
  | unknownField .. => "UnknownField"
  | unknownMethod .. => "UnknownMethod"
  | unknownName _ => "UnknownName"
  | arityMismatch .. => "ArityMismatch"
  | typeMismatch .. => "TypeMismatch"
  | conditionNotBoolean _ => "ConditionNotBoolean"
  | indexNotInteger _ => "IndexNotInteger"
  | negativeArrayLength _ => "NegativeArrayLength"
  | missingReturn _ => "MissingReturn"
  | missingReturnValue _ => "MissingReturnValue"
  | unexpectedReturnValue => "UnexpectedReturnValue"
  | cyclicHierarchy _ => "CyclicHierarchy"
  | duplicateClass _ => "DuplicateClass"
  | unrecognizedNode _ => "UnrecognizedNode"

def text : Fault → String
  | unknownClass c => s!"can't find class {c}"
  | unknownField c x => s!"can't find field {x} in class {c}"
  | unknownMethod c m => s!"can't find method {m} in class {c}"
  | unknownName x => s!"can't find variable {x}"
  | arityMismatch e r => s!"param and arg counts don't match: {e} vs. {r}"
  | typeMismatch e r => s!"types don't match: expected {e}, received {r}"
  | conditionNotBoolean r => s!"cond exp type is not boolean: {r}"
  | indexNotInteger r => s!"index is not integer: {r}"
  | negativeArrayLength k => s!"array length cannot be negative: {k}"
  | missingReturn m => s!"missing return statement in method {m}"
  | missingReturnValue e => s!"missing return value of type {e}"
  | unexpectedReturnValue => "unexpected return value"
  | cyclicHierarchy cs => "cyclic class hierarchy: " ++ Text.quoteList cs
  | duplicateClass c => s!"class {c} is declared more than once"
  | unrecognizedNode n => s!"illegal ast node: {n}"

/-- What to do about it. Names stand as they are, without escapes. -/
def tip : Fault → Option String
  | unknownClass c => s!"Class `{c}` is not declared"
  | unknownField c x => s!"Class `{c}` and its ancestors have no field `{x}`"
  | unknownMethod c m => s!"Class `{c}` and its ancestors have no method `{m}`"
  | unknownName x => s!"`{x}` is not a parameter, local or field"
  | arityMismatch e r => s!"Expected {e} arguments, received {r}"
  | typeMismatch e r => s!"Expected type `{e}`, received `{r}`"
  | conditionNotBoolean r => s!"Conditions must be `boolean`, received `{r}`"
  | indexNotInteger r => s!"Array indices must be `int`, received `{r}`"
  | negativeArrayLength _ => none
  | missingReturn m => s!"Add a `return` that every path through `{m}` reaches"
  | missingReturnValue e => s!"Return a value of type `{e}`"
  | unexpectedReturnValue => "Void methods cannot return a value"
  | cyclicHierarchy cs => "Classes `" ++ "`, `".intercalate cs ++ "` inherit from each other"
  | duplicateClass c => s!"Rename one of the classes named `{c}`"
  | unrecognizedNode _ => none

end Fault

structure Diagnostic where
  fault : Fault
  site : Construct
  deriving DecidableEq, Repr

namespace Diagnostic

def message (d : Diagnostic) : String :=
  "(" ++ d.site.phrase ++ ") " ++ d.fault.text

/-- Two lines: the title, with the tip if there is one, and the message. -/
def report (d : Diagnostic) : String :=
  let tip := match d.fault.tip with
    | none => ""
    | some t => " (" ++ t ++ ")"
  "Error: " ++ d.fault.title ++ tip ++ "\n-> " ++ d.message ++ "\n"

end Diagnostic
end ClassLang

import TypedStub.Binary64
import TypedStub.Name
import TypedStub.Text

/-! Modules as reflection reports them, and the literal values of what they store.

A module has members, and a class among them has members of its own. Which of them are looked at is told by their names.
-/

set_option autoImplicit false

namespace TypedStub

inductive Literal where
  | null
  | bool (value : Bool)
  | int (value : Int64)
  | float (value : Binary64)
  | text (value : String)
  | textTuple (items : List String)
  deriving DecidableEq, Repr

namespace Literal

def typeName : Literal → String
  | .null => "None"
  | .bool _ => "bool"
  | .int _ => "int"
  | .float _ => "float"
  | .text _ => "str"
  | .textTuple _ => "tuple"

/-- A floating-point number in a stub. Those without digits are written as a conversion from text. -/
def floatForm : Binary64 → String
  | .nan => "float(\"nan\")"
  | .infinite negative => "float(\"" ++ (if negative then "-" else "") ++ "inf\")"
  | value => value.text

def tupleForm : List String → String
  | [item] => "(" ++ Text.Quoted.quote item ++ ",)"
  | items => "(" ++ ", ".intercalate (items.map Text.Quoted.quote) ++ ")"

def stubForm : Literal → String
  | .null => "None"
  | .bool true => "True"
  | .bool false => "False"
  | .int value => toString value.toInt
  | .float value => floatForm value
  | .text value => Text.Quoted.quote value
  | .textTuple items => tupleForm items

end Literal

/-! ### Members with their kind, documentation and parameters -/

inductive ParameterKind where
  | positionalOnly
  | positionalOrKeyword
  | varPositional
  | keywordOnly
  | varKeyword
  deriving DecidableEq, Repr

structure Parameter where
  name : String
  kind : ParameterKind := .positionalOrKeyword
  default? : Option Literal := none
  deriving DecidableEq, Repr

structure Signature where
  parameters : List Parameter
  deriving DecidableEq, Repr

def isReceiverName (name : String) : Bool := name = "self" || name = "cls"

namespace Signature

def find? (signature : Signature) (name : String) : Option Parameter :=
  signature.parameters.find? fun parameter => parameter.name = name

def first? (signature : Signature) : Option Parameter := signature.parameters.head?

def hasReceiver (signature : Signature) : Bool :=
  signature.parameters.any fun parameter => isReceiverName parameter.name

end Signature

inductive Binding where
  | classMethod
  | staticMethod
  deriving DecidableEq, Repr

/-- What a callable is bound to when it is looked up on its class. -/
inductive Receiver where
  | object
  | type
  deriving DecidableEq, Repr

structure Routine where
  doc : Option String := none
  /-- The declared parameters, unless the callable does not tell. -/
  signature : Option Signature := none
  binding : Option Binding := none
  boundTo : Option Receiver := none
  deriving DecidableEq, Repr

mutual

structure Member where
  name : String
  /-- The type the member is inherited from, where that is known. -/
  owner : Option String
  content : Content

inductive Content where
  | classDef (doc : Option String) (members : List Member)
  | routine (routine : Routine)
  | property (doc : Option String)
  | value (typeName : String) (value : Literal)
  | absent

end

inductive Category where
  | classDef
  | routine
  | property
  | value
  | absent
  deriving DecidableEq, Repr

def Content.category : Content → Category
  | .classDef .. => .classDef
  | .routine _ => .routine
  | .property _ => .property
  | .value .. => .value
  | .absent => .absent

structure Module where
  name : String
  doc : Option String
  attributes : NameMap Literal
  members : List Member

/-! ### Which members of a module or a class are looked at -/

inductive Scope where
  | moduleBody
  | classBody
  deriving DecidableEq, Repr

def startsWith (start : List Char) (name : String) : Bool := start.isPrefixOf name.toList

def endsWith (ending : List Char) (name : String) : Bool := ending.reverse.isPrefixOf name.toList.reverse

/-- The names of protocol members: two underscores on each side of something. -/
def isProtocolName (name : String) : Bool :=
  4 < name.utf8ByteSize && startsWith ['_', '_'] name && endsWith ['_', '_'] name

/-- Modules hide all names with a leading underscore, classes all but those of protocol members. -/
def Scope.shows (scope : Scope) (name : String) : Bool :=
  match scope with
  | .moduleBody => !startsWith ['_'] name
  | .classBody => !startsWith ['_'] name || isProtocolName name

def Scope.visible (scope : Scope) (members : List Member) : List Member :=
  members.filter fun member => scope.shows member.name

end TypedStub

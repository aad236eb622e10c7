import TypedStub.Module

/-! The roles of members.

Protocol members are those that the language itself calls, named with two underscores on each side. Many have parameters
and results that are known without documentation, and some say nothing about how a class is used.
-/

set_option autoImplicit false

namespace TypedStub

inductive ProtocolShape where
  | hidden
  | fixed (operands : List String) (returns : String)
  /-- An arithmetic operator, of which neither operands nor result are told. -/
  | bare
  deriving DecidableEq, Repr

namespace Protocol

def shapes : List (String × ProtocolShape) := [
  ("__annotations__", .hidden),
  ("__bool__", .fixed [] "bool"),
  ("__bytes__", .fixed [] "bytes"),
  ("__class__", .hidden),
  ("__contains__", .fixed ["typing.Any"] "bool"),
  ("__del__", .hidden),
  ("__delattr__", .fixed ["str"] "None"),
  ("__delitem__", .fixed ["typing.Any"] "None"),
  ("__dict__", .hidden),
  ("__dir__", .hidden),
  ("__doc__", .hidden),
  ("__eq__", .fixed ["typing.Any"] "bool"),
  ("__format__", .fixed ["str"] "str"),
  ("__ge__", .fixed ["typing.Any"] "bool"),
  ("__getattribute__", .fixed ["str"] "typing.Any"),
  ("__getitem__", .fixed ["typing.Any"] "typing.Any"),
  ("__gt__", .fixed ["typing.Any"] "bool"),
  ("__hash__", .fixed [] "int"),
  ("__init__", .fixed [] "None"),
  ("__init_subclass__", .hidden),
  ("__iter__", .fixed [] "typing.Any"),
  ("__le__", .fixed ["typing.Any"] "bool"),
  ("__len__", .fixed [] "int"),
  ("__lt__", .fixed ["typing.Any"] "bool"),
  ("__module__", .hidden),
  ("__ne__", .fixed ["typing.Any"] "bool"),
  ("__new__", .hidden),
  ("__next__", .fixed [] "typing.Any"),
  ("__int__", .fixed [] "None"),
  ("__reduce__", .hidden),
  ("__reduce_ex__", .hidden),
  ("__repr__", .fixed [] "str"),
  ("__setattr__", .fixed ["str", "typing.Any"] "None"),
  ("__setitem__", .fixed ["typing.Any", "typing.Any"] "None"),
  ("__sizeof__", .hidden),
  ("__str__", .fixed [] "str"),
  ("__subclasshook__", .hidden),
  ("__add__", .bare),
  ("__sub__", .bare),
  ("__mul__", .bare),
  ("__div__", .bare),
  ("__radd__", .bare),
  ("__rsub__", .bare),
  ("__rmul__", .bare),
  ("__rdiv__", .bare),
  ("__truediv__", .fixed ["typing.Any"] "typing.Any"),
  ("__rtruediv__", .fixed ["typing.Any"] "typing.Any"),
  ("__setstate__", .fixed ["typing.Any"] "None"),
  ("__getnewargs__", .fixed [] "typing.Tuple")
]

def shape? (name : String) : Option ProtocolShape :=
  (shapes.find? fun entry => entry.1 = name).map Prod.snd

def baseMembers : List String := [
  "__class__", "__delattr__", "__dir__", "__doc__", "__eq__", "__format__", "__ge__",
  "__getattribute__", "__getstate__", "__gt__", "__hash__", "__init__", "__init_subclass__",
  "__le__", "__lt__", "__ne__", "__new__", "__reduce__", "__reduce_ex__", "__repr__",
  "__setattr__", "__sizeof__", "__str__", "__subclasshook__"
]

def baseType : String := "object"

def initializer : String := "__init__"

def allocator : String := "__new__"

def matchArgs : String := "__match_args__"

def isConstructorName (name : String) : Bool := name = initializer || name = allocator

/-- The member is the one that every class has, not one of the class itself. -/
def isFromBase (name : String) (owner : Option String) : Bool :=
  owner = some baseType && baseMembers.contains name

end Protocol

/-! ### What a member becomes in a stub -/

inductive CallableKind where
  | constructor
  | classBound
  | static
  | bound
  | protocol
  | function
  deriving DecidableEq, Repr

inductive Role where
  | callable (kind : CallableKind)
  | attribute
  | constant
  deriving DecidableEq, Repr

inductive Verdict where
  /-- The member is shown. The role may only be `assumed`, where the callable does not tell. -/
  | shown (role : Role) (assumed : Bool)
  | discarded
  | unsupported
  deriving DecidableEq, Repr

inductive ModuleRole where
  | classDef (doc : Option String) (members : List Member)
  | function (routine : Routine)
  | unsupported

def Content.moduleRole : Content → ModuleRole
  | .classDef doc members => .classDef doc members
  | .routine callable => .function callable
  | .property _ | .value .. | .absent => .unsupported

def occursIn (part : List Char) : List Char → Bool
  | [] => part.isEmpty
  | c :: rest => part.isPrefixOf (c :: rest) || occursIn part rest

/-- Types with this in their name are errors: nobody documents how they are made. -/
def errorMark : String := "Error"

def isErrorType (name : String) : Bool := occursIn errorMark.toList name.toList

/-- How an ordinary callable of a class is bound, and whether that is only assumed. -/
def Routine.binding? (routine : Routine) : CallableKind × Bool :=
  match routine.binding, routine.signature with
  | some .classMethod, _ => (.classBound, false)
  | some .staticMethod, _ => (.static, false)
  | none, none => (.bound, true)
  | none, some signature =>
    if (signature.first?.map Parameter.name) = some "cls" then (.classBound, false)
    else if routine.boundTo = some .type ∧ (signature.find? "self").isNone then (.static, false)
    else (.bound, false)

def Member.verdict (className : String) (member : Member) : Verdict :=
  if Protocol.isConstructorName member.name then
    if isErrorType className then .discarded else .shown (.callable .constructor) false
  else if Protocol.isFromBase member.name member.owner || Protocol.shape? member.name = some .hidden then
    .discarded
  else
    match member.content with
    | .property _ => .shown .attribute false
    | .routine routine =>
      if isProtocolName member.name then .shown (.callable .protocol) false
      else .shown (.callable routine.binding?.1) routine.binding?.2
    | .value .. | .classDef .. =>
      if member.name = Protocol.matchArgs || !startsWith ['_'] member.name then .shown .constant false
      else .unsupported
    | .absent => if member.name = Protocol.matchArgs then .shown .constant false else .unsupported

end TypedStub

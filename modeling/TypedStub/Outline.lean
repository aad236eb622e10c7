import TypedStub.Documentation
import TypedStub.Name
import TypedStub.Role
import TypedStub.TypeTerm

/-! Outlines: what a stub says about a module, before it is written down.

In each list of an outline the names are distinct: of two members of one name the first is kept.
-/

set_option autoImplicit false

namespace TypedStub

structure ParameterOutline where
  name : String
  /-- The type, which only a receiver lacks. -/
  type : Option TypeTerm
  default? : Option Literal := none
  kind : ParameterKind := .positionalOrKeyword
  deriving DecidableEq

structure CallableOutline where
  name : String
  kind : CallableKind
  parameters : List ParameterOutline
  returns : Option TypeTerm
  doc : Option String
  deriving DecidableEq

structure AttributeOutline where
  name : String
  type : TypeTerm
  doc : Option String
  deriving DecidableEq

structure ConstantOutline where
  name : String
  type : TypeTerm
  value : Option Literal
  deriving DecidableEq

structure ClassOutline where
  name : String
  doc : Option String := none
  attributes : List AttributeOutline := []
  methods : List CallableOutline := []
  protocolMethods : List CallableOutline := []
  constants : List ConstantOutline := []
  deriving DecidableEq

structure ModuleOutline where
  name : String
  classes : List ClassOutline := []
  functions : List CallableOutline := []
  metadata : List ConstantOutline := []
  imports : NameSet := ∅
  deriving DecidableEq

/-- Append an item, unless there is one of its name. -/
def appendNew? {α : Type} (name : α → String) (items : List α) (item : α) : Option (List α) :=
  if items.any fun other => name other = name item then none else some (items ++ [item])

def ModuleOutline.class? (outline : ModuleOutline) (name : String) : Option ClassOutline :=
  outline.classes.find? fun item => item.name = name

def ClassOutline.callable? (outline : ClassOutline) (name : String) : Option CallableOutline :=
  (outline.methods ++ outline.protocolMethods).find? fun item => item.name = name

inductive ClassEntry where
  | attribute (item : AttributeOutline)
  | method (item : CallableOutline)
  | protocolMethod (item : CallableOutline)
  | constant (item : ConstantOutline)

/-- Add an entry to the list it belongs to, unless its name is taken there. -/
def ClassOutline.add? (outline : ClassOutline) : ClassEntry → Option ClassOutline
  | .attribute item =>
    (appendNew? AttributeOutline.name outline.attributes item).map ({ outline with attributes := · })
  | .method item =>
    (appendNew? CallableOutline.name outline.methods item).map ({ outline with methods := · })
  | .protocolMethod item =>
    (appendNew? CallableOutline.name outline.protocolMethods item).map
      ({ outline with protocolMethods := · })
  | .constant item =>
    (appendNew? ConstantOutline.name outline.constants item).map ({ outline with constants := · })

inductive ModuleEntry where
  | classDef (item : ClassOutline)
  | function (item : CallableOutline)

def ModuleOutline.add? (outline : ModuleOutline) : ModuleEntry → Option ModuleOutline
  | .classDef item =>
    (appendNew? ClassOutline.name outline.classes item).map ({ outline with classes := · })
  | .function item =>
    (appendNew? CallableOutline.name outline.functions item).map ({ outline with functions := · })

/-! ### Warnings: what a stub leaves open or leaves out. A warning never stops the work -/

inductive WarningKind where
  | unresolvedParameter
  | unknownParameter
  | unsupportedMember
  | assumedBinding
  | duplicateMember
  deriving DecidableEq, Repr

def WarningKind.description : WarningKind → String
  | .unresolvedParameter => "unresolved parameter"
  | .unknownParameter => "unknown documented parameter"
  | .unsupportedMember => "unsupported member"
  | .assumedBinding => "classification fallback"
  | .duplicateMember => "duplicate member"

structure Warning where
  kind : WarningKind
  path : String
  message : String
  deriving DecidableEq, Repr

namespace Warning

def text (warning : Warning) : String :=
  warning.path ++ ": " ++ warning.message ++ " (" ++ warning.kind.description ++ ")"

def count (kind : WarningKind) (warnings : List Warning) : Nat :=
  warnings.countP fun warning => warning.kind = kind

def unresolvedParameter (path name : String) : Warning :=
  ⟨.unresolvedParameter, path, "parameter `" ++ name ++ "` has no type documentation"⟩

def unknownParameter (path name : String) : Warning :=
  ⟨.unknownParameter, path, "parameter `" ++ name ++ "` is documented but not in the signature"⟩

def unsupportedRootMember (path : String) : Warning :=
  ⟨.unsupportedMember, path, "unsupported root member is neither a class nor a callable"⟩

def unsupportedClassMember (path : String) : Warning :=
  ⟨.unsupportedMember, path, "member is not a class, callable, descriptor or value"⟩

def assumedBinding (path : String) : Warning :=
  ⟨.assumedBinding, path, "signature is not introspectable, assuming an instance method"⟩

def duplicateMember (path : String) : Warning :=
  ⟨.duplicateMember, path, "member name already emitted, keeping the first"⟩

end Warning

/-! ### What is found on the way to an outline: imports and warnings, or the failure that ends the work -/

inductive SingleField where
  | returnType
  | returned
  deriving DecidableEq, Repr

def SingleField.mark : SingleField → String
  | .returnType => ":rtype:"
  | .returned => ":return:"

/-- Why a module has no outline. The path names the member at fault. -/
inductive OutlineFailure where
  | badType (path : String) (fault : TypeTerm.Fault)
  | repeatedField (path : String) (field : SingleField)
  deriving DecidableEq, Repr

def OutlineFailure.message : OutlineFailure → String
  | .badType path fault => "cannot parse documented type of " ++ path ++ ": " ++ fault.message
  | .repeatedField path field => "multiple " ++ field.mark ++ " annotations found for " ++ path

/-- A part of an outline with the imports it needs and the warnings about it. -/
structure Found (α : Type) where
  value : α
  imports : NameSet := ∅
  warnings : List Warning := []
  deriving DecidableEq

/-- Work on an outline, which a fault in the documentation ends. -/
abbrev Outlining := Except OutlineFailure

namespace Found

variable {α β : Type}

def map (f : α → β) (found : Found α) : Found β := { found with value := f found.value }

def after (earlier : Found α) (later : Found β) : Found β where
  value := later.value
  imports := earlier.imports ∪ later.imports
  warnings := earlier.warnings ++ later.warnings

def warn (found : Found α) (warning : Warning) : Found α :=
  { found with warnings := found.warnings ++ [warning] }

end Found

def readDocumentedType (view : Viewpoint) (path source : String) : Outlining (Found TypeTerm) :=
  match TypeTerm.read view.refer source with
  | .ok referred => .ok { value := referred.type, imports := referred.imports }
  | .error fault => .error (.badType path fault)

/-! ### The parameters of a callable, with a type for each

A type comes from the documentation, or else from the shape of a protocol member. A parameter that
has neither may be anything, and is warned about. A receiver has no type.
-/

def implicitReceiver? (name : String) : CallableKind → Option String
  | .function | .static => none
  | .classBound => some "cls"
  | .constructor => if name = Protocol.allocator then some "cls" else some "self"
  | .bound | .protocol => some "self"

namespace Signature

/-- The receiver is not declared. A constructor may declare the other receiver as well. -/
def lacks (signature : Signature) (kind : CallableKind) (receiver : String) : Bool :=
  match kind with
  | .constructor => (signature.find? receiver).isNone
  | _ => !signature.hasReceiver

def withReceiver (signature : Signature) (name : String) (kind : CallableKind) : List Parameter :=
  match implicitReceiver? name kind with
  | some receiver =>
    if signature.lacks kind receiver then { name := receiver } :: signature.parameters
    else signature.parameters
  | none => signature.parameters

end Signature

def ProtocolShape.operands? : ProtocolShape → Option (List String)
  | .fixed operands _ => some operands
  | .hidden | .bare => none

/-- The parameters of a callable that does not declare any: the operands of its shape, or anything. -/
def undeclaredParameters (name : String) (kind : CallableKind) (shape : Option ProtocolShape) :
    List ParameterOutline :=
  let receiver := (implicitReceiver? name kind).toList.map fun receiver =>
    ({ name := receiver, type := none } : ParameterOutline)
  match shape.bind ProtocolShape.operands? with
  | some operands =>
    receiver ++ operands.mapIdx fun i operand => { name := "arg" ++ toString i, type := some (.name operand) }
  | none =>
    receiver ++ [{ name := "args", type := some .any, kind := .varPositional },
      { name := "kwargs", type := some .any, kind := .varKeyword }]

structure Typing where
  types : NameMap TypeTerm
  optional : NameSet

namespace Typing

def ofShape (shape : Option ProtocolShape) (declared : List Parameter) : Typing where
  types :=
    let operands := declared.filter fun parameter => !isReceiverName parameter.name
    .ofList ((operands.map Parameter.name).zip
      (((shape.bind ProtocolShape.operands?).getD []).map TypeTerm.name))
  optional := ∅

def addField (view : Viewpoint) (path : String) (declared : List Parameter) (typing : Found Typing)
    (field : ParameterField) : Outlining (Found Typing) :=
  if declared.any fun parameter => parameter.name = field.name then
    (readDocumentedType view path field.type).map fun type =>
      typing.after <| type.map fun type =>
        { types := typing.value.types.insert field.name type
          optional :=
            if field.optional then typing.value.optional.insert field.name else typing.value.optional }
  else .ok (typing.warn (.unknownParameter path field.name))

/-- The type of a parameter, if there is one. It may be left out by a caller if it has a default. -/
def type? (typing : Typing) (parameter : Parameter) : Option TypeTerm :=
  (typing.types.get? parameter.name).map fun type =>
    if parameter.name ∈ typing.optional ∨ parameter.default?.isSome then .optional type else type

/-- Give each parameter its type. Of several parameters of one name only the first has the type. -/
def outlineAll (path : String) (typing : Typing) (seen : List String) :
    List Parameter → Found (List ParameterOutline)
  | [] => { value := [] }
  | parameter :: rest =>
    let later := typing.outlineAll path (parameter.name :: seen) rest
    let outline (type : Option TypeTerm) : ParameterOutline :=
      ⟨parameter.name, type, parameter.default?, parameter.kind⟩
    if isReceiverName parameter.name then { later with value := outline none :: later.value }
    else
      match if parameter.name ∈ seen then none else typing.type? parameter with
      | some type => { later with value := outline (some type) :: later.value }
      | none =>
        { later with
          value := outline (some .any) :: later.value
          warnings := .unresolvedParameter path parameter.name :: later.warnings }

end Typing

def declaredParameters (view : Viewpoint) (path name : String) (kind : CallableKind)
    (signature : Signature) (fields : List ParameterField) (shape : Option ProtocolShape) :
    Outlining (Found (List ParameterOutline)) := do
  let declared := signature.withReceiver name kind
  let typing ← fields.foldlM (Typing.addField view path declared) { value := .ofShape shape declared }
  return typing.after (typing.value.outlineAll path [] declared)

/-- The parameters of a callable. Arithmetic operators show none, not even the receiver. -/
def outlineParameters (view : Viewpoint) (path name : String) (kind : CallableKind)
    (signature : Option Signature) (fields : List ParameterField) (shape : Option ProtocolShape) :
    Outlining (Found (List ParameterOutline)) :=
  if shape = some .bare then .ok { value := [] }
  else
    match signature with
    | none => .ok { value := undeclaredParameters name kind shape }
    | some signature => declaredParameters view path name kind signature fields shape

/-! ### The outline of a reflected module

Members are taken in order. Each one contributes by itself: what it becomes, the imports it needs and
the warnings about it do not depend on the members before it. Only its place in the outline does.
-/

def ProtocolShape.returns? : ProtocolShape → Option String
  | .fixed _ returns => some returns
  | .hidden | .bare => none

/-- The type that a callable returns. Arithmetic operators show none, and an allocator returns its class. -/
def outlineReturns (view : Viewpoint) (path name : String) (kind : CallableKind)
    (owner : Option String) (returnTypes : List String) (shape : Option ProtocolShape) :
    Outlining (Found (Option TypeTerm)) :=
  if shape = some .bare then .ok { value := none }
  else if kind = .constructor ∧ name = Protocol.allocator then
    .ok { value := some ((owner.map TypeTerm.name).getD .any) }
  else
    match returnTypes with
    | [] => .ok { value := some (((shape.bind ProtocolShape.returns?).map TypeTerm.name).getD .any) }
    | [type] => (readDocumentedType view path type).map fun found => found.map some
    | _ => .error (.repeatedField path .returnType)

/-- A callable of a class, if it has an owner, or else of the module. The callables of an error type
tell nothing about their types. -/
def outlineCallable (view : Viewpoint) (path name : String) (kind : CallableKind)
    (owner : Option String) (routine : Routine) : Outlining (Found CallableOutline) := do
  let doc := Documentation.ofText (routine.doc.getD "")
  if 1 < doc.returned.length then throw (.repeatedField path .returned)
  if (owner.map isErrorType) = some true then
    return { value := ⟨name, kind, [], none, doc.text⟩ }
  let shape := Protocol.shape? name
  let parameters ← outlineParameters view path name kind routine.signature doc.parameters shape
  let returns ← outlineReturns view path name kind owner doc.returnTypes shape
  return parameters.after (returns.map fun type => ⟨name, kind, parameters.value, type, doc.text⟩)

/-- The type of an attribute, which is unknown on an error type. -/
def attributeType (view : Viewpoint) (path owner : String) (returnTypes : List String) :
    Outlining (Found TypeTerm) :=
  if isErrorType owner then .ok { value := .any }
  else
    match returnTypes with
    | [] => .ok { value := .any }
    | [type] => readDocumentedType view path type
    | _ => .error (.repeatedField path .returnType)

def outlineAttribute (view : Viewpoint) (path owner name : String) (doc : Option String) :
    Outlining (Found AttributeOutline) := do
  let doc := Documentation.ofText (doc.getD "")
  let type ← attributeType view path owner doc.returnTypes
  match doc.returned with
  | [] => return type.map fun type => ⟨name, type, none⟩
  | [text] => return type.map fun type => ⟨name, type, if text = "" then none else some text⟩
  | _ => throw (.repeatedField path .returned)

def Content.typeName : Content → String
  | .value typeName _ => typeName
  | _ => "type"

def Content.literal? : Content → Option Literal
  | .value _ stored => some stored
  | _ => none

/-- A constant of a class. Its value is shown only for the names that patterns match on. -/
def outlineConstant (view : Viewpoint) (path : String) (member : Member) : Outlining (Found ConstantOutline) :=
  if member.name = Protocol.matchArgs then
    .ok { value := ⟨member.name, .textTuple, member.content.literal?⟩ }
  else
    (readDocumentedType view path member.content.typeName).map fun found =>
      found.map fun type => ⟨member.name, type, none⟩

def Content.routine? : Content → Option Routine
  | .routine callable => some callable
  | _ => none

def Content.propertyDoc : Content → Option String
  | .property doc => doc
  | _ => none

def outlineInRole (view : Viewpoint) (path owner : String) (member : Member) :
    Role → Outlining (Found ClassEntry)
  | .attribute =>
    (outlineAttribute view path owner member.name member.content.propertyDoc).map
      fun found => found.map .attribute
  | .constant => (outlineConstant view path member).map fun found => found.map .constant
  | .callable kind =>
    (outlineCallable view path member.name kind (some owner) (member.content.routine?.getD {})).map
      fun found => found.map (if kind = .protocol then .protocolMethod else .method)

def outlineMember (view : Viewpoint) (path owner : String) (member : Member) :
    Outlining (Found (Option ClassEntry)) :=
  match member.verdict owner with
  | .discarded => .ok { value := none }
  | .unsupported => .ok { value := none, warnings := [.unsupportedClassMember path] }
  | .shown role assumed =>
    (outlineInRole view path owner member role).map fun found =>
      { found with
        value := some found.value
        warnings := (if assumed then [.assumedBinding path] else []) ++ found.warnings }

/-- Put what a member contributes into an outline. A second member of a name is warned about. -/
def Found.place {α β : Type} (add? : α → β → Option α) (path : String) (outline : Found α)
    (entry : Found (Option β)) : Found α :=
  outline.after <|
    match entry.value with
    | none => { entry with value := outline.value }
    | some item =>
      match add? outline.value item with
      | some larger => { entry with value := larger }
      | none => { entry with
          value := outline.value
          warnings := entry.warnings ++ [.duplicateMember path] }

def addClassMember (view : Viewpoint) (classPath className : String) (outline : Found ClassOutline)
    (member : Member) : Outlining (Found ClassOutline) :=
  let path := classPath ++ "." ++ member.name
  (outlineMember view path className member).map (outline.place ClassOutline.add? path)

def outlineClass (view : Viewpoint) (path name : String) (doc : Option String) (members : List Member) :
    Outlining (Found ClassOutline) :=
  (Scope.classBody.visible members).foldlM (addClassMember view path name)
    { value := { name := name, doc := doc.bind fun doc => (Documentation.ofText doc).text } }

def outlineRootMember (view : Viewpoint) (path : String) (member : Member) :
    Outlining (Found (Option ModuleEntry)) :=
  match member.content.moduleRole with
  | .classDef doc members =>
    (outlineClass view path member.name doc members).map fun found => found.map (some ∘ .classDef)
  | .function callable =>
    (outlineCallable view path member.name .function none callable).map
      fun found => found.map (some ∘ .function)
  | .unsupported => .ok { value := none, warnings := [.unsupportedRootMember path] }

def addRootMember (view : Viewpoint) (moduleName : String) (outline : Found ModuleOutline)
    (member : Member) : Outlining (Found ModuleOutline) :=
  let path := moduleName ++ "." ++ member.name
  (outlineRootMember view path member).map (outline.place ModuleOutline.add? path)

namespace Module

def metadata (mod : Module) (names : List String) : List ConstantOutline :=
  names.filterMap fun name =>
    (mod.attributes.get? name).map fun value => ⟨name, .name value.typeName, some value⟩

def outline (view : Viewpoint) (metadata : List String) (mod : Module) : Outlining (Found ModuleOutline) := do
  let found ← (Scope.moduleBody.visible mod.members).foldlM (addRootMember view mod.name)
    { value := { name := mod.name } }
  return found.map fun outline =>
    { outline with metadata := mod.metadata metadata, imports := found.imports }

end Module

end TypedStub

import TypedStub.Host
import TypedStub.Json
import TypedStub.Module

/-! Registries of reflected modules.

A registry stores the JSON value of each module in a file of its own, and a module is read back from the text of that
file.
-/

set_option autoImplicit false

namespace TypedStub

def Binary64.toJson : Binary64 → Json
  | .finite negative mantissa scale => .real (Binary64.shortest negative mantissa scale)
  | .nan | .infinite _ => .null

def Literal.toJson : Literal → Json
  | .null => .ofText "none"
  | .bool value => .ofFields [("bool", .bool value)]
  | .int value => .ofFields [("int", .integer value.toInt)]
  | .float value => .ofFields [("float", value.toJson)]
  | .text value => .ofFields [("str", .ofText value)]
  | .textTuple items => .ofFields [("str_tuple", .array (items.map .ofText))]

def Json.ofOption {α : Type} (encode : α → Json) : Option α → Json
  | some value => encode value
  | none => .null

def ParameterKind.name : ParameterKind → String
  | .positionalOnly => "positional_only"
  | .positionalOrKeyword => "positional_or_keyword"
  | .varPositional => "var_positional"
  | .keywordOnly => "keyword_only"
  | .varKeyword => "var_keyword"

def Binding.name : Binding → String
  | .classMethod => "classmethod"
  | .staticMethod => "staticmethod"

def Receiver.name : Receiver → String
  | .object => "instance"
  | .type => "type"

def Parameter.toJson (parameter : Parameter) : Json :=
  .ofFields [("name", .ofText parameter.name), ("kind", .ofText parameter.kind.name),
    ("default", .ofOption Literal.toJson parameter.default?)]

def Signature.toJson (signature : Signature) : Json :=
  .ofFields [("parameters", .array (signature.parameters.map Parameter.toJson))]

def Routine.fields (routine : Routine) : List (String × Json) :=
  [("doc", .ofOption .ofText routine.doc), ("signature", .ofOption Signature.toJson routine.signature),
    ("decorator", .ofOption (fun binding => .ofText binding.name) routine.binding),
    ("bound_to", .ofOption (fun receiver => .ofText receiver.name) routine.boundTo)]

mutual

def Member.toJson : Member → Json
  | ⟨name, owner, content⟩ =>
    .ofFields (("name", .ofText name) :: (owner.map fun owner => ("owner", Json.ofText owner)).toList
      ++ content.fields)

def Content.fields : Content → List (String × Json)
  | .classDef doc members =>
    [("kind", .ofText "class"), ("doc", .ofOption .ofText doc), ("members", .array (Member.allToJson members))]
  | .routine routine => ("kind", .ofText "routine") :: routine.fields
  | .property doc => [("kind", .ofText "data_descriptor"), ("doc", .ofOption .ofText doc)]
  | .value typeName stored =>
    [("kind", .ofText "value"), ("type_name", .ofText typeName), ("value", stored.toJson)]
  | .absent => [("kind", .ofText "null")]

def Member.allToJson : List Member → List Json
  | [] => []
  | member :: rest => member.toJson :: Member.allToJson rest

end

def Module.toJson (mod : Module) : Json :=
  .ofFields [("name", .ofText mod.name), ("doc", .ofOption .ofText mod.doc),
    ("attributes", .ofFields (mod.attributes.entries.map fun entry => (entry.1, entry.2.toJson))),
    ("members", .array (Member.allToJson mod.members))]

/-! ### Reading a module from its JSON value

Fields that mean nothing are passed over. A member is first kept whole and then taken apart: all that
it contains has to be sound and must not be nested too deeply, what is passed over included.
-/

/-- The largest number of arrays and objects around a value of a member. -/
def maxDepth : Nat := 127

def int64? (n : Int) : Option Int64 :=
  if Int64.minValue.toInt ≤ n ∧ n ≤ Int64.maxValue.toInt then some (Int64.ofInt n) else none

def Binary64.ofJson? : Json → Option Binary64
  | .integer n => some (.nearest ⟨n < 0, n.natAbs, 0⟩)
  | .real decimal =>
    let value := Binary64.nearest decimal
    if value.isFinite then some value else none
  | _ => none

def Literal.ofJson? (kept : Bool) (json : Json) : Option Literal := do
  match ← json.variant? with
  | ("none", payload) => if Json.isNoPayload kept payload then some .null else none
  | ("bool", some (.bool value)) => some (.bool value)
  | ("int", some (.integer n)) => (int64? n).map .int
  | ("float", some value) => (Binary64.ofJson? value).map .float
  | ("str", some value) => value.text?.map .text
  | ("str_tuple", some value) => do
    let items ← value.items?
    (items.mapM Json.text?).map .textTuple
  | _ => none

def ParameterKind.all : List ParameterKind :=
  [.positionalOnly, .positionalOrKeyword, .varPositional, .keywordOnly, .varKeyword]

def ParameterKind.ofJson? (kept : Bool) : Json → Option ParameterKind :=
  Json.choice? kept (ParameterKind.all.map fun kind => (kind.name, kind))

def Binding.ofJson? (kept : Bool) : Json → Option Binding :=
  Json.choice? kept ([.classMethod, .staticMethod].map fun binding => (binding.name, binding))

def Receiver.ofJson? (kept : Bool) : Json → Option Receiver :=
  Json.choice? kept ([.object, .type].map fun receiver => (receiver.name, receiver))

def Parameter.ofParts? (kept : Bool) (name kind default : Option Json) : Option Parameter := do
  let name ← name
  return {
    name := ← name.text?
    kind := ← Json.defaulted? (ParameterKind.ofJson? kept) .positionalOrKeyword kind
    default? := ← Json.optional? (Literal.ofJson? kept) default }

/-- A parameter by its fields, or as an array of them. -/
def Parameter.ofJson? (kept : Bool) : Json → Option Parameter
  | .object fields => do
    if Json.namesAreSound fields then
      Parameter.ofParts? kept (← Json.unique? fields "name") (← Json.unique? fields "kind")
        (← Json.unique? fields "default")
    else none
  | .array [name] => Parameter.ofParts? kept (some name) none none
  | .array [name, kind] => Parameter.ofParts? kept (some name) (some kind) none
  | .array [name, kind, default] => Parameter.ofParts? kept (some name) (some kind) (some default)
  | _ => none

def Signature.ofParts? (kept : Bool) (parameters : Option Json) : Option Signature := do
  let items ← Json.defaulted? Json.items? [] parameters
  return ⟨← items.mapM (Parameter.ofJson? kept)⟩

/-- A signature by its field, or as an array with that field alone. -/
def Signature.ofJson? (kept : Bool) : Json → Option Signature
  | .object fields => do
    if Json.namesAreSound fields then Signature.ofParts? kept (← Json.unique? fields "parameters") else none
  | .array [] => Signature.ofParts? kept none
  | .array [parameters] => Signature.ofParts? kept (some parameters)
  | _ => none

def Routine.ofFields? (fields : List (Option String × Json)) : Option Routine := do
  return {
    doc := ← Json.optional? Json.text? (← Json.unique? fields "doc")
    signature := ← Json.optional? (Signature.ofJson? true) (← Json.unique? fields "signature")
    binding := ← Json.optional? (Binding.ofJson? true) (← Json.unique? fields "decorator")
    boundTo := ← Json.optional? (Receiver.ofJson? true) (← Json.unique? fields "bound_to") }

/-- The kinds of members, each in the place of its number. -/
def Category.all : List (String × Category) :=
  [("class", .classDef), ("routine", .routine), ("data_descriptor", .property), ("value", .value),
    ("null", .absent)]

def Category.ofJson? : Json → Option Category
  | .text (some name) => (Category.all.find? fun entry => entry.1 = name).map Prod.snd
  | .integer (.ofNat n) => Category.all[n]?.map Prod.snd
  | _ => none

mutual

/-- A member, of a value that is sound throughout. -/
def Member.ofSound? : Json → Option Member
  | .object fields => do
    let name ← (← Json.unique? fields "name") >>= Json.text?
    let owner ← Json.optional? Json.text? (← Json.unique? fields "owner")
    let category ← (← Json.unique? fields "kind") >>= Category.ofJson?
    match category with
    | .classDef =>
      let doc ← Json.optional? Json.text? (← Json.unique? fields "doc")
      -- A second list of members is refused; the only one is read below.
      let _ ← Json.unique? fields "members"
      let members ← Member.inFields? fields
      some ⟨name, owner, .classDef doc members⟩
    | .routine => (Routine.ofFields? fields).map fun routine => ⟨name, owner, .routine routine⟩
    | .property =>
      let doc ← Json.optional? Json.text? (← Json.unique? fields "doc")
      some ⟨name, owner, .property doc⟩
    | .value =>
      let typeName ← (← Json.unique? fields "type_name") >>= Json.text?
      let value ← (← Json.unique? fields "value") >>= Literal.ofJson? true
      some ⟨name, owner, .value typeName value⟩
    | .absent => some ⟨name, owner, .absent⟩
  | _ => none

def Member.inFields? : List (Option String × Json) → Option (List Member)
  | [] => some []
  | (name, value) :: rest =>
    if name = some "members" then
      match value with
      | .array items => Member.allOfSound? items
      | _ => none
    else Member.inFields? rest

def Member.allOfSound? : List Json → Option (List Member)
  | [] => some []
  | item :: rest => do
    let member ← Member.ofSound? item
    let members ← Member.allOfSound? rest
    return member :: members

end

/-- A member inside a number of arrays and objects. -/
def Member.ofJson? (outside : Nat) (json : Json) : Option Member :=
  if json.isSound ∧ json.depth + outside ≤ maxDepth then Member.ofSound? json else none

/-- Attributes; of two with one name the last counts. -/
def attributesOfJson? : Json → Option (NameMap Literal)
  | .object fields => do
    let entries ← fields.mapM fun (name, value) => do return (← name, ← Literal.ofJson? false value)
    return .ofList entries
  | _ => none

def Module.ofParts? (name doc attributes members : Option Json) : Option Module := do
  let name ← name
  let items ← Json.defaulted? Json.items? [] members
  return {
    name := ← name.text?
    doc := ← Json.optional? Json.text? doc
    attributes := ← Json.defaulted? attributesOfJson? ∅ attributes
    members := ← items.mapM (Member.ofJson? 2) }

def Module.ofJson? : Json → Option Module
  | .object fields => do
    if Json.namesAreSound fields then
      Module.ofParts? (← Json.unique? fields "name") (← Json.unique? fields "doc")
        (← Json.unique? fields "attributes") (← Json.unique? fields "members")
    else none
  | .array [name] => Module.ofParts? (some name) none none none
  | .array [name, doc] => Module.ofParts? (some name) (some doc) none none
  | .array [name, doc, attributes] => Module.ofParts? (some name) (some doc) (some attributes) none
  | .array [name, doc, attributes, members] =>
    Module.ofParts? (some name) (some doc) (some attributes) (some members)
  | _ => none

/-! ### Registries: directories that hold one JSON file for each reflected module -/

inductive RegistryFault where
  | unreadable
  | malformed
  | otherModule (found : String)
  deriving DecidableEq, Repr

def RegistryFault.message : RegistryFault → String
  | .unreadable => "failed to read registry file"
  | .malformed => "failed to parse registry file"
  | .otherModule found => "registry file describes module '" ++ found ++ "'"

def Module.parse? (text : String) : Option Module := (Json.parse? text).bind Module.ofJson?

namespace Registry

def parse (name text : String) : Except RegistryFault Module :=
  match Module.parse? text with
  | none => .error .malformed
  | some mod => if mod.name = name then .ok mod else .error (.otherModule mod.name)

def fileOf (directory name : String) : String := pathIn directory (name ++ ".json")

def load {m : Type → Type} [Monad m] (host : Host m) (directory name : String) :
    m (Except RegistryFault Module) := do
  match ← host.readText (fileOf directory name) with
  | none => return .error .unreadable
  | some text => return parse name text

end Registry

end TypedStub

import TypedStub.Host
import TypedStub.Reference
import TypedStub.Settings.Document

/-! Settings: where the registry is, what a stub shows of its module, which formatter to run, and
aliases beyond the built-in ones.
-/

set_option autoImplicit false

namespace TypedStub

structure Settings where
  registry : String := "target/stubgen"
  metadata : List String := ["__author__", "__version__"]
  formatter : List String := ["python", "-m", "ruff", "format"]
  /-- Aliases that are added to the built-in ones or replace them. -/
  types : NameMap String := ∅
  deriving DecidableEq

namespace Settings

def fileName : String := "stubgen.toml"

def aliases (settings : Settings) : Aliases := Aliases.builtin.insertAll settings.types.entries

/-! ### Settings from the statements of a text

No key may be given twice, and no key but those of the settings may be given. What is not given keeps
its default.
-/

/-- How a text has given its types so far: by keys in parts, under a header, or as one value. -/
inductive TypesDraft where
  | absent
  | dotted (types : NameMap String)
  | listed (types : NameMap String)
  | complete (types : NameMap String)

def TypesDraft.types? : TypesDraft → Option (NameMap String)
  | .absent => none
  | .dotted types | .listed types | .complete types => some types

structure Draft where
  registry : Option String := none
  metadata : Option (List String) := none
  formatter : Option (List String) := none
  types : TypesDraft := .absent

def addType? (types : NameMap String) (name path : String) : Option (NameMap String) :=
  if (types.get? name).isSome then none else some (types.insert name path)

/-- The aliases of a table. The key of each has one part. -/
def typesOfTable? (entries : List (Key × String)) : Option (NameMap String) :=
  entries.foldlM (fun types entry =>
    match entry with
    | ([name], path) => addType? types name path
    | _ => none) ∅

/-- The name under which a date stands where a table is expected. -/
def dateKey : String := "$__toml_private_datetime"

def setIfAbsent {α : Type} (current : Option α) (value : α) : Option (Option α) :=
  if current.isSome then none else some (some value)

def Draft.addRootEntry? (draft : Draft) : Key → Value → Option Draft
  | ["registry"], .text value => (setIfAbsent draft.registry value).map ({ draft with registry := · })
  | ["metadata"], .list items => (setIfAbsent draft.metadata items).map ({ draft with metadata := · })
  | ["formatter"], .list items => (setIfAbsent draft.formatter items).map ({ draft with formatter := · })
  | ["types"], .table entries =>
    match draft.types with
    | .absent => (typesOfTable? entries).map fun types => { draft with types := .complete types }
    | _ => none
  | ["types"], .plain text =>
    match draft.types with
    | .absent =>
      (Date.normalize? text).map fun date =>
        { draft with types := .complete (NameMap.empty.insert dateKey date) }
    | _ => none
  | ["types", name], .text path =>
    match draft.types with
    | .absent => some { draft with types := .dotted (NameMap.empty.insert name path) }
    | .dotted types => (addType? types name path).map fun types => { draft with types := .dotted types }
    | _ => none
  | _, _ => none

def Draft.add? (draft : Draft) (statement : Statement) : Option Draft :=
  match draft.types, statement with
  | .absent, .header ["types"] => some { draft with types := .listed ∅ }
  | .listed types, .entry [name] (.text path) =>
    (addType? types name path).map fun types => { draft with types := .listed types }
  -- The header of the aliases is the only one, and what follows it are aliases.
  | .listed _, _ | _, .header _ => none
  | _, .entry key value => draft.addRootEntry? key value

def Draft.settings (draft : Draft) : Settings :=
  let default : Settings := {}
  { registry := draft.registry.getD default.registry
    metadata := draft.metadata.getD default.metadata
    formatter := draft.formatter.getD default.formatter
    types := draft.types.types?.getD default.types }

def parse? (text : String) : Option Settings := do
  let statements ← statements? text
  let draft ← statements.foldlM Draft.add? {}
  return draft.settings

end Settings

/-! ### Loading settings from a file -/

inductive SettingsFault where
  | unreadable
  | malformed
  deriving DecidableEq, Repr

def SettingsFault.message : SettingsFault → String
  | .unreadable => "IO error"
  | .malformed => "invalid configuration file"

namespace Settings

variable {m : Type → Type} [Monad m]

def load (host : Host m) (path : String) : m (Except SettingsFault Settings) := do
  match ← host.readText path with
  | none => return .error .unreadable
  | some text =>
    match parse? text with
    | none => return .error .malformed
    | some settings => return .ok settings

/-- The settings of a directory, which are the defaults if it has no settings file. -/
def discover (host : Host m) (directory : String) : m (Except SettingsFault Settings) := do
  let path := pathIn directory fileName
  if ← host.isFile path then load host path else return .ok {}

end Settings

end TypedStub

import TypedStub.Name
import TypedStub.Outline
import TypedStub.Settings
import TypedStub.Text
import TypedStub.TypeTerm

/-! Stubs: their statements, and the text of these.

The statements of a stub come from the outline of a module. A statement is a list of lines, each indented by its level,
and an empty line stays empty. A blank line separates statements of the outermost level, but not two imports or two
assignments. The same text is written part by part by a writer, which puts the indentation of a line off until
something is written on the line.
-/

set_option autoImplicit false

namespace TypedStub

namespace Stub

inductive Value where
  | literal (value : Literal)
  | ellipsis
  deriving DecidableEq

inductive Statement where
  | importFrom (path : String) (names : List String)
  | importModule (path : String)
  | classDef (name : String) (decorators : List String) (body : List Statement)
  | function (name : String) (decorators : List String) (parameters : List ParameterOutline)
      (returns : Option TypeTerm) (body : List Statement)
  | assignment (target : String) (type : TypeTerm) (value : Option Value)
  | docstring (text : String)
  | ellipsis

/-! ### The statements of an outline -/

/-- The import of a module. One in the same package is imported from the package that holds it. -/
def importOf (moduleName importPath : String) : Statement :=
  match Dotted.after? (Dotted.head moduleName ++ ".") importPath, Dotted.splitLast? importPath with
  | some _, some (parent, last) => .importFrom parent [last]
  | _, _ => .importModule importPath

/-- The imports of a stub, in the order of the modules. The module itself is not imported. -/
def imports (moduleName : String) (importPaths : NameSet) : List Statement :=
  .importFrom "__future__" ["annotations"] ::
    (((importPaths.insert "typing").toList.filter (· != moduleName)).map (importOf moduleName))

def finalDecorator : String := "typing.final"

def ofConstant (constant : ConstantOutline) : Statement :=
  .assignment constant.name constant.type <| some <|
    match constant.value with
    | some value => .literal value
    | none => .ellipsis

def ofAttribute (item : AttributeOutline) : List Statement :=
  .assignment item.name item.type none :: (item.doc.map .docstring).toList

def decorators : CallableKind → List String
  | .classBound => ["classmethod"]
  | .static => ["staticmethod"]
  | .constructor | .bound | .protocol | .function => []

def ofCallable (callable : CallableOutline) : Statement :=
  .function callable.name (decorators callable.kind) callable.parameters callable.returns
    [match callable.doc with
      | some doc => .docstring doc
      | none => .ellipsis]

def classBody (outline : ClassOutline) : List Statement :=
  (outline.doc.map .docstring).toList
    ++ outline.attributes.flatMap ofAttribute
    ++ outline.methods.map ofCallable
    ++ outline.protocolMethods.map ofCallable
    ++ outline.constants.map ofConstant

def ofClass (outline : ClassOutline) : Statement :=
  .classDef outline.name [finalDecorator]
    (match classBody outline with
      | [] => [.ellipsis]
      | body => body)

def ofOutline (outline : ModuleOutline) : List Statement :=
  imports outline.name outline.imports
    ++ outline.classes.map ofClass
    ++ outline.functions.map ofCallable
    ++ outline.metadata.map ofConstant

end Stub

/-! ### Parameter lists, with the marks `/` and `*` between their parts -/

def ParameterKind.mark : ParameterKind → String
  | .varPositional => "*"
  | .varKeyword => "**"
  | .positionalOnly | .positionalOrKeyword | .keywordOnly => ""

namespace ParameterOutline

def typeForm (parameter : ParameterOutline) : String :=
  match parameter.type with
  | some type => ": " ++ type.stubForm
  | none => ""

/-- The default; blanks stand around its sign only after a type. -/
def defaultForm (parameter : ParameterOutline) : String :=
  match parameter.default? with
  | some value => (if parameter.type.isSome then " = " else "=") ++ value.stubForm
  | none => ""

def stubForm (parameter : ParameterOutline) : String :=
  parameter.kind.mark ++ parameter.name ++ parameter.typeForm ++ parameter.defaultForm

end ParameterOutline

namespace Stub

/-- The parts of a parameter list. A star goes before the first parameter that takes a keyword only,
unless one of its own is there (`starred`), and a slash after the last one that takes none. -/
def parameterParts (starred : Bool) : List ParameterOutline → List String
  | [] => []
  | parameter :: rest =>
    let star := parameter.kind = .keywordOnly && !starred
    let slash := parameter.kind = .positionalOnly
      && !(rest.any fun later => later.kind = .positionalOnly)
    (if star then ["*"] else []) ++ parameter.stubForm :: (if slash then ["/"] else [])
      ++ parameterParts (starred || star) rest

def parameterList (parameters : List ParameterOutline) : String :=
  let starred := parameters.any fun parameter => parameter.kind = .varPositional
  ", ".intercalate (parameterParts starred parameters)

/-! ### The text of a stub -/

def indentation (level : Nat) : String := String.ofList (List.replicate (4 * level) ' ')

def indented (level : Nat) (line : String) : String :=
  if line = "" then "" else indentation level ++ line

def docstringLines (text : String) : List String :=
  Text.lines ("\"\"\"" ++ Text.Docstring.escape text ++ "\"\"\"")

def valueForm : Option Value → String
  | some (.literal value) => " = " ++ value.stubForm
  | some .ellipsis => " = ..."
  | none => ""

def classHeader (name : String) : String := "class " ++ name ++ ":"

def functionHeader (name : String) (parameters : List ParameterOutline) (returns : Option TypeTerm) :
    String :=
  "def " ++ name ++ "(" ++ parameterList parameters ++ ")"
    ++ (match returns with
      | some type => " -> " ++ type.stubForm
      | none => "")
    ++ ":"

def isPlaceholder : List Statement → Bool
  | [] | [.ellipsis] => true
  | _ => false

def decoratorLines (level : Nat) (decorators : List String) : List String :=
  decorators.map fun decorator => indented level ("@" ++ decorator)

mutual

def Statement.lines (level : Nat) : Statement → List String
  | .importFrom path names => [indented level ("from " ++ path ++ " import " ++ ", ".intercalate names)]
  | .importModule path => [indented level ("import " ++ path)]
  | .classDef name decorators body =>
    decoratorLines level decorators
      ++ if isPlaceholder body then [indented level (classHeader name ++ " ...")]
        else indented level (classHeader name) :: linesOfAll (level + 1) body
  | .function name decorators parameters returns body =>
    decoratorLines level decorators
      ++ if isPlaceholder body then [indented level (functionHeader name parameters returns ++ " ...")]
        else indented level (functionHeader name parameters returns) :: linesOfAll (level + 1) body
  | .assignment target type value => [indented level (target ++ ": " ++ type.stubForm ++ valueForm value)]
  | .docstring text => (docstringLines text).map (indented level)
  | .ellipsis => [indented level "..."]

def linesOfAll (level : Nat) : List Statement → List String
  | [] => []
  | statement :: rest => statement.lines level ++ linesOfAll level rest

end

def Statement.isImport : Statement → Bool
  | .importFrom .. | .importModule _ => true
  | _ => false

def Statement.isAssignment : Statement → Bool
  | .assignment .. => true
  | _ => false

/-- No blank line separates the two statements. -/
def sameGroup (first second : Statement) : Bool :=
  (first.isImport && second.isImport) || (first.isAssignment && second.isAssignment)

def documentLines : List Statement → List String
  | [] => []
  | [statement] => statement.lines 0
  | statement :: next :: rest =>
    statement.lines 0 ++ (if sameGroup statement next then [] else [""]) ++ documentLines (next :: rest)

def textOfLines (lines : List String) : String := String.join (lines.map (· ++ "\n"))

def text (statements : List Statement) : String :=
  match statements with
  | [] => "\n"
  | statements => textOfLines (documentLines statements)

/-! ### Writing part by part -/

structure Writer where
  output : String := ""
  level : Nat := 0
  atLineStart : Bool := true

namespace Writer

def write (writer : Writer) (part : String) : Writer :=
  if writer.atLineStart && part != "" then
    { writer with output := writer.output ++ indentation writer.level ++ part, atLineStart := false }
  else { writer with output := writer.output ++ part }

def endLine (writer : Writer) : Writer := { writer with output := writer.output ++ "\n", atLineStart := true }

def indent (writer : Writer) : Writer := { writer with level := writer.level + 1 }

def dedent (writer : Writer) : Writer := { writer with level := writer.level - 1 }

def writeDecorators (writer : Writer) (decorators : List String) : Writer :=
  decorators.foldl (fun writer decorator => ((writer.write "@").write decorator).endLine) writer

def writeLines (writer : Writer) : List String → Writer
  | [] => writer
  | first :: rest => rest.foldl (fun writer line => writer.endLine.write line) (writer.write first)

def writeDocstring (writer : Writer) (text : String) : Writer :=
  (((writer.write "\"\"\"").writeLines (Text.lines (Text.Docstring.escape text))).write "\"\"\"").endLine

def writeReturns (writer : Writer) : Option TypeTerm → Writer
  | some type => (writer.write " -> ").write type.stubForm
  | none => writer

def writeValue (writer : Writer) : Option Value → Writer
  | some (.literal value) => (writer.write " = ").write value.stubForm
  | some .ellipsis => writer.write " = ..."
  | none => writer

end Writer

mutual

def Statement.write (writer : Writer) : Statement → Writer
  | .importFrom path names => (writer.write ("from " ++ path ++ " import " ++ ", ".intercalate names)).endLine
  | .importModule path => (writer.write ("import " ++ path)).endLine
  | .classDef name decorators body =>
    let writer := (writer.writeDecorators decorators).write (classHeader name)
    if isPlaceholder body then (writer.write " ...").endLine else (writeAll writer.endLine.indent body).dedent
  | .function name decorators parameters returns body =>
    let writer := (writer.writeDecorators decorators).write ("def " ++ name ++ "(")
    let writer := (((writer.write (parameterList parameters)).write ")").writeReturns returns).write ":"
    if isPlaceholder body then (writer.write " ...").endLine else (writeAll writer.endLine.indent body).dedent
  | .assignment target type value => ((writer.write (target ++ ": " ++ type.stubForm)).writeValue value).endLine
  | .docstring text => writer.writeDocstring text
  | .ellipsis => (writer.write "...").endLine

def writeAll (writer : Writer) : List Statement → Writer
  | [] => writer
  | statement :: rest => writeAll (statement.write writer) rest

end

def writeDocument (writer : Writer) (previous : Option Statement) : List Statement → Writer
  | [] => writer
  | statement :: rest =>
    let apart := previous.any fun previous => !sameGroup previous statement
    writeDocument (statement.write (if apart then writer.endLine else writer)) (some statement) rest

/-- Write a module. What is written ends with a line end in any case. -/
def emit (statements : List Statement) : String :=
  let output := (writeDocument {} none statements).output
  if output.toList.getLast? = some '\n' then output else output ++ "\n"

end Stub

/-! ### From a reflected module to the text of its stub -/

structure Generated where
  text : String
  warnings : List Warning
  deriving DecidableEq

def Settings.generate (settings : Settings) (mod : Module) : Except OutlineFailure Generated := do
  let found ← mod.outline ⟨settings.aliases, mod.name⟩ settings.metadata
  return ⟨Stub.text (Stub.ofOutline found.value), found.warnings⟩

end TypedStub

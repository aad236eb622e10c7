import TypedStub.Text.Pattern
import TypedStub.Text

/-! Documentation texts and the field lines in them.

Three kinds of line say something about types: `:type <name>: <type>[, optional]` gives the type of a
parameter, `:rtype: <type>` the type that is returned, and `:return: <text>` says what is returned.
A field stands alone on its line, so each line is read by itself. All other text is what a stub shows.
-/

set_option autoImplicit false

namespace TypedStub

structure ParameterField where
  name : String
  type : String
  optional : Bool
  deriving DecidableEq, Repr

structure Documentation where
  /-- The text without field lines, if any is left. -/
  text : Option String
  parameters : List ParameterField
  returnTypes : List String
  returned : List String
  deriving DecidableEq, Repr

namespace Documentation

def isSpace (c : Char) : Bool := c = ' '

def isWordChar (c : Char) : Bool := c.isAlphanum || c = '_'

/-- What follows a field's mark on a line. Only spaces may stand before the mark. -/
def afterMark? (mark : String) (line : List Char) : Option (List Char) :=
  mark.toList.isPrefixOf? (line.dropWhile isSpace)

def beforeEnding? (ending text : List Char) : Option (List Char) :=
  (ending.reverse.isPrefixOf? text.reverse).map List.reverse

def parameterField (name type : List Char) : ParameterField :=
  let type := Text.trimEnd type
  match beforeEnding? ", optional".toList type with
  | some shorter => ⟨String.ofList name, String.ofList (Text.trim shorter), true⟩
  | none => ⟨String.ofList name, String.ofList (Text.trim type), false⟩

def parameterOfLine? (line : List Char) : Option ParameterField := do
  let rest ← afterMark? ":type" line
  let named := rest.dropWhile isSpace
  let name := named.takeWhile isWordChar
  let type ← ": ".toList.isPrefixOf? (named.dropWhile isWordChar)
  if name = [] then none else some (parameterField name type)

def returnTypeOfLine? (line : List Char) : Option String :=
  (afterMark? ":rtype:" line).map fun rest => String.ofList (Text.trim rest)

def returnedOfLine? (line : List Char) : Option String :=
  (afterMark? ":return:" line).map fun rest => String.ofList (Text.trim rest)

/-- The marks whose lines are not shown. -/
def hiddenMarks : List String := [":type", ":rtype", ":return"]

def isHidden (line : List Char) : Bool := hiddenMarks.any fun mark => mark.toList.isPrefixOf line

def shownLines (lines : List (List Char)) : List (List Char) :=
  (lines.map Text.trim).filter (fun line => !isHidden line)

/-- What is shown of a text: nothing, if only blanks are left. -/
def shownText (lines : List (List Char)) : Option String :=
  match Text.trim (['\n'].intercalate (shownLines lines)) with
  | [] => none
  | shown => some (String.ofList shown)

def ofText (text : String) : Documentation :=
  let lines := text.toList.splitOn '\n'
  { text := shownText lines
    parameters := lines.filterMap parameterOfLine?
    returnTypes := lines.filterMap returnTypeOfLine?
    returned := lines.filterMap returnedOfLine? }

/-! The fields of a text are also what patterns find in the whole of it. -/

section
open Text

def isInLine (c : Char) : Bool := c ≠ '\n'

def spaces : PatternPart := .run isSpace 0 false

/-- What a field says, up to the end of its line. -/
def said : Pattern := [.run isInLine 0 true, spaces]

def parameterPattern : Pattern :=
  .ofLine ([spaces, .mark ":type", spaces, .run isWordChar 1 true, .mark ": "] ++ said)

def markPattern (mark : String) : Pattern := .ofLine ([spaces, .mark mark, spaces] ++ said)

end

end Documentation

end TypedStub

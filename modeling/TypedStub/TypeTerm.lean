import TypedStub.Name
import TypedStub.Reference

/-! Type terms: the types that documentation names and stubs are annotated with.

A term is read from the text of a documentation and written into a stub. What cannot be read is reported with its place
in the text.
-/

set_option autoImplicit false

namespace TypedStub

inductive TypeTerm where
  | name (path : String)
  | subscript (base : String) (args : List TypeTerm)
  | union (items : List TypeTerm)
  | tuple (items : List TypeTerm)
  deriving Repr, Inhabited

namespace TypeTerm

mutual

def decideEq (first second : TypeTerm) : Decidable (first = second) :=
  match first, second with
  | .name path, .name other =>
    if h : path = other then isTrue (by rw [h]) else isFalse (by simp [h])
  | .subscript base args, .subscript other others =>
    if h : base = other then
      match decideEqAll args others with
      | isTrue same => isTrue (by rw [h, same])
      | isFalse differ => isFalse (by simp [differ])
    else isFalse (by simp [h])
  | .union items, .union others =>
    match decideEqAll items others with
    | isTrue same => isTrue (by rw [same])
    | isFalse differ => isFalse (by simp [differ])
  | .tuple items, .tuple others =>
    match decideEqAll items others with
    | isTrue same => isTrue (by rw [same])
    | isFalse differ => isFalse (by simp [differ])
  | .name _, .subscript .. | .name _, .union _ | .name _, .tuple _
  | .subscript .., .name _ | .subscript .., .union _ | .subscript .., .tuple _
  | .union _, .name _ | .union _, .subscript .. | .union _, .tuple _
  | .tuple _, .name _ | .tuple _, .subscript .. | .tuple _, .union _ => isFalse (by simp)

def decideEqAll (first second : List TypeTerm) : Decidable (first = second) :=
  match first, second with
  | [], [] => isTrue rfl
  | [], _ :: _ | _ :: _, [] => isFalse (by simp)
  | head :: rest, other :: others =>
    match decideEq head other with
    | isTrue same =>
      match decideEqAll rest others with
      | isTrue sameRest => isTrue (by rw [same, sameRest])
      | isFalse differ => isFalse (by simp [differ])
    | isFalse differ => isFalse (by simp [differ])

end

instance : DecidableEq TypeTerm := decideEq

def any : TypeTerm := .name "typing.Any"

def optional (type : TypeTerm) : TypeTerm := .subscript "typing.Optional" [type]

def textTuple : TypeTerm := .subscript "tuple" [.name "str", .name "..."]

/-! ### The two written forms of a type term

One is read from documentation, and the other is written into stubs. They differ in how alternatives and bare tuples are
written.
-/

mutual

def documentedForm : TypeTerm → String
  | .name path => path
  | .subscript base args => base ++ "[" ++ ", ".intercalate (documentedForms args) ++ "]"
  | .union items => " or ".intercalate (documentedForms items)
  | .tuple items => ", ".intercalate (documentedForms items)

def documentedForms : List TypeTerm → List String
  | [] => []
  | type :: rest => documentedForm type :: documentedForms rest

end

theorem documentedForms_eq_map (types : List TypeTerm) :
    documentedForms types = types.map documentedForm := by
  induction types with
  | nil => rfl
  | cons type rest ih => simp [documentedForms, ih]

mutual

def stubForm : TypeTerm → String
  | .name path => path
  | .subscript base args => base ++ "[" ++ ", ".intercalate (stubForms args) ++ "]"
  | .union items => " | ".intercalate (stubForms items)
  | .tuple items => "typing.Tuple[" ++ ", ".intercalate (stubForms items) ++ "]"

def stubForms : List TypeTerm → List String
  | [] => []
  | type :: rest => stubForm type :: stubForms rest

end

theorem stubForms_eq_map (types : List TypeTerm) : stubForms types = types.map stubForm := by
  induction types with
  | nil => rfl
  | cons type rest ih => simp [stubForms, ih]

/-! ### Tokens of documented types

A text is cut into runs of path characters, single marks, and blanks that belong to no token. Every
token knows which bytes of the text it covers.
-/

inductive TokenKind where
  | or
  | path
  | openBracket
  | closeBracket
  | comma
  | other
  | endOfText
  deriving DecidableEq, Repr

def TokenKind.description : TokenKind → String
  | .or => "'or'"
  | .path => "type name"
  | .openBracket => "'['"
  | .closeBracket => "']'"
  | .comma => "','"
  | .other => "unexpected character"
  | .endOfText => "end of input"

/-- A range of byte offsets; `stop` is the first offset after it. -/
structure Span where
  start : Nat
  stop : Nat
  deriving DecidableEq, Repr, Inhabited

namespace Span

def dropBytes : Nat → List Char → Option (List Char)
  | 0, text => some text
  | _ + 1, [] => none
  | n + 1, c :: rest => if c.utf8Size ≤ n + 1 then dropBytes (n + 1 - c.utf8Size) rest else none
  termination_by _ text => text.length

def takeBytes : Nat → List Char → Option (List Char)
  | 0, _ => some []
  | _ + 1, [] => none
  | n + 1, c :: rest =>
    if c.utf8Size ≤ n + 1 then (takeBytes (n + 1 - c.utf8Size) rest).map (c :: ·) else none
  termination_by _ text => text.length

/-- The part of a text that a span covers, if both its ends lie between characters of the text. -/
def slice? (span : Span) (text : String) : Option String :=
  if span.start ≤ span.stop then
    (dropBytes span.start text.toList).bind fun rest =>
      (takeBytes (span.stop - span.start) rest).map String.ofList
  else none

end Span

structure Token where
  kind : TokenKind
  span : Span
  lexeme : String
  deriving DecidableEq, Repr

namespace Token

def isGap (c : Char) : Bool := c = ' ' || c = '\t' || c = '\r' || c = '\n'

def isPathChar (c : Char) : Bool := c.isAlphanum || c = '_' || c = '.'

def width : (text : List Char) → Nat
  | [] => 0
  | c :: rest => c.utf8Size + width rest

/-- A run of path characters is a path, unless it is the word between alternatives. -/
def ofRun (start : Nat) (run : List Char) : Token where
  kind := if run = ['o', 'r'] then .or else .path
  span := ⟨start, start + width run⟩
  lexeme := String.ofList run

def markKind (c : Char) : TokenKind :=
  if c = '[' then .openBracket else if c = ']' then .closeBracket else if c = ',' then .comma else .other

def ofMark (start : Nat) (c : Char) : Token where
  kind := markKind c
  span := ⟨start, start + c.utf8Size⟩
  lexeme := String.ofList [c]

def scanFrom (start : Nat) : List Char → List Token
  | [] => []
  | c :: rest =>
    if isGap c then scanFrom (start + c.utf8Size) rest
    else if isPathChar c then
      let run := c :: rest.takeWhile isPathChar
      ofRun start run :: scanFrom (start + width run) (rest.dropWhile isPathChar)
    else ofMark start c :: scanFrom (start + c.utf8Size) rest
  termination_by text => text.length
  decreasing_by
    · simp
    · have := (List.dropWhile_sublist isPathChar (l := rest)).length_le
      simp only [List.length_cons]; omega
    · simp

def ofEnd (stop : Nat) : Token := ⟨.endOfText, ⟨stop, stop⟩, ""⟩

def scan (text : String) : List Token := scanFrom 0 text.toList ++ [ofEnd (width text.toList)]

end Token

/-! ### What can be wrong with a documented type, and how it is reported -/

/-- What could have stood in the place of an unexpected token. -/
inductive Expectation where
  | endOfText
  | separator
  deriving DecidableEq, Repr

def Expectation.description : Expectation → String
  | .endOfText => "end of input"
  | .separator => "',' or 'or'"

inductive FaultKind where
  | unexpectedToken (found : TokenKind) (expected : Expectation)
  | unexpectedCharacter (text : String)
  | missingType
  /-- The text names no type at all. -/
  | emptyType
  | emptyBracket
  | unclosedBracket
  /-- A path with nothing before, between or after its dots. -/
  | invalidPath (path : String)
  deriving DecidableEq, Repr

namespace FaultKind

def message : FaultKind → String
  | .unexpectedToken found expected =>
    "unexpected token: found " ++ found.description ++ ", expected " ++ expected.description
  | .unexpectedCharacter text => "unexpected character '" ++ text ++ "'"
  | .missingType => "expected type"
  | .emptyType => "empty type"
  | .emptyBracket => "empty bracket group"
  | .unclosedBracket => "unclosed bracket"
  | .invalidPath path => "invalid type path '" ++ path ++ "'"

def hint? : FaultKind → Option String
  | .unclosedBracket => some "add a closing ']'"
  | _ => none

end FaultKind

structure Fault where
  kind : FaultKind
  span : Span
  source : String
  hint? : Option String
  deriving DecidableEq, Repr

namespace Fault

/-- The part of the source at fault, or nothing if the span does not fit the source. -/
def fragment (fault : Fault) : String := (fault.span.slice? fault.source).getD ""

def message (fault : Fault) : String :=
  fault.kind.message ++ " at " ++ toString fault.span.start ++ ".." ++ toString fault.span.stop
    ++ " in '" ++ fault.source ++ "'"
    ++ match fault.hint? with
      | some hint => " (hint: " ++ hint ++ ")"
      | none => ""

end Fault

/-! ### Reading a documented type

One pass over the tokens with a stack of the brackets that are open. Commas separate groups, and a
group holds alternatives separated by `or`. Groups inside brackets are the arguments of the type
before the bracket, and two or more groups outside all brackets are a tuple. A group with nothing in
it is left out.

Each path is replaced by the stub's reference to it as it is read, and the imports that the
references need are collected.
-/

def ofAlternatives : List TypeTerm → TypeTerm
  | [type] => type
  | types => .union types

/-- The groups outside all brackets as one type, if there are any. -/
def ofGroups? : List TypeTerm → Option TypeTerm
  | [] => none
  | [type] => some type
  | types => some (.tuple types)

namespace Reader

/-- What was read at one depth of brackets: complete groups and the alternatives of the next group,
both with the latest first. -/
structure Level where
  groups : List TypeTerm
  alternatives : List TypeTerm

namespace Level

def empty : Level := ⟨[], []⟩

def add (level : Level) (type : TypeTerm) : Level := { level with alternatives := type :: level.alternatives }

def endGroup (level : Level) : Level :=
  match level.alternatives with
  | [] => level
  | alternatives => ⟨ofAlternatives alternatives.reverse :: level.groups, []⟩

def allGroups (level : Level) : List TypeTerm := level.endGroup.groups.reverse

end Level

/-- An open bracket: the type before it and what was read around it. -/
structure Bracket where
  base : String
  span : Span
  around : Level

inductive Position where
  | group
  | alternative
  /-- A bracket after the path just read, or what may follow a type. -/
  | afterPath (path : String)
  | afterType

structure State where
  level : Level
  /-- The open brackets, the innermost first. -/
  brackets : List Bracket
  position : Position
  imports : NameSet

abbrev Located := FaultKind × Span

namespace State

def start : State := ⟨.empty, [], .group, ∅⟩

def add (state : State) (type : TypeTerm) : State :=
  { state with level := state.level.add type, position := .afterType }

def readType (refer : String → Reference) (state : State) (token : Token) : Except Located State :=
  match token.kind with
  | .path =>
    if token.lexeme = "..." then .ok (state.add (.name token.lexeme))
    else if "" ∈ Dotted.segments token.lexeme then .error (.invalidPath token.lexeme, token.span)
    else
      let reference := refer token.lexeme
      .ok { state with
        position := .afterPath reference.text
        imports := state.imports.insertAll reference.importPath?.toList }
  | .other => .error (.unexpectedCharacter token.lexeme, token.span)
  | _ => .error (.missingType, token.span)

def closeBracket (state : State) (token : Token) : Except Located State :=
  match state.brackets with
  | [] => .error (.unexpectedToken token.kind .endOfText, token.span)
  | bracket :: brackets =>
    match state.level.allGroups with
    | [] => .error (.emptyBracket, bracket.span)
    | args =>
      .ok ({ state with level := bracket.around, brackets := brackets }.add (.subscript bracket.base args))

def readSeparator (state : State) (token : Token) : Except Located State :=
  match token.kind with
  | .or => .ok { state with position := .alternative }
  | .comma => .ok { state with level := state.level.endGroup, position := .group }
  | .closeBracket => state.closeBracket token
  | .other => .error (.unexpectedCharacter token.lexeme, token.span)
  | .path | .openBracket | .endOfText => .error (.unexpectedToken token.kind .separator, token.span)

def openBracket (state : State) (base : String) (token : Token) : State :=
  { state with level := .empty, brackets := ⟨base, token.span, state.level⟩ :: state.brackets, position := .group }

def step (refer : String → Reference) (state : State) (token : Token) : Except Located State :=
  match state.position with
  | .group =>
    match token.kind with
    | .comma => .ok state
    | .closeBracket => state.closeBracket token
    | _ => state.readType refer token
  | .alternative => state.readType refer token
  | .afterPath path =>
    match token.kind with
    -- The path is kept with the bracket until its arguments are complete.
    | .openBracket => .ok (state.openBracket path token)
    | _ => (state.add (.name path)).readSeparator token
  | .afterType => state.readSeparator token

/-- The types that were read, if the text may end at its last offset. -/
def groupsAtEnd (state : State) (stop : Span) : Except Located (List TypeTerm) :=
  match state.position, state.brackets with
  | .alternative, _ => .error (.missingType, stop)
  | _, bracket :: _ => .error (.unclosedBracket, bracket.span)
  | .afterPath path, [] => .ok (state.level.add (.name path)).allGroups
  | _, [] => .ok state.level.allGroups

def finish (state : State) (stop : Span) : Except Located TypeTerm :=
  match state.groupsAtEnd stop with
  | .error located => .error located
  | .ok groups =>
    match ofGroups? groups with
    | none => .error (.emptyType, stop)
    | some type => .ok type

end State

end Reader

structure Referred where
  type : TypeTerm
  imports : NameSet
  deriving DecidableEq

def readTokens (refer : String → Reference) (tokens : List Token) (stop : Span) :
    Except Reader.Located Referred := do
  let state ← tokens.foldlM (Reader.State.step refer) .start
  let type ← state.finish stop
  return ⟨type, state.imports⟩

/-- Read a documented type and refer to each path in it. -/
def read (refer : String → Reference) (source : String) : Except Fault Referred :=
  let text := source.toList
  match readTokens refer (Token.scanFrom 0 text) (Token.ofEnd (Token.width text)).span with
  | .ok referred => .ok referred
  | .error (kind, span) => .error ⟨kind, span, source, kind.hint?⟩

/-- Read a documented type and keep each path as it is written. -/
def parse (source : String) : Except Fault TypeTerm := (read .asWritten source).map (·.type)

end TypeTerm

end TypedStub

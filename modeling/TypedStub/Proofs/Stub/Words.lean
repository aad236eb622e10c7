import TypedStub.Proofs.Literal
import TypedStub.Proofs.Stub.Docstring
import TypedStub.Proofs.TypeTerm.Canonical

/-! The words of a statement, and the control characters in its lines.

Words are names, paths and decorators. They are written as they are, like the text of docstrings, and all else that
is written is free of control characters. A line feed is the end of a line of a docstring and never inside of one.
-/

set_option autoImplicit false

namespace TypedStub

open Text
open Quoted (isControl)

def ParameterOutline.words (parameter : ParameterOutline) : List String :=
  parameter.name :: (parameter.type.map TypeTerm.paths).getD []

namespace Stub

mutual

/-- The names, the paths and the decorators of a statement and of all statements in its body. -/
def Statement.words : Statement → List String
  | .importFrom path names => path :: names
  | .importModule path => [path]
  | .classDef name decorators body => name :: decorators ++ wordsOfAll body
  | .function name decorators parameters returns body =>
    name :: decorators ++ parameters.flatMap ParameterOutline.words ++ (returns.map TypeTerm.paths).getD []
      ++ wordsOfAll body
  | .assignment target type _ => target :: type.paths
  | .docstring _ | .ellipsis => []

def wordsOfAll : List Statement → List String
  | [] => []
  | statement :: rest => statement.words ++ wordsOfAll rest

end

mutual

def Statement.docstrings : Statement → List String
  | .docstring text => [text]
  | .classDef _ _ body => docstringsOfAll body
  | .function _ _ _ _ body => docstringsOfAll body
  | .importFrom .. | .importModule _ | .assignment .. | .ellipsis => []

def docstringsOfAll : List Statement → List String
  | [] => []
  | statement :: rest => statement.docstrings ++ docstringsOfAll rest

end

theorem wordsOfAll_eq_flatMap (statements : List Statement) :
    wordsOfAll statements = statements.flatMap Statement.words := by
  induction statements with
  | nil => rfl
  | cons statement rest ih => rw [wordsOfAll, ih, List.flatMap_cons]

theorem docstringsOfAll_eq_flatMap (statements : List Statement) :
    docstringsOfAll statements = statements.flatMap Statement.docstrings := by
  induction statements with
  | nil => rfl
  | cons statement rest ih => rw [docstringsOfAll, ih, List.flatMap_cons]

section
variable {α : Type} (items : List α) (statements others : List Statement)

theorem wordsOfAll_append : wordsOfAll (statements ++ others) = wordsOfAll statements ++ wordsOfAll others := by
  simp [wordsOfAll_eq_flatMap]

theorem wordsOfAll_map (f : α → Statement) : wordsOfAll (items.map f) = items.flatMap fun item => (f item).words := by
  simp [wordsOfAll_eq_flatMap, List.flatMap_map]

theorem wordsOfAll_flatMap (f : α → List Statement) :
    wordsOfAll (items.flatMap f) = items.flatMap fun item => wordsOfAll (f item) := by
  simp [wordsOfAll_eq_flatMap, List.flatMap_assoc]

theorem docstringsOfAll_append :
    docstringsOfAll (statements ++ others) = docstringsOfAll statements ++ docstringsOfAll others := by
  simp [docstringsOfAll_eq_flatMap]

theorem docstringsOfAll_map (f : α → Statement) :
    docstringsOfAll (items.map f) = items.flatMap fun item => (f item).docstrings := by
  simp [docstringsOfAll_eq_flatMap, List.flatMap_map]

theorem docstringsOfAll_flatMap (f : α → List Statement) :
    docstringsOfAll (items.flatMap f) = items.flatMap fun item => docstringsOfAll (f item) := by
  simp [docstringsOfAll_eq_flatMap, List.flatMap_assoc]

end

end Stub

/-! ### Characters of several texts -/

/-- The character stands in one of the texts. -/
def HeldBy (c : Char) (texts : List String) : Prop := ∃ text ∈ texts, c ∈ text.toList

instance (c : Char) (texts : List String) : Decidable (HeldBy c texts) :=
  inferInstanceAs (Decidable (∃ text ∈ texts, c ∈ text.toList))

section
variable {c : Char} {first second : List String} {text : String}

@[simp] theorem heldBy_nil : HeldBy c [] ↔ False := by simp [HeldBy]

@[simp] theorem heldBy_cons : HeldBy c (text :: first) ↔ c ∈ text.toList ∨ HeldBy c first := by simp [HeldBy]

@[simp] theorem heldBy_append : HeldBy c (first ++ second) ↔ HeldBy c first ∨ HeldBy c second := by
  simp [HeldBy, or_and_right, exists_or]

theorem heldBy_flatMap {α : Type} {items : List α} {f : α → List String} :
    HeldBy c (items.flatMap f) ↔ ∃ item ∈ items, HeldBy c (f item) := by
  induction items with
  | nil => simp
  | cons item items ih => rw [List.flatMap_cons, heldBy_append, ih, List.exists_mem_cons_iff]

theorem heldBy_flatMap_or {α : Type} {items : List α} {f g h : α → List String}
    (each : ∀ item, HeldBy c (f item) ↔ HeldBy c (g item) ∨ HeldBy c (h item)) :
    HeldBy c (items.flatMap f) ↔ HeldBy c (items.flatMap g) ∨ HeldBy c (items.flatMap h) := by
  simp only [heldBy_flatMap, each, and_or_left, exists_or]

theorem heldBy_map {α : Type} {items : List α} {f : α → String} :
    HeldBy c (items.map f) ↔ ∃ item ∈ items, c ∈ (f item).toList := by
  simp [HeldBy]

end

section
variable {c : Char} (control : isControl c = true)
include control

theorem mem_plain (text : String) (plain : IsPlain text.toList) : c ∈ text.toList ↔ False :=
  iff_false_intro (not_mem_of_isControl control plain)

/-- The control characters of a type stand in its paths. -/
theorem TypeTerm.mem_stubForm (type : TypeTerm) : c ∈ type.stubForm.toList ↔ HeldBy c type.paths := by
  have inPath : ∀ path : String, c ∈ path.toList ↔ HeldBy c (pathOf path) := by
    intro path
    unfold pathOf
    split
    · rename_i same
      rw [same, heldBy_nil, mem_plain control "..." (by decide)]
    · simp
  have inForms : ∀ types : List TypeTerm, (∀ type ∈ types, c ∈ type.stubForm.toList ↔ HeldBy c type.paths) →
      ((∃ form ∈ stubForms types, c ∈ form.toList) ↔ HeldBy c (pathsAll types)) := by
    intro types each
    induction types with
    | nil => simp [stubForms, pathsAll]
    | cons type rest ih =>
      rw [stubForms, pathsAll, List.exists_mem_cons_iff, heldBy_append, each type List.mem_cons_self,
        ih fun other member => each other (List.mem_cons_of_mem _ member)]
  -- The recursion is on the type, through its parts.
  cases type with
  | name path => exact inPath path
  | subscript base args =>
    have inArgs := inForms args fun arg _ => mem_stubForm arg
    simp only [stubForm, paths, String.toList_append, List.mem_append, heldBy_append,
      mem_plain control "[" (by decide), mem_plain control "]" (by decide), or_false,
      mem_intercalate_texts control ", " (by decide), inPath base, inArgs]
  | union items =>
    have inItems := inForms items fun item _ => mem_stubForm item
    simp only [stubForm, paths, mem_intercalate_texts control " | " (by decide), inItems]
  | tuple items =>
    have inItems := inForms items fun item _ => mem_stubForm item
    simp only [stubForm, paths, String.toList_append, List.mem_append,
      mem_plain control "typing.Tuple[" (by decide), mem_plain control "]" (by decide), or_false, false_or,
      mem_intercalate_texts control ", " (by decide), inItems]

theorem ParameterOutline.mem_stubForm (parameter : ParameterOutline) :
    c ∈ parameter.stubForm.toList ↔ HeldBy c parameter.words := by
  have mark : ¬ c ∈ parameter.kind.mark.toList := by
    refine not_mem_of_isControl control ?_
    cases parameter.kind <;> decide
  have type : c ∈ parameter.typeForm.toList ↔ HeldBy c ((parameter.type.map TypeTerm.paths).getD []) := by
    unfold typeForm
    cases parameter.type with
    | none => simp
    | some type =>
      rw [String.toList_append, List.mem_append, mem_plain control ": " (by decide), false_or,
        TypeTerm.mem_stubForm control]
      rfl
  have default : ¬ c ∈ parameter.defaultForm.toList := by
    unfold defaultForm
    cases parameter.default? with
    | none => simp
    | some value =>
      rw [String.toList_append, List.mem_append, not_or]
      refine ⟨?_, Literal.not_mem_stubForm control value⟩
      split <;> exact not_mem_of_isControl control (by decide)
  simp only [stubForm, words, String.toList_append, List.mem_append, heldBy_cons, mark, type, default, false_or,
    or_false]

namespace Stub

theorem heldBy_parameterParts (starred : Bool) (parameters : List ParameterOutline) :
    HeldBy c (parameterParts starred parameters) ↔ HeldBy c (parameters.flatMap ParameterOutline.words) := by
  induction parameters generalizing starred with
  | nil => rfl
  | cons parameter rest ih =>
    have marks : ∀ (shown : Bool) (mark : String), IsPlain mark.toList →
        ¬ HeldBy c (if shown = true then [mark] else []) := by
      intro shown mark plain
      split
      · simp [not_mem_of_isControl control plain]
      · simp
    simp only [parameterParts, List.flatMap_cons, heldBy_append, heldBy_cons, ih, marks _ "*" (by decide),
      marks _ "/" (by decide), false_or, or_false, ParameterOutline.mem_stubForm control]

theorem mem_parameterList (parameters : List ParameterOutline) :
    c ∈ (parameterList parameters).toList ↔ HeldBy c (parameters.flatMap ParameterOutline.words) := by
  unfold parameterList
  rw [mem_intercalate_texts control ", " (by decide)]
  exact heldBy_parameterParts control _ parameters

theorem mem_classHeader (name : String) : c ∈ (classHeader name).toList ↔ c ∈ name.toList := by
  simp only [classHeader, String.toList_append, List.mem_append, mem_plain control "class " (by decide),
    mem_plain control ":" (by decide), false_or, or_false]

theorem mem_functionHeader (name : String) (parameters : List ParameterOutline) (returns : Option TypeTerm) :
    c ∈ (functionHeader name parameters returns).toList ↔ (c ∈ name.toList ∨
      HeldBy c (parameters.flatMap ParameterOutline.words)) ∨ HeldBy c ((returns.map TypeTerm.paths).getD []) := by
  cases returns <;>
    simp only [functionHeader, String.toList_append, List.mem_append, mem_plain control "def " (by decide),
      mem_plain control "(" (by decide), mem_plain control ")" (by decide), mem_plain control ":" (by decide),
      mem_plain control " -> " (by decide), false_or, or_false, mem_parameterList control,
      TypeTerm.mem_stubForm control, Option.map_none, Option.map_some, Option.getD_none, Option.getD_some,
      heldBy_nil, String.toList_empty, List.not_mem_nil]

theorem not_mem_valueForm (value : Option Value) : ¬ c ∈ (valueForm value).toList := by
  match value with
  | none => simp [valueForm]
  | some .ellipsis => exact not_mem_of_isControl control (by decide)
  | some (.literal value) =>
    rw [valueForm, String.toList_append, List.mem_append, not_or]
    exact ⟨not_mem_of_isControl control (by decide), Literal.not_mem_stubForm control value⟩

theorem mem_indented (level : Nat) (line : String) : c ∈ (indented level line).toList ↔ c ∈ line.toList := by
  have notBlank : c ≠ ' ' := ne_of_isControl control (by decide)
  rw [toList_indented]
  split
  · rename_i empty
    rw [empty]
  · simp [notBlank]

theorem heldBy_map_indented (level : Nat) (lines : List String) :
    HeldBy c (lines.map (indented level)) ↔ HeldBy c lines := by
  rw [heldBy_map]
  simp only [mem_indented control]
  rfl

theorem heldBy_docstringLines (text : String) : HeldBy c (docstringLines text) ↔ c ≠ '\n' ∧ c ∈ text.toList := by
  have quoted : c ∈ ("\"\"\"" ++ Docstring.escape text ++ "\"\"\"").toList ↔ c ∈ text.toList := by
    simp only [String.toList_append, List.mem_append, mem_plain control "\"\"\"" (by decide), false_or, or_false,
      Docstring.escape, String.toList_ofList, mem_escapeAfter control]
  unfold docstringLines Text.lines
  rw [heldBy_map, ← quoted, ← mem_splitOn]
  simp only [String.toList_ofList]

theorem heldBy_decoratorLines (level : Nat) (decorators : List String) :
    HeldBy c (decoratorLines level decorators) ↔ HeldBy c decorators := by
  have each : ∀ decorator : String, c ∈ ("@" ++ decorator).toList ↔ c ∈ decorator.toList := by
    intro decorator
    rw [String.toList_append, List.mem_append, mem_plain control "@" (by decide), false_or]
  unfold decoratorLines
  rw [heldBy_map]
  simp only [mem_indented control, each]
  rfl

end Stub

end

namespace Stub

/-- A control character that the lines of the statement have. -/
def Statement.Holds (statement : Statement) (c : Char) : Prop :=
  HeldBy c statement.words ∨ c ≠ '\n' ∧ HeldBy c statement.docstrings

section
variable {c : Char} {statements : List Statement}

def AllHold (statements : List Statement) (c : Char) : Prop := ∃ statement ∈ statements, statement.Holds c

theorem allHold_iff : AllHold statements c ↔
    HeldBy c (wordsOfAll statements) ∨ c ≠ '\n' ∧ HeldBy c (docstringsOfAll statements) := by
  rw [wordsOfAll_eq_flatMap, docstringsOfAll_eq_flatMap, heldBy_flatMap, heldBy_flatMap]
  simp only [AllHold, Statement.Holds]
  constructor
  · rintro ⟨statement, member, inWords | ⟨notEnd, inDocs⟩⟩
    · exact .inl ⟨statement, member, inWords⟩
    · exact .inr ⟨notEnd, statement, member, inDocs⟩
  · rintro (⟨statement, member, inWords⟩ | ⟨notEnd, statement, member, inDocs⟩)
    · exact ⟨statement, member, .inl inWords⟩
    · exact ⟨statement, member, .inr ⟨notEnd, inDocs⟩⟩

theorem not_allHold_of_isPlaceholder (placeholder : isPlaceholder statements = true) : ¬ AllHold statements c := by
  match statements, placeholder with
  | [], _ => simp [AllHold]
  | [.ellipsis], _ => simp [AllHold, Statement.Holds, Statement.words, Statement.docstrings]

/-- The lines of a header and of the body below it, or of a header with the placeholder behind it. -/
theorem heldBy_block (control : isControl c = true) (level : Nat) (header : String) (body : List Statement)
    (inside : HeldBy c (linesOfAll (level + 1) body) ↔ AllHold body c) :
    HeldBy c (if isPlaceholder body then [indented level (header ++ " ...")]
      else indented level header :: linesOfAll (level + 1) body) ↔ c ∈ header.toList ∨ AllHold body c := by
  split
  · rename_i placeholder
    rw [heldBy_cons, heldBy_nil, mem_indented control, String.toList_append, List.mem_append,
      mem_plain control " ..." (by decide)]
    simp [not_allHold_of_isPlaceholder placeholder]
  · rw [heldBy_cons, mem_indented control, inside]

-- The recursion is on the statement, through the statements of its body.
mutual

/-- The control characters in the lines of a statement stand in its words, or in its docstrings. -/
theorem Statement.heldBy_lines (control : isControl c = true) (level : Nat) (statement : Statement) :
    HeldBy c (statement.lines level) ↔ statement.Holds c := by
  -- What the lines have beside the words is plain: keywords, marks and indentation.
  match statement with
  | .importFrom path names =>
    simp only [Statement.lines, Statement.Holds, Statement.words, Statement.docstrings, heldBy_cons, heldBy_nil,
      mem_indented control, String.toList_append, List.mem_append, mem_plain control "from " (by decide),
      mem_plain control " import " (by decide), mem_intercalate_texts control ", " (by decide), false_or, or_false,
      and_false]
    rfl
  | .importModule path =>
    simp only [Statement.lines, Statement.Holds, Statement.words, Statement.docstrings, heldBy_cons, heldBy_nil,
      mem_indented control, String.toList_append, List.mem_append, mem_plain control "import " (by decide), false_or,
      or_false, and_false]
  | .classDef name decorators body =>
    rw [Statement.lines, heldBy_append, heldBy_decoratorLines control,
      heldBy_block control level (classHeader name) body (heldBy_linesOfAll control (level + 1) body),
      mem_classHeader control, allHold_iff]
    simp only [Statement.Holds, Statement.words, Statement.docstrings, heldBy_append, heldBy_cons]
    grind
  | .function name decorators parameters returns body =>
    rw [Statement.lines, heldBy_append, heldBy_decoratorLines control,
      heldBy_block control level (functionHeader name parameters returns) body
        (heldBy_linesOfAll control (level + 1) body), mem_functionHeader control, allHold_iff]
    simp only [Statement.Holds, Statement.words, Statement.docstrings, heldBy_append, heldBy_cons]
    grind
  | .assignment target type value =>
    simp only [Statement.lines, Statement.Holds, Statement.words, Statement.docstrings, heldBy_cons, heldBy_nil,
      mem_indented control, String.toList_append, List.mem_append, mem_plain control ": " (by decide),
      TypeTerm.mem_stubForm control, not_mem_valueForm control, or_false, and_false]
  | .docstring text =>
    rw [Statement.lines, heldBy_map_indented control, heldBy_docstringLines control]
    simp [Statement.Holds, Statement.words, Statement.docstrings]
  | .ellipsis =>
    rw [Statement.lines, heldBy_cons, heldBy_nil, mem_indented control, mem_plain control "..." (by decide)]
    simp [Statement.Holds, Statement.words, Statement.docstrings]

theorem heldBy_linesOfAll (control : isControl c = true) (level : Nat) (statements : List Statement) :
    HeldBy c (linesOfAll level statements) ↔ AllHold statements c := by
  match statements with
  | [] => simp [linesOfAll, AllHold]
  | statement :: rest =>
    rw [linesOfAll, heldBy_append, Statement.heldBy_lines control level statement, heldBy_linesOfAll control level rest,
      AllHold, AllHold, List.exists_mem_cons_iff]

end

end

end Stub

end TypedStub

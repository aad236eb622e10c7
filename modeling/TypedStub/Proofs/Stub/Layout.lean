import TypedStub.Proofs.Stub.Docstring
import TypedStub.Proofs.Stub.ParameterList
import TypedStub.Stub

/-! The layout of statements.

A statement stands behind its decorators and the indentation of its level, and the word that it opens with, together
with the mark behind that word, tells what kind of statement it is.
-/

set_option autoImplicit false

namespace TypedStub.Stub

open Text Text.Docstring

def Value.IsStored : Value → Prop
  | .literal value => value.IsStored
  | .ellipsis => True

mutual

/-- The statement with every bare tuple of types replaced by the subscript that it is written as. -/
def Statement.withoutTuples : Statement → Statement
  | .importFrom path names => .importFrom path names
  | .importModule path => .importModule path
  | .classDef name decorators body => .classDef name decorators (withoutTuplesAll body)
  | .function name decorators parameters returns body =>
    .function name decorators (parameters.map ParameterOutline.withoutTuples) (returns.map TypeTerm.withoutTuples)
      (withoutTuplesAll body)
  | .assignment target type value => .assignment target type.withoutTuples value
  | .docstring text => .docstring text
  | .ellipsis => .ellipsis

def withoutTuplesAll : List Statement → List Statement
  | [] => []
  | statement :: rest => statement.withoutTuples :: withoutTuplesAll rest

end

mutual

/-- Names are names, paths are paths, types are well formed, and no list of imported names and no body is empty. -/
def Statement.IsWellFormed : Statement → Prop
  | .importFrom path names => IsPath path ∧ names ≠ [] ∧ ∀ name ∈ names, IsName name
  | .importModule path => IsPath path
  | .classDef name decorators body =>
    IsName name ∧ (∀ decorator ∈ decorators, IsPath decorator) ∧ body ≠ [] ∧ AllWellFormed body
  | .function name decorators parameters returns body =>
    IsName name ∧ (∀ decorator ∈ decorators, IsPath decorator) ∧ IsParameterList parameters ∧
      (∀ type ∈ returns, type.IsWellFormed) ∧ body ≠ [] ∧ AllWellFormed body
  | .assignment target type value => IsName target ∧ type.IsWellFormed ∧ ∀ shown ∈ value, shown.IsStored
  | .docstring _ | .ellipsis => True

def AllWellFormed : List Statement → Prop
  | [] => True
  | statement :: rest => statement.IsWellFormed ∧ AllWellFormed rest

end

theorem withoutTuplesAll_eq_map (statements : List Statement) :
    withoutTuplesAll statements = statements.map Statement.withoutTuples := by
  induction statements with
  | nil => rfl
  | cons statement rest ih => simp [withoutTuplesAll, ih]

theorem allWellFormed_iff {statements : List Statement} :
    AllWellFormed statements ↔ ∀ statement ∈ statements, statement.IsWellFormed := by
  induction statements with
  | nil => simp [AllWellFormed]
  | cons statement rest ih => simp [AllWellFormed, ih]

/-! ### The layout of a statement -/

namespace Statement

def decorators : Statement → List String
  | .classDef _ decorators _ | .function _ decorators _ _ _ => decorators
  | _ => []

def body : Statement → List Statement
  | .classDef _ _ body | .function _ _ _ _ body => body
  | _ => []

def opening : Statement → List Char × Char
  | .importFrom .. => ("from".toList, ' ')
  | .importModule _ => ("import".toList, ' ')
  | .classDef .. => ("class".toList, ' ')
  | .function .. => ("def".toList, ' ')
  | .assignment target _ _ => (target.toList, ':')
  | .docstring _ => ([], '"')
  | .ellipsis => ([], '.')

def form (level : Nat) (statement : Statement) : List Char := (textOfLines (statement.lines level)).toList

end Statement

def decoratorForm (level : Nat) (decorator : String) : List Char :=
  spaces level ++ '@' :: (decorator.toList ++ ['\n'])

def bodyForm (level : Nat) (body : List Statement) : List Char :=
  if isPlaceholder body then " ...\n".toList else '\n' :: body.flatMap (Statement.form (level + 1))

def returnsForm : Option TypeTerm → List Char
  | some type => " -> ".toList ++ type.form
  | none => []

def remainder (level : Nat) : Statement → List Char
  | .importFrom path names =>
    path.toList ++ (" import ".toList ++ (separated [',', ' '] String.toList names ++ ['\n']))
  | .importModule path => path.toList ++ ['\n']
  | .classDef name _ body => name.toList ++ ':' :: bodyForm level body
  | .function name _ parameters returns body =>
    name.toList ++ '(' :: ((parameterList parameters).toList ++
      ')' :: (returnsForm returns ++ ':' :: bodyForm level body))
  | .assignment _ type value => ' ' :: (type.form ++ ((valueForm value).toList ++ ['\n']))
  | .docstring text => '"' :: '"' :: (indentRest level (escapeAfter none text.toList) ++ (quotes ++ ['\n']))
  | .ellipsis => ['.', '.', '\n']

theorem toList_textOfLines_append (first second : List String) :
    (textOfLines (first ++ second)).toList = (textOfLines first).toList ++ (textOfLines second).toList := by
  simp [toList_textOfLines]

theorem toList_textOfLines_linesOfAll (level : Nat) (statements : List Statement) :
    (textOfLines (linesOfAll level statements)).toList = statements.flatMap (Statement.form level) := by
  induction statements with
  | nil => rfl
  | cons statement rest ih =>
    rw [linesOfAll, toList_textOfLines_append, ih]
    rfl

theorem toList_line (level : Nat) {line : String} (filled : line.toList ≠ []) :
    (textOfLines [indented level line]).toList = spaces level ++ (line.toList ++ ['\n']) := by
  simp [toList_textOfLines, toList_indented, filled, spaces]

theorem toList_decoratorLines (level : Nat) (decorators : List String) :
    (textOfLines (decoratorLines level decorators)).toList = decorators.flatMap (decoratorForm level) := by
  simp [toList_textOfLines, decoratorLines, List.flatMap_map, toList_indented]
  rfl

theorem toList_header (level : Nat) {header : String} (filled : header.toList ≠ []) (body : List Statement) :
    (textOfLines (if isPlaceholder body then [indented level (header ++ " ...")]
      else indented level header :: linesOfAll (level + 1) body)).toList =
      spaces level ++ (header.toList ++ bodyForm level body) := by
  unfold bodyForm
  split
  · rw [toList_line level (by simp [filled])]
    simp
  · rw [← List.singleton_append, toList_textOfLines_append, toList_line level filled, toList_textOfLines_linesOfAll]
    simp

theorem toList_functionHeader (name : String) (parameters : List ParameterOutline) (returns : Option TypeTerm) :
    (functionHeader name parameters returns).toList = "def ".toList ++
      (name.toList ++ '(' :: ((parameterList parameters).toList ++ ')' :: (returnsForm returns ++ [':']))) := by
  cases returns with
  | none => simp only [functionHeader, String.toList_append, returnsForm, List.append_assoc]; rfl
  | some type => simp only [functionHeader, String.toList_append, returnsForm, TypeTerm.form, List.append_assoc]; rfl

/-- Every statement is its decorators, its opening and the rest, behind the indentation of its level. -/
theorem form_eq (level : Nat) (statement : Statement) : statement.form level =
    statement.decorators.flatMap (decoratorForm level) ++
      (spaces level ++ (statement.opening.1 ++ statement.opening.2 :: remainder level statement)) := by
  cases statement with
  | importFrom path names =>
    rw [Statement.form, Statement.lines, toList_line level (by simp)]
    simp [Statement.decorators, Statement.opening, remainder, String.toList_intercalate, separated]
  | importModule path =>
    rw [Statement.form, Statement.lines, toList_line level (by simp)]
    simp [Statement.decorators, Statement.opening, remainder]
  | classDef name decorators body =>
    rw [Statement.form, Statement.lines, toList_textOfLines_append, toList_decoratorLines,
      toList_header level (by simp [classHeader])]
    simp [Statement.decorators, Statement.opening, remainder, classHeader]
  | function name decorators parameters returns body =>
    rw [Statement.form, Statement.lines, toList_textOfLines_append, toList_decoratorLines,
      toList_header level (by rw [toList_functionHeader]; exact List.cons_ne_nil _ _), toList_functionHeader]
    simp [Statement.decorators, Statement.opening, remainder]
  | assignment target type value =>
    rw [Statement.form, Statement.lines, toList_line level (by simp)]
    simp [Statement.decorators, Statement.opening, remainder, TypeTerm.form]
  | docstring text => exact toList_docstring_lines level text
  | ellipsis =>
    rw [Statement.form, Statement.lines, toList_line level (by simp)]
    simp [Statement.decorators, Statement.opening, remainder]

/-! ### Openings -/

section
variable {level : Nat} {statement other : Statement}

/-- A statement ends before this text: no line of the next level follows. -/
def EndsStatement (level : Nat) (text : List Char) : Prop := ∀ rest, text ≠ spaces (level + 1) ++ rest

theorem Statement.IsWellFormed.opening (formed : statement.IsWellFormed) :
    (∀ c ∈ statement.opening.1, isNameChar c = true) ∧ statement.opening.2 ∈ [' ', ':', '"', '.'] ∧
      (statement.opening.1 = [] → statement.opening.2 ∈ ['"', '.']) := by
  cases statement with
  | assignment target type value =>
    exact ⟨formed.1.2, by simp [Statement.opening], by simp [Statement.opening, formed.1.1]⟩
  | importFrom _ _ | importModule _ | classDef _ _ _ | function _ _ _ _ _ | docstring _ | ellipsis =>
    exact ⟨List.all_eq_true.1 rfl, by simp [Statement.opening], by simp [Statement.opening]⟩

theorem Statement.IsWellFormed.opening_begins (formed : statement.IsWellFormed) (rest : List Char) :
    ∃ c more, statement.opening.1 ++ statement.opening.2 :: rest = c :: more ∧ c ≠ ' ' ∧ c ≠ '\n' ∧ c ≠ '@' := by
  obtain ⟨chars, -, marks⟩ := formed.opening
  cases opened : statement.opening.1 with
  | nil =>
    refine ⟨statement.opening.2, rest, rfl, ?_⟩
    have mark := marks opened
    simp only [List.mem_cons, List.not_mem_nil, or_false] at mark
    rcases mark with mark | mark <;> rw [mark] <;> decide
  | cons c word =>
    refine ⟨c, _, rfl, ?_⟩
    have isName := chars c (by simp [opened])
    refine ⟨?_, ?_, ?_⟩ <;> rintro rfl <;> cases isName

/-- The opening of a statement is told from what follows it. -/
theorem opening_inj (formed : statement.IsWellFormed) (otherFormed : other.IsWellFormed) {rest later : List Char}
    (same : statement.opening.1 ++ statement.opening.2 :: rest = other.opening.1 ++ other.opening.2 :: later) :
    statement.opening = other.opening ∧ rest = later := by
  have noName : ∀ {c : Char}, c ∈ [' ', ':', '"', '.'] → isNameChar c = false := by
    intro c member
    simp only [List.mem_cons, List.not_mem_nil, or_false] at member
    rcases member with rfl | rfl | rfl | rfl <;> rfl
  obtain ⟨sameWord, sameTail⟩ := run_append_inj formed.opening.1 otherFormed.opening.1
    (endsRun_cons.2 (noName formed.opening.2.1)) (endsRun_cons.2 (noName otherFormed.opening.2.1)) same
  obtain ⟨sameMark, sameRest⟩ := List.cons.inj sameTail
  exact ⟨Prod.ext sameWord sameMark, sameRest⟩

theorem decorators_inj {decorators others : List String} (paths : ∀ decorator ∈ decorators, IsPath decorator)
    (otherPaths : ∀ decorator ∈ others, IsPath decorator) {rest later : List Char}
    (plain : ∀ more, rest ≠ '@' :: more) (otherPlain : ∀ more, later ≠ '@' :: more)
    (same : decorators.flatMap (decoratorForm level) ++ (spaces level ++ rest) =
      others.flatMap (decoratorForm level) ++ (spaces level ++ later)) : decorators = others ∧ rest = later := by
  -- A line that begins with a decorator's sign is one more decorator, and the statement begins with no such sign.
  induction decorators generalizing others with
  | nil =>
    cases others with
    | nil => exact ⟨rfl, List.append_cancel_left same⟩
    | cons decorator others =>
      simp only [List.flatMap_nil, List.nil_append, List.flatMap_cons, decoratorForm, List.append_assoc] at same
      exact absurd (List.append_cancel_left same) (plain _)
  | cons decorator decorators ih =>
    cases others with
    | nil =>
      simp only [List.flatMap_nil, List.nil_append, List.flatMap_cons, decoratorForm, List.append_assoc] at same
      exact absurd (List.append_cancel_left same).symm (otherPlain _)
    | cons other others =>
      simp only [List.flatMap_cons, decoratorForm, List.append_assoc, List.cons_append] at same
      obtain ⟨sameDecorator, sameTail⟩ := legible_path (paths decorator List.mem_cons_self) other _ _
        (otherPaths other List.mem_cons_self) (endsRun_cons.2 (by decide)) (endsRun_cons.2 (by decide))
        (List.cons.inj (List.append_cancel_left same)).2
      obtain ⟨sameDecorators, sameRest⟩ := ih (fun decorator member => paths decorator (List.mem_cons_of_mem _ member))
        (fun decorator member => otherPaths decorator (List.mem_cons_of_mem _ member)) (List.cons.inj sameTail).2
      exact ⟨List.cons_eq_cons.2 ⟨sameDecorator, sameDecorators⟩, sameRest⟩

theorem Statement.IsWellFormed.decorators (formed : statement.IsWellFormed) :
    ∀ decorator ∈ statement.decorators, IsPath decorator := by
  cases statement with
  | classDef _ _ _ => exact formed.2.1
  | function _ _ _ _ _ => exact formed.2.1
  | importFrom _ _ | importModule _ | assignment _ _ _ | docstring _ | ellipsis => exact fun _ impossible => by cases impossible

theorem Statement.IsWellFormed.body (formed : statement.IsWellFormed) :
    ∀ inner ∈ statement.body, inner.IsWellFormed := by
  cases statement with
  | classDef _ _ _ => exact allWellFormed_iff.1 formed.2.2.2
  | function _ _ _ _ _ => exact allWellFormed_iff.1 formed.2.2.2.2.2
  | importFrom _ _ | importModule _ | assignment _ _ _ | docstring _ | ellipsis => exact fun _ impossible => by cases impossible

theorem sizeOf_body {inner : Statement} (member : inner ∈ statement.body) : sizeOf inner < sizeOf statement := by
  have := List.sizeOf_lt_of_mem member
  cases statement with
  | classDef _ _ _ | function _ _ _ _ _ =>
    simp only [Statement.body] at this
    simp
    omega
  | importFrom _ _ | importModule _ | assignment _ _ _ | docstring _ | ellipsis => cases member

/-- A statement begins with the indentation of its level, and with nothing more. -/
theorem Statement.IsWellFormed.form_begins (formed : statement.IsWellFormed) (level : Nat) :
    ∃ c more, statement.form level = spaces level ++ c :: more ∧ c ≠ ' ' ∧ c ≠ '\n' := by
  rw [form_eq]
  cases statement.decorators with
  | nil =>
    obtain ⟨c, more, begins, notBlank, notEnd, -⟩ := formed.opening_begins (remainder level statement)
    exact ⟨c, more, by rw [List.flatMap_nil, List.nil_append, begins], notBlank, notEnd⟩
  | cons decorator decorators =>
    rw [List.flatMap_cons, decoratorForm, List.append_assoc, List.append_assoc]
    exact ⟨'@', _, rfl, by decide, by decide⟩

end

end TypedStub.Stub

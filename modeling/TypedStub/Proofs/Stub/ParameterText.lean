import TypedStub.Proofs.Stub.ParameterList
import TypedStub.Proofs.Text.Quoted
import TypedStub.Proofs.TypeTerm.Canonical

/-! Reading one entry of a parameter list back.

Types and defaults have no comma in the open, so a list can be cut into its entries. The sign before a default is in the
open too, and an annotation with such a sign of its own cannot be told from an annotation with a default.
-/

set_option autoImplicit false

namespace TypedStub

open Text

/-! ### Types and defaults are enclosed -/

namespace TypeTerm

mutual

/-- The paths of a term that stand outside of all brackets. -/
def outerPaths : TypeTerm → List String
  | .name path => pathOf path
  | .subscript base _ => pathOf base
  | .union items => outerPathsAll items
  | .tuple _ => []

def outerPathsAll : List TypeTerm → List String
  | [] => []
  | type :: rest => outerPaths type ++ outerPathsAll rest

end

theorem mem_outerPathsAll {path : String} {types : List TypeTerm} :
    path ∈ outerPathsAll types ↔ ∃ type ∈ types, path ∈ type.outerPaths := by
  induction types with
  | nil => simp [outerPathsAll]
  | cons type rest ih => simp only [outerPathsAll, List.mem_append, ih, List.exists_mem_cons_iff]

theorem mem_paths_of_mem_outerPaths {path : String} (type : TypeTerm) (outer : path ∈ type.outerPaths) :
    path ∈ type.paths := by
  cases type with
  | name name => exact outer
  | subscript base args => exact List.mem_append_left _ outer
  | union items =>
    obtain ⟨item, listed, inItem⟩ := mem_outerPathsAll.1 outer
    exact mem_pathsAll.2 ⟨item, listed, mem_paths_of_mem_outerPaths item inItem⟩
  | tuple items => cases outer

/-- The names in the type have no comma, bracket or quote. -/
def HasPlainNames (type : TypeTerm) : Prop := ∀ path ∈ type.paths, IsFlat path.toList ∧ ¬ ',' ∈ path.toList

instance (type : TypeTerm) : Decidable type.HasPlainNames :=
  inferInstanceAs (Decidable (∀ path ∈ type.paths, IsFlat path.toList ∧ ¬ ',' ∈ path.toList))

/-- No name outside of all brackets has an equals sign. -/
def IsUnsigned (type : TypeTerm) : Prop := ∀ path ∈ type.outerPaths, ¬ '=' ∈ path.toList

instance (type : TypeTerm) : Decidable type.IsUnsigned :=
  inferInstanceAs (Decidable (∀ path ∈ type.outerPaths, ¬ '=' ∈ path.toList))

end TypeTerm

def IsListMark (c : Char) : Prop := c = ',' ∨ c = '='

/-- The marks that brackets, literals and the entries of a list are told by. -/
def listMarks : List Char := ['(', '[', '\x7b', ')', ']', '\x7d', '"', '\x27', ',', '=']

section
variable {separator : Char} {depth : Nat} (mark : IsListMark separator)
include mark

theorem IsListMark.enclosed {text : List Char} (isFlat : IsFlat text) (uncut : ¬ ',' ∈ text ∧ ¬ '=' ∈ text) :
    Enclosed separator depth text := by
  refine .of_isFlat isFlat fun _ => ?_
  rcases mark with rfl | rfl
  · exact uncut.1
  · exact uncut.2

theorem IsListMark.enclosed_run {inside : Char → Bool} {run : List Char} (members : ∀ c ∈ run, inside c = true)
    (others : listMarks.any inside = false) : Enclosed separator depth run := by
  have outside : ∀ c ∈ listMarks, inside c = false := fun c isMark => by simpa using List.any_eq_false.1 others c isMark
  have boundaries : boundaryMarks.any inside = false := by
    rw [List.any_eq_false]
    intro c isBoundary
    have areMarks : boundaryMarks ⊆ listMarks := by decide
    simp [outside c (areMarks isBoundary)]
  exact mark.enclosed (isFlat_run members boundaries)
    ⟨not_mem_run members (outside ',' (by decide)), not_mem_run members (outside '=' (by decide))⟩

theorem IsListMark.brackets {before inside : List Char} (isBefore : Enclosed separator depth before)
    (isInside : Enclosed separator (depth + 1) inside) :
    Enclosed separator depth (before ++ "[".toList ++ inside ++ "]".toList) := by
  have other : '[' ≠ separator := by rcases mark with rfl | rfl <;> decide
  have closed : Enclosed separator depth ('[' :: (inside ++ [']'])) := isInside.bracketed rfl rfl other
  simpa using isBefore.append closed

namespace TypeTerm

theorem enclosed_path {name : String} (flat : ∀ path ∈ pathOf name, IsFlat path.toList)
    (absent : depth = 0 → ∀ path ∈ pathOf name, ¬ separator ∈ path.toList) :
    Enclosed separator depth name.toList := by
  by_cases dots : name = "..."
  · rw [dots]
    exact mark.enclosed (by decide) (by decide)
  · have own : name ∈ pathOf name := by simp [pathOf, dots]
    exact .of_isFlat (flat name own) fun atZero => absent atZero name own

omit mark in
theorem enclosed_stubForms {between : String} {types : List TypeTerm} (isBetween : Enclosed separator depth between.toList)
    (each : ∀ type ∈ types, Enclosed separator depth type.stubForm.toList) :
    Enclosed separator depth (between.intercalate (stubForms types)).toList := by
  rw [String.toList_intercalate, stubForms_eq_map, List.map_map]
  refine isBetween.intercalate fun part member => ?_
  obtain ⟨type, listed, rfl⟩ := List.mem_map.1 member
  exact each type listed

/-- A type is enclosed if its names have no brackets and quotes, and those in the open no separator. -/
theorem enclosed_stubForm (depth : Nat) (type : TypeTerm)
    (flat : ∀ path ∈ type.paths, IsFlat path.toList)
    (absent : depth = 0 → ∀ path ∈ type.outerPaths, ¬ separator ∈ path.toList) :
    Enclosed separator depth type.stubForm.toList := by
  have comma : Enclosed separator (depth + 1) ", ".toList := .deep (by decide)
  -- The recursion is on the type, through its parts; inside brackets nothing is in the open.
  cases type with
  | name path => exact enclosed_path mark flat absent
  | subscript base args =>
    have inBase : Enclosed separator depth base.toList :=
      enclosed_path mark (fun path member => flat path (List.mem_append_left _ member)) absent
    have inArgs := enclosed_stubForms comma fun arg listed => enclosed_stubForm (depth + 1) arg
      (fun path member => flat path (List.mem_append_right _ (mem_pathsAll.2 ⟨arg, listed, member⟩)))
      fun atZero => nomatch atZero
    simp only [stubForm, String.toList_append]
    exact mark.brackets inBase inArgs
  | union items =>
    have bar : Enclosed separator depth " | ".toList := mark.enclosed (by decide) (by decide)
    exact enclosed_stubForms bar fun item listed => enclosed_stubForm depth item
      (fun path member => flat path (mem_pathsAll.2 ⟨item, listed, member⟩))
      fun atZero path member => absent atZero path (mem_outerPathsAll.2 ⟨item, listed, member⟩)
  | tuple items =>
    have word : Enclosed separator depth "typing.Tuple".toList := mark.enclosed (by decide) (by decide)
    have inItems := enclosed_stubForms comma fun item listed => enclosed_stubForm (depth + 1) item
      (fun path member => flat path (mem_pathsAll.2 ⟨item, listed, member⟩)) fun atZero => nomatch atZero
    have same : "typing.Tuple[".toList = "typing.Tuple".toList ++ "[".toList := by decide
    simp only [stubForm, String.toList_append, same]
    exact mark.brackets word inItems

end TypeTerm

theorem Literal.enclosed_tupleForm (items : List String) : Enclosed separator depth (tupleForm items).toList := by
  have other : '(' ≠ separator ∧ '"' ≠ separator := by rcases mark with rfl | rfl <;> decide
  have parentheses : ∀ {inside : List Char}, Enclosed separator (depth + 1) inside →
      Enclosed separator depth ('(' :: (inside ++ [')'])) := fun isInside => isInside.bracketed rfl rfl other.1
  unfold tupleForm
  split
  · rename_i item
    have comma : Enclosed separator (depth + 1) [','] := .deep (by decide)
    simpa using parentheses ((Enclosed.quote other.2 item).append comma)
  · have comma : Enclosed separator (depth + 1) ", ".toList := .deep (by decide)
    have inItems : Enclosed separator (depth + 1) (", ".intercalate (items.map Quoted.quote)).toList := by
      rw [String.toList_intercalate, List.map_map]
      refine comma.intercalate fun part member => ?_
      obtain ⟨item, -, rfl⟩ := List.mem_map.1 member
      exact .quote other.2 item
    simpa using parentheses inItems

theorem Literal.enclosed_stubForm (value : Literal) : Enclosed separator 0 value.stubForm.toList := by
  have numberMarks : listMarks.any Binary64.isNumberChar = false := by decide
  cases value with
  | null => exact mark.enclosed (by decide) (by decide)
  | bool value => cases value <;> exact mark.enclosed (by decide) (by decide)
  | int value =>
    refine mark.enclosed_run (fun c member => ?_) numberMarks
    rcases Decimal.isDigit_or_minus_of_mem_toString member with digit | rfl
    · exact Binary64.isNumberChar_digit digit
    · rfl
  | float value =>
    cases value with
    | nan => rcases mark with rfl | rfl <;> decide
    | infinite negative => cases negative <;> rcases mark with rfl | rfl <;> decide
    | finite negative mantissa scale =>
      exact mark.enclosed_run (Binary64.text_finite_chars negative mantissa scale).1 numberMarks
  | text value =>
    refine .quote ?_ value
    rcases mark with rfl | rfl <;> decide
  | textTuple items => exact enclosed_tupleForm mark items

end

/-! ### Entries -/

structure ParameterText where
  name : String
  type? : Option String
  default? : Option String
  deriving DecidableEq

/-- What stands between two commas: a mark that stands alone, or a parameter behind its stars. -/
inductive ListEntry where
  | slash
  | star
  | named (stars : Nat) (text : ParameterText)
  deriving DecidableEq

def ParameterKind.stars : ParameterKind → Nat
  | .varPositional => 1
  | .varKeyword => 2
  | .positionalOnly | .positionalOrKeyword | .keywordOnly => 0

theorem ParameterKind.length_mark (kind : ParameterKind) : kind.mark.length = kind.stars := by
  cases kind <;> rfl

def ParameterOutline.written (parameter : ParameterOutline) : ParameterText :=
  ⟨parameter.name, parameter.type.map TypeTerm.stubForm, parameter.default?.map Literal.stubForm⟩

def ParameterPart.entry (part : ParameterPart) : ListEntry :=
  if part.mark = "/" then .slash
  else if part.name = "" then .star
  else .named part.mark.length (part.toParameter .positionalOrKeyword).written

namespace ListEntry

/-- Read a type, and a default if there is one: the sign before it has a blank on each side. -/
def readTyped? (name : String) (written : List Char) : Option ParameterText :=
  match outerPieces '=' (.code 0) written with
  | [type] => some ⟨name, some (String.ofList type), none⟩
  | [type, ' ' :: value] =>
    if type.getLast? = some ' ' then some ⟨name, some (String.ofList type.dropLast), some (String.ofList value)⟩
    else none
  | _ => none

def readTail? (name : String) : List Char → Option ParameterText
  | [] => some ⟨name, none, none⟩
  | '=' :: value => some ⟨name, none, some (String.ofList value)⟩
  | ':' :: ' ' :: rest => readTyped? name rest
  | _ => none

def readNamed? (written : List Char) : Option ParameterText :=
  let name := written.takeWhile isNameChar
  if name = [] then none else readTail? (String.ofList name) (written.dropWhile isNameChar)

def read? (written : List Char) : Option ListEntry :=
  if written = ['/'] then some .slash
  else if written = ['*'] then some .star
  else (readNamed? (written.dropWhile (· = '*'))).map (.named (written.takeWhile (· = '*')).length)

section
variable {type : TypeTerm} {value : Literal}

theorem enclosed_signless (plain : type.HasPlainNames) (unsigned : type.IsUnsigned) : Enclosed '=' 0 type.form :=
  TypeTerm.enclosed_stubForm (.inr rfl) 0 type (fun path member => (plain path member).1) fun _ => unsigned

theorem readTyped?_type (name : String) (plain : type.HasPlainNames) (unsigned : type.IsUnsigned) :
    readTyped? name type.form = some ⟨name, some type.stubForm, none⟩ := by
  rw [readTyped?, outerPieces_of_pass? (enclosed_signless plain unsigned)]
  simp [TypeTerm.form]

theorem readTyped?_default (name : String) (plain : type.HasPlainNames) (unsigned : type.IsUnsigned) :
    readTyped? name (type.form ++ ' ' :: '=' :: ' ' :: value.stubForm.toList) =
      some ⟨name, some type.stubForm, some value.stubForm⟩ := by
  have blank : Enclosed '=' 0 [' '] := by decide
  have isValue : Enclosed '=' 0 (' ' :: value.stubForm.toList) :=
    blank.append (Literal.enclosed_stubForm (.inr rfl) value)
  -- The sign belongs to neither piece, but the blanks around it do.
  have cut : outerPieces '=' (.code 0) (type.form ++ [' '] ++ '=' :: ' ' :: value.stubForm.toList) =
      [type.form ++ [' '], ' ' :: value.stubForm.toList] := by
    rw [outerPieces_append ((enclosed_signless plain unsigned).append blank), outerPieces_of_pass? isValue]
  rw [List.append_assoc] at cut
  rw [readTyped?, show ' ' :: '=' :: ' ' :: value.stubForm.toList = [' '] ++ '=' :: ' ' :: value.stubForm.toList from rfl,
    cut]
  simp [TypeTerm.form]

end

end ListEntry

theorem ParameterPart.endsRun_contents (part : ParameterPart) : EndsRun isNameChar part.contents := by
  cases typed : part.type with
  | some type =>
    rw [contents_typed typed]
    exact endsRun_cons.2 (by decide)
  | none =>
    rw [contents_untyped typed]
    cases part.default? with
    | none => exact endsRun_nil
    | some value => exact endsRun_cons.2 (by decide)

theorem ParameterPart.enclosed_form (part : ParameterPart) (mark : ∀ c ∈ part.mark.toList, isMarkChar c = true)
    (name : ∀ c ∈ part.name.toList, isNameChar c = true) (types : ∀ type ∈ part.type, type.HasPlainNames) :
    Enclosed ',' 0 part.form := by
  have listMark : IsListMark ',' := .inl rfl
  have isMark : Enclosed ',' 0 part.mark.toList := listMark.enclosed_run mark (by decide)
  have isName : Enclosed ',' 0 part.name.toList := listMark.enclosed_run name (by decide)
  have isDefault : ∀ typed, Enclosed ',' 0 (defaultText (defaultOpening typed) part.default?) := by
    intro typed
    cases part.default? with
    | none => exact .nil
    | some value =>
      have opening : Enclosed ',' 0 (defaultOpening typed) := by cases typed <;> decide
      exact opening.append (Literal.enclosed_stubForm listMark value)
  have isContents : Enclosed ',' 0 part.contents := by
    cases typed : part.type with
    | none => exact contents_untyped typed ▸ isDefault false
    | some type =>
      have plain := types type typed
      have isType : Enclosed ',' 0 type.form := TypeTerm.enclosed_stubForm listMark 0 type
        (fun path member => (plain path member).1)
        fun _ path outer => (plain path (TypeTerm.mem_paths_of_mem_outerPaths type outer)).2
      have opening : Enclosed ',' 0 [':', ' '] := by decide
      rw [contents_typed typed]
      exact opening.append (isType.append (isDefault true))
  exact isMark.append (isName.append isContents)

namespace ListEntry

variable {parameter : ParameterOutline}

theorem readTail?_contents (types : ∀ type ∈ parameter.type, type.HasPlainNames ∧ type.IsUnsigned) :
    readTail? parameter.name (ParameterPart.ofParameter parameter).contents = some parameter.written := by
  obtain ⟨name, type?, default?, kind⟩ := parameter
  cases type? with
  | none =>
    rw [ParameterPart.contents_untyped rfl]
    cases default? with
    | none => rfl
    | some value =>
      change some (⟨name, none, some (String.ofList value.stubForm.toList)⟩ : ParameterText) = _
      rw [String.ofList_toList]
      rfl
  | some type =>
    obtain ⟨plain, unsigned⟩ := types type rfl
    rw [ParameterPart.contents_typed rfl]
    cases default? with
    | none => exact (congrArg (readTyped? name) (List.append_nil _)).trans (readTyped?_type name plain unsigned)
    | some value => exact readTyped?_default name plain unsigned

theorem readNamed?_parameter (isName : IsName parameter.name)
    (types : ∀ type ∈ parameter.type, type.HasPlainNames ∧ type.IsUnsigned) :
    readNamed? (parameter.name.toList ++ (ParameterPart.ofParameter parameter).contents) = some parameter.written := by
  have ends := ParameterPart.endsRun_contents (ParameterPart.ofParameter parameter)
  have filled : parameter.name.toList ≠ [] := fun empty => isName.1 (String.toList_eq_nil_iff.1 empty)
  simp only [readNamed?, takeWhile_run isName.2 ends, dropWhile_run isName.2 ends, if_neg filled, String.ofList_toList,
    readTail?_contents types]

theorem entry_ofParameter (filled : parameter.name ≠ "") : (ParameterPart.ofParameter parameter).entry =
    .named parameter.kind.stars parameter.written := by
  have noSlash : parameter.kind.mark ≠ "/" := by cases parameter.kind <;> decide
  rw [ParameterPart.entry, if_neg (show (ParameterPart.ofParameter parameter).mark ≠ "/" from noSlash),
    if_neg (show (ParameterPart.ofParameter parameter).name ≠ "" from filled), ← ParameterKind.length_mark]
  rfl

/-- A parameter is read back with the number of its stars. -/
theorem read?_ofParameter (isName : IsName parameter.name)
    (types : ∀ type ∈ parameter.type, type.HasPlainNames ∧ type.IsUnsigned) :
    read? (ParameterPart.ofParameter parameter).form = some (ParameterPart.ofParameter parameter).entry := by
  have stars : ∀ c ∈ parameter.kind.mark.toList, decide (c = '*') = true := by
    cases parameter.kind <;> exact List.all_eq_true.1 rfl
  obtain ⟨first, more, begins⟩ := List.exists_cons_of_ne_nil fun empty => isName.1 (String.toList_eq_nil_iff.1 empty)
  have isFirst : isNameChar first = true := isName.2 first (by simp [begins])
  -- A name is among the characters, so the entry is no mark that stands alone.
  have notAlone : ∀ mark, isNameChar mark = false → (ParameterPart.ofParameter parameter).form ≠ [mark] := by
    intro mark notName alone
    have member : first ∈ (ParameterPart.ofParameter parameter).form := by
      simp [ParameterPart.form, ParameterPart.ofParameter, begins]
    rw [alone, List.mem_singleton] at member
    rw [member, notName] at isFirst
    cases isFirst
  have ends : EndsRun (fun c => decide (c = '*'))
      (parameter.name.toList ++ (ParameterPart.ofParameter parameter).contents) := by
    rw [begins]
    refine endsRun_cons.2 (decide_eq_false ?_)
    rintro rfl
    cases isFirst
  rw [read?, if_neg (notAlone '/' (by decide)), if_neg (notAlone '*' (by decide)), entry_ofParameter isName.1,
    ← ParameterKind.length_mark]
  have form : (ParameterPart.ofParameter parameter).form = parameter.kind.mark.toList ++
    (parameter.name.toList ++ (ParameterPart.ofParameter parameter).contents) := rfl
  rw [form, takeWhile_run stars ends, dropWhile_run stars ends, readNamed?_parameter isName types]
  rfl

end ListEntry

end TypedStub

import TypedStub.Documentation
import TypedStub.Proofs.Text.Runs

/-! Documentation line by line: which lines are fields, and what is shown of the others.

A line is hidden if it begins like a field, and it is read if it has the form of one. So every line that is read is
hidden, while a line that only begins like a field is hidden without being read.
-/

set_option autoImplicit false

namespace TypedStub.Documentation

open Text

section

variable {mark : String} {line rest : List Char}

/-! ### Marks -/

/-- A text that stands at the beginning of a line and survives trimming there. -/
def IsMark (mark : String) : Prop := mark.toList ≠ [] ∧ IsStripped isBlank mark.toList

instance (mark : String) : Decidable (IsMark mark) := inferInstanceAs (Decidable (_ ∧ _))

theorem trimStart_dropWhile_isSpace (line : List Char) : trimStart (line.dropWhile isSpace) = trimStart line := by
  induction line with
  | nil => rfl
  | cons c rest ih =>
    by_cases space : c = ' '
    · subst space
      exact ih
    · rw [List.dropWhile_cons_of_neg (by simpa [isSpace] using space)]

theorem afterMark?_eq_some_iff : afterMark? mark line = some rest ↔ line.dropWhile isSpace = mark.toList ++ rest := by
  rw [afterMark?, List.isPrefixOf?_eq_some_iff_append_eq, eq_comm]

theorem trimStart_of_afterMark? (isMark : IsMark mark) (marked : afterMark? mark line = some rest) :
    trimStart line = mark.toList ++ rest := by
  rw [← trimStart_dropWhile_isSpace, afterMark?_eq_some_iff.1 marked]
  refine trimStart_of_begins fun c begins => isMark.2.begins c ?_
  rwa [List.head?_append, Option.or_of_isSome (List.isSome_head?.2 isMark.1)] at begins

theorem trim_of_afterMark? (isMark : IsMark mark) (marked : afterMark? mark line = some rest) :
    trim line = mark.toList ++ trimEnd rest := by
  rw [trim, trimStart_of_afterMark? isMark marked, trimEnd_append isMark.2.ends]

/-- Whether a line begins with a mark does not depend on the blanks at its end. -/
theorem prefix_trim_iff (isMark : IsMark mark) : mark.toList <+: trim line ↔ mark.toList <+: trimStart line := by
  constructor
  · exact fun begins => begins.trans (List.rdropWhile_prefix isBlank _)
  · rintro ⟨rest, parts⟩
    rw [trim, ← parts, trimEnd_append isMark.2.ends]
    exact List.prefix_append _ _

/-! ### Lines that begin like a field -/

theorem isMark_of_mem_hiddenMarks : ∀ mark ∈ hiddenMarks, IsMark mark := by decide

theorem isHidden_trim_iff : isHidden (trim line) = true ↔ ∃ mark ∈ hiddenMarks, mark.toList <+: trimStart line := by
  rw [isHidden, List.any_eq_true]
  constructor
  · rintro ⟨mark, hides, begins⟩
    exact ⟨mark, hides, (prefix_trim_iff (isMark_of_mem_hiddenMarks mark hides)).1 (List.isPrefixOf_iff_prefix.1 begins)⟩
  · rintro ⟨mark, hides, begins⟩
    exact ⟨mark, hides, List.isPrefixOf_iff_prefix.2 ((prefix_trim_iff (isMark_of_mem_hiddenMarks mark hides)).2 begins)⟩

/-! ### Lines with the form of a field -/

def IsRead (line : List Char) : Prop :=
  parameterOfLine? line ≠ none ∨ returnTypeOfLine? line ≠ none ∨ returnedOfLine? line ≠ none

/-- The whole form of a field, from its mark on. -/
inductive IsField : List Char → Prop
  | parameter {spaces name type : List Char} (between : ∀ c ∈ spaces, isSpace c = true) (filled : name ≠ [])
      (word : ∀ c ∈ name, isWordChar c = true) : IsField (":type".toList ++ (spaces ++ (name ++ (": ".toList ++ type))))
  | returnType (type : List Char) : IsField (":rtype:".toList ++ type)
  | returned (text : List Char) : IsField (":return:".toList ++ text)

theorem not_isSpace_of_isWordChar {c : Char} (word : isWordChar c = true) : isSpace c = false := by
  rw [← Bool.not_eq_true]
  intro space
  rw [isSpace, decide_eq_true_eq] at space
  subst space
  cases word

/-- The name and what follows it are told from the spaces before the name. -/
theorem dropWhile_isSpace_named {spaces name : List Char} (between : ∀ c ∈ spaces, isSpace c = true)
    (filled : name ≠ []) (word : ∀ c ∈ name, isWordChar c = true) :
    (spaces ++ (name ++ rest)).dropWhile isSpace = name ++ rest := by
  obtain ⟨c, more, rfl⟩ := List.exists_cons_of_ne_nil filled
  exact dropWhile_run between (endsRun_cons.2 (not_isSpace_of_isWordChar (word c List.mem_cons_self)))

theorem parameterOfLine?_ne_none_iff : parameterOfLine? line ≠ none ↔
    ∃ spaces name type, (∀ c ∈ spaces, isSpace c = true) ∧ name ≠ [] ∧ (∀ c ∈ name, isWordChar c = true) ∧
      line.dropWhile isSpace = ":type".toList ++ (spaces ++ (name ++ (": ".toList ++ type))) := by
  constructor
  · intro read
    obtain ⟨field, found⟩ := Option.ne_none_iff_exists'.1 read
    simp only [parameterOfLine?, Option.bind_eq_bind, Option.bind_eq_some_iff] at found
    obtain ⟨rest, marked, type, named, given⟩ := found
    rw [List.isPrefixOf?_eq_some_iff_append_eq] at named
    split at given
    · cases given
    · rename_i filled
      refine ⟨rest.takeWhile isSpace, (rest.dropWhile isSpace).takeWhile isWordChar, type,
        fun c => List.mem_takeWhile_imp, filled, fun c => List.mem_takeWhile_imp, ?_⟩
      rw [afterMark?_eq_some_iff.1 marked, named, List.takeWhile_append_dropWhile, List.takeWhile_append_dropWhile]
  · rintro ⟨spaces, name, type, between, filled, word, form⟩
    have ends : EndsRun isWordChar (": ".toList ++ type) := endsRun_cons.2 rfl
    have typed : ": ".toList.isPrefixOf? (": ".toList ++ type) = some type :=
      List.isPrefixOf?_eq_some_iff_append_eq.2 rfl
    simp only [parameterOfLine?, afterMark?_eq_some_iff.2 form, Option.bind_eq_bind, Option.bind_some,
      dropWhile_isSpace_named between filled word, takeWhile_run word ends, dropWhile_run word ends, typed, if_neg filled]
    exact Option.some_ne_none _

theorem map_afterMark?_ne_none_iff {α : Type} {f : List Char → α} :
    (afterMark? mark line).map f ≠ none ↔ ∃ rest, line.dropWhile isSpace = mark.toList ++ rest := by
  rw [Ne, Option.map_eq_none_iff, ← Ne, Option.ne_none_iff_exists']
  exact exists_congr fun rest => afterMark?_eq_some_iff

theorem isRead_iff : IsRead line ↔ IsField (line.dropWhile isSpace) := by
  rw [IsRead, parameterOfLine?_ne_none_iff, returnTypeOfLine?, map_afterMark?_ne_none_iff, returnedOfLine?,
    map_afterMark?_ne_none_iff]
  constructor
  · rintro (⟨spaces, name, type, between, filled, word, form⟩ | ⟨type, form⟩ | ⟨text, form⟩)
    · exact form ▸ .parameter between filled word
    · exact form ▸ .returnType type
    · exact form ▸ .returned text
  · intro isField
    generalize line.dropWhile isSpace = written at isField
    cases isField with
    | parameter between filled word => exact .inl ⟨_, _, _, between, filled, word, rfl⟩
    | returnType type => exact .inr (.inl ⟨type, rfl⟩)
    | returned text => exact .inr (.inr ⟨text, rfl⟩)

theorem IsField.begins {written : List Char} (isField : IsField written) :
    ∃ mark ∈ hiddenMarks, mark.toList <+: written := by
  cases isField with
  | parameter _ _ _ => exact ⟨":type", by decide, List.prefix_append _ _⟩
  | returnType type => exact ⟨":rtype", by decide, ':' :: type, by simp⟩
  | returned text => exact ⟨":return", by decide, ':' :: text, by simp⟩

theorem IsField.trimStart_eq {written : List Char} (isField : IsField written) : trimStart written = written := by
  refine trimStart_of_begins fun c begins => ?_
  have colon : c = ':' := by cases isField <;> exact (Option.some.inj begins).symm
  rw [colon]
  rfl

theorem isHidden_of_isRead (read : IsRead line) : isHidden (trim line) = true := by
  have isField := isRead_iff.1 read
  rw [isHidden_trim_iff, ← trimStart_dropWhile_isSpace, isField.trimStart_eq]
  exact isField.begins

/-! ### The lines of a text -/

def hiddenLines (text : String) : List (List Char) := (text.toList.splitOn '\n').filter fun line => isHidden (trim line)

/-- Only hidden lines are read. -/
theorem filterMap_hiddenLines {α : Type} {f : List Char → Option α} (reads : ∀ line, f line ≠ none → IsRead line)
    (text : String) : (hiddenLines text).filterMap f = (text.toList.splitOn '\n').filterMap f := by
  rw [hiddenLines, List.filterMap_filter]
  refine List.filterMap_congr fun line _ => ?_
  split
  · rfl
  · rename_i visible
    by_contra other
    exact visible (isHidden_of_isRead (reads line (Ne.symm other)))

/-- The lines of a text that are hidden are those that begin like a field, and all that is recorded is read from them.
Behind spaces a line is read exactly if it has the whole form of a field. -/
theorem hidden_begins_like_field (text : String) :
    ((ofText text).parameters = (hiddenLines text).filterMap parameterOfLine? ∧
      (ofText text).returnTypes = (hiddenLines text).filterMap returnTypeOfLine? ∧
      (ofText text).returned = (hiddenLines text).filterMap returnedOfLine?) ∧
    ∀ line ∈ text.toList.splitOn '\n',
      (isHidden (trim line) = true ↔ ∃ mark ∈ hiddenMarks, mark.toList <+: trimStart line) ∧
      (IsRead line → isHidden (trim line) = true) ∧
      ((∀ c ∈ (line.dropWhile isSpace).head?, isBlank c = false) → (IsRead line ↔ IsField (trimStart line))) := by
  refine ⟨⟨?_, ?_, ?_⟩, fun line _ => ⟨isHidden_trim_iff, isHidden_of_isRead, fun indented => ?_⟩⟩
  · exact (filterMap_hiddenLines (fun _ read => .inl read) text).symm
  · exact (filterMap_hiddenLines (fun _ read => .inr (.inl read)) text).symm
  · exact (filterMap_hiddenLines (fun _ read => .inr (.inr read)) text).symm
  · rw [isRead_iff, ← trimStart_dropWhile_isSpace, trimStart_of_begins indented]

theorem tight_field_is_lost :
    ":type x:int".toList.splitOn '\n' = [":type x:int".toList] ∧ isHidden (trim ":type x:int".toList) = true ∧
      ¬ IsRead ":type x:int".toList ∧ ofText ":type x:int" = ⟨none, [], [], []⟩ := by
  refine ⟨by decide, by decide, ?_, by decide⟩
  unfold IsRead
  decide

end

/-! ### Type lines of documentation texts

A line about types is not shown, and it does not say what is returned. So texts that differ in such lines alone show
the same text and return the same values.
-/

section

variable {line : List Char}

def typeMarks : List String := [":type", ":rtype"]

def isTypeLine (line : List Char) : Bool := typeMarks.any fun mark => mark.toList.isPrefixOf (trim line)

/-- The texts have the same lines in the same order, but for lines about types. -/
def DifferInTypeLines (first second : String) : Prop :=
  ∃ lines others : List (List Char),
    first.toList = ['\n'].intercalate lines ∧ second.toList = ['\n'].intercalate others ∧
    (∀ line ∈ lines ++ others, ¬ '\n' ∈ line) ∧
    lines.filter (fun line => !isTypeLine line) = others.filter fun line => !isTypeLine line

theorem isHidden_of_isTypeLine (typeLine : isTypeLine line = true) : isHidden (trim line) = true := by
  obtain ⟨mark, isMark, begins⟩ := List.any_eq_true.1 typeLine
  have hidden : ∀ mark ∈ typeMarks, mark ∈ hiddenMarks := by decide
  exact List.any_eq_true.2 ⟨mark, hidden mark isMark, begins⟩

theorem returnedOfLine?_of_isTypeLine (typeLine : isTypeLine line = true) : returnedOfLine? line = none := by
  refine Option.map_eq_none_iff.2 ?_
  cases marked : afterMark? ":return:" line with
  | none => rfl
  | some rest =>
    -- The trimmed line would begin with two different marks.
    rw [isTypeLine, trim_of_afterMark? (by decide) marked] at typeLine
    cases typeLine

theorem shownLines_filter (lines : List (List Char)) :
    shownLines (lines.filter fun line => !isTypeLine line) = shownLines lines := by
  unfold shownLines
  rw [List.filter_map, List.filter_map, List.filter_filter]
  congr 1
  refine List.filter_congr fun line _ => ?_
  cases typeLine : isTypeLine line with
  | false => exact Bool.and_true _
  | true => simp [isHidden_of_isTypeLine typeLine]

theorem filterMap_returnedOfLine?_filter (lines : List (List Char)) :
    (lines.filter fun line => !isTypeLine line).filterMap returnedOfLine? = lines.filterMap returnedOfLine? := by
  rw [List.filterMap_filter]
  refine List.filterMap_congr fun line _ => ?_
  cases typeLine : isTypeLine line with
  | false => rfl
  | true => exact (returnedOfLine?_of_isTypeLine typeLine).symm

/-- What a text shows and returns is told by its lines, however they are given. A text without any line has an empty
one, which shows and returns nothing. -/
theorem ofText_lines {text : String} {lines : List (List Char)} (is : text.toList = ['\n'].intercalate lines)
    (whole : ∀ line ∈ lines, ¬ '\n' ∈ line) :
    (ofText text).text = shownText lines ∧ (ofText text).returned = lines.filterMap returnedOfLine? := by
  unfold ofText
  rw [is]
  cases lines with
  | nil => exact ⟨rfl, rfl⟩
  | cons line lines =>
    dsimp only
    rw [List.splitOn_intercalate '\n' whole (List.cons_ne_nil _ _)]
    exact ⟨rfl, rfl⟩

namespace DifferInTypeLines

variable {first second : String}

theorem text (differ : DifferInTypeLines first second) : (ofText first).text = (ofText second).text := by
  obtain ⟨lines, others, is, isSecond, whole, same⟩ := differ
  have shown : shownLines lines = shownLines others := by rw [← shownLines_filter, same, shownLines_filter]
  rw [(ofText_lines is fun line member => whole line (List.mem_append_left _ member)).1,
    (ofText_lines isSecond fun line member => whole line (List.mem_append_right _ member)).1, shownText, shown]
  rfl

theorem returned (differ : DifferInTypeLines first second) : (ofText first).returned = (ofText second).returned := by
  obtain ⟨lines, others, is, isSecond, whole, same⟩ := differ
  rw [(ofText_lines is fun line member => whole line (List.mem_append_left _ member)).2,
    (ofText_lines isSecond fun line member => whole line (List.mem_append_right _ member)).2,
    ← filterMap_returnedOfLine?_filter, same, filterMap_returnedOfLine?_filter]

end DifferInTypeLines

end

/-! ### The shown text of documentation

What is shown of a text is its trimmed lines without those that begin like a field and without the empty ones at both
ends. Nothing in it is hidden or read again, so it is documentation that shows itself.
-/

section

variable {text shown : String} {lines : List (List Char)} {line : List Char}

def keptLines (text : String) : List (List Char) := stripped List.isEmpty (shownLines (text.toList.splitOn '\n'))

/-- A line that is shown as it is. -/
structure IsShown (line : List Char) : Prop where
  trimmed : IsStripped isBlank line
  whole : ¬ '\n' ∈ line
  visible : isHidden line = false

theorem isShown_of_mem_shownLines (whole : ∀ line ∈ lines, ¬ '\n' ∈ line) (member : line ∈ shownLines lines) :
    IsShown line := by
  obtain ⟨inside, kept⟩ := List.mem_filter.1 member
  obtain ⟨original, isLine, rfl⟩ := List.mem_map.1 inside
  exact ⟨isStripped_stripped isBlank original, fun ends => whole original isLine (stripped_subset isBlank _ ends),
    by simpa using kept⟩

theorem isShown_of_mem_keptLines (member : line ∈ keptLines text) : IsShown line :=
  isShown_of_mem_shownLines (fun _ => not_mem_of_mem_splitOn) (stripped_subset _ _ member)

theorem text_eq_some_iff :
    (ofText text).text = some shown ↔ shown.toList = ['\n'].intercalate (keptLines text) ∧ shown ≠ "" := by
  have trimmed : ∀ line ∈ shownLines (text.toList.splitOn '\n'), IsStripped isBlank line :=
    fun line member => (isShown_of_mem_shownLines (fun _ => not_mem_of_mem_splitOn) member).trimmed
  simp only [ofText, shownText, trim_intercalate trimmed, keptLines]
  rw [Ne, ← String.toList_eq_nil_iff]
  split
  · rename_i isEmpty
    rw [isEmpty]
    simp
  · rename_i filled
    rw [Option.some_inj, ← String.toList_inj, String.toList_ofList, eq_comm (b := shown.toList)]
    exact ⟨fun same => ⟨same, same ▸ filled⟩, And.left⟩

/-! ### Shown lines once more -/

theorem shownLines_of_isShown (shown : ∀ line ∈ lines, IsShown line) : shownLines lines = lines := by
  have same : lines.map trim = lines :=
    (List.map_congr_left fun line member => (shown line member).trimmed.stripped_eq).trans (List.map_id _)
  rw [shownLines, same, List.filter_eq_self]
  intro line member
  rw [(shown line member).visible]
  rfl

section
variable (isShown : (ofText text).text = some shown)
include isShown

theorem lines_of_shown : shown.toList.splitOn '\n' = keptLines text := by
  obtain ⟨is, filled⟩ := text_eq_some_iff.1 isShown
  have kept : keptLines text ≠ [] := by
    intro isEmpty
    rw [isEmpty] at is
    exact filled (String.toList_eq_nil_iff.1 is)
  rw [is, List.splitOn_intercalate '\n' (fun line member => (isShown_of_mem_keptLines member).whole) kept]

theorem keptLines_of_shown : keptLines shown = keptLines text := by
  rw [keptLines, lines_of_shown isShown, shownLines_of_isShown fun line => isShown_of_mem_keptLines]
  exact (isStripped_stripped _ _).stripped_eq

theorem hiddenLines_of_shown : hiddenLines shown = [] := by
  rw [hiddenLines, List.filter_eq_nil_iff]
  intro line member
  have kept := isShown_of_mem_keptLines (lines_of_shown isShown ▸ member)
  rw [trim_eq_stripped, kept.trimmed.stripped_eq, kept.visible]
  exact Bool.false_ne_true

theorem ofText_of_shown : ofText shown = ⟨some shown, [], [], []⟩ := by
  have shownAgain : (ofText shown).text = some shown := by
    rw [text_eq_some_iff, keptLines_of_shown isShown]
    exact text_eq_some_iff.1 isShown
  have nothing : ∀ {α : Type} {f : List Char → Option α}, (∀ line, f line ≠ none → IsRead line) →
      (shown.toList.splitOn '\n').filterMap f = [] := by
    intro α f reads
    rw [← filterMap_hiddenLines reads, hiddenLines_of_shown isShown, List.filterMap_nil]
  have parameters : (ofText shown).parameters = [] := nothing fun _ => .inl
  have returnTypes : (ofText shown).returnTypes = [] := nothing fun _ read => .inr (.inl read)
  have returned : (ofText shown).returned = [] := nothing fun _ read => .inr (.inr read)
  calc ofText shown
    _ = ⟨(ofText shown).text, (ofText shown).parameters, (ofText shown).returnTypes, (ofText shown).returned⟩ := rfl
    _ = ⟨some shown, [], [], []⟩ := by rw [shownAgain, parameters, returnTypes, returned]

/-- The shown text is documentation that shows itself and says nothing else. It is made of trimmed lines, the first and
the last of which are not empty: those lines of the text that do not begin like a field, in their order. -/
theorem shown_text_shows_itself :
    ofText shown = ⟨some shown, [], [], []⟩ ∧ shown ≠ "" ∧
      (∀ line ∈ shown.toList.splitOn '\n', IsStripped isBlank line) ∧
      IsStripped List.isEmpty (shown.toList.splitOn '\n') ∧
      shown.toList.splitOn '\n' = stripped List.isEmpty (shownLines (text.toList.splitOn '\n')) := by
  have lines := lines_of_shown isShown
  refine ⟨ofText_of_shown isShown, (text_eq_some_iff.1 isShown).2, ?_, ?_, lines⟩
  · exact fun line member => (isShown_of_mem_keptLines (lines ▸ member)).trimmed
  · exact lines ▸ isStripped_stripped _ _

end

def mixedText : String := "  Says.\r\n\n\t:type x int\n Tells\rmore. \n  :rtype: int\n"

theorem mixedText_shows_itself :
    (ofText mixedText).text = some "Says.\n\nTells\rmore." ∧
      ofText "Says.\n\nTells\rmore." = ⟨some "Says.\n\nTells\rmore.", [], [], []⟩ := by
  have isShown : (ofText mixedText).text = some "Says.\n\nTells\rmore." := by decide
  exact ⟨isShown, (shown_text_shows_itself isShown).1⟩

end

end TypedStub.Documentation

import TypedStub.Proofs.Lists
import TypedStub.Stub

/-! Docstrings in the text of a stub.

A docstring stands in lines that are indented like its statement. It is read back from these lines and from whatever
follows them.
-/

set_option autoImplicit false

namespace TypedStub.Stub

theorem toList_textOfLines (lines : List String) :
    (textOfLines lines).toList = lines.flatMap fun line => line.toList ++ ['\n'] := by
  simp [textOfLines, String.toList_join, List.flatMap_map]

theorem textOfLines_append (first second : List String) :
    textOfLines (first ++ second) = textOfLines first ++ textOfLines second := by
  simp [textOfLines]

theorem toList_indentation (level : Nat) : (indentation level).toList = List.replicate (4 * level) ' ' :=
  String.toList_ofList

theorem toList_indented (level : Nat) (line : String) :
    (indented level line).toList = if line.toList = [] then [] else List.replicate (4 * level) ' ' ++ line.toList := by
  simp only [indented, String.toList_eq_nil_iff]
  split
  · rfl
  · rw [String.toList_append, toList_indentation]

end TypedStub.Stub

/-! ### Reading a docstring back

A reader takes a docstring from its opening quotes on and ends it at the first three bare quotes in a row. In what
a stub writes those are the last ones, and the text before them is the text that was written, except that every
line but the first stands behind the indentation of its statement.
-/

namespace TypedStub.Text.Docstring

def quotes : List Char := ['"', '"', '"']

/-- Read on inside a docstring: the text up to the closing quotes, and what follows them. A backslash takes the
next character for itself, which has to be a backslash or a quote. -/
def readInside? : List Char → Option (List Char × List Char)
  | [] => none
  | '\\' :: rest =>
    match rest with
    | '\\' :: rest => (readInside? rest).map fun read => ('\\' :: read.1, read.2)
    | '"' :: rest => (readInside? rest).map fun read => ('"' :: read.1, read.2)
    | _ => none
  | '"' :: '"' :: '"' :: rest => some ([], rest)
  | c :: rest => (readInside? rest).map fun read => (c :: read.1, read.2)

def read? (text : List Char) : Option (List Char × List Char) := (quotes.isPrefixOf? text).bind readInside?

def spaces (level : Nat) : List Char := List.replicate (4 * level) ' '

/-- A line without the indentation of a level, which an empty line does not have. -/
def outdentLine? (level : Nat) (line : List Char) : Option (List Char) :=
  if line = [] then some [] else (spaces level).isPrefixOf? line

def outdent? (level : Nat) (text : List Char) : Option (List Char) :=
  match text.splitOn '\n' with
  | [] => none
  | first :: rest => (rest.mapM (outdentLine? level)).map fun rest => ['\n'].intercalate (first :: rest)

/-- A text with the indentation of a level before all its lines but the first and the empty ones. What follows the
text stands on its last line, so that line is not empty. -/
def indentRest (level : Nat) : List Char → List Char
  | [] => []
  | c :: rest =>
    if c = '\n' ∧ rest.head? ≠ some '\n' then '\n' :: (spaces level ++ indentRest level rest)
    else c :: indentRest level rest

variable {level : Nat}

theorem indentRest_cons {c : Char} (notEnd : c ≠ '\n') (rest : List Char) :
    indentRest level (c :: rest) = c :: indentRest level rest := by
  simp [indentRest, notEnd]

theorem indentRest_append_cons {c : Char} (notEnd : c ≠ '\n') (text rest : List Char) :
    indentRest level (text ++ c :: rest) = indentRest level text ++ c :: indentRest level rest := by
  induction text with
  | nil => exact indentRest_cons notEnd rest
  | cons head tail ih =>
    have next : (tail ++ c :: rest).head? = some '\n' ↔ tail.head? = some '\n' := by
      cases tail <;> simp [notEnd]
    simp only [List.cons_append, indentRest, ih, next, ne_eq]
    split <;> simp

theorem piece_eq_nil_iff {c first : List Char} {head : Char} {rest : List (List Char)}
    (cut : (head :: c).splitOn '\n' = first :: rest) : first = [] ↔ head = '\n' := by
  by_cases same : head = '\n'
  · rw [same, splitOn_cons_self] at cut
    simp [same, ← (List.cons.inj cut).1]
  · obtain ⟨piece, later, cutRest⟩ := List.exists_cons_of_ne_nil (List.splitOn_ne_nil '\n' c)
    rw [splitOn_cons_of_ne same cutRest] at cut
    simp [same, ← (List.cons.inj cut).1]

/-! ### What is written -/

def indentedLines (level : Nat) (lines : List (List Char)) : List Char :=
  lines.flatMap fun line => (if line = [] then [] else spaces level ++ line) ++ ['\n']

theorem indentedLines_splitOn {text : List Char} {last : Char} (notEnd : last ≠ '\n') {first : List Char}
    {rest : List (List Char)} (cut : (text ++ [last]).splitOn '\n' = first :: rest) :
    first ++ '\n' :: indentedLines level rest = indentRest level (text ++ [last]) ++ ['\n'] := by
  -- The text is taken character by character, with the line that the rest begins with; the last line is not empty.
  induction text generalizing first rest with
  | nil =>
    rw [List.nil_append, splitOn_cons_of_ne notEnd (List.splitOn_nil '\n')] at cut
    cases cut
    simp [indentedLines, indentRest, notEnd]
  | cons c text ih =>
    obtain ⟨head, tail, tailEq⟩ := List.exists_cons_of_ne_nil (List.append_ne_nil_of_right_ne_nil text
      (List.cons_ne_nil last []))
    obtain ⟨piece, later, cutRest⟩ := List.exists_cons_of_ne_nil (List.splitOn_ne_nil '\n' (text ++ [last]))
    have written := ih cutRest
    rw [List.cons_append] at cut
    by_cases ends : c = '\n'
    · rw [ends, splitOn_cons_self, cutRest] at cut
      cases cut
      rw [tailEq] at cutRest
      by_cases next : head = '\n'
      · -- The next line is empty, and has no indentation.
        have isEmpty : piece = [] := (piece_eq_nil_iff cutRest).2 next
        simpa [indentRest, indentedLines, ends, tailEq, next, isEmpty] using written
      · have filled : piece ≠ [] := fun isEmpty => next ((piece_eq_nil_iff cutRest).1 isEmpty)
        simpa [indentRest, indentedLines, ends, tailEq, next, filled] using written
    · rw [splitOn_cons_of_ne ends cutRest] at cut
      cases cut
      rw [List.cons_append, List.cons_append, indentRest_cons ends, List.cons_append, written]

/-! ### What is read -/

theorem readInside?_plain {c : Char} (notSlash : c ≠ '\\') (notQuote : c ≠ '"') (rest : List Char) :
    readInside? (c :: rest) = (readInside? rest).map fun read => (c :: read.1, read.2) := by
  rw [readInside?.eq_def]
  split
  · rename_i impossible
    cases impossible
  · rename_i same
    cases same
    exact absurd rfl notSlash
  · rename_i same
    cases same
    exact absurd rfl notQuote
  · rename_i same
    cases same
    rfl

/-- A quote that no other quote follows stands for itself. -/
theorem readInside?_quote {rest : List Char} (alone : rest.head? ≠ some '"') :
    readInside? ('"' :: rest) = (readInside? rest).map fun read => ('"' :: read.1, read.2) := by
  rw [readInside?.eq_def]
  split
  · rename_i impossible
    cases impossible
  · rename_i same
    cases same
  · rename_i same
    cases same
    simp at alone
  · rename_i same
    cases same
    rfl

theorem readInside?_spaces (n : Nat) (rest : List Char) :
    readInside? (List.replicate n ' ' ++ rest) =
      (readInside? rest).map fun read => (List.replicate n ' ' ++ read.1, read.2) := by
  induction n with
  | zero => simp
  | succ n ih =>
    rw [List.replicate_succ, List.cons_append, readInside?_plain (by decide) (by decide), ih, Option.map_map]
    rfl

theorem escapeAfter_plain {c : Char} (notSlash : c ≠ '\\') (notQuote : c ≠ '"') (before : Option Char)
    (rest : List Char) : escapeAfter before (c :: rest) = c :: escapeAfter (some c) rest := by
  rw [escapeAfter.eq_def]
  split
  · rename_i impossible
    cases impossible
  · rename_i same
    cases same
    exact absurd rfl notSlash
  · rename_i same
    cases same
    exact absurd rfl notQuote
  · rename_i same
    cases same
    rfl

theorem escapeAfter_ne_nil {before : Option Char} {text : List Char} (filled : text ≠ []) :
    escapeAfter before text ≠ [] := by
  rw [escapeAfter.eq_def]
  split
  · exact absurd rfl filled
  · simp
  · split <;> simp
  · simp

/-- An escaped text begins with a backslash or as the text does. -/
theorem head?_of_escapeAfter {before : Option Char} {text : List Char} {c : Char} (notSlash : c ≠ '\\')
    (head : (escapeAfter before text).head? = some c) : text.head? = some c := by
  rw [escapeAfter.eq_def] at head
  split at head
  · exact head
  · exact absurd (Option.some.inj head).symm notSlash
  · split at head
    · exact absurd (Option.some.inj head).symm notSlash
    · exact head
  · exact head

theorem escapeAfter_begins_lineEnd (before : Option Char) (text : List Char) :
    (escapeAfter before text).head? = some '\n' ↔ text.head? = some '\n' := by
  constructor
  · exact head?_of_escapeAfter (by decide)
  · intro head
    obtain ⟨rest, rfl⟩ := List.head?_eq_some_iff.1 head
    rw [escapeAfter_plain (by decide) (by decide)]
    rfl

theorem head?_indentRest (text : List Char) : (indentRest level text).head? = text.head? := by
  cases text with
  | nil => rfl
  | cons c rest =>
    unfold indentRest
    split
    · rename_i ends
      rw [ends.1]
      rfl
    · rfl

/-- The escaped text is read back up to the closing quotes, wherever its lines are indented. -/
theorem readInside?_escapeAfter (before : Option Char) (text later : List Char) :
    readInside? (indentRest level (escapeAfter before text) ++ (quotes ++ later)) =
      some (indentRest level text, later) := by
  induction text generalizing before with
  | nil => rfl
  | cons c rest ih =>
    by_cases isSlash : c = '\\'
    · subst isSlash
      rw [escapeAfter, indentRest_cons (by decide), indentRest_cons (by decide), indentRest_cons (by decide),
        List.cons_append, List.cons_append, readInside?, ih]
      rfl
    by_cases isQuote : c = '"'
    · subst isQuote
      rw [escapeAfter, indentRest_cons (by decide)]
      split
      · rw [indentRest_cons (by decide), indentRest_cons (by decide), List.cons_append, List.cons_append,
          readInside?, ih]
        rfl
      · rename_i bare
        simp only [not_or] at bare
        -- A bare quote is followed by a character of the text, which is not a quote.
        have alone : (indentRest level (escapeAfter (some '"') rest) ++ (quotes ++ later)).head? ≠ some '"' := by
          intro head
          obtain ⟨next, others, escaped⟩ := List.exists_cons_of_ne_nil (@escapeAfter_ne_nil (some '"') rest bare.2.2)
          rw [List.head?_append, head?_indentRest, escaped, List.head?_cons, Option.some_or] at head
          refine bare.2.1 (@head?_of_escapeAfter (some '"') rest '"' (by decide) ?_)
          rw [escaped]
          exact head
        rw [indentRest_cons (by decide), List.cons_append, readInside?_quote alone, ih]
        rfl
    · rw [escapeAfter_plain isSlash isQuote]
      simp only [indentRest, ne_eq, escapeAfter_begins_lineEnd]
      split
      · rw [List.cons_append, List.append_assoc, readInside?_plain (by decide) (by decide), spaces,
          readInside?_spaces, ih]
        rfl
      · rw [List.cons_append, readInside?_plain isSlash isQuote, ih]
        rfl

theorem outdentLine?_spaces (line : List Char) : outdentLine? level (spaces level ++ line) = some line := by
  unfold outdentLine?
  split
  · rename_i isEmpty
    rw [(List.append_eq_nil_iff.1 isEmpty).2]
  · exact List.isPrefixOf?_eq_some_iff_append_eq.2 rfl

theorem mapM_outdentLine? (level : Nat) (text : List Char) : ∃ first rest indented,
    text.splitOn '\n' = first :: rest ∧ (indentRest level text).splitOn '\n' = first :: indented ∧
    indented.mapM (outdentLine? level) = some rest := by
  induction text with
  | nil => exact ⟨[], [], [], rfl, rfl, rfl⟩
  | cons c text ih =>
    obtain ⟨first, rest, indented, cut, cutIndented, outdented⟩ := ih
    rw [indentRest]
    by_cases ends : c = '\n'
    · subst ends
      rw [splitOn_cons_self, cut]
      by_cases next : text.head? = some '\n'
      · rw [if_neg (fun both => both.2 next), splitOn_cons_self, cutIndented]
        refine ⟨[], first :: rest, first :: indented, rfl, rfl, ?_⟩
        obtain ⟨later, rfl⟩ := List.head?_eq_some_iff.1 next
        have isEmpty : first = [] := (piece_eq_nil_iff cut).2 rfl
        simp [isEmpty, outdented, outdentLine?]
      · have absent : ¬ '\n' ∈ spaces level := by simp [spaces]
        rw [if_pos ⟨rfl, next⟩, splitOn_cons_self, splitOn_append_left absent cutIndented]
        refine ⟨[], first :: rest, (spaces level ++ first) :: indented, rfl, rfl, ?_⟩
        simp [outdented, outdentLine?_spaces]
    · rw [if_neg fun both => ends both.1]
      exact ⟨c :: first, rest, indented, splitOn_cons_of_ne ends cut, splitOn_cons_of_ne ends cutIndented, outdented⟩

theorem outdent?_indentRest (level : Nat) (text : List Char) : outdent? level (indentRest level text) = some text := by
  obtain ⟨first, rest, indented, cut, cutIndented, outdented⟩ := mapM_outdentLine? level text
  rw [outdent?, cutIndented]
  simp only [outdented, Option.map_some]
  rw [← cut, List.intercalate_splitOn]

end TypedStub.Text.Docstring

namespace TypedStub.Stub

open Text.Docstring

theorem toList_indented_lines (level : Nat) (text : String) :
    (textOfLines ((Text.lines text).map (indented level))).toList = indentedLines level (text.toList.splitOn '\n') := by
  rw [toList_textOfLines, Text.lines, List.map_map, List.flatMap_map]
  simp only [Function.comp_apply, toList_indented, String.toList_ofList]
  rfl

theorem indentRest_quoted (level : Nat) (text : List Char) :
    indentRest level (quotes ++ text ++ ['"', '"'] ++ ['"']) = quotes ++ (indentRest level text ++ quotes) := by
  have opening : ∀ rest, indentRest level (quotes ++ rest) = quotes ++ indentRest level rest := by
    intro rest
    simp only [quotes, List.cons_append, List.nil_append, indentRest_cons (show '"' ≠ '\n' by decide)]
  rw [List.append_assoc, List.append_assoc, opening, List.cons_append, indentRest_append_cons (by decide),
    List.cons_append, indentRest_cons (by decide), List.nil_append, indentRest_cons (by decide), indentRest]
  rfl

theorem toList_docstring_lines (level : Nat) (text : String) :
    (textOfLines ((Statement.docstring text).lines level)).toList = spaces level ++
      (quotes ++ (indentRest level (escapeAfter none text.toList) ++ (quotes ++ ['\n']))) := by
  have whole : ("\"\"\"" ++ escape text ++ "\"\"\"").toList =
      quotes ++ escapeAfter none text.toList ++ ['"', '"'] ++ ['"'] := by
    simp [escape, quotes]
  obtain ⟨first, rest, cut⟩ := List.exists_cons_of_ne_nil
    (List.splitOn_ne_nil '\n' (quotes ++ escapeAfter none text.toList ++ ['"', '"'] ++ ['"']))
  have begins : first ≠ [] := fun isEmpty => absurd ((piece_eq_nil_iff cut).1 isEmpty) (by decide)
  have written : first ++ '\n' :: indentedLines level rest = _ := indentedLines_splitOn (by decide) cut
  rw [indentRest_quoted] at written
  calc (textOfLines ((Statement.docstring text).lines level)).toList
    _ = indentedLines level (first :: rest) := by
      rw [Statement.lines, docstringLines, toList_indented_lines, whole, cut]
    _ = spaces level ++ (first ++ '\n' :: indentedLines level rest) := by
      simp [indentedLines, begins]
    _ = _ := by
      rw [written, List.append_assoc, List.append_assoc]

/-- A docstring as it stands in a stub is read from its opening quotes exactly up to the closing ones, which end its
last line. What is read is the text, once the indentation of the statement is taken from all lines but the first. -/
theorem read_docstring (level : Nat) (text : String) : ∃ written content,
    (textOfLines ((Statement.docstring text).lines level)).toList = spaces level ++ written ∧
    (∀ later, read? (written ++ later) = some (content, '\n' :: later)) ∧
    outdent? level content = some text.toList := by
  refine ⟨_, _, toList_docstring_lines level text, fun later => ?_, outdent?_indentRest level text.toList⟩
  rw [List.append_assoc, List.append_assoc, List.append_assoc, read?, List.isPrefixOf?_eq_some_iff_append_eq.2 rfl]
  exact readInside?_escapeAfter none text.toList ('\n' :: later)

end TypedStub.Stub

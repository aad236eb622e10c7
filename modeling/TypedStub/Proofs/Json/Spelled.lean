import Mathlib.Data.List.Chain
import TypedStub.Proofs.Json.Lexemes
import TypedStub.Proofs.Json.Written

/-! The texts of JSON values.

A text stands for a value if it is made of the texts of its tokens, with gaps between them. The grammar does not say
where a number or a word ends: next to it stands a gap, a mark or the end, for no two scalars of a value are neighbours.
-/

set_option autoImplicit false

namespace TypedStub.Json

open Text Token

def marks : List (Token × Char) :=
  [(.openBrace, '\x7b'), (.closeBrace, '\x7d'), (.openBracket, '['), (.closeBracket, ']'), (.colon, ':'), (.comma, ',')]

def words : List (Json × List Char) :=
  [(.null, ['n', 'u', 'l', 'l']), (.bool true, ['t', 'r', 'u', 'e']), (.bool false, ['f', 'a', 'l', 's', 'e'])]

/-- The text of a token. A string in which half of a surrogate pair is missing stands for no text. -/
inductive Lexeme : Token → List Char → Prop where
  | mark {token : Token} {c : Char} : (token, c) ∈ marks → Lexeme token [c]
  | word {value : Json} {text : List Char} : (value, text) ∈ words → Lexeme (.scalar value) text
  | number {value : Json} {text : List Char} : SpellsNumber value text → Lexeme (.scalar value) text
  | string {value : Option String} {pieces : List Piece} {text : List Char} : SpellsPieces pieces text →
      (∀ chars, value.map String.toList = some chars ↔ StandFor pieces chars) →
      Lexeme (.scalar (.text value)) ('"' :: (text ++ ['"']))

def IsGap (text : List Char) : Prop := ∀ c ∈ text, c ∈ [' ', '\t', '\n', '\r']

inductive Spelled : List Token → List Char → Prop where
  | done {gap : List Char} : IsGap gap → Spelled [] gap
  | token {gap lexeme rest : List Char} {token : Token} {tokens : List Token} :
      IsGap gap → Lexeme token lexeme → Spelled tokens rest → Spelled (token :: tokens) (gap ++ (lexeme ++ rest))

/-- A text that stands for a value. -/
def IsTextOf (text : String) (value : Json) : Prop := ∃ tokens, Spelled tokens text.toList ∧ Written value tokens

/-! ### Neighbours -/

def Token.IsScalar : Token → Prop
  | .scalar _ => True
  | _ => False

/-- No two scalars stand side by side. -/
def Separated (tokens : List Token) : Prop := tokens.IsChain fun first second => ¬ (first.IsScalar ∧ second.IsScalar)

section
variable {mark token : Token} {first rest tokens : List Token}

theorem Separated.cons (separated : Separated rest) (isMark : ¬ mark.IsScalar) : Separated (mark :: rest) :=
  List.isChain_cons.2 ⟨fun _ _ both => isMark both.1, separated⟩

theorem Separated.append (separated : Separated first) (isMark : ¬ mark.IsScalar) (later : Separated rest) :
    Separated (first ++ mark :: rest) := by
  refine List.isChain_append.2 ⟨separated, later.cons isMark, fun _ _ second next both => isMark ?_⟩
  cases next
  exact both.2

end

mutual

theorem separated_of_written {value : Json} {tokens : List Token} (written : Written value tokens) : Separated tokens := by
  match written with
  | .scalar => exact .singleton _
  | .noItems | .noFields => exact .cons (.singleton _) id
  | .array items => exact .cons ((separated_of_writtenItems items).append id .nil) id
  | .object fields => exact .cons ((separated_of_writtenFields fields).append id .nil) id

theorem separated_of_writtenItems {items : List Json} {tokens : List Token} (written : WrittenItems items tokens) :
    Separated tokens := by
  match written with
  | .last item => exact separated_of_written item
  | .next item others => exact (separated_of_written item).append id (separated_of_writtenItems others)

theorem separated_of_writtenFields {fields : List (Option String × Json)} {tokens : List Token}
    (written : WrittenFields fields tokens) : Separated tokens := by
  match written with
  | .last _ value => exact .append (.singleton _) id (separated_of_written value)
  | .next _ value others =>
    exact .append (.singleton _) id ((separated_of_written value).append id (separated_of_writtenFields others))

end

/-! ### Cutting a text into tokens -/

section
variable {c : Char} {gap lexeme text rest : List Char} {token : Token} {tokens : List Token} {value : Json}

theorem isGap_eq_true_iff : isGap c = true ↔ c ∈ [' ', '\t', '\n', '\r'] := by
  simp [isGap, or_assoc]

theorem mark?_eq_some_iff : mark? c = some token ↔ (token, c) ∈ marks := by
  by_cases known : c ∈ marks.map Prod.snd
  · simp only [marks, List.map_cons, List.map_nil, List.mem_cons, List.not_mem_nil, or_false] at known
    rcases known with rfl | rfl | rfl | rfl | rfl | rfl <;> simp [mark?, marks, eq_comm]
  · have absent : ¬ (token, c) ∈ marks := fun member => known (List.mem_map_of_mem member)
    simp only [marks, List.map_cons, List.map_nil, List.mem_cons, List.not_mem_nil, or_false, not_or] at known
    simp [mark?, known, absent]

theorem word?_eq_some_iff : word? text = some value ↔ (value, text) ∈ words := by
  have unfolded : word? text = if text = ['n', 'u', 'l', 'l'] then some .null
      else if text = ['t', 'r', 'u', 'e'] then some (.bool true)
      else if text = ['f', 'a', 'l', 's', 'e'] then some (.bool false) else none := rfl
  by_cases known : text ∈ words.map Prod.snd
  · simp only [words, List.map_cons, List.map_nil, List.mem_cons, List.not_mem_nil, or_false] at known
    rcases known with rfl | rfl | rfl <;> simp [unfolded, words, eq_comm]
  · have absent : ¬ (value, text) ∈ words := fun member => known (List.mem_map_of_mem member)
    simp only [words, List.map_cons, List.map_nil, List.mem_cons, List.not_mem_nil, or_false, not_or] at known
    simp [unfolded, known, absent]

theorem scan?_gap (isGap : IsGap gap) : scan? (gap ++ rest) = scan? rest := by
  induction gap with
  | nil => rfl
  | cons c gap ih =>
    obtain ⟨first, others⟩ := List.forall_mem_cons.1 isGap
    rw [List.cons_append, scan?, if_pos (isGap_eq_true_iff.2 first), ih others]

/-- A text behind a number or a word, which has ended. -/
def EndsScalar (text : List Char) : Prop := EndsRun isNumberChar text ∧ EndsRun Char.isAlpha text

theorem scan?_mark (listed : (token, c) ∈ marks) : scan? (c :: rest) = (scan? rest).map (token :: ·) := by
  have signs : ∀ mark ∈ marks, ¬ isGap mark.2 = true ∧ mark.2 ≠ '"' ∧ ¬ (mark.2 = '-' ∨ mark.2.isDigit = true) ∧
      ¬ mark.2.isAlpha = true := by decide
  obtain ⟨notGap, notQuote, notNumber, notAlpha⟩ := signs _ listed
  rw [scan?, if_neg notGap, if_neg notQuote, if_neg notNumber, if_neg notAlpha, mark?_eq_some_iff.2 listed]
  cases scan? rest <;> rfl

theorem scan?_word (listed : (value, text) ∈ words) (ends : EndsScalar rest) :
    scan? (text ++ rest) = (scan? rest).map (.scalar value :: ·) := by
  have letters : ∀ word ∈ words, word.2 ≠ [] ∧ word.2.Forall fun c => ¬ isGap c = true ∧ c ≠ '"' ∧
      ¬ (c = '-' ∨ c.isDigit = true) ∧ c.isAlpha = true := by decide
  obtain ⟨filled, each⟩ := letters _ listed
  rw [List.forall_iff_forall_mem] at each
  obtain ⟨c, more, rfl⟩ := List.exists_cons_of_ne_nil filled
  obtain ⟨notGap, notQuote, notNumber, isAlpha⟩ := each c List.mem_cons_self
  have run : ∀ c ∈ more, c.isAlpha = true := fun c member => (each c (List.mem_cons_of_mem _ member)).2.2.2
  rw [List.cons_append, scan?, if_neg notGap, if_neg notQuote, if_neg notNumber, if_pos isAlpha,
    takeWhile_run run ends.2, dropWhile_run run ends.2, word?_eq_some_iff.2 listed]
  cases scan? rest <;> rfl

theorem scan?_number (spelled : SpellsNumber value text) (ends : EndsScalar rest) :
    scan? (text ++ rest) = (scan? rest).map (.scalar value :: ·) := by
  obtain ⟨c, more, rfl, begins, run⟩ := spelled.exists_cons
  have notGap : ¬ isGap c = true := by
    intro gap
    have gaps : [' ', '\t', '\n', '\r'].Forall fun c => ¬ (c = '-' ∨ c.isDigit = true) := by decide
    exact List.forall_iff_forall_mem.1 gaps c (isGap_eq_true_iff.1 gap) begins
  have notQuote : c ≠ '"' := by
    rintro rfl
    exact absurd begins (by decide)
  rw [List.cons_append, scan?, if_neg notGap, if_neg notQuote, if_pos begins,
    takeWhile_run run ends.1, dropWhile_run run ends.1, number?_eq_some_iff.2 spelled]
  cases scan? rest <;> rfl

theorem scan?_string {string : Option String} {pieces : List Piece} (spelled : SpellsPieces pieces text)
    (stand : ∀ chars, string.map String.toList = some chars ↔ StandFor pieces chars) :
    scan? ('"' :: (text ++ '"' :: rest)) = (scan? rest).map (.scalar (.text string) :: ·) := by
  have value := (string_eq_iff spelled).2 stand
  have read : readString (text ++ '"' :: rest) = some (pieces, rest) := readString_pieces spelled
  rw [scan?, if_neg (by decide), if_pos rfl]
  split
  · rename_i failed
    rw [read] at failed
    cases failed
  · rename_i found
    rw [read] at found
    cases found
    rw [value]

theorem scan?_lexeme (spelled : Lexeme token lexeme) (ends : token.IsScalar → EndsScalar rest) :
    scan? (lexeme ++ rest) = (scan? rest).map (token :: ·) := by
  cases spelled with
  | mark listed => exact scan?_mark listed
  | word listed => exact scan?_word listed (ends trivial)
  | number spelled => exact scan?_number spelled (ends trivial)
  | string spelled stand =>
    rw [List.cons_append, List.append_assoc]
    exact scan?_string spelled stand

theorem endsScalar_of_gap (gap : c ∈ [' ', '\t', '\n', '\r']) : EndsScalar (c :: rest) := by
  have gaps : [' ', '\t', '\n', '\r'].Forall fun c => isNumberChar c = false ∧ c.isAlpha = false := by decide
  obtain ⟨notNumber, notAlpha⟩ := List.forall_iff_forall_mem.1 gaps c gap
  exact ⟨endsRun_cons.2 notNumber, endsRun_cons.2 notAlpha⟩

theorem endsScalar_of_mark (listed : (token, c) ∈ marks) : EndsScalar (c :: rest) := by
  have signs : ∀ mark ∈ marks, isNumberChar mark.2 = false ∧ mark.2.isAlpha = false := by decide
  exact ⟨endsRun_cons.2 (signs _ listed).1, endsRun_cons.2 (signs _ listed).2⟩

theorem Spelled.endsScalar (spelled : Spelled tokens text) (isScalar : token.IsScalar)
    (separated : Separated (token :: tokens)) : EndsScalar text := by
  cases spelled with
  | done isGap =>
    cases text with
    | nil => exact ⟨endsRun_nil, endsRun_nil⟩
    | cons c gap => exact endsScalar_of_gap (isGap c List.mem_cons_self)
  | @token gap _ _ next _ isGap lexeme _ =>
    cases gap with
    | cons c gap => exact endsScalar_of_gap (isGap c List.mem_cons_self)
    | nil =>
      have isMark : ¬ next.IsScalar := fun both => (List.isChain_cons_cons.1 separated).1 ⟨isScalar, both⟩
      cases lexeme with
      | mark listed => exact endsScalar_of_mark listed
      | word | number | string => exact absurd trivial isMark

theorem scan?_of_spelled (spelled : Spelled tokens text) (separated : Separated tokens) : scan? text = some tokens := by
  -- The induction takes one token off, whose run ends where the text of the next one begins.
  induction spelled with
  | @done gap isGap =>
    rw [← List.append_nil gap, scan?_gap isGap, scan?]
  | token isGap lexeme rest ih =>
    rw [scan?_gap isGap, scan?_lexeme lexeme fun isScalar => rest.endsScalar isScalar separated,
      ih (List.isChain_cons.1 separated).2, Option.map_some]

theorem Spelled.cons (spelled : Spelled tokens text) (gap : c ∈ [' ', '\t', '\n', '\r']) : Spelled tokens (c :: text) := by
  cases spelled with
  | done isGap => exact .done (List.forall_mem_cons.2 ⟨gap, isGap⟩)
  | token isGap lexeme rest => exact .token (List.forall_mem_cons.2 ⟨gap, isGap⟩) lexeme rest

theorem Spelled.before (spelled : Spelled tokens rest) (own : Lexeme token text) :
    Spelled (token :: tokens) (text ++ rest) :=
  .token (List.forall_mem_nil _) own spelled

theorem spelled_of_scan? (scanned : scan? text = some tokens) : Spelled tokens text := by
  fun_induction scan? text generalizing tokens with
  | case1 =>
    cases scanned
    exact .done (List.forall_mem_nil _)
  | case2 c rest gap ih => exact (ih scanned).cons (isGap_eq_true_iff.1 gap)
  | case3 => cases scanned
  | case4 rest pieces later found _ _ ih =>
    obtain ⟨others, scannedLater, rfl⟩ := Option.map_eq_some_iff.1 scanned
    obtain ⟨body, spelled, rfl⟩ := spells_of_readString found
    have whole := (ih scannedLater).before (.string spelled ((string_eq_iff spelled).1 rfl))
    rwa [List.cons_append, List.append_assoc] at whole
  | case5 c rest _ _ begins ih =>
    obtain ⟨value, number, scanned⟩ := Option.bind_eq_some_iff.1 scanned
    obtain ⟨others, scannedLater, same⟩ := Option.bind_eq_some_iff.1 scanned
    cases same
    have whole := (ih scannedLater).before (.number (number?_eq_some_iff.1 number))
    rwa [List.cons_append, List.takeWhile_append_dropWhile] at whole
  | case6 c rest _ _ _ isAlpha ih =>
    obtain ⟨value, word, scanned⟩ := Option.bind_eq_some_iff.1 scanned
    obtain ⟨others, scannedLater, same⟩ := Option.bind_eq_some_iff.1 scanned
    cases same
    have whole := (ih scannedLater).before (.word (word?_eq_some_iff.1 word))
    rwa [List.cons_append, List.takeWhile_append_dropWhile] at whole
  | case7 c rest _ _ _ _ ih =>
    obtain ⟨token, mark, scanned⟩ := Option.bind_eq_some_iff.1 scanned
    obtain ⟨others, scannedLater, same⟩ := Option.bind_eq_some_iff.1 scanned
    cases same
    exact (ih scannedLater).before (.mark (mark?_eq_some_iff.1 mark))

end

/-- A text is read as the value that it stands for, and no other text is read. -/
theorem parse?_eq_some_iff {text : String} {value : Json} : parse? text = some value ↔ IsTextOf text value := by
  constructor
  · intro parsed
    obtain ⟨tokens, scanned, parsed⟩ := Option.bind_eq_some_iff.1 parsed
    obtain ⟨state, reads, finished⟩ := Option.bind_eq_some_iff.1 parsed
    unfold Reader.finish? at finished
    split at finished
    · cases finished
      exact ⟨tokens, spelled_of_scan? scanned, Reader.reads_iff.1 reads⟩
    · cases finished
  · rintro ⟨tokens, spelled, written⟩
    have reads := Reader.reads_iff.2 written
    unfold Reader.Reads at reads
    simp only [parse?, scan?_of_spelled spelled (separated_of_written written), Option.bind_eq_bind, Option.bind_some,
      reads]
    rfl

end TypedStub.Json

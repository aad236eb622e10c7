import Mathlib.Tactic.SplitIfs
import TypedStub.TypeTerm

/-! Cutting a text into tokens, one token after the other.

A text can be cut in two before any character that is no path character, and the tokens of the parts
are the tokens of the whole.
-/

set_option autoImplicit false

namespace TypedStub.TypeTerm.Token

/-- No run of path characters goes on into the text. -/
def EndsRun (text : List Char) : Prop := ∀ c rest, text = c :: rest → isPathChar c = false

theorem endsRun_nil : EndsRun [] := fun _ _ same => by cases same

theorem endsRun_cons {c : Char} (rest : List Char) (outside : isPathChar c = false) : EndsRun (c :: rest) := by
  intro head tail same
  cases same
  exact outside

theorem not_isPathChar_of_isGap {c : Char} (gap : isGap c = true) : isPathChar c = false := by
  simp only [isGap, Bool.or_eq_true, decide_eq_true_eq] at gap
  rcases gap with ((rfl | rfl) | rfl) | rfl <;> decide

theorem not_isGap_of_isPathChar {c : Char} (inside : isPathChar c = true) : isGap c = false := by
  cases gap : isGap c with
  | false => rfl
  | true =>
    rw [not_isPathChar_of_isGap gap] at inside
    cases inside

@[simp] theorem width_nil : width [] = 0 := rfl

@[simp] theorem width_cons (c : Char) (rest : List Char) : width (c :: rest) = c.utf8Size + width rest := rfl

theorem width_append (first second : List Char) : width (first ++ second) = width first + width second := by
  induction first with
  | nil => rw [List.nil_append, width_nil, Nat.zero_add]
  | cons c rest ih => rw [List.cons_append, width_cons, width_cons, ih, Nat.add_assoc]

theorem EndsRun.takeWhile {text : List Char} (ends : EndsRun text) : text.takeWhile isPathChar = [] := by
  cases text with
  | nil => rfl
  | cons c rest => simp [ends c rest rfl]

theorem EndsRun.dropWhile {text : List Char} (ends : EndsRun text) : text.dropWhile isPathChar = text := by
  cases text with
  | nil => rfl
  | cons c rest => simp [ends c rest rfl]

section
variable {start : Nat} {c : Char} {run rest first second : List Char}

theorem takeWhile_append_endsRun (ends : EndsRun second) :
    (first ++ second).takeWhile isPathChar = first.takeWhile isPathChar := by
  induction first with
  | nil => exact ends.takeWhile
  | cons c rest ih =>
    cases inside : isPathChar c with
    | false => simp [inside]
    | true => simp [inside, ih]

theorem dropWhile_append_endsRun (ends : EndsRun second) :
    (first ++ second).dropWhile isPathChar = first.dropWhile isPathChar ++ second := by
  induction first with
  | nil => exact ends.dropWhile
  | cons c rest ih =>
    cases inside : isPathChar c with
    | false => simp [inside]
    | true => simp [inside, ih]

@[simp] theorem scanFrom_nil : scanFrom start [] = [] := by rw [scanFrom]

theorem scanFrom_gap (gap : isGap c = true) :
    scanFrom start (c :: rest) = scanFrom (start + c.utf8Size) rest := by
  rw [scanFrom, if_pos gap]

theorem scanFrom_mark (notGap : isGap c = false) (outside : isPathChar c = false) :
    scanFrom start (c :: rest) = ofMark start c :: scanFrom (start + c.utf8Size) rest := by
  rw [scanFrom, if_neg (by simp [notGap]), if_neg (by simp [outside])]

theorem scanFrom_cons (inside : isPathChar c = true) :
    scanFrom start (c :: rest) = ofRun start (c :: rest.takeWhile isPathChar) ::
      scanFrom (start + width (c :: rest.takeWhile isPathChar)) (rest.dropWhile isPathChar) := by
  rw [scanFrom, if_neg (by simp [not_isGap_of_isPathChar inside]), if_pos inside]

theorem scanFrom_run (filled : run ≠ []) (inside : ∀ c ∈ run, isPathChar c = true) (ends : EndsRun rest) :
    scanFrom start (run ++ rest) = ofRun start run :: scanFrom (start + width run) rest := by
  cases run with
  | nil => exact absurd rfl filled
  | cons c tail =>
    have later : ∀ c ∈ tail, isPathChar c = true := fun c member => inside c (List.mem_cons_of_mem _ member)
    have taken : (tail ++ rest).takeWhile isPathChar = tail := by
      rw [List.takeWhile_append_of_pos later, ends.takeWhile, List.append_nil]
    have dropped : (tail ++ rest).dropWhile isPathChar = rest := by
      rw [List.dropWhile_append_of_pos later, ends.dropWhile]
    rw [List.cons_append, scanFrom_cons (inside c List.mem_cons_self), taken, dropped]

theorem scanFrom_append (ends : EndsRun second) :
    scanFrom start (first ++ second) = scanFrom start first ++ scanFrom (start + width first) second := by
  -- The induction is on the tokens of the first text. Only its last run could go on into the second one.
  fun_induction scanFrom start first with
  | case1 start => simp
  | case2 start c rest gap ih =>
    rw [List.cons_append, scanFrom_gap gap, ih, width_cons, Nat.add_assoc]
  | case3 start c rest notGap inside run ih =>
    rw [List.cons_append, scanFrom_cons inside, takeWhile_append_endsRun ends, dropWhile_append_endsRun ends,
      ih, List.cons_append]
    have whole : width (c :: rest) = width run + width (rest.dropWhile isPathChar) := by
      rw [← width_append, List.cons_append, List.takeWhile_append_dropWhile]
    rw [whole, Nat.add_assoc]
  | case4 start c rest notGap outside ih =>
    rw [List.cons_append, scanFrom_mark (by simpa using notGap) (by simpa using outside), ih, width_cons,
      List.cons_append, Nat.add_assoc]

end

@[simp] theorem lexeme_ofRun (start : Nat) (text : String) : (ofRun start text.toList).lexeme = text :=
  String.ofList_toList

/-- The path characters from one of them on. -/
theorem isPathChar_of_mem_run {c : Char} {rest : List Char} (inside : isPathChar c = true) :
    ∀ other ∈ c :: rest.takeWhile isPathChar, isPathChar other = true :=
  List.forall_mem_cons.2 ⟨inside, List.all_eq_true.1 List.all_takeWhile⟩

/-! ### Lexemes -/

/-- The characters that stand for a token, and the kind of the token. -/
inductive IsLexeme : (piece : List Char) → TokenKind → Prop where
  | or : IsLexeme ['o', 'r'] .or
  | path {run : List Char} (filled : run ≠ []) (inside : ∀ c ∈ run, isPathChar c = true)
      (notWord : run ≠ ['o', 'r']) : IsLexeme run .path
  | openBracket : IsLexeme ['['] .openBracket
  | closeBracket : IsLexeme [']'] .closeBracket
  | comma : IsLexeme [','] .comma
  | other {c : Char} (notGap : isGap c = false) (outside : isPathChar c = false) (notMark : c ∉ ['[', ']', ',']) :
      IsLexeme [c] .other

section
variable {start : Nat} {c : Char} {piece text : List Char} {kind : TokenKind} {token : Token}

theorem IsLexeme.ne_nil (lexeme : IsLexeme piece kind) : piece ≠ [] := by
  cases lexeme with
  | path filled => exact filled
  | or | openBracket | closeBracket | comma | other => exact List.cons_ne_nil _ _

theorem IsLexeme.ne_endOfText (lexeme : IsLexeme piece kind) : kind ≠ .endOfText := by
  cases lexeme <;> decide

theorem IsLexeme.of_path (lexeme : IsLexeme piece .path) :
    (∀ c ∈ piece, isPathChar c = true) ∧ piece ≠ ['o', 'r'] := by
  cases lexeme with
  | path _ inside notWord => exact ⟨inside, notWord⟩

theorem isLexeme_ofRun (filled : piece ≠ []) (inside : ∀ c ∈ piece, isPathChar c = true) :
    IsLexeme piece (ofRun start piece).kind := by
  unfold ofRun
  split_ifs with word
  · exact word ▸ .or
  · exact .path filled inside word

theorem isLexeme_ofMark (notGap : isGap c = false) (outside : isPathChar c = false) :
    IsLexeme [c] (ofMark start c).kind := by
  unfold ofMark markKind
  split_ifs with opens closes separates
  · exact opens ▸ .openBracket
  · exact closes ▸ .closeBracket
  · exact separates ▸ .comma
  · exact .other notGap outside (by simp [opens, closes, separates])

theorem isLexeme_of_mem_scanFrom (member : token ∈ scanFrom start text) :
    IsLexeme token.lexeme.toList token.kind := by
  fun_induction scanFrom start text with
  | case1 start => cases member
  | case2 start c rest gap ih => exact ih member
  | case3 start c rest notGap inside run ih =>
    rcases List.mem_cons.1 member with rfl | member
    · rw [ofRun, String.toList_ofList]
      exact isLexeme_ofRun (List.cons_ne_nil _ _) (isPathChar_of_mem_run inside)
    · exact ih member
  | case4 start c rest notGap outside ih =>
    rcases List.mem_cons.1 member with rfl | member
    · rw [ofMark, String.toList_ofList]
      exact isLexeme_ofMark (by simpa using notGap) (by simpa using outside)
    · exact ih member

/-- What the text of a token tells if the token is a path. -/
def Scanned (token : Token) : Prop :=
  token.kind = .path → (∀ c ∈ token.lexeme.toList, isPathChar c = true) ∧ token.lexeme ≠ "or"

theorem scanned_of_mem_scanFrom (member : token ∈ scanFrom start text) : token.Scanned := by
  intro isPath
  obtain ⟨inside, notWord⟩ := (isPath ▸ isLexeme_of_mem_scanFrom member).of_path
  refine ⟨inside, ?_⟩
  intro word
  rw [word] at notWord
  exact notWord (by decide)

end

end TypedStub.TypeTerm.Token

/-! ### Spans of tokens

The span of a token covers the lexeme of the token and nothing else. So both its ends lie between characters.
-/

namespace TypedStub.TypeTerm

namespace Span

open Token (width)

theorem exists_width_cons (c : Char) (tail : List Char) :
    ∃ size, width (c :: tail) = size + 1 ∧ c.utf8Size ≤ size + 1 ∧ size + 1 - c.utf8Size = width tail := by
  have positive := c.utf8Size_pos
  refine ⟨c.utf8Size - 1 + width tail, ?_, ?_, ?_⟩
  · rw [Token.width_cons]
    omega
  · omega
  · omega

theorem dropBytes_append (first rest : List Char) : dropBytes (width first) (first ++ rest) = some rest := by
  induction first with
  | nil => rw [Token.width_nil, List.nil_append, dropBytes]
  | cons c tail ih =>
    obtain ⟨size, whole, fits, left⟩ := exists_width_cons c tail
    rw [whole, List.cons_append, dropBytes, if_pos fits, left, ih]

theorem takeBytes_append (first rest : List Char) : takeBytes (width first) (first ++ rest) = some first := by
  induction first with
  | nil => rw [Token.width_nil, List.nil_append, takeBytes]
  | cons c tail ih =>
    obtain ⟨size, whole, fits, left⟩ := exists_width_cons c tail
    rw [whole, List.cons_append, takeBytes, if_pos fits, left, ih, Option.map_some]

theorem slice?_append (first middle rest : List Char) :
    slice? ⟨width first, width first + width middle⟩ (String.ofList (first ++ middle ++ rest)) =
      some (String.ofList middle) := by
  have length : width first + width middle - width first = width middle := by omega
  unfold slice?
  rw [if_pos (Nat.le_add_right _ _), String.toList_ofList, List.append_assoc, dropBytes_append, Option.bind_some, length,
    takeBytes_append, Option.map_some]

end Span

namespace Token

/-- Where the characters of a token stand in a text that begins at a byte offset. -/
def Covers (token : Token) (start : Nat) (text : List Char) : Prop :=
  ∃ first middle rest, text = first ++ middle ++ rest ∧
    token.span = ⟨start + width first, start + width first + width middle⟩ ∧ token.lexeme = String.ofList middle

theorem Covers.after {token : Token} {start : Nat} {text : List Char} (skipped : List Char)
    (covers : token.Covers (start + width skipped) text) : token.Covers start (skipped ++ text) := by
  obtain ⟨first, middle, rest, rfl, span, lexeme⟩ := covers
  refine ⟨skipped ++ first, middle, rest, by simp only [List.append_assoc], ?_, lexeme⟩
  rw [span, width_append, Nat.add_assoc, Nat.add_assoc]

theorem covers_of_mem_scanFrom {start : Nat} {text : List Char} {token : Token}
    (member : token ∈ scanFrom start text) : token.Covers start text := by
  fun_induction scanFrom start text with
  | case1 start => cases member
  | case2 start c rest gap ih => exact .after [c] (by simpa using ih member)
  | case3 start c rest notGap inside run ih =>
    have whole : c :: rest = run ++ rest.dropWhile isPathChar := by
      rw [List.cons_append, List.takeWhile_append_dropWhile]
    rw [whole]
    rcases List.mem_cons.1 member with rfl | member
    · exact ⟨[], run, rest.dropWhile isPathChar, rfl, rfl, rfl⟩
    · exact .after run (ih member)
  | case4 start c rest notGap outside ih =>
    rcases List.mem_cons.1 member with rfl | member
    · exact ⟨[], [c], rest, rfl, rfl, rfl⟩
    · exact .after [c] (by simpa using ih member)

/-- A token of a text stands where its span says. -/
theorem slice?_of_mem_scan {source : String} {token : Token} (member : token ∈ scan source) :
    token.span.slice? source = some token.lexeme := by
  have covers : token.Covers 0 source.toList := by
    rcases List.mem_append.1 member with inside | atEnd
    · exact covers_of_mem_scanFrom inside
    · obtain rfl := List.mem_singleton.1 atEnd
      exact ⟨source.toList, [], [], by simp, by simp [ofEnd], rfl⟩
  obtain ⟨first, middle, rest, whole, span, lexeme⟩ := covers
  have text : source = String.ofList (first ++ middle ++ rest) := by rw [← whole, String.ofList_toList]
  rw [text, span, lexeme, Nat.zero_add]
  exact Span.slice?_append first middle rest

end Token

end TypedStub.TypeTerm

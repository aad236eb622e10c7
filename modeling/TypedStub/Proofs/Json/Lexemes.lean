import TypedStub.Json
import TypedStub.Proofs.Binary64.Text

/-! The texts of tokens: marks, words, numbers and strings.

A string is spelled character by character, in short escapes, or by its UTF-16 units in base 16. A unit that is half of
a surrogate pair stands for no character, and so does a string with such a half alone.
-/

set_option autoImplicit false

namespace TypedStub.Json

open Decimal (IsDigits SpellsInt SpellsExponent)
open Token Text

/-! ### Numbers -/

/-- Digits without a zero before them. -/
def IsWhole (digits : List Char) : Prop := IsDigits digits ∧ (digits.head? = some '0' → digits = ['0'])

inductive SpellsFraction : List Char → List Char → Prop where
  | absent : SpellsFraction [] []
  | pointed {digits : List Char} : IsDigits digits → SpellsFraction digits ('.' :: digits)

/-- A number fits into 64 bits. Zero with a sign is no whole number. -/
def FitsInteger (negative : Bool) (magnitude : Nat) : Prop :=
  magnitude < UInt64.size ∧ (negative = true → 0 < magnitude ∧ magnitude ≤ UInt64.size / 2)

instance (negative : Bool) (magnitude : Nat) : Decidable (FitsInteger negative magnitude) :=
  inferInstanceAs (Decidable (_ ∧ _))

def signed (negative : Bool) (magnitude : Nat) : Int := if negative then -magnitude else magnitude

/-- What may follow the whole digits of a number. -/
inductive SpellsRest (negative : Bool) (whole : List Char) : Json → List Char → Prop where
  | integer : FitsInteger negative (Nat.ofDigitChars 10 whole 0) →
      SpellsRest negative whole (.integer (signed negative (Nat.ofDigitChars 10 whole 0))) []
  | large : ¬ FitsInteger negative (Nat.ofDigitChars 10 whole 0) →
      SpellsRest negative whole (.real (.ofDigits negative whole [] 0)) []
  | real {fraction fractionText exponentText : List Char} {shift : Int} :
      SpellsFraction fraction fractionText → SpellsExponent shift exponentText → fractionText ++ exponentText ≠ [] →
      SpellsRest negative whole (.real (.ofDigits negative whole fraction shift)) (fractionText ++ exponentText)

inductive SpellsUnsigned (negative : Bool) : Json → List Char → Prop where
  | mk {whole rest : List Char} {value : Json} : IsWhole whole → SpellsRest negative whole value rest →
      SpellsUnsigned negative value (whole ++ rest)

inductive SpellsNumber : Json → List Char → Prop where
  | positive {value : Json} {text : List Char} : SpellsUnsigned false value text → SpellsNumber value text
  | negative {value : Json} {text : List Char} : SpellsUnsigned true value text → SpellsNumber value ('-' :: text)

section
variable {negative : Bool} {digits run text rest : List Char} {value : Json}

theorem isWhole_eq_true_iff : isWhole digits = true ↔ IsWhole digits := by
  unfold isWhole
  split
  · simp [IsWhole, IsDigits]
  · simp [IsWhole, IsDigits]
  · rename_i c rest notZero
    by_cases zero : c = '0'
    · have longer : rest ≠ [] := notZero zero
      simp [IsWhole, zero, longer]
    · simp [IsWhole, IsDigits, zero]

theorem ofWhole_eq : ofWhole negative digits =
    if FitsInteger negative (Nat.ofDigitChars 10 digits 0) then .integer (signed negative (Nat.ofDigitChars 10 digits 0))
    else .real (.ofDigits negative digits [] 0) := by
  generalize magnitude : Nat.ofDigitChars 10 digits 0 = n
  have whole : Decimal.ofDigits negative digits [] 0 = ⟨negative, n, 0⟩ := by
    rw [Decimal.ofDigits, List.append_nil, magnitude]
    rfl
  have fits : FitsInteger negative n ↔ ¬ if negative then n = 0 ∨ UInt64.size / 2 < n else UInt64.size ≤ n := by
    cases negative with
    | true => simp [FitsInteger, UInt64.size]; omega
    | false => simp [FitsInteger]
  rw [whole, ite_cond_congr (propext fits), ite_not]
  cases negative <;> simp [ofWhole, magnitude, signed]

theorem SpellsRest.endsRun {whole : List Char} (spelled : SpellsRest negative whole value rest) :
    EndsRun Char.isDigit rest := by
  rcases spelled with _ | _ | ⟨_ | _, exponent, _⟩
  · exact endsRun_nil
  · exact endsRun_nil
  · exact exponent.endsRun
  · exact endsRun_cons.2 rfl

theorem isNumberChar_of_isDigit {c : Char} (isDigit : c.isDigit = true) : isNumberChar c = true := by
  simp [isNumberChar, isDigit]

theorem SpellsInt.isNumberChar {n : Int} (spelled : SpellsInt n text) : ∀ c ∈ text, isNumberChar c = true := by
  have run : ∀ {digits : List Char}, IsDigits digits → ∀ c ∈ digits, Token.isNumberChar c = true :=
    fun isDigits c member => isNumberChar_of_isDigit (isDigits.2 c member)
  cases spelled with
  | plain isDigits => exact run isDigits
  | plus isDigits | minus isDigits => exact List.forall_mem_cons.2 ⟨rfl, run isDigits⟩

theorem SpellsRest.isNumberChar {whole : List Char} (spelled : SpellsRest negative whole value rest) :
    ∀ c ∈ rest, isNumberChar c = true := by
  rcases spelled with _ | _ | ⟨fraction, exponent, _⟩
  · exact List.forall_mem_nil _
  · exact List.forall_mem_nil _
  · refine List.forall_mem_append.2 ⟨?_, ?_⟩
    · rcases fraction with _ | isDigits
      · exact List.forall_mem_nil _
      · exact List.forall_mem_cons.2 ⟨rfl, fun c member => isNumberChar_of_isDigit (isDigits.2 c member)⟩
    · rcases exponent with _ | ⟨rfl | rfl, shift⟩
      · exact List.forall_mem_nil _
      · exact List.forall_mem_cons.2 ⟨rfl, SpellsInt.isNumberChar shift⟩
      · exact List.forall_mem_cons.2 ⟨rfl, SpellsInt.isNumberChar shift⟩

/-- A number begins with a sign or a digit, and goes on with characters of numbers. -/
theorem SpellsNumber.exists_cons (spelled : SpellsNumber value text) : ∃ c more, text = c :: more ∧
    (c = '-' ∨ c.isDigit = true) ∧ ∀ d ∈ more, isNumberChar d = true := by
  rcases spelled with ⟨isWhole, rest⟩ | ⟨isWhole, rest⟩
  all_goals
    have chars := List.forall_mem_append.2 ⟨fun c member => isNumberChar_of_isDigit (isWhole.1.2 c member), rest.isNumberChar⟩
  · obtain ⟨c, digits, rfl⟩ := List.exists_cons_of_ne_nil isWhole.1.1
    exact ⟨c, _, rfl, .inr (isWhole.1.2 c List.mem_cons_self), (List.forall_mem_cons.1 chars).2⟩
  · exact ⟨'-', _, rfl, .inl rfl, chars⟩

theorem spellsRest_of_afterWhole? {whole : List Char} (read : afterWhole? negative whole rest = some value) :
    SpellsRest negative whole value rest := by
  unfold afterWhole? at read
  split at read
  · rw [ofWhole_eq] at read
    split at read
    · rename_i fits
      exact Option.some.inj read ▸ .integer fits
    · rename_i fits
      exact Option.some.inj read ▸ .large fits
  · rename_i later
    obtain ⟨filled, read⟩ := Option.ite_none_left_eq_some.1 read
    obtain ⟨shift, exponent, rfl⟩ := Option.map_eq_some_iff.1 read
    have fraction : IsDigits (later.takeWhile Char.isDigit) :=
      ⟨by simpa using filled, fun c member => List.mem_takeWhile_imp member⟩
    have spelled := @SpellsRest.real negative whole _ _ _ _ (.pointed fraction)
      (Decimal.readExponent?_eq_some_iff.1 exponent) (List.cons_ne_nil _ _)
    rwa [List.cons_append, List.takeWhile_append_dropWhile] at spelled
  · rename_i filled _
    obtain ⟨shift, exponent, rfl⟩ := Option.map_eq_some_iff.1 read
    exact .real .absent (Decimal.readExponent?_eq_some_iff.1 exponent) filled

theorem afterWhole?_eq_some_iff {whole : List Char} :
    afterWhole? negative whole rest = some value ↔ SpellsRest negative whole value rest := by
  refine ⟨spellsRest_of_afterWhole?, fun spelled => ?_⟩
  cases spelled with
  | integer fits => rw [afterWhole?, ofWhole_eq, if_pos fits]
  | large fits => rw [afterWhole?, ofWhole_eq, if_neg fits]
  | real fraction exponent filled =>
    have read := Decimal.readExponent?_eq_some_iff.2 exponent
    cases fraction with
    | pointed isDigits =>
      rw [List.cons_append, afterWhole?, takeWhile_run isDigits.2 exponent.endsRun,
        dropWhile_run isDigits.2 exponent.endsRun, read]
      exact if_neg (by simpa using isDigits.1)
    | absent =>
      -- Without a point there has to be an exponent, which begins with its mark.
      rcases exponent with _ | ⟨rfl | rfl, _⟩
      · exact absurd rfl filled
      · exact congrArg (Option.map _) read
      · exact congrArg (Option.map _) read

theorem unsignedNumber?_eq_some_iff : unsignedNumber? negative run = some value ↔ SpellsUnsigned negative value run := by
  constructor
  · intro read
    obtain ⟨isWhole, read⟩ := Option.ite_none_right_eq_some.1 read
    have spelled := SpellsUnsigned.mk (isWhole_eq_true_iff.1 isWhole) (afterWhole?_eq_some_iff.1 read)
    rwa [List.takeWhile_append_dropWhile] at spelled
  · rintro ⟨isWhole, spelled⟩
    have read := afterWhole?_eq_some_iff.2 spelled
    rw [unsignedNumber?, takeWhile_run isWhole.1.2 spelled.endsRun, dropWhile_run isWhole.1.2 spelled.endsRun]
    rw [if_pos (isWhole_eq_true_iff.2 isWhole), read]

theorem number?_eq_some_iff : number? text = some value ↔ SpellsNumber value text := by
  constructor
  · intro read
    unfold number? at read
    split at read
    · exact .negative (unsignedNumber?_eq_some_iff.1 read)
    · exact .positive (unsignedNumber?_eq_some_iff.1 read)
  · rintro (⟨isWhole, rest⟩ | spelled)
    · have read := unsignedNumber?_eq_some_iff.2 (.mk isWhole rest)
      obtain ⟨c, digits, rfl⟩ := List.exists_cons_of_ne_nil isWhole.1.1
      unfold number?
      split
      · -- A digit is no sign.
        rename_i same
        obtain ⟨rfl, -⟩ := List.cons.inj same
        exact absurd (isWhole.1.2 _ List.mem_cons_self) (by decide)
      · exact read
    · exact unsignedNumber?_eq_some_iff.2 spelled

end

/-! ### Strings -/

/-- A unit in base 16, with letters of either case. -/
def SpellsUnit (unit : Nat) (digits : List Char) : Prop :=
  unit < 0x10000 ∧ digits.map Char.toLower = Text.fourHexDigits unit

/-- What stands behind a backslash, and the character that it stands for. -/
def shortEscapes : List (Char × Char) :=
  [('"', '"'), ('\\', '\\'), ('/', '/'), ('b', '\x08'), ('f', '\x0c'), ('n', '\n'), ('r', '\r'), ('t', '\t')]

inductive SpellsPiece : Piece → List Char → Prop where
  | plain {c : Char} : 0x20 ≤ c.toNat → c ≠ '"' → c ≠ '\\' → SpellsPiece (.char c) [c]
  | short {letter c : Char} : (letter, c) ∈ shortEscapes → SpellsPiece (.char c) ['\\', letter]
  | unit {unit : Nat} {digits : List Char} : SpellsUnit unit digits → SpellsPiece (.unit unit) ('\\' :: 'u' :: digits)

inductive SpellsPieces : List Piece → List Char → Prop where
  | nil : SpellsPieces [] []
  | cons {piece : Piece} {pieces : List Piece} {first rest : List Char} :
      SpellsPiece piece first → SpellsPieces pieces rest → SpellsPieces (piece :: pieces) (first ++ rest)

/-- The units of a character in UTF-16: one, or a surrogate pair. -/
def utf16 (c : Char) : List Nat :=
  if c.toNat < 0x10000 then [c.toNat]
  else [0xD800 + (c.toNat - 0x10000) / 0x400, 0xDC00 + (c.toNat - 0x10000) % 0x400]

inductive StandFor : List Piece → List Char → Prop where
  | nil : StandFor [] []
  | char {c : Char} {pieces : List Piece} {chars : List Char} :
      StandFor pieces chars → StandFor (.char c :: pieces) (c :: chars)
  | units (c : Char) {pieces : List Piece} {chars : List Char} :
      StandFor pieces chars → StandFor ((utf16 c).map .unit ++ pieces) (c :: chars)

section
variable {c letter : Char} {text rest first : List Char} {piece : Piece} {pieces : List Piece}

theorem toNat_lt_of_toLower (below : c.toLower.toNat < 128) : c.toNat < 128 := by
  unfold Char.toLower at below
  split at below
  · rename_i upper
    exact Nat.lt_of_le_of_lt (UInt32.le_iff_toNat_le.1 upper.2) (by decide)
  · exact below

theorem toNat_lt_of_hexDigit? {digit : Nat} (read : Text.hexDigit? c = some digit) : c.toNat < 128 := by
  by_contra above
  have beyond : ∀ last : Char, last.toNat < 128 → ¬ c ≤ last :=
    fun last small below => above (Nat.lt_of_le_of_lt (UInt32.le_iff_toNat_le.1 below) small)
  have notDigit : ¬ c.isDigit = true := fun isDigit =>
    beyond '9' (by decide) (of_decide_eq_true ((Bool.and_eq_true _ _ ▸ isDigit).2))
  simp [Text.hexDigit?, notDigit, beyond] at read

/-- A digit in base 16 is one of those in lower case, once it is in lower case itself. -/
theorem hexDigit?_eq_some_iff {digit : Nat} :
    Text.hexDigit? c = some digit ↔ digit < 16 ∧ c.toLower = Nat.digitChar digit := by
  -- All characters in question are among the first 128.
  have table : ∀ n < 128,
      (∀ digit ∈ Text.hexDigit? (Char.ofNat n), digit < 16 ∧ (Char.ofNat n).toLower = Nat.digitChar digit) ∧
      ∀ digit < 16, (Char.ofNat n).toLower = Nat.digitChar digit → Text.hexDigit? (Char.ofNat n) = some digit := by
    decide +kernel
  have digitsBelow : ∀ digit < 16, (Nat.digitChar digit).toNat < 128 := by decide
  constructor
  · intro read
    have entry := (table c.toNat (toNat_lt_of_hexDigit? read)).1 digit
    rw [Char.ofNat_toNat] at entry
    exact entry read
  · rintro ⟨small, same⟩
    have entry := (table c.toNat (toNat_lt_of_toLower (same ▸ digitsBelow digit small))).2 digit small
    rw [Char.ofNat_toNat] at entry
    exact entry same

theorem hexNumber?_eq_some_iff {unit : Nat} {a b c d : Char} :
    Text.hexNumber? [a, b, c, d] = some unit ↔ SpellsUnit unit [a, b, c, d] := by
  simp only [Text.hexNumber?, List.foldl_cons, List.foldl_nil, Option.bind_eq_some_iff, Option.map_eq_some_iff,
    hexDigit?_eq_some_iff, SpellsUnit, Text.fourHexDigits, List.map_cons, List.map_nil, List.cons.injEq, and_true]
  constructor
  · rintro ⟨_, ⟨_, ⟨_, ⟨_, zero, w, ⟨_, first⟩, rfl⟩, x, ⟨_, second⟩, rfl⟩, y, ⟨_, third⟩, rfl⟩, z, ⟨_, fourth⟩, rfl⟩
    cases zero
    refine ⟨by omega, first.trans (congrArg _ ?_), second.trans (congrArg _ ?_), third.trans (congrArg _ ?_),
      fourth.trans (congrArg _ ?_)⟩ <;> omega
  · rintro ⟨small, first, second, third, fourth⟩
    refine ⟨_, ⟨_, ⟨_, ⟨0, rfl, unit / 4096 % 16, ⟨by omega, first⟩, rfl⟩, unit / 256 % 16, ⟨by omega, second⟩, rfl⟩,
      unit / 16 % 16, ⟨by omega, third⟩, rfl⟩, unit % 16, ⟨by omega, fourth⟩, ?_⟩
    omega

theorem escape?_eq_some_iff : escape? letter = some c ↔ (letter, c) ∈ shortEscapes := by
  by_cases known : letter ∈ shortEscapes.map Prod.fst
  · simp only [shortEscapes, List.map_cons, List.map_nil, List.mem_cons, List.not_mem_nil, or_false] at known
    rcases known with rfl | rfl | rfl | rfl | rfl | rfl | rfl | rfl <;> simp [escape?, shortEscapes, eq_comm]
  · have absent : ¬ (letter, c) ∈ shortEscapes := fun member => known (List.mem_map_of_mem member)
    simp only [shortEscapes, List.map_cons, List.map_nil, List.mem_cons, List.not_mem_nil, or_false, not_or] at known
    simp [escape?, known, absent]

theorem readString_plain (visible : 0x20 ≤ c.toNat) (notQuote : c ≠ '"') (notSlash : c ≠ '\\') :
    readString (c :: rest) = (readString rest).map fun read => (.char c :: read.1, read.2) := by
  rw [readString.eq_def]
  split
  · rename_i impossible
    cases impossible
  · rename_i same
    exact absurd (List.cons.inj same).1 notQuote
  · rename_i same
    exact absurd (List.cons.inj same).1 notSlash
  · rename_i same
    exact absurd (List.cons.inj same).1 notSlash
  · rename_i same
    obtain ⟨rfl, rfl⟩ := List.cons.inj same
    rw [if_neg (not_or.2 ⟨Nat.not_lt.2 visible, notSlash⟩)]
    cases readString rest <;> rfl

theorem readString_short (listed : (letter, c) ∈ shortEscapes) :
    readString ('\\' :: letter :: rest) = (readString rest).map fun read => (.char c :: read.1, read.2) := by
  have notUnit : letter ≠ 'u' := by
    rintro rfl
    simp [shortEscapes] at listed
  rw [readString.eq_def]
  split
  · rename_i impossible
    cases impossible
  · rename_i same
    cases same
  · rename_i same
    cases same
    exact absurd rfl notUnit
  · rename_i same
    cases same
    rw [escape?_eq_some_iff.2 listed]
    cases readString rest <;> rfl
  · rename_i others same
    cases same
    exact (others _ _ rfl rfl).elim

theorem readString_piece (spelled : SpellsPiece piece first) :
    readString (first ++ rest) = (readString rest).map fun read => (piece :: read.1, read.2) := by
  cases spelled with
  | plain visible notQuote notSlash => exact readString_plain visible notQuote notSlash
  | short listed => exact readString_short listed
  | unit spelled =>
    obtain ⟨a, b, c, d, rfl⟩ := List.length_eq_four.1 (by simpa [Text.fourHexDigits] using congrArg List.length spelled.2)
    rw [List.cons_append, List.cons_append, List.cons_append, List.cons_append, List.cons_append, List.cons_append,
      List.nil_append, readString, hexNumber?_eq_some_iff.2 spelled]
    cases readString rest <;> rfl

theorem readString_pieces (spelled : SpellsPieces pieces text) :
    readString (text ++ '"' :: rest) = some (pieces, rest) := by
  induction spelled with
  | nil => rfl
  | cons first _ ih => rw [List.append_assoc, readString_piece first, ih, Option.map_some]

theorem spells_of_readString (read : readString text = some (pieces, rest)) :
    ∃ body, SpellsPieces pieces body ∧ text = body ++ '"' :: rest := by
  fun_induction readString text generalizing pieces with
  | case1 => cases read
  | case2 rest =>
    cases read
    exact ⟨[], .nil, rfl⟩
  | case3 a b c d later ih =>
    obtain ⟨unit, number, read⟩ := Option.bind_eq_some_iff.1 read
    obtain ⟨⟨others, after⟩, readLater, same⟩ := Option.bind_eq_some_iff.1 read
    cases same
    obtain ⟨body, spelled, rfl⟩ := ih readLater
    exact ⟨_, .cons (.unit (hexNumber?_eq_some_iff.1 number)) spelled, rfl⟩
  | case4 letter later _ ih =>
    obtain ⟨c, escape, read⟩ := Option.bind_eq_some_iff.1 read
    obtain ⟨⟨others, after⟩, readLater, same⟩ := Option.bind_eq_some_iff.1 read
    cases same
    obtain ⟨body, spelled, rfl⟩ := ih readLater
    exact ⟨_, .cons (.short (escape?_eq_some_iff.1 escape)) spelled, rfl⟩
  | case5 => cases read
  | case6 c later notQuote notEscape _ allowed ih =>
    obtain ⟨⟨others, after⟩, readLater, same⟩ := Option.bind_eq_some_iff.1 read
    cases same
    obtain ⟨body, spelled, rfl⟩ := ih readLater
    obtain ⟨visible, notSlash⟩ := not_or.1 allowed
    exact ⟨_, .cons (.plain (Nat.not_lt.1 visible) (fun same => notQuote same) notSlash) spelled, rfl⟩

theorem toNat_ofNat {n : Nat} (valid : n.isValidChar) : (Char.ofNat n).toNat = n := by
  rw [Char.ofNat, dif_pos valid]
  rfl

theorem charsOfPieces_utf16 (c : Char) (pieces : List Piece) :
    charsOfPieces ((utf16 c).map .unit ++ pieces) = (charsOfPieces pieces).map (c :: ·) := by
  have valid : c.toNat.isValidChar := c.valid
  have number : Char.ofNat c.toNat = c := Char.ofNat_toNat c
  unfold utf16
  split
  · have notHigh : isHighSurrogate c.toNat = false := by simp [isHighSurrogate]; omega
    have notLow : isLowSurrogate c.toNat = false := by simp [isLowSurrogate]; omega
    rw [List.map_singleton, List.singleton_append, charsOfPieces.eq_def]
    simp only [notHigh, notLow, Bool.false_eq_true, if_false, number]
  · -- Both halves are in their ranges, and together they give the number back.
    have high : isHighSurrogate (0xD800 + (c.toNat - 0x10000) / 0x400) = true := by simp [isHighSurrogate]; omega
    have low : isLowSurrogate (0xDC00 + (c.toNat - 0x10000) % 0x400) = true := by simp [isLowSurrogate]; omega
    have whole : 0x10000 + (0xD800 + (c.toNat - 0x10000) / 0x400 - 0xD800) * 0x400 +
        (0xDC00 + (c.toNat - 0x10000) % 0x400 - 0xDC00) = c.toNat := by omega
    rw [List.map_cons, List.map_singleton, List.cons_append, List.singleton_append, charsOfPieces.eq_def]
    simp only [high, low, if_true, whole, number]

theorem SpellsPieces.unit_lt (spelled : SpellsPieces pieces text) : ∀ unit, .unit unit ∈ pieces → unit < 0x10000 := by
  induction spelled with
  | nil => exact fun _ impossible => by cases impossible
  | cons first _ ih =>
    intro unit member
    rcases List.mem_cons.1 member with rfl | later
    · cases first with
      | unit spelled => exact spelled.1
    · exact ih unit later

theorem standFor_of_charsOfPieces {chars : List Char} (small : ∀ unit, .unit unit ∈ pieces → unit < 0x10000)
    (read : charsOfPieces pieces = some chars) : StandFor pieces chars := by
  fun_induction charsOfPieces pieces generalizing chars with
  | case1 =>
    cases read
    exact .nil
  | case2 c rest ih =>
    obtain ⟨others, readRest, rfl⟩ := Option.map_eq_some_iff.1 read
    exact .char (ih (fun unit member => small unit (List.mem_cons_of_mem _ member)) readRest)
  | case3 high isHigh low later isLow ih =>
    -- The two units are those of the character that they make together.
    obtain ⟨others, readRest, rfl⟩ := Option.map_eq_some_iff.1 read
    simp only [isHighSurrogate, isLowSurrogate, Bool.and_eq_true, decide_eq_true_eq] at isHigh isLow
    have number := @toNat_ofNat (0x10000 + (high - 0xD800) * 0x400 + (low - 0xDC00)) (.inr (by omega))
    generalize Char.ofNat (0x10000 + (high - 0xD800) * 0x400 + (low - 0xDC00)) = c at number ⊢
    have units : utf16 c = [high, low] := by
      rw [utf16, number, if_neg (by omega)]
      exact congrArg₂ (fun first second => [first, second]) (by omega) (by omega)
    have whole := StandFor.units c (ih (fun unit member => small unit (by simp [member])) readRest)
    rwa [units] at whole
  | case4 | case5 | case6 => cases read
  | case7 unit rest notHigh notLow ih =>
    obtain ⟨others, readRest, rfl⟩ := Option.map_eq_some_iff.1 read
    have below := small unit List.mem_cons_self
    simp only [isHighSurrogate, isLowSurrogate, Bool.and_eq_true, decide_eq_true_eq] at notHigh notLow
    have number := @toNat_ofNat unit (by rw [Nat.isValidChar]; omega)
    generalize Char.ofNat unit = c at number ⊢
    have units : utf16 c = [unit] := by rw [utf16, number, if_pos below]
    have whole := StandFor.units c (ih (fun unit member => small unit (List.mem_cons_of_mem _ member)) readRest)
    rwa [units] at whole

theorem charsOfPieces_eq_some_iff {chars : List Char} (small : ∀ unit, .unit unit ∈ pieces → unit < 0x10000) :
    charsOfPieces pieces = some chars ↔ StandFor pieces chars := by
  refine ⟨standFor_of_charsOfPieces small, fun stand => ?_⟩
  clear small
  induction stand with
  | nil => rfl
  | char _ ih => rw [charsOfPieces, ih, Option.map_some]
  | units c _ ih => rw [charsOfPieces_utf16, ih, Option.map_some]

theorem string_eq_iff {string : Option String} (spelled : SpellsPieces pieces text) :
    (charsOfPieces pieces).map String.ofList = string ↔
      ∀ chars, string.map String.toList = some chars ↔ StandFor pieces chars := by
  have back : String.ofList ∘ String.toList = id := funext fun _ => String.ofList_toList
  have forth : String.toList ∘ String.ofList = id := funext fun _ => String.toList_ofList
  simp only [← charsOfPieces_eq_some_iff spelled.unit_lt]
  constructor
  · rintro rfl chars
    rw [Option.map_map, forth, Option.map_id_fun, id]
  · intro same
    rw [← Option.ext same, Option.map_map, back, Option.map_id_fun, id]

end

end TypedStub.Json

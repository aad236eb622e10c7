import TypedStub.Binary64
import TypedStub.Proofs.Binary64.Nearest
import TypedStub.Proofs.Text.Runs

/-! Reading the text of a number back.

The digits that are written may have lost zeros at the end, or have gained some before the point. What is read is
the decimal that was written, up to such zeros, and the number is nearest to that.
-/

set_option autoImplicit false

namespace TypedStub

namespace Decimal

theorem ofDigitChars_append_zeros (digits : List Char) (count : Nat) :
    Nat.ofDigitChars 10 (digits ++ List.replicate count '0') 0 = Nat.ofDigitChars 10 digits 0 * 10 ^ count := by
  rw [Nat.ofDigitChars_append, Nat.ofDigitChars_replicate_zero, Nat.mul_comm]

theorem ofDigitChars_zeros_append (digits : List Char) (count : Nat) :
    Nat.ofDigitChars 10 (List.replicate count '0' ++ digits) 0 = Nat.ofDigitChars 10 digits 0 := by
  rw [Nat.ofDigitChars_append, Nat.ofDigitChars_replicate_zero, Nat.mul_zero]

theorem isDigit_of_mem_toDigits {n : Nat} {c : Char} (member : c ∈ Nat.toDigits 10 n) : c.isDigit = true :=
  Nat.isDigit_of_mem_toDigits (by decide) (by decide) member

/-! ### Whole numbers -/

theorem isDigit_or_minus_of_mem_toString {exponent : Int} {c : Char} (member : c ∈ (toString exponent).toList) :
    c.isDigit = true ∨ c = '-' := by
  rw [Int.toString_eq_repr, Int.repr_eq_if] at member
  split at member
  · exact Or.inl (isDigit_of_mem_toDigits (Nat.toList_repr ▸ member))
  · rw [String.toList_append, Nat.toList_repr, List.mem_append] at member
    rcases member with minus | digit
    · exact Or.inr (List.mem_singleton.1 minus)
    · exact Or.inl (isDigit_of_mem_toDigits digit)

def IsDigits (digits : List Char) : Prop := digits ≠ [] ∧ ∀ c ∈ digits, c.isDigit = true

theorem isDigits_toDigits (n : Nat) : IsDigits (Nat.toDigits 10 n) :=
  ⟨Nat.toDigits_ne_nil, fun _ member => isDigit_of_mem_toDigits member⟩

inductive SpellsInt : Int → List Char → Prop where
  | plain {digits : List Char} : IsDigits digits → SpellsInt (Nat.ofDigitChars 10 digits 0) digits
  | plus {digits : List Char} : IsDigits digits → SpellsInt (Nat.ofDigitChars 10 digits 0) ('+' :: digits)
  | minus {digits : List Char} : IsDigits digits → SpellsInt (-Nat.ofDigitChars 10 digits 0 : Int) ('-' :: digits)

theorem readNat?_eq_some_iff {n : Nat} {digits : List Char} :
    readNat? digits = some n ↔ IsDigits digits ∧ Nat.ofDigitChars 10 digits 0 = n := by
  by_cases isDigits : IsDigits digits
  · simp [readNat?, isDigits, isDigits.1, List.all_eq_true.2 isDigits.2]
  · have refused : (digits.isEmpty || !digits.all Char.isDigit) = true := by
      simpa [IsDigits, imp_iff_not_or] using isDigits
    simp [readNat?, isDigits, refused]

theorem readInt?_eq_some_iff {n : Int} {text : List Char} : readInt? text = some n ↔ SpellsInt n text := by
  constructor
  · intro read
    unfold readInt? at read
    split at read
    all_goals
      obtain ⟨_, isRead, rfl⟩ := Option.map_eq_some_iff.1 read
      obtain ⟨isDigits, rfl⟩ := readNat?_eq_some_iff.1 isRead
    · exact .minus isDigits
    · exact .plus isDigits
    · exact .plain isDigits
  · rintro (⟨isDigits⟩ | ⟨isDigits⟩ | ⟨isDigits⟩)
    · -- A digit is no sign.
      unfold readInt?
      split
      · exact absurd (isDigits.2 _ List.mem_cons_self) (by decide)
      · exact absurd (isDigits.2 _ List.mem_cons_self) (by decide)
      · rw [readNat?_eq_some_iff.2 ⟨isDigits, rfl⟩, Option.map_some]
    · rw [readInt?, readNat?_eq_some_iff.2 ⟨isDigits, rfl⟩, Option.map_some]
    · rw [readInt?, readNat?_eq_some_iff.2 ⟨isDigits, rfl⟩, Option.map_some]

theorem readInt?_toString (exponent : Int) : readInt? (toString exponent).toList = some exponent := by
  rw [readInt?_eq_some_iff, Int.toString_eq_repr, Int.repr_eq_if]
  split
  · rename_i natural
    have spelled := SpellsInt.plain (isDigits_toDigits exponent.toNat)
    rwa [Nat.ofDigitChars_ten_toDigits, Int.toNat_of_nonneg natural, ← Nat.toList_repr] at spelled
  · rename_i negative
    have spelled := SpellsInt.minus (isDigits_toDigits (-exponent).toNat)
    rw [Nat.ofDigitChars_ten_toDigits, Int.toNat_of_nonneg (by omega), Int.neg_neg] at spelled
    rwa [String.toList_append, Nat.toList_repr]

/-- Nothing, or a mark and the power of ten that it announces. -/
inductive SpellsExponent : Int → List Char → Prop where
  | absent : SpellsExponent 0 []
  | marked {mark : Char} {shift : Int} {text : List Char} :
      mark = 'e' ∨ mark = 'E' → SpellsInt shift text → SpellsExponent shift (mark :: text)

theorem readExponent?_eq_some_iff {shift : Int} {text : List Char} :
    readExponent? text = some shift ↔ SpellsExponent shift text := by
  constructor
  · intro read
    unfold readExponent? at read
    split at read
    · exact Option.some.inj read ▸ .absent
    · obtain ⟨isMark, read⟩ := Option.ite_none_right_eq_some.1 read
      exact .marked isMark (readInt?_eq_some_iff.1 read)
  · rintro (_ | ⟨isMark, spelled⟩)
    · rfl
    · rw [readExponent?, if_pos isMark, readInt?_eq_some_iff.2 spelled]

theorem SpellsExponent.endsRun {shift : Int} {text : List Char} (spelled : SpellsExponent shift text) :
    Text.EndsRun Char.isDigit text := by
  rcases spelled with _ | ⟨rfl | rfl, _⟩
  · exact Text.endsRun_nil
  · exact Text.endsRun_cons.2 rfl
  · exact Text.endsRun_cons.2 rfl

end Decimal

namespace Binary64

open Decimal Text

/-! ### Digits and what follows them -/

section
variable {negative : Bool} {whole fraction : List Char}

theorem readDecimal?_plain (filled : whole ≠ []) (digits : ∀ c ∈ whole ++ fraction, c.isDigit = true) :
    readDecimal? negative (whole ++ '.' :: fraction) = some (.ofDigits negative whole fraction 0) := by
  have left : ∀ c ∈ whole, c.isDigit = true := fun c member => digits c (List.mem_append_left _ member)
  have right : ∀ c ∈ fraction, c.isDigit = true := fun c member => digits c (List.mem_append_right _ member)
  have taken := takeWhile_run right endsRun_nil
  have dropped := dropWhile_run right endsRun_nil
  rw [List.append_nil] at taken dropped
  have point : EndsRun Char.isDigit ('.' :: fraction) := endsRun_cons.2 rfl
  simp [readDecimal?, readExponent?, takeWhile_run left point, dropWhile_run left point, taken, dropped, filled]

theorem readDecimal?_exponent (exponent : Int) (filled : whole ≠ [])
    (digits : ∀ c ∈ whole ++ fraction, c.isDigit = true) :
    readDecimal? negative
        (whole ++ (if fraction.isEmpty then [] else '.' :: fraction) ++ 'e' :: (toString exponent).toList) =
      some (.ofDigits negative whole fraction exponent) := by
  have left : ∀ c ∈ whole, c.isDigit = true := fun c member => digits c (List.mem_append_left _ member)
  have right : ∀ c ∈ fraction, c.isDigit = true := fun c member => digits c (List.mem_append_right _ member)
  have exponentRead : readExponent? ('e' :: (toString exponent).toList) = some exponent := by
    exact readExponent?_eq_some_iff.2 (.marked (.inl rfl) (readInt?_eq_some_iff.1 (readInt?_toString exponent)))
  generalize (toString exponent).toList = written at exponentRead ⊢
  have stop : EndsRun Char.isDigit ('e' :: written) := endsRun_cons.2 rfl
  have point : EndsRun Char.isDigit ('.' :: (fraction ++ 'e' :: written)) := endsRun_cons.2 rfl
  rw [List.append_assoc]
  by_cases isEmpty : fraction = []
  · simp [readDecimal?, isEmpty, takeWhile_run left stop, dropWhile_run left stop, filled, exponentRead]
  · simp [readDecimal?, isEmpty, takeWhile_run left point, dropWhile_run left point, takeWhile_run right stop,
      dropWhile_run right stop, filled, exponentRead]

end

/-! ### The digits that are written -/

theorem withoutTrailingZeros_append (digits : List Char) : ∃ count,
    digits = withoutTrailingZeros digits ++ List.replicate count '0' := by
  refine ⟨(digits.reverse.takeWhile (· = '0')).length, ?_⟩
  have zeros : digits.reverse.takeWhile (· = '0') =
      List.replicate (digits.reverse.takeWhile (· = '0')).length '0' :=
    List.eq_replicate_of_mem fun c member => by simpa using List.mem_takeWhile_imp member
  rw [withoutTrailingZeros, ← List.reverse_replicate, ← zeros, ← List.reverse_append, List.takeWhile_append_dropWhile,
    List.reverse_reverse]

theorem isDigit_of_mem_withoutTrailingZeros {n : Nat} {c : Char}
    (member : c ∈ withoutTrailingZeros (Nat.toDigits 10 n)) : c.isDigit = true := by
  rw [withoutTrailingZeros, List.mem_reverse] at member
  exact isDigit_of_mem_toDigits (List.mem_reverse.1 ((List.dropWhile_sublist _).subset member))

/-- The decimal with some digits and the point after some of them. -/
def placed (negative : Bool) (digits : List Char) (point : Int) : Decimal :=
  ⟨negative, Nat.ofDigitChars 10 digits 0, point - digits.length⟩

variable {negative : Bool} {digits : List Char} {point : Int}

theorem isDigit_of_zeros {count : Nat} {c : Char} (member : c ∈ List.replicate count '0') : c.isDigit = true := by
  rw [List.eq_of_mem_replicate member]
  rfl

theorem read_fraction (allDigits : ∀ c ∈ digits, c.isDigit = true) (small : point ≤ 0) :
    readDecimal? negative ('0' :: '.' :: (List.replicate (-point).toNat '0' ++ digits)) =
      some (placed negative digits point) := by
  have inside : ∀ c ∈ ['0'] ++ (List.replicate (-point).toNat '0' ++ digits), c.isDigit = true := by
    intro c member
    simp only [List.mem_append, List.mem_singleton] at member
    rcases member with rfl | member | member
    · rfl
    · exact isDigit_of_zeros member
    · exact allDigits c member
  have value : Nat.ofDigitChars 10 (['0'] ++ (List.replicate (-point).toNat '0' ++ digits)) 0 =
      Nat.ofDigitChars 10 digits 0 := by
    rw [← List.append_assoc]
    exact ofDigitChars_zeros_append digits ((-point).toNat + 1)
  refine (readDecimal?_plain (List.cons_ne_nil '0' []) inside).trans (congrArg some ?_)
  rw [ofDigits, value]
  simp only [placed, List.length_append, List.length_replicate, Decimal.mk.injEq, true_and]
  omega

theorem read_whole {places : Nat} (allDigits : ∀ c ∈ digits, c.isDigit = true) (filled : places ≠ 0)
    (short : digits.length ≤ places) :
    readDecimal? negative (digits ++ List.replicate (places - digits.length) '0' ++ '.' :: ['0']) =
      some ((placed negative digits places).withZeros (places - digits.length + 1)) := by
  have inside : ∀ c ∈ digits ++ List.replicate (places - digits.length) '0' ++ ['0'], c.isDigit = true := by
    intro c member
    simp only [List.mem_append, List.mem_singleton] at member
    rcases member with (member | member) | rfl
    · exact allDigits c member
    · exact isDigit_of_zeros member
    · rfl
  -- The zero behind the point counts as one more zero behind the digits.
  have value : Nat.ofDigitChars 10 (digits ++ List.replicate (places - digits.length) '0' ++ ['0']) 0 =
      Nat.ofDigitChars 10 digits 0 * 10 ^ (places - digits.length + 1) := by
    rw [← ofDigitChars_append_zeros, List.replicate_succ', List.append_assoc]
  have filled : digits ++ List.replicate (places - digits.length) '0' ≠ [] := by
    intro isEmpty
    have lengths := congrArg List.length isEmpty
    simp only [List.length_append, List.length_replicate, List.length_nil] at lengths
    omega
  refine (readDecimal?_plain filled inside).trans (congrArg some ?_)
  rw [ofDigits, value]
  simp only [placed, Decimal.withZeros, List.length_singleton, Decimal.mk.injEq, true_and]
  omega

theorem read_mixed {places : Nat} (allDigits : ∀ c ∈ digits, c.isDigit = true) (filled : places ≠ 0)
    (long : places < digits.length) :
    readDecimal? negative (digits.take places ++ '.' :: digits.drop places) = some (placed negative digits places) := by
  have filled : digits.take places ≠ [] := by
    intro isEmpty
    have lengths := congrArg List.length isEmpty
    simp only [List.length_take, List.length_nil] at lengths
    omega
  refine (readDecimal?_plain filled (by rwa [List.take_append_drop])).trans (congrArg some ?_)
  rw [ofDigits, List.take_append_drop]
  simp only [placed, List.length_drop, Decimal.mk.injEq, true_and]
  omega

theorem withZeros_zero (decimal : Decimal) : decimal.withZeros 0 = decimal := by
  simp [Decimal.withZeros]

/-- What is read without an exponent: the digits in their place, perhaps with more zeros. -/
theorem read_plainText (allDigits : ∀ c ∈ digits, c.isDigit = true) : ∃ count,
    readDecimal? negative (plainText digits point) = some ((placed negative digits point).withZeros count) := by
  unfold plainText
  split
  · rename_i small
    exact ⟨0, by rw [withZeros_zero, read_fraction allDigits small]⟩
  · rename_i large
    obtain ⟨places, rfl⟩ := Int.eq_ofNat_of_zero_le (show 0 ≤ point by omega)
    have filled : places ≠ 0 := by omega
    simp only [Int.toNat_natCast]
    by_cases short : digits.length ≤ places
    · rw [List.take_of_length_le short, List.drop_of_length_le short]
      exact ⟨_, read_whole allDigits filled short⟩
    · have behind : (digits.drop places).isEmpty = false := by
        rw [List.isEmpty_eq_false_iff, ne_eq, List.drop_eq_nil_iff]
        exact short
      have padding : places - digits.length = 0 := by omega
      simp only [padding, List.replicate_zero, List.append_nil, behind, Bool.false_eq_true, if_false]
      exact ⟨0, by rw [withZeros_zero, read_mixed allDigits filled (Nat.lt_of_not_le short)]⟩

theorem read_exponentText (filled : digits ≠ []) (allDigits : ∀ c ∈ digits, c.isDigit = true) :
    readDecimal? negative (exponentText digits point) = some (placed negative digits point) := by
  obtain ⟨c, rest, rfl⟩ := List.exists_cons_of_ne_nil filled
  refine (readDecimal?_exponent (point - 1) (List.cons_ne_nil c []) allDigits).trans (congrArg some ?_)
  rw [ofDigits]
  simp only [placed, List.singleton_append, List.length_cons, Decimal.mk.injEq, true_and]
  omega

theorem placed_withZeros {decimal : Decimal} {zeros : Nat}
    (cut : Nat.toDigits 10 decimal.coefficient = digits ++ List.replicate zeros '0') :
    (placed decimal.negative digits (decimal.exponent + (Nat.toDigits 10 decimal.coefficient).length)).withZeros
      zeros = decimal := by
  have value := @Nat.ofDigitChars_ten_toDigits decimal.coefficient
  have length := congrArg List.length cut
  rw [cut, ofDigitChars_append_zeros] at value
  rw [List.length_append, List.length_replicate] at length
  obtain ⟨negative, coefficient, exponent⟩ := decimal
  simp only at value length
  simp only [placed, Decimal.withZeros, value, length, Decimal.mk.injEq, true_and]
  omega

/-- A decimal that is not zero is read from its text as another form of the same decimal. -/
theorem read_decimalText {decimal : Decimal} (filled : decimal.coefficient ≠ 0) :
    ∃ (shorter : Decimal) (count zeros : Nat), shorter.withZeros zeros = decimal ∧
      readDecimal? decimal.negative (decimalText decimal) = some (shorter.withZeros count) := by
  obtain ⟨zeros, cut⟩ := withoutTrailingZeros_append (Nat.toDigits 10 decimal.coefficient)
  have same := placed_withZeros cut
  have allDigits : ∀ c ∈ withoutTrailingZeros (Nat.toDigits 10 decimal.coefficient), c.isDigit = true :=
    fun c member => isDigit_of_mem_withoutTrailingZeros member
  have filled : withoutTrailingZeros (Nat.toDigits 10 decimal.coefficient) ≠ [] := by
    intro isEmpty
    rw [isEmpty] at same
    rw [← same] at filled
    exact filled (Nat.zero_mul _)
  suffices read : ∃ count, readDecimal? decimal.negative (decimalText decimal) = some
      ((placed decimal.negative (withoutTrailingZeros (Nat.toDigits 10 decimal.coefficient))
        (decimal.exponent + (Nat.toDigits 10 decimal.coefficient).length)).withZeros count) by
    obtain ⟨count, read⟩ := read
    exact ⟨_, count, zeros, same, read⟩
  unfold decimalText
  dsimp only
  split
  · exact read_plainText allDigits
  · exact ⟨0, by rw [withZeros_zero, read_exponentText filled allDigits]⟩

/-! ### The characters of a number -/

def isNumberChar (c : Char) : Bool := c.isDigit || c = '.' || c = '-' || c = 'e'

def isFractionMark (c : Char) : Bool := c = '.' || c = 'e'

theorem isNumberChar_digit {c : Char} (digit : c.isDigit = true) : isNumberChar c = true := by
  simp [isNumberChar, digit]

theorem plainText_chars (allDigits : ∀ c ∈ digits, c.isDigit = true) :
    (∀ c ∈ plainText digits point, isNumberChar c = true) ∧ '.' ∈ plainText digits point := by
  have zero : isNumberChar '0' = true := rfl
  have mark : isNumberChar '.' = true := rfl
  have zeros : ∀ {count : Nat}, ∀ c ∈ List.replicate count '0', isNumberChar c = true :=
    fun c member => isNumberChar_digit (isDigit_of_zeros member)
  unfold plainText
  split
  · refine ⟨List.forall_mem_cons.2 ⟨zero, List.forall_mem_cons.2 ⟨mark, ?_⟩⟩, by simp⟩
    exact List.forall_mem_append.2 ⟨zeros, fun c member => isNumberChar_digit (allDigits c member)⟩
  · refine ⟨?_, by simp⟩
    have whole : ∀ c ∈ digits.take point.toNat, isNumberChar c = true :=
      fun c member => isNumberChar_digit (allDigits c (List.mem_of_mem_take member))
    have fraction : ∀ c ∈ (if (digits.drop point.toNat).isEmpty then ['0'] else digits.drop point.toNat),
        isNumberChar c = true := by
      split
      · exact List.forall_mem_singleton.2 zero
      · exact fun c member => isNumberChar_digit (allDigits c (List.mem_of_mem_drop member))
    exact List.forall_mem_append.2 ⟨List.forall_mem_append.2 ⟨whole, zeros⟩, List.forall_mem_cons.2 ⟨mark, fraction⟩⟩

theorem exponentText_chars (allDigits : ∀ c ∈ digits, c.isDigit = true) :
    (∀ c ∈ exponentText digits point, isNumberChar c = true) ∧ 'e' ∈ exponentText digits point := by
  have first : ∀ c ∈ digits.take 1, isNumberChar c = true :=
    fun c member => isNumberChar_digit (allDigits c (List.mem_of_mem_take member))
  have fraction : ∀ c ∈ (if (digits.drop 1).isEmpty then [] else '.' :: digits.drop 1), isNumberChar c = true := by
    split
    · exact fun c member => by cases member
    · exact List.forall_mem_cons.2 ⟨rfl, fun c member => isNumberChar_digit (allDigits c (List.mem_of_mem_drop member))⟩
  have exponent : ∀ c ∈ (toString (point - 1)).toList, isNumberChar c = true := by
    intro c member
    rcases isDigit_or_minus_of_mem_toString member with isDigit | rfl
    · exact isNumberChar_digit isDigit
    · rfl
  refine ⟨?_, by simp [exponentText]⟩
  exact List.forall_mem_append.2 ⟨List.forall_mem_append.2 ⟨first, fraction⟩, List.forall_mem_cons.2 ⟨rfl, exponent⟩⟩

theorem decimalText_chars (decimal : Decimal) : (∀ c ∈ decimalText decimal, isNumberChar c = true) ∧
    ∃ c ∈ decimalText decimal, isFractionMark c = true := by
  have allDigits : ∀ c ∈ withoutTrailingZeros (Nat.toDigits 10 decimal.coefficient), c.isDigit = true :=
    fun c member => isDigit_of_mem_withoutTrailingZeros member
  unfold decimalText
  dsimp only
  split
  · exact ⟨(plainText_chars allDigits).1, _, (plainText_chars allDigits).2, rfl⟩
  · exact ⟨(exponentText_chars allDigits).1, _, (exponentText_chars allDigits).2, rfl⟩

/-- The text of a finite number consists of the characters of numbers, and is not that of a whole number. -/
theorem text_finite_chars (negative : Bool) (mantissa scale : Nat) :
    (∀ c ∈ (finite negative mantissa scale).text.toList, isNumberChar c = true) ∧
      ∃ c ∈ (finite negative mantissa scale).text.toList, isFractionMark c = true := by
  have sign : ∀ c ∈ signText negative, isNumberChar c = true := by
    cases negative <;> exact List.all_eq_true.1 rfl
  have signed : ∀ text : List Char, (∀ c ∈ text, isNumberChar c = true) ∧ (∃ c ∈ text, isFractionMark c = true) →
      (∀ c ∈ signText negative ++ text, isNumberChar c = true) ∧
        ∃ c ∈ signText negative ++ text, isFractionMark c = true := by
    rintro text ⟨chars, c, member, mark⟩
    exact ⟨List.forall_mem_append.2 ⟨sign, chars⟩, c, List.mem_append_right _ member, mark⟩
  cases mantissa with
  | zero => simpa [text] using signed "0.0".toList ⟨List.all_eq_true.1 rfl, '.', by simp, rfl⟩
  | succ mantissa => simpa [text] using signed _ (decimalText_chars _)

/-! ### Numbers -/

theorem readDecimal?_begins {text : List Char} {decimal : Decimal} (read : readDecimal? negative text = some decimal) :
    ∃ c rest, text = c :: rest ∧ (c.isDigit = true ∨ c = '.') := by
  cases text with
  | nil => simp [readDecimal?] at read
  | cons c rest =>
    refine ⟨c, rest, rfl, ?_⟩
    by_contra noDigits
    rw [not_or, Bool.not_eq_true] at noDigits
    simp [readDecimal?, noDigits.1, noDigits.2] at read

theorem toLower_digit {c : Char} (digit : c.isDigit = true) : c.toLower = c := by
  have noUpper : ¬ (c.val ≥ 'A'.val ∧ c.val ≤ 'Z'.val) := by
    simp only [Char.isDigit] at digit
    grind
  exact dif_neg noUpper

/-- A decimal is none of the words, which begin with other letters. -/
theorem readUnsigned?_decimal {text : List Char} {decimal : Decimal}
    (read : readDecimal? negative text = some decimal) : readUnsigned? negative text = some (nearest decimal) := by
  obtain ⟨c, rest, rfl, begins⟩ := readDecimal?_begins read
  have noWord : ∀ (d : Char) (word : List Char), d.isDigit = false → d ≠ '.' →
      String.ofList ((c :: rest).map Char.toLower) ≠ String.ofList (d :: word) := by
    intro d word noDigit noPoint same
    have first : c.toLower = d := (List.cons.inj (String.ofList_injective same)).1
    rcases begins with digit | rfl
    · rw [toLower_digit digit] at first
      rw [first, noDigit] at digit
      cases digit
    · exact noPoint first.symm
  have notInf := noWord 'i' ['n', 'f'] rfl (by decide)
  have notInfinity := noWord 'i' ['n', 'f', 'i', 'n', 'i', 't', 'y'] rfl (by decide)
  have notNan := noWord 'n' ['a', 'n'] rfl (by decide)
  unfold readUnsigned?
  dsimp only
  rw [if_neg (not_or.2 ⟨notInf, notInfinity⟩), if_neg notNan, read]
  rfl

theorem read?_signed {text : List Char} {decimal : Decimal} (read : readDecimal? negative text = some decimal) :
    read? (String.ofList (signText negative ++ text)) = some (nearest decimal) := by
  have unsigned := readUnsigned?_decimal read
  obtain ⟨c, rest, rfl, begins⟩ := readDecimal?_begins read
  cases negative with
  | true => simpa [read?, signText] using unsigned
  | false =>
    have notSign : c ≠ '-' ∧ c ≠ '+' := by
      rcases begins with digit | rfl
      · exact ⟨fun same => by simp [same] at digit, fun same => by simp [same] at digit⟩
      · decide
    have untouched : read? (String.ofList (c :: rest)) = readUnsigned? false (c :: rest) := by
      unfold read?
      rw [String.toList_ofList]
      split
      · rename_i same
        exact absurd (List.cons.inj same).1 notSign.1
      · rename_i same
        exact absurd (List.cons.inj same).1 notSign.2
      · rfl
    exact untouched.trans unsigned

/-- A number is read back from its text. -/
theorem read?_text {number : Binary64} (normal : number.IsNormal) : read? number.text = some number := by
  match number, normal with
  | .nan, _ => decide
  | .infinite true, _ => decide
  | .infinite false, _ => decide
  | .finite negative 0 scale, ⟨_, _, full⟩ =>
    have unscaled : scale = 0 := full.resolve_right (by decide)
    rw [unscaled]
    exact @read?_signed negative _ ⟨negative, 0, -1⟩ rfl
  | .finite negative (mantissa + 1) scale, normal =>
    obtain ⟨near, sign⟩ := nearest_shortest (Nat.succ_ne_zero mantissa) normal
    have filled : (shortest negative (mantissa + 1) scale).coefficient ≠ 0 := by
      intro zero
      rw [nearest, if_pos zero] at near
      simp at near
    obtain ⟨shorter, count, zeros, same, read⟩ := read_decimalText filled
    rw [sign] at read
    -- Zeros at the end of the digits may be lost or gained on the way, and make no difference to what is nearest.
    calc read? (finite negative (mantissa + 1) scale).text
      _ = some (nearest (shorter.withZeros count)) := read?_signed read
      _ = some (nearest shorter) := congrArg some (nearest_withZeros shorter count)
      _ = some (nearest (shorter.withZeros zeros)) := congrArg some (nearest_withZeros shorter zeros).symm
      _ = some (finite negative (mantissa + 1) scale) := by rw [same, near]

end Binary64

end TypedStub

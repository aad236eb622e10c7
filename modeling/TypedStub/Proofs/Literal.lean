import TypedStub.Module
import TypedStub.Proofs.Binary64.Text
import TypedStub.Proofs.Stub.Docstring
import TypedStub.Proofs.Text.Quoted
import TypedStub.Proofs.Text.Runs

/-! Written literals: the characters that they consist of, and reading them back.

A control character is neither a mark nor a part of a word that stubs are written with. Literals escape it, and a
docstring keeps it.
-/

set_option autoImplicit false

namespace TypedStub

namespace Text

open Quoted (isControl)

def IsPlain (text : List Char) : Prop := ∀ mark ∈ text, isControl mark = false

instance (text : List Char) : Decidable (IsPlain text) := List.decidableBAll _ _

section
variable {c : Char}

theorem ne_of_isControl (control : isControl c = true) {mark : Char} (plain : isControl mark = false) : c ≠ mark := by
  rintro rfl
  exact absurd control (by simp [plain])

theorem not_mem_of_isControl (control : isControl c = true) {text : List Char} (plain : IsPlain text) :
    ¬ c ∈ text := by
  intro member
  exact absurd control (by simp [plain c member])

theorem isControl_of_isAlphanum (plain : c.isAlphanum = true) : isControl c = false := by
  delta Char.isAlphanum Char.isAlpha Char.isUpper Char.isLower Char.isDigit at plain
  simp only [ge_iff_le, Bool.or_eq_true, Bool.and_eq_true, decide_eq_true_eq, UInt32.le_iff_toNat_le] at plain
  have bounds : ((65 ≤ c.toNat ∧ c.toNat ≤ 90) ∨ (97 ≤ c.toNat ∧ c.toNat ≤ 122)) ∨ 48 ≤ c.toNat ∧ c.toNat ≤ 57 := plain
  simp only [isControl, Bool.or_eq_false_iff, Bool.and_eq_false_iff, decide_eq_false_iff_not]
  omega

theorem mem_intercalate_texts (control : isControl c = true) (separator : String) (plain : IsPlain separator.toList)
    {parts : List String} : c ∈ (separator.intercalate parts).toList ↔ ∃ part ∈ parts, c ∈ part.toList := by
  rw [String.toList_intercalate, mem_intercalate (not_mem_of_isControl control plain)]
  simp

theorem mem_escapeAfter (control : isControl c = true) (before : Option Char) (text : List Char) :
    c ∈ Docstring.escapeAfter before text ↔ c ∈ text := by
  have notSlash : c ≠ '\\' := ne_of_isControl control (by decide)
  have notQuote : c ≠ '"' := ne_of_isControl control (by decide)
  induction text generalizing before with
  | nil => rfl
  | cons d rest ih =>
    by_cases isSlash : d = '\\'
    · subst isSlash
      rw [Docstring.escapeAfter]
      simp [ih, notSlash]
    by_cases isQuote : d = '"'
    · subst isQuote
      rw [Docstring.escapeAfter]
      split <;> simp [ih, notSlash, notQuote]
    rw [Docstring.escapeAfter_plain isSlash isQuote]
    simp [ih]

/-- A control character is escaped by its number, and other characters are none. -/
theorem isControl_of_mem_escaped {d : Char} (member : d ∈ Quoted.escaped c) : isControl d = false := by
  have short : ∀ mark, isControl mark = false → d ∈ ['\\', mark] → isControl d = false := by
    intro mark plain member
    rcases List.mem_pair.1 member with rfl | rfl
    · decide
    · exact plain
  unfold Quoted.escaped at member
  split at member
  · exact short '\\' (by decide) member
  split at member
  · exact short '"' (by decide) member
  split at member
  · exact short 'n' (by decide) member
  split at member
  · exact short 'r' (by decide) member
  split at member
  · exact short 't' (by decide) member
  split at member
  · -- The character may be one of control, but its escape has nothing but its number in base 16.
    have digits : ∀ digit ∈ fourHexDigits c.toNat, isControl digit = false :=
      fun digit isDigit => isControl_of_isAlphanum (Quoted.isAlphanum_of_mem_fourHexDigits isDigit)
    rcases List.mem_cons.1 member with rfl | member
    · decide
    · rcases List.mem_cons.1 member with rfl | member
      · decide
      · exact digits d member
  · rename_i plain
    rw [List.mem_singleton.1 member]
    exact Bool.eq_false_iff.2 plain

theorem not_mem_quote (control : isControl c = true) (text : String) : ¬ c ∈ (Quoted.quote text).toList := by
  have inside : ¬ c ∈ text.toList.flatMap Quoted.escaped := by
    intro member
    obtain ⟨d, -, member⟩ := List.mem_flatMap.1 member
    exact absurd control (by simp [isControl_of_mem_escaped member])
  have notQuote : c ≠ '"' := ne_of_isControl control (by decide)
  simp [Quoted.quote, inside, notQuote]

end

end Text

namespace Literal

open Text
open Quoted (isControl)

variable {c : Char}

theorem isControl_of_isNumberChar (isNumber : Binary64.isNumberChar c = true) : isControl c = false := by
  simp only [Binary64.isNumberChar, Bool.or_eq_true, decide_eq_true_eq] at isNumber
  rcases isNumber with ((digit | rfl) | rfl) | rfl
  · exact isControl_of_isAlphanum (by simp [Char.isAlphanum, digit])
  · decide
  · decide
  · decide

theorem not_mem_stubForm (control : isControl c = true) (value : Literal) : ¬ c ∈ value.stubForm.toList := by
  cases value with
  | null => exact not_mem_of_isControl control (by decide)
  | bool value => cases value <;> exact not_mem_of_isControl control (by decide)
  | int value =>
    refine not_mem_of_isControl control fun mark member => isControl_of_isNumberChar ?_
    rcases Decimal.isDigit_or_minus_of_mem_toString member with digit | rfl
    · exact Binary64.isNumberChar_digit digit
    · decide
  | float value =>
    cases value with
    | nan => exact not_mem_of_isControl control (by decide)
    | infinite negative => cases negative <;> exact not_mem_of_isControl control (by decide)
    | finite negative mantissa scale =>
      exact not_mem_of_isControl control fun mark member =>
        isControl_of_isNumberChar ((Binary64.text_finite_chars negative mantissa scale).1 mark member)
  | text value => exact not_mem_quote control value
  | textTuple items =>
    change ¬ c ∈ (tupleForm items).toList
    unfold tupleForm
    split
    · simp only [String.toList_append, List.mem_append, not_or]
      exact ⟨⟨not_mem_of_isControl control (by decide), not_mem_quote control _⟩,
        not_mem_of_isControl control (by decide)⟩
    · simp only [String.toList_append, List.mem_append, not_or, mem_intercalate_texts control ", " (by decide)]
      refine ⟨⟨not_mem_of_isControl control (by decide), ?_⟩, not_mem_of_isControl control (by decide)⟩
      rintro ⟨item, quoted, inside⟩
      obtain ⟨text, -, rfl⟩ := List.mem_map.1 quoted
      exact not_mem_quote control text inside

end Literal

/-! ### Reading a literal value back

The reader tells a value by its first character, or by the run of characters that it begins with.
-/

namespace Literal

open Text

/-- The characters of numbers and of the words for single values. -/
def isWordChar (c : Char) : Bool := c.isAlphanum || c = '.' || c = '-'

def ofWord? (word : List Char) : Option Literal :=
  if word = "None".toList then some .null
  else if word = "True".toList then some (.bool true)
  else if word = "False".toList then some (.bool false)
  else if word.any Binary64.isFractionMark then (Binary64.read? (String.ofList word)).map .float
  else (Decimal.readInt? word).map fun n => .int (Int64.ofInt n)

def readConversion? : List Char → Option (Literal × List Char)
  | '(' :: rest =>
    match Quoted.read? rest with
    | some (word, ')' :: rest) => (Binary64.read? (String.ofList word)).map fun number => (.float number, rest)
    | _ => none
  | _ => none

def readTexts? (written : List Char) : Option (List String × List Char) :=
  match _ : Quoted.read? written with
  | none => none
  | some (item, ',' :: ' ' :: rest) => (readTexts? rest).map fun read => (String.ofList item :: read.1, read.2)
  | some (item, rest) => some ([String.ofList item], rest)
  termination_by written.length
  decreasing_by
    rename_i found
    have := Quoted.length_of_read? found
    simp only [List.length_cons] at this
    omega

/-- Read a tuple from what follows its opening parenthesis. A comma after its only item is what makes it a tuple. -/
def readTuple? (written : List Char) : Option (Literal × List Char) :=
  match written with
  | ')' :: rest => some (.textTuple [], rest)
  | _ =>
    match readTexts? written with
    | some ([item], ',' :: ')' :: rest) => some (.textTuple [item], rest)
    | some (first :: second :: items, ')' :: rest) => some (.textTuple (first :: second :: items), rest)
    | _ => none

def read? (written : List Char) : Option (Literal × List Char) :=
  match written with
  | '(' :: rest => readTuple? rest
  | '"' :: _ => (Quoted.read? written).map fun read => (.text (String.ofList read.1), read.2)
  | _ =>
    if written.takeWhile isWordChar = "float".toList then readConversion? (written.dropWhile isWordChar)
    else (ofWord? (written.takeWhile isWordChar)).map fun value => (value, written.dropWhile isWordChar)

/-- A literal that a module can hold: a floating-point number is in the form in which 64 bits hold it. -/
def IsStored : Literal → Prop
  | .float number => number.IsNormal
  | _ => True

variable {rest : List Char}

theorem read?_run {word : List Char} (filled : word ≠ []) (chars : ∀ c ∈ word, isWordChar c = true)
    (ends : EndsRun isWordChar rest) : read? (word ++ rest) =
      if word = "float".toList then readConversion? rest else (ofWord? word).map fun value => (value, rest) := by
  obtain ⟨c, more, rfl⟩ := List.exists_cons_of_ne_nil filled
  have first : isWordChar c = true := chars c List.mem_cons_self
  unfold read?
  split
  · rename_i same
    cases same
    cases first
  · rename_i same
    cases same
    cases first
  · rw [takeWhile_run chars ends, dropWhile_run chars ends]

theorem read?_word {word : List Char} {value : Literal} (filled : word ≠ [])
    (chars : ∀ c ∈ word, isWordChar c = true) (ends : EndsRun isWordChar rest) (notFloat : word ≠ "float".toList)
    (isValue : ofWord? word = some value) : read? (word ++ rest) = some (value, rest) := by
  rw [read?_run filled chars ends, if_neg notFloat, isValue]
  rfl

theorem isWordChar_of_isNumberChar {c : Char} (isNumber : Binary64.isNumberChar c = true) : isWordChar c = true := by
  simp only [Binary64.isNumberChar, Bool.or_eq_true, decide_eq_true_eq] at isNumber
  rcases isNumber with ((digit | rfl) | rfl) | rfl
  · simp [isWordChar, Char.isAlphanum, digit]
  all_goals rfl

/-- The words for single values and for conversions have letters that numbers do not have. -/
theorem ne_of_isNumberChar {word other : List Char} (chars : ∀ c ∈ word, Binary64.isNumberChar c = true)
    (letter : other.all Binary64.isNumberChar = false) : word ≠ other := by
  rintro rfl
  rw [List.all_eq_true.2 chars] at letter
  cases letter

theorem ofWord?_number {word : List Char} (chars : ∀ c ∈ word, Binary64.isNumberChar c = true) :
    ofWord? word = if word.any Binary64.isFractionMark then (Binary64.read? (String.ofList word)).map .float
      else (Decimal.readInt? word).map fun n => .int (Int64.ofInt n) := by
  unfold ofWord?
  rw [if_neg (ne_of_isNumberChar chars rfl), if_neg (ne_of_isNumberChar chars rfl),
    if_neg (ne_of_isNumberChar chars rfl)]

theorem read?_number {word : List Char} {value : Literal} (filled : word ≠ [])
    (chars : ∀ c ∈ word, Binary64.isNumberChar c = true) (ends : EndsRun isWordChar rest)
    (isValue : ofWord? word = some value) : read? (word ++ rest) = some (value, rest) :=
  read?_word filled (fun c member => isWordChar_of_isNumberChar (chars c member)) ends
    (ne_of_isNumberChar chars rfl) isValue

theorem read?_int (value : Int64) (ends : EndsRun isWordChar rest) :
    read? ((Literal.int value).stubForm.toList ++ rest) = some (.int value, rest) := by
  have digitOrMinus : ∀ c ∈ (toString value.toInt).toList, c.isDigit = true ∨ c = '-' :=
    fun c member => Decimal.isDigit_or_minus_of_mem_toString member
  have chars : ∀ c ∈ (toString value.toInt).toList, Binary64.isNumberChar c = true := by
    intro c member
    rcases digitOrMinus c member with digit | rfl
    · simp [Binary64.isNumberChar, digit]
    · rfl
  have whole : (toString value.toInt).toList.any Binary64.isFractionMark = false := by
    rw [List.any_eq_false]
    intro c member mark
    simp only [Binary64.isFractionMark, Bool.or_eq_true, decide_eq_true_eq] at mark
    rcases digitOrMinus c member with digit | rfl
    · rcases mark with rfl | rfl <;> cases digit
    · rcases mark with impossible | impossible <;> cases impossible
  refine @read?_number rest (toString value.toInt).toList _ ?_ chars ends ?_
  · intro isEmpty
    have read := Decimal.readInt?_toString value.toInt
    rw [isEmpty] at read
    cases read
  · rw [ofWord?_number chars, if_neg (whole ▸ Bool.false_ne_true), Decimal.readInt?_toString, Option.map_some,
      Int64.ofInt_toInt]

theorem read?_float {number : Binary64} (normal : number.IsNormal) (ends : EndsRun isWordChar rest) :
    read? ((Literal.float number).stubForm.toList ++ rest) = some (.float number, rest) := by
  have conversion : ∀ word : String, (Binary64.read? word) = some number →
      (Literal.float number).stubForm = "float(" ++ Quoted.quote word ++ ")" →
      read? ((Literal.float number).stubForm.toList ++ rest) = some (.float number, rest) := by
    intro word read form
    have written : (Literal.float number).stubForm.toList ++ rest =
        "float".toList ++ ('(' :: ((Quoted.quote word).toList ++ (')' :: rest))) := by
      rw [form]
      simp
    rw [written, read?_run (by decide) (List.all_eq_true.1 rfl) (endsRun_cons.2 rfl), if_pos rfl, readConversion?,
      Quoted.read?_quote]
    simp [read]
  match number, normal with
  | .nan, _ => exact conversion "nan" (by decide) (by decide)
  | .infinite true, _ => exact conversion "-inf" (by decide) (by decide)
  | .infinite false, _ => exact conversion "inf" (by decide) (by decide)
  | .finite negative mantissa scale, normal =>
    obtain ⟨chars, c, member, mark⟩ := Binary64.text_finite_chars negative mantissa scale
    have fraction : (Binary64.finite negative mantissa scale).text.toList.any Binary64.isFractionMark = true :=
      List.any_eq_true.2 ⟨c, member, mark⟩
    refine @read?_number rest (Binary64.finite negative mantissa scale).text.toList _ (List.ne_nil_of_mem member) chars
      ends ?_
    rw [ofWord?_number chars, if_pos fraction, String.ofList_toList, Binary64.read?_text normal]
    rfl

/-! ### Tuples -/

def quotedTexts (items : List String) : List Char := separated [',', ' '] (fun item => (Quoted.quote item).toList) items

theorem readTexts?_quotedTexts {items : List String} (filled : items ≠ [])
    (ends : ∀ later, rest ≠ ',' :: ' ' :: later) :
    readTexts? (quotedTexts items ++ rest) = some (items, rest) := by
  -- The three ways out of the reader are told apart by what follows the literal: nothing, a separator or anything else.
  induction items with
  | nil => exact absurd rfl filled
  | cons item items ih =>
    unfold readTexts?
    cases items with
    | nil =>
      rw [quotedTexts, separated_singleton]
      split
      · rename_i found
        rw [Quoted.read?_quote] at found
        cases found
      · rename_i found
        rw [Quoted.read?_quote] at found
        cases found
        exact absurd rfl (ends _)
      · rename_i found
        rw [Quoted.read?_quote] at found
        cases found
        rw [String.ofList_toList]
    | cons next items =>
      rw [quotedTexts, separated_cons_cons, List.append_assoc]
      split
      · rename_i found
        rw [Quoted.read?_quote] at found
        cases found
      · rename_i found
        rw [Quoted.read?_quote] at found
        cases found
        rw [String.ofList_toList]
        exact congrArg (Option.map _) (ih (List.cons_ne_nil _ _))
      · rename_i other found
        rw [Quoted.read?_quote] at found
        cases found
        exact (other _ rfl).elim

/-- Texts in quotes do not begin with the parenthesis that closes an empty tuple. -/
theorem quotedTexts_not_closed {items : List String} (filled : items ≠ []) (later : List Char) :
    quotedTexts items ++ rest ≠ ')' :: later := by
  obtain ⟨item, items, rfl⟩ := List.exists_cons_of_ne_nil filled
  obtain ⟨more, begins⟩ := @separated_cons String (fun item => (Quoted.quote item).toList) [',', ' '] item items
  rw [quotedTexts, begins, Quoted.quote, String.toList_ofList]
  simp

theorem toList_texts (items : List String) :
    (", ".intercalate (items.map Quoted.quote)).toList = quotedTexts items := by
  rw [String.toList_intercalate, List.map_map]
  rfl

theorem read?_textTuple (items : List String) :
    read? ((Literal.textTuple items).stubForm.toList ++ rest) = some (.textTuple items, rest) := by
  match items with
  | [] => rfl
  | [item] =>
    have written : (Literal.textTuple [item]).stubForm.toList ++ rest =
        '(' :: (quotedTexts [item] ++ ',' :: ')' :: rest) := by
      simp [stubForm, tupleForm, quotedTexts]
    rw [written, read?, readTuple?, readTexts?_quotedTexts (List.cons_ne_nil _ _) (by simp)]
    · rfl
    · exact fun later => quotedTexts_not_closed (List.cons_ne_nil _ _) later
  | first :: second :: items =>
    have written : (Literal.textTuple (first :: second :: items)).stubForm.toList ++ rest =
        '(' :: (quotedTexts (first :: second :: items) ++ ')' :: rest) := by
      simp [stubForm, tupleForm, ← toList_texts]
    rw [written, read?, readTuple?, readTexts?_quotedTexts (List.cons_ne_nil _ _) (by simp)]
    · rfl
    · exact fun later => quotedTexts_not_closed (List.cons_ne_nil _ _) later

/-- Every literal is read back from its form in a stub, and the reader stops right after it. -/
theorem read?_stubForm {value : Literal} (stored : value.IsStored) (ends : EndsRun isWordChar rest) :
    read? (value.stubForm.toList ++ rest) = some (value, rest) := by
  cases value with
  | null => exact read?_word (by decide) (List.all_eq_true.1 rfl) ends (by decide) rfl
  | bool value => cases value <;> exact read?_word (by decide) (List.all_eq_true.1 rfl) ends (by decide) rfl
  | int value => exact read?_int value ends
  | float number => exact read?_float stored ends
  | text value =>
    obtain ⟨more, begins⟩ : ∃ more, (Literal.text value).stubForm.toList ++ rest = '"' :: more := by
      rw [stubForm, Quoted.quote, String.toList_ofList]
      exact ⟨_, rfl⟩
    have quoted := Quoted.read?_quote value rest
    rw [← stubForm, begins] at quoted
    rw [begins, read?, quoted, Option.map_some, String.ofList_toList]
  | textTuple items => exact read?_textTuple items

theorem legible_stubForm (value : Literal) (stored : value.IsStored) :
    Legible (fun value => value.stubForm.toList) IsStored (EndsRun isWordChar) id value := by
  intro other rest later otherStored ends otherEnds same
  have read := read?_stubForm stored ends
  rw [same, read?_stubForm otherStored otherEnds] at read
  cases read
  exact ⟨rfl, rfl⟩

/-! ### Forms without loss -/

theorem isStored_of_ne_float {value : Literal} (notFloat : ∀ number, value ≠ .float number) : value.IsStored := by
  cases value with
  | float number => exact absurd rfl (notFloat number)
  | _ => trivial

theorem read?_whole {value : Literal} (stored : value.IsStored) : read? value.stubForm.toList = some (value, []) := by
  have read := @read?_stubForm [] value stored endsRun_nil
  rwa [List.append_nil] at read

theorem eq_of_stubForm_eq {value other : Literal} (stored : value.IsStored) (otherStored : other.IsStored)
    (same : value.stubForm = other.stubForm) : value = other := by
  have read := read?_whole stored
  rw [same, read?_whole otherStored] at read
  cases read
  rfl

/-- A quoted text and the form of a literal other than a floating-point number are read back whole: a quoted text has
no control character, an integer is written in digits, and different literals have different forms. -/
theorem forms_are_lossless :
    (∀ text : String, Quoted.read? (Quoted.quote text).toList = some (text.toList, []) ∧
      IsPlain (Quoted.quote text).toList) ∧
    (∀ value : Literal, (∀ number, value ≠ .float number) → read? value.stubForm.toList = some (value, [])) ∧
    (∀ value : Int64, Decimal.readInt? (Literal.int value).stubForm.toList = some value.toInt) ∧
    ∀ value other : Literal, (∀ number, value ≠ .float number) → (∀ number, other ≠ .float number) →
      (value.stubForm = other.stubForm ↔ value = other) := by
  refine ⟨fun text => ⟨?_, ?_⟩, ?_, fun value => Decimal.readInt?_toString value.toInt, ?_⟩
  · have read := Quoted.read?_quote text []
    rwa [List.append_nil] at read
  · intro mark member
    rw [← Bool.not_eq_true]
    exact fun control => not_mem_quote control text member
  · exact fun value notFloat => read?_whole (isStored_of_ne_float notFloat)
  · intro value other notFloat otherNotFloat
    refine ⟨fun same => ?_, fun same => same ▸ rfl⟩
    exact eq_of_stubForm_eq (isStored_of_ne_float notFloat) (isStored_of_ne_float otherNotFloat) same

theorem intricate_tuple_read :
    (Literal.textTuple ["say \"x\", (y)", "\\u0041\u0085"]).stubForm =
      "(\"say \\\"x\\\", (y)\", \"\\\\u0041\\u0085\")" ∧
    read? "(\"say \\\"x\\\", (y)\", \"\\\\u0041\\u0085\")".toList =
      some (.textTuple ["say \"x\", (y)", "\\u0041\u0085"], []) ∧
    (Literal.text "None").stubForm ≠ Literal.null.stubForm := by
  have form : (Literal.textTuple ["say \"x\", (y)", "\\u0041\u0085"]).stubForm =
      "(\"say \\\"x\\\", (y)\", \"\\\\u0041\\u0085\")" := by rfl
  obtain ⟨-, read, -, injective⟩ := forms_are_lossless
  refine ⟨form, ?_, fun same => ?_⟩
  · rw [← form]
    exact read (.textTuple ["say \"x\", (y)", "\\u0041\u0085"]) (fun number impossible => nomatch impossible)
  · have same := (injective (.text "None") .null (fun number impossible => nomatch impossible)
      (fun number impossible => nomatch impossible)).1 same
    cases same

end Literal

end TypedStub

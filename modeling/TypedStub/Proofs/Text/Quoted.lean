import TypedStub.Proofs.Text.Runs
import TypedStub.Text

/-! String literals: reading one back, and the separators of a text that stand outside of all literals and brackets.

A literal ends at the first quote that is not escaped, so what follows it makes no difference to what is read.
-/

set_option autoImplicit false

namespace TypedStub.Text.Quoted

def readInside? : List Char → Option (List Char × List Char)
  | [] => none
  | '"' :: rest => some ([], rest)
  | '\\' :: rest =>
    match rest with
    | '\\' :: rest => (readInside? rest).map fun read => ('\\' :: read.1, read.2)
    | '"' :: rest => (readInside? rest).map fun read => ('"' :: read.1, read.2)
    | 'n' :: rest => (readInside? rest).map fun read => ('\n' :: read.1, read.2)
    | 'r' :: rest => (readInside? rest).map fun read => ('\r' :: read.1, read.2)
    | 't' :: rest => (readInside? rest).map fun read => ('\t' :: read.1, read.2)
    | 'u' :: first :: second :: third :: fourth :: rest =>
      (hexChar? [first, second, third, fourth]).bind fun c => (readInside? rest).map fun read => (c :: read.1, read.2)
    | _ => none
  | c :: rest => (readInside? rest).map fun read => (c :: read.1, read.2)

def read? : List Char → Option (List Char × List Char)
  | '"' :: rest => readInside? rest
  | _ => none

theorem length_of_readInside? (text : List Char) :
    ∀ read, readInside? text = some read → read.2.length < text.length := by
  have longer : ∀ {rest : List Char} {c : Char}, (∀ read, readInside? rest = some read → read.2.length < rest.length) →
      ∀ read, ((readInside? rest).map fun read => (c :: read.1, read.2)) = some read →
        read.2.length < rest.length := by
    intro rest c ih read found
    obtain ⟨inner, foundInner, rfl⟩ := Option.map_eq_some_iff.1 found
    exact ih inner foundInner
  fun_induction readInside? text with
  | case1 | case9 => exact fun _ impossible => by cases impossible
  | case2 rest =>
    intro read found
    cases found
    exact Nat.lt_succ_self _
  | case3 _ ih | case4 _ ih | case5 _ ih | case6 _ ih | case7 _ ih | case10 _ _ _ _ ih =>
    intro read found
    have := longer ih read found
    simp only [List.length_cons]
    omega
  | case8 _ _ _ _ _ ih =>
    intro read found
    obtain ⟨c, -, found⟩ := Option.bind_eq_some_iff.1 found
    have := longer ih read found
    simp only [List.length_cons]
    omega

theorem length_of_read? {text : List Char} {read : List Char × List Char} (found : read? text = some read) :
    read.2.length < text.length := by
  unfold read? at found
  split at found
  · exact Nat.lt_succ_of_lt (length_of_readInside? _ _ found)
  · cases found

theorem isAlphanum_of_mem_fourHexDigits {n : Nat} {c : Char} (member : c ∈ fourHexDigits n) :
    c.isAlphanum = true := by
  have digits : ∀ n, (Nat.digitChar (n % 16)).isAlphanum = true := by
    have small : ∀ n < 16, (Nat.digitChar n).isAlphanum = true := by decide
    exact fun n => small _ (Nat.mod_lt n (by decide))
  simp only [fourHexDigits, List.map_cons, List.map_nil, List.mem_cons, List.not_mem_nil, or_false] at member
  rcases member with rfl | rfl | rfl | rfl <;> exact digits _

set_option maxRecDepth 4000 in
theorem hexChar?_fourHexDigits {c : Char} (control : isControl c = true) :
    hexChar? (fourHexDigits c.toNat) = some c := by
  have small : c.toNat < 160 := by
    simp only [isControl, Bool.or_eq_true, Bool.and_eq_true, decide_eq_true_eq] at control
    omega
  have numbers : ∀ n < 160, hexNumber? (fourHexDigits n) = some n := by decide
  rw [hexChar?, numbers _ small, Option.bind_some, dif_pos (show c.toNat.isValidChar from c.valid)]
  rfl

theorem readInside?_plain {c : Char} (notSlash : c ≠ '\\') (notQuote : c ≠ '"') (rest : List Char) :
    readInside? (c :: rest) = (readInside? rest).map fun read => (c :: read.1, read.2) := by
  rw [readInside?.eq_def]
  split
  · rename_i impossible
    cases impossible
  · rename_i same
    cases same
    exact absurd rfl notQuote
  · rename_i same
    cases same
    exact absurd rfl notSlash
  · rename_i same
    cases same
    rfl

theorem readInside?_escaped (c : Char) (rest : List Char) :
    readInside? (escaped c ++ rest) = (readInside? rest).map fun read => (c :: read.1, read.2) := by
  unfold escaped
  split
  · rename_i same
    rw [same]
    rfl
  rename_i notSlash
  split
  · rename_i same
    rw [same]
    rfl
  rename_i notQuote
  split
  · rename_i same
    rw [same]
    rfl
  split
  · rename_i same
    rw [same]
    rfl
  split
  · rename_i same
    rw [same]
    rfl
  split
  · rename_i control
    calc readInside? ('\\' :: 'u' :: fourHexDigits c.toNat ++ rest)
      _ = (hexChar? (fourHexDigits c.toNat)).bind fun c =>
          (readInside? rest).map fun read => (c :: read.1, read.2) := rfl
      _ = (readInside? rest).map fun read => (c :: read.1, read.2) := by rw [hexChar?_fourHexDigits control]; rfl
  · exact readInside?_plain notSlash notQuote rest

theorem readInside?_flatMap_escaped (text rest : List Char) :
    readInside? (text.flatMap escaped ++ '"' :: rest) = some (text, rest) := by
  induction text with
  | nil => rfl
  | cons c text ih =>
    rw [List.flatMap_cons, List.append_assoc, readInside?_escaped, ih]
    rfl

/-- A quoted text is read back, and the reader stops right after it. -/
theorem read?_quote (text : String) (rest : List Char) :
    read? ((quote text).toList ++ rest) = some (text.toList, rest) := by
  rw [quote, String.toList_ofList, List.cons_append, List.append_assoc]
  exact readInside?_flatMap_escaped text.toList rest

end TypedStub.Text.Quoted

/-! ### Cutting a text at the separators that stand in the open

A separator inside brackets or inside a string literal belongs to what is written there. The scanner keeps the depth of
the brackets that are open and the mark of the literal that it is in.
-/

namespace TypedStub.Text

def isOpening (c : Char) : Bool := c = '(' || c = '[' || c = '\x7b'

def isClosing (c : Char) : Bool := c = ')' || c = ']' || c = '\x7d'

def isQuoteMark (c : Char) : Bool := c = '"' || c = '\x27'

/-- A character that takes the scanner to another place. -/
def isBoundary (c : Char) : Bool := isOpening c || isClosing c || isQuoteMark c

def boundaryMarks : List Char := ['(', '[', '\x7b', ')', ']', '\x7d', '"', '\x27']

theorem isBoundary_iff_mem {c : Char} : isBoundary c = true ↔ c ∈ boundaryMarks := by
  simp [isBoundary, isOpening, isClosing, isQuoteMark, boundaryMarks, or_assoc]

def IsFlat (text : List Char) : Prop := ∀ c ∈ text, isBoundary c = false

instance (text : List Char) : Decidable (IsFlat text) := List.decidableBAll _ _

theorem isFlat_run {inside : Char → Bool} {run : List Char} (members : ∀ c ∈ run, inside c = true)
    (others : boundaryMarks.any inside = false) : IsFlat run := by
  intro c member
  rw [← Bool.not_eq_true]
  intro boundary
  exact List.any_eq_false.1 others c (isBoundary_iff_mem.1 boundary) (members c member)

/-- Where the scanner stands: among brackets of some depth, or in a literal that its mark closes. -/
inductive Place where
  | code (depth : Nat)
  | literal (mark : Char) (depth : Nat)
  | escape (mark : Char) (depth : Nat)
  deriving DecidableEq

def Place.next : Place → Char → Place
  | .code depth, c =>
    if isOpening c then .code (depth + 1)
    else if isClosing c then .code (depth - 1)
    else if isQuoteMark c then .literal c depth
    else .code depth
  | .literal mark depth, c =>
    if c = '\\' then .escape mark depth else if c = mark then .code depth else .literal mark depth
  | .escape mark depth, _ => .literal mark depth

/-- The pieces of a text between the separators outside of all brackets and literals. -/
def outerPieces (separator : Char) : Place → List Char → List (List Char)
  | _, [] => [[]]
  | place, c :: rest =>
    if place = .code 0 ∧ c = separator then [] :: outerPieces separator place rest
    else (outerPieces separator (place.next c) rest).modifyHead (c :: ·)

def outerEntries (separator : Char) (text : List Char) : List (List Char) :=
  (outerPieces separator (.code 0) text).map fun piece => piece.dropWhile (· = ' ')

/-- Where the scanner stands behind a text, unless it meets a separator in the open. -/
def pass? (separator : Char) : Place → List Char → Option Place
  | place, [] => some place
  | place, c :: rest =>
    if place = .code 0 ∧ c = separator then none else pass? separator (place.next c) rest

variable {separator : Char} {place : Place} {depth : Nat} {text rest : List Char}

theorem pass?_append (first second : List Char) : pass? separator place (first ++ second) =
    (pass? separator place first).bind fun place => pass? separator place second := by
  induction first generalizing place with
  | nil => rfl
  | cons c first ih =>
    simp only [List.cons_append, pass?]
    split
    · rfl
    · exact ih

theorem outerPieces_of_pass? {stop : Place} (passes : pass? separator place text = some stop) :
    outerPieces separator place text = [text] := by
  induction text generalizing place with
  | nil => rfl
  | cons c text ih =>
    rw [pass?] at passes
    split at passes
    · cases passes
    · rename_i inside
      rw [outerPieces, if_neg inside, ih passes]
      rfl

theorem outerPieces_append (passes : pass? separator place text = some (.code 0)) :
    outerPieces separator place (text ++ separator :: rest) = text :: outerPieces separator (.code 0) rest := by
  -- The place moves on with every character, so the induction is for all places.
  induction text generalizing place with
  | nil =>
    cases passes
    simp [outerPieces]
  | cons c text ih =>
    rw [pass?] at passes
    split at passes
    · cases passes
    · rename_i inside
      rw [List.cons_append, outerPieces, if_neg inside, ih passes]
      rfl

/-! ### Texts without a separator in the open -/

/-- The scanner comes back to where it was, and what it passes has no separator in the open. -/
def Enclosed (separator : Char) (depth : Nat) (text : List Char) : Prop :=
  pass? separator (.code depth) text = some (.code depth)

instance (separator : Char) (depth : Nat) (text : List Char) : Decidable (Enclosed separator depth text) :=
  inferInstanceAs (Decidable (_ = _))

namespace Enclosed

theorem nil : Enclosed separator depth [] := rfl

theorem append {first second : List Char} (isFirst : Enclosed separator depth first)
    (isSecond : Enclosed separator depth second) : Enclosed separator depth (first ++ second) := by
  rw [Enclosed, pass?_append, isFirst]
  exact isSecond

theorem of_isFlat (isFlat : IsFlat text) (absent : depth = 0 → ¬ separator ∈ text) :
    Enclosed separator depth text := by
  induction text with
  | nil => exact nil
  | cons c text ih =>
    have noBoundary := isFlat c List.mem_cons_self
    simp only [isBoundary, Bool.or_eq_false_iff] at noBoundary
    obtain ⟨⟨notOpening, notClosing⟩, notQuote⟩ := noBoundary
    have inside : ¬ (Place.code depth = .code 0 ∧ c = separator) := by
      rintro ⟨atZero, rfl⟩
      cases atZero
      exact absent rfl List.mem_cons_self
    have stays : (Place.code depth).next c = .code depth := by
      simp [Place.next, notOpening, notClosing, notQuote]
    rw [Enclosed, pass?, if_neg inside, stays]
    exact ih (fun c member => isFlat c (List.mem_cons_of_mem _ member))
      fun atZero member => absent atZero (List.mem_cons_of_mem _ member)

theorem deep (isFlat : IsFlat text) : Enclosed separator (depth + 1) text :=
  of_isFlat isFlat fun atZero => nomatch atZero

theorem bracketed {opening closing : Char} (opens : isOpening opening = true) (closes : isClosing closing = true)
    (other : opening ≠ separator) (inside : Enclosed separator (depth + 1) text) :
    Enclosed separator depth (opening :: (text ++ [closing])) := by
  have notOpening : isOpening closing = false := by
    simp only [isClosing, Bool.or_eq_true, decide_eq_true_eq] at closes
    rcases closes with (rfl | rfl) | rfl <;> decide
  have enters : (Place.code depth).next opening = .code (depth + 1) := by simp [Place.next, opens]
  have leaves : (Place.code (depth + 1)).next closing = .code depth := by simp [Place.next, notOpening, closes]
  rw [Enclosed, pass?, if_neg fun same => other same.2, enters, pass?_append, inside]
  simp [pass?, leaves]

theorem intercalate {between : List Char} {parts : List (List Char)} (isBetween : Enclosed separator depth between)
    (each : ∀ part ∈ parts, Enclosed separator depth part) :
    Enclosed separator depth (between.intercalate parts) := by
  induction parts with
  | nil => exact nil
  | cons part parts ih =>
    have later := ih fun part member => each part (List.mem_cons_of_mem _ member)
    cases parts with
    | nil => simpa using each part List.mem_cons_self
    | cons next parts =>
      rw [List.intercalate_cons_cons]
      exact ((each part List.mem_cons_self).append isBetween).append later

theorem pass?_literal (mark c : Char) : pass? separator (.literal mark depth) (c :: rest) =
    pass? separator ((Place.literal mark depth).next c) rest :=
  if_neg fun same => nomatch same.1

/-- A character inside a literal that neither closes it nor escapes the next one leaves the scanner inside. -/
theorem pass?_inside {run : List Char} {mark : Char} (inside : ∀ c ∈ run, c ≠ '\\' ∧ c ≠ mark) :
    pass? separator (.literal mark depth) (run ++ rest) = pass? separator (.literal mark depth) rest := by
  induction run with
  | nil => rfl
  | cons c run ih =>
    obtain ⟨notSlash, notMark⟩ := inside c List.mem_cons_self
    have stays : (Place.literal mark depth).next c = .literal mark depth := by simp [Place.next, notSlash, notMark]
    rw [List.cons_append, pass?_literal, stays]
    exact ih fun c member => inside c (List.mem_cons_of_mem _ member)

theorem pass?_escape (mark c : Char) : pass? separator (.literal mark depth) ('\\' :: c :: rest) =
    pass? separator (.literal mark depth) rest := by
  simp [pass?, Place.next]

theorem pass?_escaped (c : Char) : pass? separator (.literal '"' depth) (Quoted.escaped c ++ rest) =
    pass? separator (.literal '"' depth) rest := by
  unfold Quoted.escaped
  split
  · exact pass?_escape _ _
  rename_i notSlash
  split
  · exact pass?_escape _ _
  rename_i notQuote
  split
  · exact pass?_escape _ _
  split
  · exact pass?_escape _ _
  split
  · exact pass?_escape _ _
  split
  · have digits : ∀ digit ∈ fourHexDigits c.toNat, digit ≠ '\\' ∧ digit ≠ '"' := by
      intro digit member
      have isDigit := Quoted.isAlphanum_of_mem_fourHexDigits member
      constructor <;> rintro rfl <;> cases isDigit
    exact (pass?_escape _ _).trans (pass?_inside digits)
  · exact pass?_inside fun other member => List.mem_singleton.1 member ▸ ⟨notSlash, notQuote⟩

theorem quote (other : '"' ≠ separator) (text : String) : Enclosed separator depth (Quoted.quote text).toList := by
  have inside : ∀ text : List Char, pass? separator (.literal '"' depth) (text.flatMap Quoted.escaped ++ ['"']) =
      some (.code depth) := by
    intro text
    induction text with
    | nil => simp [pass?, Place.next]
    | cons c text ih => rw [List.flatMap_cons, List.append_assoc, pass?_escaped, ih]
  have enters : (Place.code depth).next '"' = .literal '"' depth := rfl
  rw [Enclosed, Quoted.quote, String.toList_ofList, pass?, if_neg fun same => other same.2, enters]
  exact inside text.toList

end Enclosed

/-- Parts with a separator and a blank between them are the entries of the text, if each is enclosed. -/
theorem outerEntries_intercalate (other : ' ' ≠ separator) {parts : List (List Char)} (filled : parts ≠ [])
    (enclosed : ∀ part ∈ parts, Enclosed separator 0 part) (begins : ∀ part ∈ parts, part.head? ≠ some ' ') :
    outerEntries separator ([separator, ' '].intercalate parts) = parts := by
  have whole : ∀ part ∈ parts, part.dropWhile (· = ' ') = part := by
    intro part member
    have first := begins part member
    cases part with
    | nil => rfl
    | cons c part => exact List.dropWhile_cons_of_neg (by simpa using first)
  -- The blank behind a separator goes to the next piece, and is dropped from it there.
  have blank : ∀ text, outerEntries separator (' ' :: text) = outerEntries separator text := by
    intro text
    have stays : (Place.code 0).next ' ' = .code 0 := rfl
    rw [outerEntries, outerPieces, if_neg fun same => other same.2, stays, outerEntries]
    cases outerPieces separator (.code 0) text with
    | nil => rfl
    | cons piece pieces => simp
  induction parts with
  | nil => exact absurd rfl filled
  | cons part parts ih =>
    have isWhole := whole part List.mem_cons_self
    have passes := enclosed part List.mem_cons_self
    cases parts with
    | nil => rw [List.intercalate_singleton, outerEntries, outerPieces_of_pass? passes, List.map_singleton, isWhole]
    | cons next parts =>
      have later := ih (List.cons_ne_nil _ _) (fun part member => enclosed part (List.mem_cons_of_mem _ member))
        (fun part member => begins part (List.mem_cons_of_mem _ member))
        (fun part member => whole part (List.mem_cons_of_mem _ member))
      rw [List.intercalate_cons_cons, List.append_assoc]
      calc outerEntries separator (part ++ separator :: ' ' :: [separator, ' '].intercalate (next :: parts))
        _ = part.dropWhile (· = ' ') :: outerEntries separator (' ' :: [separator, ' '].intercalate (next :: parts)) := by
          rw [outerEntries, outerPieces_append passes, List.map_cons]
          rfl
        _ = part :: next :: parts := by rw [isWhole, blank, later]

/-! ### Balanced brackets -/

def closing? : Char → Option Char
  | '(' => some ')'
  | '[' => some ']'
  | '\x7b' => some '\x7d'
  | _ => none

/-- The marks that close what is open behind a text, the innermost first. There are none if a mark closes anything but
the innermost bracket, or if a comma stands outside of all brackets. -/
def unclosed? : List Char → List Char → Option (List Char)
  | closings, [] => some closings
  | closings, c :: rest =>
    match closing? c with
    | some closing => unclosed? (closing :: closings) rest
    | none =>
      if isClosing c then if closings.head? = some c then unclosed? closings.tail rest else none
      else if c = ',' ∧ closings = [] then none
      else unclosed? closings rest

/-- The text closes what it opens, inside of the brackets that these marks close. -/
def IsBalancedIn (closings text : List Char) : Prop := unclosed? closings text = some closings

/-- Every bracket is closed by its own mark, and every comma is inside of brackets. -/
def IsBalanced (text : List Char) : Prop := IsBalancedIn [] text

instance (text : List Char) : Decidable (IsBalanced text) := inferInstanceAs (Decidable (_ = _))

variable {closings : List Char}

theorem unclosed?_append (first second : List Char) :
    unclosed? closings (first ++ second) = (unclosed? closings first).bind fun closings => unclosed? closings second := by
  -- The marks change with every bracket, so the induction is for all of them.
  induction first generalizing closings with
  | nil => rfl
  | cons c first ih =>
    simp only [List.cons_append, unclosed?]
    split
    · exact ih
    · split
      · split
        · exact ih
        · rfl
      · split
        · rfl
        · exact ih

theorem closing?_eq_none {c : Char} (notOpening : isOpening c = false) : closing? c = none := by
  unfold closing?
  split <;> first | rfl | cases notOpening

namespace IsBalancedIn

theorem append {first second : List Char} (isFirst : IsBalancedIn closings first)
    (isSecond : IsBalancedIn closings second) : IsBalancedIn closings (first ++ second) := by
  rw [IsBalancedIn, unclosed?_append, isFirst]
  exact isSecond

theorem of_isFlat (isFlat : IsFlat text) (inside : closings = [] → ¬ ',' ∈ text) : IsBalancedIn closings text := by
  induction text with
  | nil => rfl
  | cons c text ih =>
    have noBoundary := isFlat c List.mem_cons_self
    simp only [isBoundary, Bool.or_eq_false_iff] at noBoundary
    obtain ⟨⟨notOpening, notClosing⟩, -⟩ := noBoundary
    have notOpen : ¬ (c = ',' ∧ closings = []) := by
      rintro ⟨rfl, outermost⟩
      exact inside outermost List.mem_cons_self
    rw [IsBalancedIn, unclosed?, closing?_eq_none notOpening]
    simp only [notClosing, Bool.false_eq_true, if_false, if_neg notOpen]
    exact ih (fun c member => isFlat c (List.mem_cons_of_mem _ member))
      fun outermost member => inside outermost (List.mem_cons_of_mem _ member)

theorem bracketed (inside : IsBalancedIn (']' :: closings) text) :
    IsBalancedIn closings ('[' :: (text ++ [']'])) := by
  have opens : unclosed? closings ('[' :: (text ++ [']'])) = unclosed? (']' :: closings) (text ++ [']']) := rfl
  rw [IsBalancedIn, opens, unclosed?_append, inside]
  rfl

theorem separated {α : Type} {form : α → List Char} {between : List Char} {items : List α}
    (isBetween : IsBalancedIn closings between) (each : ∀ item ∈ items, IsBalancedIn closings (form item)) :
    IsBalancedIn closings (Text.separated between form items) := by
  induction items with
  | nil => rfl
  | cons item items ih =>
    have ⟨first, others⟩ := List.forall_mem_cons.1 each
    cases items with
    | nil => exact (separated_singleton item).symm ▸ first
    | cons next items =>
      rw [separated_cons_cons]
      exact first.append (isBetween.append (ih others))

end IsBalancedIn

end TypedStub.Text

import TypedStub.Text

/-! Settings texts, which are written in the TOML format.

A text is cut into tokens, and these are read as statements. Dates and times are kept in one form, however they are
written.
-/

set_option autoImplicit false

namespace TypedStub.Settings.Date

def twoDigits? (least greatest : Nat) (a b : Char) : Option Nat :=
  if a.isDigit && b.isDigit then
    let n := 10 * (a.toNat - '0'.toNat) + (b.toNat - '0'.toNat)
    if least ≤ n ∧ n ≤ greatest then some n else none
  else none

def daysOfMonth (year month : Nat) : Nat :=
  if month = 2 then
    if year % 4 = 0 ∧ (year % 100 ≠ 0 ∨ year % 400 = 0) then 29 else 28
  else if month = 4 ∨ month = 6 ∨ month = 9 ∨ month = 11 then 30
  else 31

def date? : List Char → Option (List Char × List Char)
  | a :: b :: c :: d :: '-' :: e :: f :: '-' :: g :: h :: rest => do
    let century ← twoDigits? 0 99 a b
    let year ← twoDigits? 0 99 c d
    let month ← twoDigits? 1 12 e f
    let _ ← twoDigits? 1 (daysOfMonth (100 * century + year) month) g h
    return ([a, b, c, d, '-', e, f, '-', g, h], rest)
  | _ => none

/-- The fraction of a second: nine digits count, and zeros at the end are dropped. -/
def fraction? : List Char → Option (List Char × List Char)
  | '.' :: rest =>
    let digits := rest.takeWhile Char.isDigit
    if digits.isEmpty then none
    else
      let kept := ((digits.take 9).reverse.dropWhile (· = '0')).reverse
      some (if kept.isEmpty then [] else '.' :: kept, rest.dropWhile Char.isDigit)
  | rest => some ([], rest)

def time? : List Char → Option (List Char × List Char)
  | a :: b :: ':' :: c :: d :: ':' :: e :: f :: rest => do
    let _ ← twoDigits? 0 23 a b
    let _ ← twoDigits? 0 59 c d
    let _ ← twoDigits? 0 60 e f
    let (fraction, later) ← fraction? rest
    return ([a, b, ':', c, d, ':', e, f] ++ fraction, later)
  | _ => none

/-- The difference to universal time, at the end of the text. A difference of nothing has the sign `+`. -/
def offset? : List Char → Option (List Char)
  | [] => some []
  | ['Z'] | ['z'] => some ['Z']
  | [sign, a, b, ':', c, d] => do
    let hours ← twoDigits? 0 23 a b
    let minutes ← twoDigits? 0 59 c d
    if sign = '+' ∨ sign = '-' then
      return (if hours = 0 ∧ minutes = 0 then '+' else sign) :: [a, b, ':', c, d]
    else none
  | _ => none

def normalize? (text : String) : Option String :=
  match date? text.toList with
  | some (date, []) => some (String.ofList date)
  | some (date, separator :: rest) => do
    if separator = 'T' ∨ separator = 't' ∨ separator = ' ' then
      let (time, later) ← time? rest
      let offset ← offset? later
      return String.ofList (date ++ 'T' :: time ++ offset)
    else none
  | none =>
    match time? text.toList with
    | some (time, []) => some (String.ofList time)
    | _ => none

end TypedStub.Settings.Date

/-! ### Tokens of a settings text -/

namespace TypedStub.Settings

inductive Token where
  | newline
  | equals
  | dot
  | comma
  | openBracket
  | closeBracket
  | openBrace
  | closeBrace
  | bare (key : String)
  | quoted (text : String)
  | block (text : String)
  | plain (text : String)
  deriving DecidableEq, Repr

namespace Token

def joinLineEnds : List Char → List Char
  | '\r' :: '\n' :: rest => '\n' :: joinLineEnds rest
  | c :: rest => c :: joinLineEnds rest
  | [] => []

def isGap (c : Char) : Bool := c = ' ' || c = '\t'

def isBareChar (c : Char) : Bool := c.isAlphanum || c = '_' || c = '-'

def isPrintable (c : Char) : Bool := c = '\t' || (0x20 ≤ c.toNat && c.toNat != 0x7F)

/-- A shorter rest of a text, after something was read from it. -/
abbrev Rest (text : List Char) := { rest : List Char // rest.length < text.length }

def Rest.widen {shorter text : List Char} (rest : Rest shorter) (h : shorter.length ≤ text.length) :
    Rest text :=
  ⟨rest.val, Nat.lt_of_lt_of_le rest.property h⟩

def shortEscapes : List (Char × Char) :=
  [('b', '\x08'), ('t', '\t'), ('n', '\n'), ('f', '\x0c'), ('r', '\r'), ('"', '"'), ('\\', '\\')]

def escape? : (text : List Char) → Option (Char × Rest text)
  | 'u' :: a :: b :: c :: d :: rest =>
    (Text.hexChar? [a, b, c, d]).map fun char => (char, ⟨rest, by simp; omega⟩)
  | 'U' :: a :: b :: c :: d :: e :: f :: g :: h :: rest =>
    (Text.hexChar? [a, b, c, d, e, f, g, h]).map fun char => (char, ⟨rest, by simp; omega⟩)
  | letter :: rest =>
    (shortEscapes.find? fun entry => entry.1 = letter).map fun entry => (entry.2, ⟨rest, by simp⟩)
  | [] => none

def readBasic : (text : List Char) → Option (List Char × Rest text)
  | [] => none
  | c :: rest =>
    if c = '"' then some ([], ⟨rest, by simp⟩)
    else if c = '\\' then
      match escape? rest with
      | none => none
      | some (char, ⟨later, shorter⟩) =>
        (readBasic later).map fun (chars, last) =>
          (char :: chars, last.widen (Nat.le_succ_of_le (Nat.le_of_lt shorter)))
    else if isPrintable c then
      (readBasic rest).map fun (chars, last) => (c :: chars, last.widen (by simp))
    else none
  termination_by text => text.length

def readLiteral : (text : List Char) → Option (List Char × Rest text)
  | [] => none
  | c :: rest =>
    if c = '\'' then some ([], ⟨rest, by simp⟩)
    else if isPrintable c then
      (readLiteral rest).map fun (chars, last) => (c :: chars, last.widen (by simp))
    else none

/-- Three quotes that end a string, after up to two that still belong to it. -/
def closing? (quote : Char) : (text : List Char) → Option (List Char × Rest text)
  | a :: b :: c :: rest =>
    if a = quote ∧ b = quote ∧ c = quote then
      match rest with
      | d :: e :: later =>
        if d = quote ∧ e = quote then some ([quote, quote], ⟨later, by simp; omega⟩)
        else if d = quote then some ([quote], ⟨e :: later, by simp⟩)
        else some ([], ⟨d :: e :: later, by simp⟩)
      | [d] => if d = quote then some ([quote], ⟨[], by simp⟩) else some ([], ⟨[d], by simp⟩)
      | [] => some ([], ⟨[], by simp⟩)
    else none
  | _ => none

def isGapOrNewline (c : Char) : Bool := isGap c || c = '\n'

/-- The text after the end of a line that holds nothing more, and after the blanks that follow. -/
def afterLineEnd? (text : List Char) : Option (Rest text) :=
  match text.dropWhile isGap, (List.dropWhile_sublist isGap (l := text)).length_le with
  | c :: rest, h =>
    if c = '\n' then
      some ⟨rest.dropWhile isGapOrNewline,
        Nat.lt_of_le_of_lt (List.dropWhile_sublist isGapOrNewline).length_le h⟩
    else none
  | [], _ => none

/-- A string in three double quotes, after its opening quotes. A backslash at the end of a line joins
the lines. -/
def readBasicBlock (text : List Char) : Option (List Char × Rest text) :=
  match closing? '"' text with
  | some closed => some closed
  | none =>
    match text with
    | [] => none
    | c :: rest =>
      if c = '\\' then
        match afterLineEnd? rest with
        | some ⟨later, _⟩ =>
          (readBasicBlock later).map fun (chars, last) => (chars, last.widen (by simp; omega))
        | none =>
          match escape? rest with
          | none => none
          | some (char, ⟨later, _⟩) =>
            (readBasicBlock later).map fun (chars, last) => (char :: chars, last.widen (by simp; omega))
      else if isPrintable c || c = '\n' then
        (readBasicBlock rest).map fun (chars, last) => (c :: chars, last.widen (by simp))
      else none
  termination_by text.length

def readLiteralBlock (text : List Char) : Option (List Char × Rest text) :=
  match closing? '\'' text with
  | some closed => some closed
  | none =>
    match text with
    | [] => none
    | c :: rest =>
      if isPrintable c || c = '\n' then
        (readLiteralBlock rest).map fun (chars, last) => (c :: chars, last.widen (by simp))
      else none
  termination_by text.length

/-- A line feed right after the opening quotes of a block does not belong to it. -/
def withoutFirstNewline : List Char → List Char
  | '\n' :: rest => rest
  | text => text

theorem withoutFirstNewline_length (text : List Char) :
    (withoutFirstNewline text).length ≤ text.length := by
  unfold withoutFirstNewline; split <;> simp

def readLine (quote : Char) (text : List Char) : Option (Token × Rest text) :=
  (if quote = '"' then readBasic text else readLiteral text).map fun (chars, rest) =>
    (.quoted (String.ofList chars), rest)

def readBlock (quote : Char) (text : List Char) : Option (Token × Rest text) :=
  let body := withoutFirstNewline text
  (if quote = '"' then readBasicBlock body else readLiteralBlock body).map fun (chars, rest) =>
    (.block (String.ofList chars), rest.widen (withoutFirstNewline_length text))

def readQuoted (quote : Char) : (text : List Char) → Option (Token × Rest text)
  | a :: b :: rest =>
    if a = quote ∧ b = quote then
      (readBlock quote rest).map fun (token, last) => (token, last.widen (by simp; omega))
    else readLine quote (a :: b :: rest)
  | text => readLine quote text

def mark? (c : Char) : Option Token :=
  if c = '\n' then some .newline
  else if c = '=' then some .equals
  else if c = '.' then some .dot
  else if c = ',' then some .comma
  else if c = '[' then some .openBracket
  else if c = ']' then some .closeBracket
  else if c = '\x7b' then some .openBrace
  else if c = '\x7d' then some .closeBrace
  else none

def opensValue (c : Char) : Bool := c = '"' || c = '\'' || c = '[' || c = '\x7b'

def isPlainChar (c : Char) : Bool := isPrintable c && c != '#'

/-- The tokens of a text. A value without quotes or parts is read only where a value may begin, right
after an equals sign; elsewhere the same characters are a bare key. -/
def scan? (valueBegins : Bool) : List Char → Option (List Token)
  | [] => some []
  | c :: rest =>
    if isGap c then scan? valueBegins rest
    else if c = '#' then
      match rest.dropWhile isPrintable, (List.dropWhile_sublist isPrintable (l := rest)).length_le with
      | [], _ => some []
      | d :: later, _ => if d = '\n' then (scan? false later).map (.newline :: ·) else none
    else if valueBegins && isPlainChar c && !opensValue c then
      let run := c :: rest.takeWhile isPlainChar
      (scan? false (rest.dropWhile isPlainChar)).map
        (.plain (String.ofList (run.reverse.dropWhile isGap).reverse) :: ·)
    else if c = '"' ∨ c = '\'' then
      match readQuoted c rest with
      | none => none
      | some (token, ⟨later, _⟩) => (scan? false later).map (token :: ·)
    else if isBareChar c then
      (scan? false (rest.dropWhile isBareChar)).map
        (.bare (String.ofList (c :: rest.takeWhile isBareChar)) :: ·)
    else
      match mark? c with
      | none => none
      | some token => (scan? (token = .equals) rest).map (token :: ·)
  termination_by text => text.length
  decreasing_by
    · simp
    · simp_all; omega
    · have := (List.dropWhile_sublist isPlainChar (l := rest)).length_le
      simp only [List.length_cons]; omega
    · simp only [List.length_cons]; omega
    · have := (List.dropWhile_sublist isBareChar (l := rest)).length_le
      simp only [List.length_cons]; omega
    · simp

/-- The tokens of a whole text. A byte order mark at the start is passed over. -/
def scanText? (text : String) : Option (List Token) :=
  scan? false <| joinLineEnds <|
    match text.toList with
    | '\uFEFF' :: rest => rest
    | chars => chars

end Token

/-! ### Statements of a settings text

A statement is a header or an entry. The values that settings have are strings, lists of strings, and
tables of strings in braces. A text with other lists or tables is refused here. A value without quotes
is kept as it is written.
-/

abbrev Key := List String

inductive Value where
  | text (value : String)
  | list (items : List String)
  | table (entries : List (Key × String))
  | plain (text : String)
  deriving DecidableEq, Repr

inductive Statement where
  | header (key : Key)
  | entry (key : Key) (value : Value)
  deriving DecidableEq, Repr

namespace Document

/-- What may follow. Keys, items and entries that are not complete have the latest part first. -/
inductive Place where
  | lineStart
  | lineEnd
  | headerKey (key : Key)
  | headerNext (key : Key)
  | entryKey (key : Key)
  | entryNext (key : Key)
  | entryValue (key : Key)
  | item (key : Key) (items : List String)
  | itemNext (key : Key) (items : List String)
  | firstField (key : Key)
  | fieldKey (key : Key) (entries : List (Key × String)) (field : Key)
  | fieldNext (key : Key) (entries : List (Key × String)) (field : Key)
  | fieldValue (key : Key) (entries : List (Key × String)) (field : Key)
  | fieldEnd (key : Key) (entries : List (Key × String))

structure State where
  place : Place
  statements : List Statement

def State.start : State := ⟨.lineStart, []⟩

def State.goTo (state : State) (place : Place) : State := { state with place := place }

/-- Complete a statement; nothing else may stand on its line. -/
def State.complete (state : State) (statement : Statement) : State :=
  ⟨.lineEnd, statement :: state.statements⟩

def State.completeEntry (state : State) (key : Key) (value : Value) : State :=
  state.complete (.entry key.reverse value)

def step? (state : State) (token : Token) : Option State :=
  match state.place, token with
  | .lineStart, .newline => some state
  | .lineStart, .openBracket => some (state.goTo (.headerKey []))
  | .lineStart, .bare part | .lineStart, .quoted part => some (state.goTo (.entryNext [part]))
  | .lineEnd, .newline => some (state.goTo .lineStart)
  | .headerKey key, .bare part | .headerKey key, .quoted part => some (state.goTo (.headerNext (part :: key)))
  | .headerNext key, .dot => some (state.goTo (.headerKey key))
  | .headerNext key, .closeBracket => some (state.complete (.header key.reverse))
  | .entryKey key, .bare part | .entryKey key, .quoted part => some (state.goTo (.entryNext (part :: key)))
  | .entryNext key, .dot => some (state.goTo (.entryKey key))
  | .entryNext key, .equals => some (state.goTo (.entryValue key))
  | .entryValue key, .quoted text | .entryValue key, .block text => some (state.completeEntry key (.text text))
  | .entryValue key, .plain text => some (state.completeEntry key (.plain text))
  | .entryValue key, .openBracket => some (state.goTo (.item key []))
  | .entryValue key, .openBrace => some (state.goTo (.firstField key))
  | .item key items, .newline => some (state.goTo (.item key items))
  | .item key items, .quoted text | .item key items, .block text =>
    some (state.goTo (.itemNext key (text :: items)))
  | .itemNext key items, .newline => some (state.goTo (.itemNext key items))
  | .itemNext key items, .comma => some (state.goTo (.item key items))
  | .item key items, .closeBracket | .itemNext key items, .closeBracket =>
    some (state.completeEntry key (.list items.reverse))
  | .firstField key, .closeBrace => some (state.completeEntry key (.table []))
  | .firstField key, .bare part | .firstField key, .quoted part => some (state.goTo (.fieldNext key [] [part]))
  | .fieldKey key entries field, .bare part | .fieldKey key entries field, .quoted part =>
    some (state.goTo (.fieldNext key entries (part :: field)))
  | .fieldNext key entries field, .dot => some (state.goTo (.fieldKey key entries field))
  | .fieldNext key entries field, .equals => some (state.goTo (.fieldValue key entries field))
  | .fieldValue key entries field, .quoted text | .fieldValue key entries field, .block text =>
    some (state.goTo (.fieldEnd key ((field.reverse, text) :: entries)))
  | .fieldEnd key entries, .comma => some (state.goTo (.fieldKey key entries []))
  | .fieldEnd key entries, .closeBrace => some (state.completeEntry key (.table entries.reverse))
  | _, _ => none

def finish? (state : State) : Option (List Statement) :=
  match state.place with
  | .lineStart | .lineEnd => some state.statements.reverse
  | _ => none

end Document

def statements? (text : String) : Option (List Statement) := do
  let tokens ← Token.scanText? text
  let state ← tokens.foldlM Document.step? .start
  Document.finish? state

end TypedStub.Settings

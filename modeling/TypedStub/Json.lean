import TypedStub.Binary64
import TypedStub.Text

/-! JSON values as they stand in a text.

A string may hold half of a surrogate pair, and a number may be too large for floating point. Such a
value has no meaning, but it may stand in a part of a text that nobody reads. So it is kept, and
whoever needs its meaning refuses it.
-/

set_option autoImplicit false

namespace TypedStub

inductive Json where
  | null
  | bool (value : Bool)
  | integer (value : Int)
  | real (value : Decimal)
  /-- A string, or nothing for one with half of a surrogate pair. -/
  | text (value : Option String)
  | array (items : List Json)
  /-- The fields in the order of the text; names may repeat. -/
  | object (fields : List (Option String × Json))
  deriving Repr, Inhabited

namespace Json

def ofText (text : String) : Json := .text (some text)

def ofFields (fields : List (String × Json)) : Json :=
  .object (fields.map fun field => (some field.1, field.2))

mutual

def depth : Json → Nat
  | .array items => depthOfItems items + 1
  | .object fields => depthOfFields fields + 1
  | _ => 0

def depthOfItems : List Json → Nat
  | [] => 0
  | item :: rest => max (depth item) (depthOfItems rest)

def depthOfFields : List (Option String × Json) → Nat
  | [] => 0
  | (_, value) :: rest => max (depth value) (depthOfFields rest)

end

mutual

/-- Every string and every number in the value has a meaning. -/
def isSound : Json → Bool
  | .real value => (Binary64.nearest value).isFinite
  | .text value => value.isSome
  | .array items => areSoundItems items
  | .object fields => areSoundFields fields
  | .null | .bool _ | .integer _ => true

def areSoundItems : List Json → Bool
  | [] => true
  | item :: rest => isSound item && areSoundItems rest

def areSoundFields : List (Option String × Json) → Bool
  | [] => true
  | (name, value) :: rest => name.isSome && isSound value && areSoundFields rest

end

/-! ### Tokens of a JSON text: marks, strings, numbers and words -/

inductive Token where
  | openBrace
  | closeBrace
  | openBracket
  | closeBracket
  | colon
  | comma
  | scalar (value : Json)

namespace Token

inductive Piece where
  | char (c : Char)
  | unit (value : Nat)

def isHighSurrogate (unit : Nat) : Bool := 0xD800 ≤ unit && unit < 0xDC00

def isLowSurrogate (unit : Nat) : Bool := 0xDC00 ≤ unit && unit < 0xE000

/-- The characters that pieces stand for, unless half of a surrogate pair is missing. -/
def charsOfPieces : List Piece → Option (List Char)
  | [] => some []
  | .char c :: rest => (charsOfPieces rest).map (c :: ·)
  | .unit unit :: rest =>
    if isHighSurrogate unit then
      match rest with
      | .unit low :: later =>
        if isLowSurrogate low then
          (charsOfPieces later).map (Char.ofNat (0x10000 + (unit - 0xD800) * 0x400 + (low - 0xDC00)) :: ·)
        else none
      | _ => none
    else if isLowSurrogate unit then none
    else (charsOfPieces rest).map (Char.ofNat unit :: ·)

def escape? (c : Char) : Option Char :=
  if c = '"' ∨ c = '\\' ∨ c = '/' then some c
  else if c = 'b' then some '\x08'
  else if c = 'f' then some '\x0c'
  else if c = 'n' then some '\n'
  else if c = 'r' then some '\r'
  else if c = 't' then some '\t'
  else none

def readString : List Char → Option (List Piece × List Char)
  | [] => none
  | '"' :: rest => some ([], rest)
  | '\\' :: 'u' :: a :: b :: c :: d :: rest => do
    let unit ← Text.hexNumber? [a, b, c, d]
    let (pieces, later) ← readString rest
    return (.unit unit :: pieces, later)
  | '\\' :: e :: rest => do
    let c ← escape? e
    let (pieces, later) ← readString rest
    return (.char c :: pieces, later)
  | c :: rest =>
    if c.toNat < 0x20 ∨ c = '\\' then none
    else do
      let (pieces, later) ← readString rest
      return (.char c :: pieces, later)

theorem length_of_readString {text later : List Char} {pieces : List Piece}
    (read : readString text = some (pieces, later)) : later.length < text.length := by
  fun_induction readString text generalizing pieces later with
  | case1 => simp at read
  | case2 rest => simp_all
  | case3 a b c d rest ih =>
    simp only [Option.bind_eq_bind, Option.bind_eq_some_iff] at read
    obtain ⟨_, _, ⟨_, next⟩, found, same⟩ := read
    simp only [Option.pure_def, Option.some.injEq, Prod.mk.injEq] at same
    have := ih found
    simp only [List.length_cons, ← same.2]; omega
  | case4 e rest _ ih =>
    simp only [Option.bind_eq_bind, Option.bind_eq_some_iff] at read
    obtain ⟨_, _, ⟨_, next⟩, found, same⟩ := read
    simp only [Option.pure_def, Option.some.injEq, Prod.mk.injEq] at same
    have := ih found
    simp only [List.length_cons, ← same.2]; omega
  | case5 => simp at read
  | case6 c rest _ _ _ allowed ih =>
    simp only [Option.bind_eq_bind, Option.bind_eq_some_iff] at read
    obtain ⟨⟨_, next⟩, found, same⟩ := read
    simp only [Option.pure_def, Option.some.injEq, Prod.mk.injEq] at same
    have := ih found
    simp only [List.length_cons, ← same.2]; omega

def isNumberChar (c : Char) : Bool := c.isDigit || c = '-' || c = '+' || c = '.' || c = 'e' || c = 'E'

def isWhole : List Char → Bool
  | [] => false
  | ['0'] => true
  | c :: rest => c != '0' && c.isDigit && rest.all Char.isDigit

/-- A whole number. Minus zero and numbers of more than 64 bits are not whole numbers. -/
def ofWhole (negative : Bool) (digits : List Char) : Json :=
  let magnitude := Nat.ofDigitChars 10 digits 0
  if negative then
    if magnitude = 0 ∨ UInt64.size / 2 < magnitude then .real ⟨true, magnitude, 0⟩ else .integer (-(magnitude : Int))
  else if UInt64.size ≤ magnitude then .real ⟨false, magnitude, 0⟩
  else .integer magnitude

def afterWhole? (negative : Bool) (whole : List Char) : List Char → Option Json
  | [] => some (ofWhole negative whole)
  | '.' :: later =>
    let fraction := later.takeWhile Char.isDigit
    if fraction.isEmpty then none
    else (Decimal.readExponent? (later.dropWhile Char.isDigit)).map fun shift => .real (.ofDigits negative whole fraction shift)
  | rest => (Decimal.readExponent? rest).map fun shift => .real (.ofDigits negative whole [] shift)

def unsignedNumber? (negative : Bool) (run : List Char) : Option Json :=
  let whole := run.takeWhile Char.isDigit
  if isWhole whole then afterWhole? negative whole (run.dropWhile Char.isDigit) else none

def number? : List Char → Option Json
  | '-' :: run => unsignedNumber? true run
  | run => unsignedNumber? false run

def isGap (c : Char) : Bool := c = ' ' || c = '\t' || c = '\n' || c = '\r'

def mark? (c : Char) : Option Token :=
  if c = '\x7b' then some .openBrace
  else if c = '\x7d' then some .closeBrace
  else if c = '[' then some .openBracket
  else if c = ']' then some .closeBracket
  else if c = ':' then some .colon
  else if c = ',' then some .comma
  else none

def word? (word : List Char) : Option Json :=
  if word = "null".toList then some .null
  else if word = "true".toList then some (.bool true)
  else if word = "false".toList then some (.bool false)
  else none

def scan? : List Char → Option (List Token)
  | [] => some []
  | c :: rest =>
    if isGap c then scan? rest
    else if c = '"' then
      match found : readString rest with
      | none => none
      | some (pieces, later) =>
        have := length_of_readString found
        (scan? later).map (.scalar (.text ((charsOfPieces pieces).map String.ofList)) :: ·)
    else if c = '-' ∨ c.isDigit then do
      let value ← number? (c :: rest.takeWhile isNumberChar)
      let tokens ← scan? (rest.dropWhile isNumberChar)
      return .scalar value :: tokens
    else if c.isAlpha then do
      let value ← word? (c :: rest.takeWhile Char.isAlpha)
      let tokens ← scan? (rest.dropWhile Char.isAlpha)
      return .scalar value :: tokens
    else do
      let token ← mark? c
      let tokens ← scan? rest
      return token :: tokens
  termination_by text => text.length
  decreasing_by
    · simp
    · simp only [List.length_cons]; omega
    · have := (List.dropWhile_sublist isNumberChar (l := rest)).length_le
      simp only [List.length_cons]; omega
    · have := (List.dropWhile_sublist Char.isAlpha (l := rest)).length_le
      simp only [List.length_cons]; omega
    · simp

end Token

/-! ### Reading a JSON text: one pass over its tokens, with a stack of the places that wait for a value -/

namespace Reader

/-- A place inside an array or an object; what stands before it has the latest first. -/
inductive Place where
  | item (before : List Json)
  | field (before : List (Option String × Json)) (name : Option String)

/-- What the next token has to be, and the places around it, the innermost first. -/
inductive State where
  | value (places : List Place)
  | firstItem (places : List Place)
  | firstName (places : List Place)
  | nextName (before : List (Option String × Json)) (places : List Place)
  | colon (before : List (Option String × Json)) (name : Option String) (places : List Place)
  | after (value : Json) (places : List Place)

def begin? (places : List Place) : Token → Option State
  | .openBracket => some (.firstItem places)
  | .openBrace => some (.firstName places)
  | .scalar value => some (.after value places)
  | _ => none

def step? : State → Token → Option State
  | .value places, token => begin? places token
  | .firstItem places, .closeBracket => some (.after (.array []) places)
  | .firstItem places, token => begin? (.item [] :: places) token
  | .firstName places, .closeBrace => some (.after (.object []) places)
  | .firstName places, .scalar (.text name) => some (.colon [] name places)
  | .nextName before places, .scalar (.text name) => some (.colon before name places)
  | .colon before name places, .colon => some (.value (.field before name :: places))
  | .after value (.item before :: places), .comma => some (.value (.item (value :: before) :: places))
  | .after value (.item before :: places), .closeBracket =>
    some (.after (.array (value :: before).reverse) places)
  | .after value (.field before name :: places), .comma => some (.nextName ((name, value) :: before) places)
  | .after value (.field before name :: places), .closeBrace =>
    some (.after (.object ((name, value) :: before).reverse) places)
  | _, _ => none

def finish? : State → Option Json
  | .after value [] => some value
  | _ => none

end Reader

def parse? (text : String) : Option Json := do
  let tokens ← Token.scan? text.toList
  let state ← tokens.foldlM Reader.step? (.value [])
  Reader.finish? state

/-! ### Taking JSON values apart -/

variable {α : Type}

def text? : Json → Option String
  | .text value => value
  | _ => none

def items? : Json → Option (List Json)
  | .array items => some items
  | _ => none

/-- The value of a field that may be absent but must not be given twice. -/
def unique? (fields : List (Option String × Json)) (name : String) : Option (Option Json) :=
  match fields.filter fun field => field.1 = some name with
  | [] => some none
  | [(_, value)] => some (some value)
  | _ => none

def namesAreSound (fields : List (Option String × Json)) : Bool := fields.all fun field => field.1.isSome

def optional? (decode : Json → Option α) : Option Json → Option (Option α)
  | none | some .null => some none
  | some value => (decode value).map some

/-- Something that may be absent but not null. -/
def defaulted? (decode : Json → Option α) (default : α) : Option Json → Option α
  | none => some default
  | some value => decode value

def variant? : Json → Option (String × Option Json)
  | .text (some name) => some (name, none)
  | .object [(some name, payload)] => some (name, some payload)
  | _ => none

/-- A payload that carries nothing. An empty object counts as nothing only in a value that was `kept`
whole before it was taken apart. -/
def isNoPayload (kept : Bool) : Option Json → Bool
  | none | some .null => true
  | some (.object []) => kept
  | _ => false

def choice? (kept : Bool) (choices : List (String × α)) (value : Json) : Option α := do
  let (name, payload) ← variant? value
  if isNoPayload kept payload then (choices.find? fun choice => choice.1 = name).map Prod.snd else none

end Json

end TypedStub

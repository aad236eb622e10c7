/-! Texts: trimming, lines, numbers in base 16, and the two kinds of string literals.

In a literal in double quotes every control character is escaped, so that it never leaves its line. In a docstring
a quote stands bare only between two characters that are not quotes. So three quotes in a row occur nowhere but at
the end of the docstring.
-/

set_option autoImplicit false

namespace TypedStub.Text

/-- The characters with the Unicode property White_Space. -/
def isBlank (c : Char) : Bool :=
  let n := c.toNat
  (0x09 ≤ n && n ≤ 0x0D) || n == 0x20 || n == 0x85 || n == 0xA0 || n == 0x1680
    || (0x2000 ≤ n && n ≤ 0x200A) || n == 0x2028 || n == 0x2029 || n == 0x202F || n == 0x205F
    || n == 0x3000

def trimStart (text : List Char) : List Char := text.dropWhile isBlank

def trimEnd (text : List Char) : List Char := (text.reverse.dropWhile isBlank).reverse

def trim (text : List Char) : List Char := trimEnd (trimStart text)

/-- The lines of a text. Only a line feed ends a line. -/
def lines (text : String) : List String := (text.toList.splitOn '\n').map String.ofList

def hexDigit? (c : Char) : Option Nat :=
  if c.isDigit then some (c.toNat - '0'.toNat)
  else if 'a' ≤ c && c ≤ 'f' then some (c.toNat - 'a'.toNat + 10)
  else if 'A' ≤ c && c ≤ 'F' then some (c.toNat - 'A'.toNat + 10)
  else none

def hexNumber? (digits : List Char) : Option Nat :=
  digits.foldl (fun number c => number.bind fun n => (hexDigit? c).map (16 * n + ·)) (some 0)

def hexChar? (digits : List Char) : Option Char :=
  (hexNumber? digits).bind fun n => if h : n.isValidChar then some (Char.ofNatAux n h) else none

def fourHexDigits (n : Nat) : List Char :=
  [n / 4096 % 16, n / 256 % 16, n / 16 % 16, n % 16].map Nat.digitChar

namespace Quoted

/-- The characters of the Unicode category Cc. -/
def isControl (c : Char) : Bool := c.toNat < 0x20 || (0x7F ≤ c.toNat && c.toNat < 0xA0)

def escaped (c : Char) : List Char :=
  if c = '\\' then ['\\', '\\']
  else if c = '"' then ['\\', '"']
  else if c = '\n' then ['\\', 'n']
  else if c = '\r' then ['\\', 'r']
  else if c = '\t' then ['\\', 't']
  else if isControl c then '\\' :: 'u' :: fourHexDigits c.toNat
  else [c]

def quote (text : String) : String :=
  String.ofList ('"' :: (text.toList.flatMap escaped ++ ['"']))

end Quoted

namespace Docstring

/-- Escape a text, given the character before it (if there is one). -/
def escapeAfter (before : Option Char) : List Char → List Char
  | [] => []
  | '\\' :: rest => '\\' :: '\\' :: escapeAfter (some '\\') rest
  | '"' :: rest =>
    if before = some '"' ∨ rest.head? = some '"' ∨ rest = [] then
      '\\' :: '"' :: escapeAfter (some '"') rest
    else '"' :: escapeAfter (some '"') rest
  | c :: rest => c :: escapeAfter (some c) rest

def escape (text : String) : String := String.ofList (escapeAfter none text.toList)

end Docstring

end TypedStub.Text

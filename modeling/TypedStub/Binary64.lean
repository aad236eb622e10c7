/-! Numbers as they are written and as they are kept: decimals, and floating-point numbers of 64 bits.

A decimal has a sign, a coefficient and a power of ten. It is kept as the floating-point number that is nearest to it,
and such a number is written as the shortest decimal that leads back to it.
-/

set_option autoImplicit false

namespace TypedStub

/-- The number `coefficient * 10 ^ exponent`, with a sign of its own so that zero may be negative. -/
structure Decimal where
  negative : Bool
  coefficient : Nat
  exponent : Int
  deriving DecidableEq, Repr

namespace Decimal

def readNat? (digits : List Char) : Option Nat :=
  if digits.isEmpty || !digits.all Char.isDigit then none else some (Nat.ofDigitChars 10 digits 0)

def readInt? : List Char → Option Int
  | '-' :: digits => (readNat? digits).map fun (n : Nat) => -(n : Int)
  | '+' :: digits => (readNat? digits).map fun (n : Nat) => (n : Int)
  | digits => (readNat? digits).map fun (n : Nat) => (n : Int)

def readExponent? : List Char → Option Int
  | [] => some 0
  | mark :: shift => if mark = 'e' ∨ mark = 'E' then readInt? shift else none

def ofDigits (negative : Bool) (whole fraction : List Char) (shift : Int) : Decimal where
  negative := negative
  coefficient := Nat.ofDigitChars 10 (whole ++ fraction) 0
  exponent := shift - fraction.length

end Decimal

/-! ### Floating-point numbers, and the nearest one to a decimal

A finite number is `mantissa * 2 ^ scale` in units of the smallest positive number, which is
`2 ^ (-1074)`. The mantissa has 53 bits, unless the scale is 0.
-/

inductive Binary64 where
  | nan
  | infinite (negative : Bool)
  | finite (negative : Bool) (mantissa scale : Nat)
  deriving DecidableEq, Repr

namespace Binary64

def isFinite : Binary64 → Bool
  | .finite .. => true
  | .nan | .infinite _ => false

def unitBits : Nat := 1074

def mantissaBits : Nat := 53

def maxScale : Nat := 2045

/-- A quotient rounded to the nearest natural number; a half goes to the even neighbour. -/
def roundQuotient (num den : Nat) : Nat :=
  let quotient := num / den
  let twice := 2 * (num % den)
  if twice < den then quotient
  else if den < twice then quotient + 1
  else quotient + quotient % 2

def nearestUnits (negative : Bool) (num den : Nat) : Binary64 :=
  let scale := (num / den).log2 + 1 - mantissaBits
  let mantissa := roundQuotient num (den * Nat.pow 2 scale)
  -- Rounding up may give a mantissa with one bit too many, which is a power of two.
  let (mantissa, scale) :=
    if mantissa = Nat.pow 2 mantissaBits then (Nat.pow 2 (mantissaBits - 1), scale + 1) else (mantissa, scale)
  if scale ≤ maxScale then .finite negative mantissa scale else .infinite negative

/-- From this power of ten on, every nonzero decimal is beyond the finite numbers. -/
def farExponent : Int := 310

/-- The nearest number to a decimal. A half goes to the even neighbour, and what is at least half a
step beyond the largest finite number becomes infinite. -/
def nearest (decimal : Decimal) : Binary64 :=
  if decimal.coefficient = 0 then .finite decimal.negative 0 0
  else if farExponent ≤ decimal.exponent then .infinite decimal.negative
  -- Below `10 ^ (-2 * farExponent)` nothing but zero is near.
  else if decimal.exponent + decimal.coefficient.log2 + 1 ≤ -2 * farExponent then
    .finite decimal.negative 0 0
  else if 0 ≤ decimal.exponent then
    nearestUnits decimal.negative
      (decimal.coefficient * Nat.pow 10 decimal.exponent.toNat * Nat.pow 2 unitBits) 1
  else
    nearestUnits decimal.negative (decimal.coefficient * Nat.pow 2 unitBits)
      (Nat.pow 10 (-decimal.exponent).toNat)

end Binary64

/-! ### The shortest decimal that reads back as a given finite number

For each count of digits the two neighbours of the number among the decimals with that many digits
are tried. The first count with a hit wins. Of two hits the nearer wins, and of two equally near ones
the larger.
-/

namespace Binary64

def maxDigits : Nat := 17

def digitCount (n : Nat) : Nat := (Nat.toDigits 10 n).length

def decimalPoint (num den : Nat) : Int := (digitCount (num * Nat.pow 10 400 / den) : Int) - 400

/-- The better of the two neighbours of `num / den` among the multiples of `10 ^ exponent`, of those
that `reads` accepts. -/
def neighbour? (reads : Decimal → Bool) (negative : Bool) (num den : Nat) (exponent : Int) :
    Option Decimal :=
  let scaledNum := if 0 ≤ exponent then num else num * Nat.pow 10 (-exponent).toNat
  let scaledDen := if 0 ≤ exponent then den * Nat.pow 10 exponent.toNat else den
  let below := scaledNum / scaledDen
  let rest := scaledNum % scaledDen
  let low : Decimal := ⟨negative, below, exponent⟩
  let high : Decimal := ⟨negative, below + 1, exponent⟩
  match reads low, reads high with
  | true, true => some (if 2 * rest < scaledDen then low else high)
  | true, false => some low
  | false, true => some high
  | false, false => none

def exactDecimal (negative : Bool) (mantissa scale : Nat) : Decimal :=
  ⟨negative, mantissa * Nat.pow 2 scale * Nat.pow 5 unitBits, -(unitBits : Int)⟩

/-- The shortest decimal that is nearest to no other number. -/
def shortest (negative : Bool) (mantissa scale : Nat) : Decimal :=
  let number := Binary64.finite negative mantissa scale
  let num := mantissa * Nat.pow 2 scale
  let den := Nat.pow 2 unitBits
  let point := decimalPoint num den
  let reads := fun decimal => decide (nearest decimal = number)
  ((List.range maxDigits).findSome? fun (count : Nat) =>
    neighbour? reads negative num den (point - (count + 1 : Nat))).getD (exactDecimal negative mantissa scale)

/-! ### The text of a floating-point number, and reading it

The shortest digits are written with a point among them for numbers from 0.0001 up to 10 ^ 16, and
with an exponent for all others. A number without an exponent has at least one digit on each side of
the point.
-/

def withoutTrailingZeros (digits : List Char) : List Char := (digits.reverse.dropWhile (· = '0')).reverse

/-- The least and the greatest power of ten just above a number that is written without an exponent. -/
def plainRange : Int × Int := (-3, 16)

def plainText (digits : List Char) (point : Int) : List Char :=
  if point ≤ 0 then '0' :: '.' :: (List.replicate (-point).toNat '0' ++ digits)
  else
    let whole := digits.take point.toNat ++ List.replicate (point.toNat - digits.length) '0'
    let fraction := digits.drop point.toNat
    whole ++ '.' :: (if fraction.isEmpty then ['0'] else fraction)

def exponentText (digits : List Char) (point : Int) : List Char :=
  digits.take 1 ++ (if (digits.drop 1).isEmpty then [] else '.' :: digits.drop 1)
    ++ 'e' :: (toString (point - 1)).toList

def decimalText (decimal : Decimal) : List Char :=
  let allDigits := Nat.toDigits 10 decimal.coefficient
  let point := decimal.exponent + allDigits.length
  let digits := withoutTrailingZeros allDigits
  if plainRange.1 ≤ point ∧ point ≤ plainRange.2 then plainText digits point else exponentText digits point

def signText (negative : Bool) : List Char := if negative then ['-'] else []

def text : Binary64 → String
  | .nan => "NaN"
  | .infinite negative => String.ofList (signText negative ++ "inf".toList)
  | .finite negative 0 _ => String.ofList (signText negative ++ "0.0".toList)
  | .finite negative mantissa scale =>
    String.ofList (signText negative ++ decimalText (shortest negative mantissa scale))

def readDecimal? (negative : Bool) (text : List Char) : Option Decimal :=
  let whole := text.takeWhile Char.isDigit
  let afterWhole := text.dropWhile Char.isDigit
  let (fraction, rest) :=
    match afterWhole with
    | '.' :: later => (later.takeWhile Char.isDigit, later.dropWhile Char.isDigit)
    | other => ([], other)
  if whole.isEmpty && fraction.isEmpty then none
  else (Decimal.readExponent? rest).map (.ofDigits negative whole fraction)

def readUnsigned? (negative : Bool) (text : List Char) : Option Binary64 :=
  let word := String.ofList (text.map Char.toLower)
  if word = "inf" ∨ word = "infinity" then some (.infinite negative)
  else if word = "nan" then some .nan
  else (readDecimal? negative text).map nearest

def read? (text : String) : Option Binary64 :=
  match text.toList with
  | '-' :: rest => readUnsigned? true rest
  | '+' :: rest => readUnsigned? false rest
  | rest => readUnsigned? false rest

end Binary64

end TypedStub

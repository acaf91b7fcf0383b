/-!
# Decimal text of real numbers

A written number is a decimal `digits · 10^exponent`. A reader keeps it in binary with 53 significant
bits, so what a message shows is the shortest decimal that reads back as the same binary number.

- `Binary.nearest?` rounds a positive fraction to the nearest binary number, ties to even;
- `Binary.shortest` gives the digits of the shortest decimal that rounds to a binary number;
- `Decimal.text` writes digits and exponent: positional from `10^-5` up to `10^16`, otherwise with a
  mantissa of one digit before the point.
-/

set_option autoImplicit false

namespace CommandFactory.Json

/-- The power of two with that exponent; one for a negative exponent. -/
def powerOfTwo (exponent : Int) : Nat := Nat.pow 2 exponent.toNat

/-- The power of ten with that exponent; one for a negative exponent. -/
def powerOfTen (exponent : Int) : Nat := Nat.pow 10 exponent.toNat

/-- A number `mantissa · 2^exponent`. -/
structure Binary where
  mantissa : Nat
  exponent : Int
  deriving DecidableEq, Repr, Inhabited

/-- A number `digits · 10^exponent`. -/
structure Decimal where
  digits : Nat
  exponent : Int
  deriving DecidableEq, Repr, Inhabited

namespace Decimal

/-- A fraction that equals the number. -/
def fraction (d : Decimal) : Nat × Nat :=
  (d.digits * powerOfTen d.exponent, powerOfTen (-d.exponent))

end Decimal

namespace Binary

/-- The quotient of two numbers rounded to the nearest, ties to even. -/
def roundDiv (num den : Nat) : Nat :=
  let q := num / den
  let r := num % den
  if 2 * r < den then q
  else if den < 2 * r then q + 1
  else if q % 2 = 0 then q else q + 1

/-- `num / (den · 2^e)`, rounded. -/
def scaled (num den : Nat) (e : Int) : Nat :=
  roundDiv (num * powerOfTwo (-e)) (den * powerOfTwo e)

/-- The exponent that leaves 53 bits, or more where the number is too small for that. -/
def exponentFor (num den : Nat) : Int :=
  let guess : Int := (Nat.log2 num : Int) - (Nat.log2 den : Int) - 52
  let exact := if num * powerOfTwo (-(guess + 52)) < den * powerOfTwo (guess + 52) then guess - 1
    else guess
  max exact (-1074)

/-- The binary number nearest to a positive fraction; none if it is out of range. -/
def nearest? (num den : Nat) : Option Binary :=
  let e := exponentFor num den
  let m := scaled num den e
  let (m, e) := if m = powerOfTwo 53 then (powerOfTwo 52, e + 1) else (m, e)
  if 971 < e then none else some ⟨m, e⟩

/-- Twice the number as a fraction, with the half steps to its neighbours below and above. -/
def doubled (b : Binary) : Nat × Nat × Nat × Nat :=
  let up := powerOfTwo b.exponent
  let den := powerOfTwo (-b.exponent)
  let below := if b.mantissa = powerOfTwo 52 && -1074 < b.exponent then 1 else 2
  (4 * b.mantissa * up, below * up, 2 * up, den)

/-- Whether `n · 10^k` rounds to the number. -/
def isRounded (b : Binary) (n : Nat) (k : Int) : Bool :=
  let (value, below, above, den) := b.doubled
  let left := 4 * n * powerOfTen k * den
  let scale := powerOfTen (-k)
  if b.mantissa % 2 = 0 then
    (value - below) * scale ≤ left && left ≤ (value + above) * scale
  else
    (value - below) * scale < left && left < (value + above) * scale

/-- The decimal on the grid of step `10^k` that rounds to the number, the nearer one of two. -/
def onGrid? (b : Binary) (k : Int) : Option Decimal :=
  let num := b.mantissa * powerOfTwo b.exponent * powerOfTen (-k)
  let den := powerOfTwo (-b.exponent) * powerOfTen k
  let low := num / den
  let high := low + 1
  match b.isRounded low k, b.isRounded high k with
  | true, true => some ⟨if 2 * (num % den) ≤ den then low else high, k⟩
  | true, false => some ⟨low, k⟩
  | false, true => some ⟨high, k⟩
  | false, false => none

/-- The first grid with a decimal that rounds to the number, from step `10^k` down. -/
def firstGrid : Nat → Binary → Int → Decimal
  | 0, b, k => (b.onGrid? k).getD ⟨0, k⟩
  | steps + 1, b, k =>
      match b.onGrid? k with
      | some d => if d.digits = 0 then firstGrid steps b (k - 1) else d
      | none => firstGrid steps b (k - 1)

/-- The exponent of the first decimal place of the number, or one above it. -/
def placesAbove (b : Binary) : Int :=
  (((Nat.log2 b.mantissa : Int) + b.exponent + 1) * 30103) / 100000 + 1

/-- The shortest decimal that rounds to the number, nearest to it among those of its length. -/
def shortest (b : Binary) : Decimal := firstGrid 20 b b.placesAbove

end Binary

namespace Decimal

/-- Takes the zeros off the end of the digits, at most `steps` of them. -/
def trimmed : Nat → Decimal → Decimal
  | 0, d => d
  | steps + 1, d =>
      if d.digits ≠ 0 ∧ d.digits % 10 = 0 then trimmed steps ⟨d.digits / 10, d.exponent + 1⟩ else d

/-- Zeros. -/
def zeros (n : Nat) : String := String.ofList (List.replicate n '0')

/-- The text of a positive decimal. -/
def text (d : Decimal) : String :=
  let d := d.trimmed 20
  let digits := toString d.digits
  let places : Int := digits.length + d.exponent
  if 0 ≤ d.exponent ∧ places ≤ 16 then
    digits ++ zeros d.exponent.toNat ++ ".0"
  else if 0 < places ∧ places ≤ 16 then
    (digits.take places.toNat).toString ++ "." ++ (digits.drop places.toNat).toString
  else if -5 < places ∧ places ≤ 0 then
    "0." ++ zeros (-places).toNat ++ digits
  else if digits.length = 1 then
    digits ++ "e" ++ toString (places - 1)
  else
    (digits.take 1).toString ++ "." ++ (digits.drop 1).toString ++ "e" ++ toString (places - 1)

end Decimal

end CommandFactory.Json

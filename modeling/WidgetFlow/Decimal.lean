/-!
# Numbers in decimal

Reading integers of 64 bits from text, and rounding to 53 bits.
-/

namespace WidgetFlow.Decimal

/-! ## Integers -/

/-- The value of a decimal digit. -/
def digit? (c : Char) : Option Nat :=
  if c.isDigit then some (c.toNat - '0'.toNat) else none

/-- The number that digits spell after the digits of `n`. -/
def extend? : Nat → List Char → Option Nat
  | n, [] => some n
  | n, c :: cs => (digit? c).bind fun d => extend? (10 * n + d) cs

/-- One digit or more. -/
def natural? : List Char → Option Nat
  | [] => none
  | cs => extend? 0 cs

/-- The integers of 64 bits. -/
def isInt64 (n : Int) : Bool :=
  -0x8000000000000000 ≤ n && n < 0x8000000000000000

/-- Digits after an optional sign. -/
def signed? : List Char → Option Int
  | '-' :: cs => (natural? cs).map fun n => -(n : Int)
  | '+' :: cs => (natural? cs).map fun n => (n : Int)
  | cs => (natural? cs).map fun n => (n : Int)

/-- An integer of 64 bits: digits, leading zeros allowed, after an optional sign. -/
def int64? (s : String) : Option Int :=
  (signed? s.toList).filter isInt64

/-! ## Size -/

/-- The number that digits spell after the digits of `n`, as long as it is below a limit, and the digits that are
left. -/
def extendBelow (limit : Nat) : Nat → List Char → Nat × List Char
  | n, [] => (n, [])
  | n, c :: cs =>
    let m := 10 * n + (digit? c).getD 0
    if m < limit then extendBelow limit m cs else (n, c :: cs)

/-- The nearest number with at most 53 significant bits, of two the even one. -/
def round53 (n : Nat) : Nat :=
  let bits := n.log2 - 52
  let quotient := n >>> bits
  let rest := n - (quotient <<< bits)
  let half := (1 <<< bits) / 2
  if rest > half || (bits > 0 && rest = half && quotient % 2 = 1) then (quotient + 1) <<< bits else quotient <<< bits

end WidgetFlow.Decimal

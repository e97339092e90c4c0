import WidgetFlow.Decimal

/-!
# The spelling of strings and numbers in JSON

A string is kept as the characters between its quotation marks, and a number as its characters. A spelling can be well
formed and still have no meaning: a string that holds half of a pair of units is no text, a number can be too large.

* `isString`, `isNumber`: the spelling is well formed;
* `text?`: the text that a string spells, `spell` being its usual spelling;
* `integer?`: the integer that a number spells;
* `isFinite`: the number is not too large.
-/

namespace WidgetFlow.Json.Spelling

/-! ## Strings -/

def hexDigit (n : Nat) : Char :=
  if n < 10 then Char.ofNat ('0'.toNat + n) else Char.ofNat ('a'.toNat + (n - 10))

def hexDigit? (c : Char) : Option Nat :=
  if c.isDigit then some (c.toNat - '0'.toNat)
  else if 'a' ≤ c && c ≤ 'f' then some (c.toNat - 'a'.toNat + 10)
  else if 'A' ≤ c && c ≤ 'F' then some (c.toNat - 'A'.toNat + 10)
  else none

/-- The usual spelling of a character. -/
def escape (c : Char) : List Char :=
  if c = '"' then ['\\', '"']
  else if c = '\\' then ['\\', '\\']
  else if c = '\x08' then ['\\', 'b']
  else if c = '\x0c' then ['\\', 'f']
  else if c = '\n' then ['\\', 'n']
  else if c = '\r' then ['\\', 'r']
  else if c = '\t' then ['\\', 't']
  else if c.toNat < 0x20 then ['\\', 'u', '0', '0', hexDigit (c.toNat / 16), hexDigit (c.toNat % 16)]
  else [c]

/-- The usual spelling of a text. -/
def spell (s : String) : String :=
  String.ofList (s.toList.flatMap escape)

/-- The character of a one-letter escape. -/
def escaped? : Char → Option Char
  | '"' => some '"'
  | '\\' => some '\\'
  | '/' => some '/'
  | 'b' => some '\x08'
  | 'f' => some '\x0c'
  | 'n' => some '\n'
  | 'r' => some '\r'
  | 't' => some '\t'
  | _ => none

/-- A character, or a unit of 16 bits that was given by its number. -/
inductive Piece where
  | char (c : Char)
  | unit (n : Nat)

/-- The unit of four hexadecimal digits. -/
def unit? (a b c d : Char) : Option Piece := do
  return .unit (0x1000 * (← hexDigit? a) + 0x100 * (← hexDigit? b) + 0x10 * (← hexDigit? c) + (← hexDigit? d))

/-- The pieces of a string. -/
def pieces? : List Char → Option (List Piece)
  | [] => some []
  | '\\' :: 'u' :: a :: b :: c :: d :: cs => do
    let p ← unit? a b c d
    let ps ← pieces? cs
    return p :: ps
  | '\\' :: c :: cs => do
    let e ← escaped? c
    let ps ← pieces? cs
    return .char e :: ps
  | c :: cs =>
    if c = '\\' || c.toNat < 0x20 then none else (pieces? cs).map (.char c :: ·)

/-- A well-formed string. -/
def isString (cs : List Char) : Bool := (pieces? cs).isSome

/-- The first half of a pair of units. -/
def isHigh (n : Nat) : Bool := 0xD800 ≤ n && n < 0xDC00

/-- The second half of a pair of units. -/
def isLow (n : Nat) : Bool := 0xDC00 ≤ n && n < 0xE000

/-- The character of a pair of units. -/
def pair (high low : Nat) : Char :=
  Char.ofNat (0x10000 + (high - 0xD800) * 0x400 + (low - 0xDC00))

/-- The characters of pieces. The halves of a pair must come together and in order. -/
def join? : List Piece → Option (List Char)
  | [] => some []
  | .char c :: ps => (join? ps).map (c :: ·)
  | .unit m :: .unit n :: ps =>
    if isHigh m then
      if isLow n then (join? ps).map (pair m n :: ·) else none
    else if isLow m then none
    else (join? (.unit n :: ps)).map (Char.ofNat m :: ·)
  | .unit m :: ps =>
    if isHigh m || isLow m then none else (join? ps).map (Char.ofNat m :: ·)

/-- The text that a string spells. -/
def text? (spelling : String) : Option String :=
  ((pieces? spelling.toList).bind join?).map String.ofList

/-! ## Numbers -/

/-- The characters after a minus sign. -/
def unsigned : List Char → List Char
  | '-' :: cs => cs
  | cs => cs

/-- Drops an integer without leading zeros. -/
def dropInteger? : List Char → Option (List Char)
  | '0' :: cs => some cs
  | c :: cs => if c.isDigit then some (cs.dropWhile Char.isDigit) else none
  | [] => none

/-- Drops one digit or more. -/
def dropDigits? : List Char → Option (List Char)
  | c :: cs => if c.isDigit then some (cs.dropWhile Char.isDigit) else none
  | [] => none

/-- Drops a fraction, if there is one. -/
def dropFraction? : List Char → Option (List Char)
  | '.' :: cs => dropDigits? cs
  | cs => some cs

/-- Drops an exponent, if there is one. -/
def dropExponent? : List Char → Option (List Char)
  | c :: cs =>
    if c = 'e' ∨ c = 'E' then
      match cs with
      | '+' :: ds | '-' :: ds => dropDigits? ds
      | ds => dropDigits? ds
    else some (c :: cs)
  | [] => some []

/-- A well-formed number. -/
def isNumber (cs : List Char) : Bool :=
  (((dropInteger? (unsigned cs)).bind dropFraction?).bind dropExponent?) == some []

/-- The integer that a number spells. Minus zero is no integer. -/
def integer? (spelling : String) : Option Int :=
  let cs := spelling.toList
  if dropInteger? (unsigned cs) == some [] && cs != ['-', '0'] then Decimal.signed? cs else none

/-- The integer of 64 bits that a name spells. -/
def integerName? (spelling : String) : Option Int :=
  (integer? spelling).filter Decimal.isInt64

/-- The digits before the point, the digits after it, and the exponent. -/
def parts (cs : List Char) : List Char × List Char × Int :=
  let whole := cs.takeWhile Char.isDigit
  let rest := cs.dropWhile Char.isDigit
  let fraction := match rest with
    | '.' :: ds => ds.takeWhile Char.isDigit
    | _ => []
  let exponent := match rest.dropWhile fun c => c != 'e' && c != 'E' with
    | _ :: ds => (Decimal.signed? ds).getD 0
    | [] => 0
  (whole, fraction, exponent)

/-- A number that is not too large: the product of its digits and its power of ten, each of the three rounded to 53
bits, is below the power 1024 of two. Of the digits only the first that fit in 64 bits count. -/
def isFinite (spelling : String) : Bool :=
  let cs := spelling.toList
  let (whole, fraction, exponent) := parts (unsigned cs)
  let (n, dropped) := Decimal.extendBelow 0x10000000000000000 0 whole
  let (m, rest) := Decimal.extendBelow 0x10000000000000000 n fraction
  let scale : Int := dropped.length - (fraction.length - rest.length : Nat) + exponent
  isNumber cs && (m = 0 || scale < 0 ||
    (scale ≤ 308 &&
      Decimal.round53 (Decimal.round53 m * Decimal.round53 (Nat.pow 10 scale.toNat)) < 1 <<< 1024))

end WidgetFlow.Json.Spelling

/-!
# Numbers of a JSON text

A number is held as a significand of 64 bits and a power of ten.  Digits that no
longer fit the significand are dropped, and those of them that stand before the
point raise the power.

A number is malformed if it is too large for a double.  What counts is the product
of two doubles, the one next to the significand and the one next to the power of
ten, so the bound is met to within rounding (`Decimal.isTooLarge`).

* `scanNumber` reads a number without its sign.
-/

namespace CallBridge.Json

/-- What is wrong with a text: it ends too early, it is not JSON, or it is JSON of
another shape than the reader wants. -/
inductive Problem where
  | endedEarly
  | malformed
  | misfit
  deriving DecidableEq, Repr

/-- A number as it is held. -/
structure Decimal where
  significand : Nat
  exponent : Int
  deriving DecidableEq, Repr

/-- The largest significand. -/
def maxSignificand : Nat :=
  UInt64.size - 1

/-- The value of a decimal digit. -/
def digitValue (c : Char) : Nat :=
  c.toNat - '0'.toNat

/-- Puts digits behind a significand as long as they fit.  Gives the digits that do
not. -/
def extend (significand : Nat) : List Char → Nat × List Char
  | [] => (significand, [])
  | c :: cs =>
    if maxSignificand < significand * 10 + digitValue c then (significand, c :: cs)
    else extend (significand * 10 + digitValue c) cs

/-- The number that digits before a point stand for. -/
def Decimal.ofDigits (digits : List Char) : Decimal :=
  let (significand, dropped) := extend 0 digits
  ⟨significand, dropped.length⟩

/-- Puts the digits after the point behind a number. -/
def Decimal.addFraction (d : Decimal) (digits : List Char) : Decimal :=
  let (significand, dropped) := extend d.significand digits
  ⟨significand, d.exponent + dropped.length - digits.length⟩

/-! ## The range of a double -/

/-- How many bits the significand of a double has. -/
def precision : Nat :=
  53

/-- The integer next to another one among those of at most `precision` bits and their
multiples by powers of two.  Of two equally near ones it is the even one. -/
def nearestDouble (n : Nat) : Nat :=
  let spare := n.log2 + 1 - precision
  let step := 1 <<< spare
  let low := n / step
  let rest := n % step
  let up := decide (step < 2 * rest) || (2 * rest == step && low % 2 == 1)
  (if up && 0 < spare then low + 1 else low) * step

/-- The bound from which on a product is too large for a double. -/
def doubleBound : Nat :=
  1 <<< 1024 - 1 <<< 970

/-- The largest power of ten that is looked up as a double. -/
def maxPower : Int :=
  308

/-- Whether a number is too large for a double. -/
def Decimal.isTooLarge (d : Decimal) : Bool :=
  if d.exponent < 0 then false
  else if maxPower < d.exponent then d.significand != 0
  else
    decide (doubleBound ≤
      nearestDouble d.significand * nearestDouble (Nat.pow 10 d.exponent.toNat))

/-! ## Reading -/

/-- The value of decimal digits. -/
def digitsValue (digits : List Char) : Nat :=
  digits.foldl (fun n c => n * 10 + digitValue c) 0

/-- Reads the exponent of a number after its letter. -/
def scanExponent (d : Decimal) (cs : List Char) : Except Problem Decimal :=
  let (negative, cs) :=
    match cs with
    | '+' :: cs => (false, cs)
    | '-' :: cs => (true, cs)
    | cs => (false, cs)
  match cs with
  | [] => .error .endedEarly
  | c :: _ =>
    if c.isDigit then
      let exponent : Int := digitsValue (cs.takeWhile Char.isDigit)
      .ok { d with exponent := d.exponent + if negative then -exponent else exponent }
    else .error .malformed

/-- Reads what follows the digits before the point. -/
def scanFraction (d : Decimal) (cs : List Char) : Except Problem Decimal :=
  match cs with
  | '.' :: cs =>
    let digits := cs.takeWhile Char.isDigit
    if digits.isEmpty then .error (if cs.isEmpty then .endedEarly else .malformed)
    else
      match cs.dropWhile Char.isDigit with
      | 'e' :: cs => scanExponent (d.addFraction digits) cs
      | 'E' :: cs => scanExponent (d.addFraction digits) cs
      | _ => .ok (d.addFraction digits)
  | 'e' :: cs => scanExponent d cs
  | 'E' :: cs => scanExponent d cs
  | _ => .ok d

/-- Reads a number without its sign. -/
def scanNumber (cs : List Char) : Except Problem Decimal :=
  match cs with
  | [] => .error .endedEarly
  | '0' :: c :: cs => if c.isDigit then .error .malformed else scanFraction ⟨0, 0⟩ (c :: cs)
  | c :: _ =>
    if c.isDigit then
      scanFraction (.ofDigits (cs.takeWhile Char.isDigit)) (cs.dropWhile Char.isDigit)
    else .error .malformed

end CallBridge.Json

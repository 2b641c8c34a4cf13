/-
  The shortest decimal of a binary64 number, and the two ways it is written.

  Of all decimals that round to a given number the shortest is the one with the fewest digits, and
  of those the nearest.  For one digit, two digits and so on, the value has two neighbours on the
  decimal grid; the first grid on which a neighbour rounds back to the number gives the answer.
  When both neighbours do, the nearer is taken, and what happens at an exact half is a choice of
  the format, `Tie`.  Seventeen digits always suffice; should they not, the exact value is written
  out, which rounds back as well.

  Writing is separate: `positional` puts the point where it belongs and never uses an exponent,
  `scientific` puts it after the first digit.
-/
import ScriptTree.Decimal.Binary64

namespace ScriptTree

/-- The decimal `coefficient * 10 ^ exponent`. -/
structure Decimal where
  coefficient : Nat
  exponent : Int
  deriving DecidableEq, Repr

/-- Which of two equally near candidates is taken. -/
inductive Tie where
  /-- The greater one. -/
  | up
  /-- The one with the even coefficient. -/
  | even
  deriving DecidableEq, Repr

namespace Decimal

/-- The value as a numerator and a denominator. -/
def fraction (d : Decimal) : Nat × Nat :=
  Binary64.scale 10 d.coefficient 1 d.exponent

/-- Whether the decimal, rounded to the nearest binary64 number, is `x`, signs apart. -/
def roundsTo (d : Decimal) (x : Binary64) : Bool :=
  Binary64.round x.negative d.fraction.1 d.fraction.2 == x

/-! ## Choosing the digits -/

/-- The exponent of the greatest power of ten not above `num / den`: the difference of the digit
    counts, or one less. -/
def floorLog10 (num den : Nat) : Int :=
  Binary64.settle 10 num den
    (((Nat.toDigits 10 num).length : Int) - (Nat.toDigits 10 den).length)

/-- The decimal with the coefficient `c` on the grid `10 ^ p`, where `c` is at most `10 ^ n`; a
    carry into a further digit is written as a power of ten. -/
def onGrid (n c : Nat) (p : Int) : Decimal :=
  if c = Nat.pow 10 n then ⟨1, p + n⟩ else ⟨c, p⟩

/-- The better of the two neighbours of `x` with `n` digits, if one of them rounds back. -/
def candidate (tie : Tie) (x : Binary64) (n : Nat) : Option Decimal :=
  let p := floorLog10 x.fraction.1 x.fraction.2 + 1 - n
  let s := Binary64.scale 10 x.fraction.1 x.fraction.2 (-p)
  let below := onGrid n (s.1 / s.2) p
  let above := onGrid n (s.1 / s.2 + 1) p
  match below.roundsTo x, above.roundsTo x with
  | false, false => none
  | true, false => some below
  | false, true => some above
  | true, true =>
    let twice := 2 * (s.1 % s.2)
    if twice < s.2 then some below
    else if s.2 < twice then some above
    else match tie with
      | .up => some above
      | .even => if s.1 / s.2 % 2 = 0 then some below else some above

/-- The exact value of a number as a decimal. -/
def exact (x : Binary64) : Decimal :=
  match x.exponent with
  | .ofNat k => ⟨x.significand * Nat.pow 2 k, 0⟩
  | .negSucc k => ⟨x.significand * Nat.pow 5 (k + 1), .negSucc k⟩

/-- The shortest decimal that rounds to a number, the nearest of that length. -/
def shortest (tie : Tie) (x : Binary64) : Decimal :=
  if x.isZero then ⟨0, 0⟩
  else ((List.range 17).findSome? fun n => candidate tie x (n + 1)).getD (exact x)

/-! ## Writing a decimal -/

/-- The digits of the coefficient. -/
def digits (d : Decimal) : List Char :=
  Nat.toDigits 10 d.coefficient

/-- The power of ten of the first digit. -/
def leading (d : Decimal) : Int :=
  (d.digits.length : Int) - 1 + d.exponent

/-- Plain notation with at least one digit on each side of the point. -/
def positional (d : Decimal) : List Char :=
  match d.exponent with
  | .ofNat k => d.digits ++ List.replicate k '0' ++ ['.', '0']
  | .negSucc k =>
    let places := k + 1
    let padded := List.replicate (places + 1 - d.digits.length) '0' ++ d.digits
    padded.take (padded.length - places) ++ '.' :: padded.drop (padded.length - places)

/-- Notation with an exponent, which always shows its sign; a single digit has no point. -/
def scientific (d : Decimal) : List Char :=
  let mantissa := match d.digits with
    | [] => []
    | [c] => [c]
    | c :: rest => c :: '.' :: rest
  let sign := if d.leading < 0 then '-' else '+'
  mantissa ++ 'e' :: sign :: Nat.toDigits 10 d.leading.natAbs

/-! ## Digits and notation at the edges -/

example : shortest .even (Binary64.round false 1 10) = ⟨1, -1⟩ := by decide +kernel
example : shortest .even ⟨false, 1, -1074⟩ = ⟨5, -324⟩ := by decide +kernel
-- 2^-25 has two candidates of seventeen digits at the same distance
example : shortest .even (Binary64.round false 1 (2 ^ 25)) = ⟨29802322387695312, -24⟩ := by
  decide +kernel
example : shortest .up (Binary64.round false 1 (2 ^ 25)) = ⟨29802322387695313, -24⟩ := by
  decide +kernel
example : String.ofList (positional ⟨125, -2⟩) = "1.25" := by decide +kernel
example : String.ofList (positional ⟨125, -5⟩) = "0.00125" := by decide +kernel
example : String.ofList (positional ⟨1, 5⟩) = "100000.0" := by decide +kernel
example : String.ofList (scientific ⟨125, 20⟩) = "1.25e+22" := by decide +kernel
example : String.ofList (scientific ⟨5, -324⟩) = "5e-324" := by decide +kernel

end Decimal

end ScriptTree

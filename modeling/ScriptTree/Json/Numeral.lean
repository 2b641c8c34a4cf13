/-
  Number texts and the numbers they stand for.

  `Numeral` is a number text split at its point and its exponent mark.  Reading it back as a number
  follows two rules.  A text without point and exponent is an integer as long as it fits 64 bits;
  only minus zero is not one.  For every other text the leading digits that fit a 64-bit word are
  kept: the digits of the whole part that do not fit scale the result, those of the fraction are
  dropped.  The kept digits are rounded to binary64 and then multiplied or divided by the power of
  ten that remains, with one rounding each, so a long text need not give the nearest number to it.
-/
import ScriptTree.Json.Value

namespace ScriptTree.Json

/-- The parts of a number text.  The digits are those of the text, in order. -/
structure Numeral where
  negative : Bool
  whole : List Char
  /-- The digits after the point, if there is one. -/
  decimals : Option (List Char)
  /-- The sign and the digits of the exponent, if there is one; true is minus. -/
  exponent : Option (Bool × List Char)
  deriving DecidableEq, Repr

namespace Numeral

/-! ## Splitting a text -/

/-- The digits at the front of a text, at least one, and what follows them. -/
def takeDigits (cs : List Char) : Option (List Char × List Char) :=
  match cs.takeWhile Char.isDigit with
  | [] => none
  | ds => some (ds, cs.dropWhile Char.isDigit)

/-- The digits before the point: a zero stands alone. -/
def takeWhole (cs : List Char) : Option (List Char × List Char) :=
  match takeDigits cs with
  | some ('0' :: _ :: _, _) => none
  | found => found

/-- The point and the digits after it, where there is a point. -/
def takeDecimals : List Char → Option (Option (List Char) × List Char)
  | '.' :: cs => (takeDigits cs).map fun (ds, rest) => (some ds, rest)
  | cs => some (none, cs)

/-- The sign and the digits after an exponent mark. -/
def takeSigned : List Char → Option (Option (Bool × List Char) × List Char)
  | '-' :: cs => (takeDigits cs).map fun (ds, rest) => (some (true, ds), rest)
  | '+' :: cs => (takeDigits cs).map fun (ds, rest) => (some (false, ds), rest)
  | cs => (takeDigits cs).map fun (ds, rest) => (some (false, ds), rest)

/-- The exponent, where there is a mark for one. -/
def takeExponent : List Char → Option (Option (Bool × List Char) × List Char)
  | 'e' :: cs => takeSigned cs
  | 'E' :: cs => takeSigned cs
  | cs => some (none, cs)

/-- The unsigned rest of a number text. -/
def takeUnsigned (negative : Bool) (cs : List Char) : Option (Numeral × List Char) := do
  let (whole, cs) ← takeWhole cs
  let (decimals, cs) ← takeDecimals cs
  let (exponent, cs) ← takeExponent cs
  return (⟨negative, whole, decimals, exponent⟩, cs)

/-- The number text at the front of a text, and what follows it. -/
def take : List Char → Option (Numeral × List Char)
  | '-' :: cs => takeUnsigned true cs
  | cs => takeUnsigned false cs

/-! ## Reading the parts as a number -/

/-- The value of a digit. -/
def digitValue (c : Char) : Nat :=
  c.toNat - '0'.toNat

/-- The number that a list of digits spells. -/
def valueOf (ds : List Char) : Nat :=
  ds.foldl (fun n c => 10 * n + digitValue c) 0

/-- Appends digits to a number as long as it stays below 2^64; the second part counts the digits
    that were left over. -/
def keepDigits (n : Nat) : List Char → Nat × Nat
  | [] => (n, 0)
  | d :: ds =>
    let m := 10 * n + digitValue d
    if m < 0x10000000000000000 then keepDigits m ds else (n, ds.length + 1)

/-- The power of ten by which the kept digits are multiplied when there is a point or an
    exponent. -/
def exponentValue (x : Numeral) : Int :=
  match x.exponent with
  | none => 0
  | some (true, ds) => -(valueOf ds : Int)
  | some (false, ds) => valueOf ds

/-- A power of ten up to the greatest one in the range of binary64. -/
def tenTo (k : Nat) : Binary64 :=
  Binary64.ofNat (Nat.pow 10 k)

/-- A number divided by `10 ^ k`: by 10^308 at a time while the power is out of the range of the
    format and something is left to divide, then by what remains of the power. -/
def scaleDown (x : Binary64) (k : Nat) : Binary64 :=
  if k ≤ 308 then x.div (tenTo k)
  else if x.isZero then x
  else scaleDown (x.div (tenTo 308)) (k - 308)
  termination_by k

/-- A number times a power of ten; none when the result is too large. -/
def scaleByTen (x : Binary64) : Int → Option Binary64
  | .ofNat k =>
    if x.isZero then some x
    else if 308 < k then none
    else
      let y := x.mul (tenTo k)
      if y.isFinite then some y else none
  | .negSucc k => some (scaleDown x (k + 1))

/-- The kept digits times the remaining power of ten, with the sign of the text. -/
def real? (x : Numeral) : Option Binary64 :=
  let front := keepDigits 0 x.whole
  let decimals := x.decimals.getD []
  let all := keepDigits front.1 decimals
  let power : Int := x.exponentValue + front.2 - (decimals.length - all.2 : Nat)
  (scaleByTen (Binary64.ofNat all.1) power).map fun y => if x.negative then y.neg else y

/-- The number a text stands for; none when it is too large.  An integer is kept as one from -2^63
    to below 2^64. -/
def number? (x : Numeral) : Option Number :=
  match x.decimals, x.exponent with
  | none, none =>
    let n := valueOf x.whole
    if x.negative then
      if n = 0 ∨ 0x8000000000000000 < n then x.real?.map .real else some (.integer (-(n : Int)))
    else if n < 0x10000000000000000 then some (.integer n)
    else x.real?.map .real
  | _, _ => x.real?.map .real

end Numeral

end ScriptTree.Json

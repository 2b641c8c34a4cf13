/-
  Atoms: the forms that stand for themselves.

  Nothing is quoted or escaped here; the form around an atom decides whether it needs quotes.  A
  ratio is written as its decimal value: both parts and the quotient are taken to the nearest
  binary64 number, a whole value is written in full with one digit after the point, and any other
  by its shortest digits in plain notation.
-/
import ScriptTree.Render.Parts

namespace ScriptTree.Render

/-- The value of a ratio with a denominator other than zero. -/
def ratioValue (numer denom : Int64) : Binary64 :=
  (Binary64.ofInt numer.toInt).div (Binary64.ofInt denom.toInt)

/-- The decimal that a number is written as: itself when it is whole, and otherwise its shortest
    decimal, the greater one of two that are equally near. -/
def decimalOf (x : Binary64) : Decimal :=
  if x.isWhole then ⟨x.fraction.1 / x.fraction.2, 0⟩ else Decimal.shortest .up x

/-- A number in plain notation. -/
def decimalText (x : Binary64) : String :=
  let magnitude := (decimalOf x).positional
  String.ofList (if x.negative then '-' :: magnitude else magnitude)

/-- The text of a ratio. -/
def ratio (numer denom : Int64) : Rendering :=
  if denom = 0 then misuse (.zeroDenominator numer denom)
  else .ok (decimalText (ratioValue numer denom))

/-- The text of an atom.  A form that is no atom is spelled. -/
def atom : Form → Rendering
  | .nil => .ok "null"
  | .int n => .ok (Form.intText n)
  | .ratio n d => ratio n d
  | .str s => .ok s
  | .keyword name => .ok name
  | .symbol name => .ok name
  | .splice => .ok ""
  | other => .ok other.spelling

example : decimalText (ratioValue 1 3) = "0.3333333333333333" := by decide +kernel
example : decimalText (ratioValue (-4) 2) = "-2.0" ∧ decimalText (ratioValue 0 (-3)) = "-0.0" := by
  decide +kernel
example : decimalText (ratioValue (-9223372036854775808) (-1)) = "9223372036854775808.0" := by
  decide +kernel

end ScriptTree.Render

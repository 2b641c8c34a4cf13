/-
  Compact JSON text: how a value is written back.

  Nothing separates the parts but the punctuation itself.  In a string the quote, the backslash and
  the control characters are escaped, five of them by a letter, and everything else stands as
  itself.  A number that is not an integer is written with its shortest digits: in plain notation
  when its first digit stands between the fifth place after the point and the sixteenth before it,
  with an exponent otherwise.
-/
import ScriptTree.Json.Value

namespace ScriptTree.Json

/-- A number that is not an integer: of two equally near shortest decimals the even one, in plain
    notation for first digits from 10^-5 to 10^15. -/
def realChars (x : Binary64) : List Char :=
  let d := Decimal.shortest .even x
  let text := if -5 ≤ d.leading ∧ d.leading < 16 then d.positional else d.scientific
  if x.negative then '-' :: text else text

/-- The characters of an integer. -/
def integerChars (n : Int) : List Char :=
  if n < 0 then '-' :: Nat.toDigits 10 n.natAbs else Nat.toDigits 10 n.natAbs

/-- The characters of a number. -/
def Number.chars : Number → List Char
  | .integer n => integerChars n
  | .real x => realChars x

/-- A control character by its code, in four lower-case hexadecimal digits. -/
def controlEscape (c : Char) : List Char :=
  '\\' :: 'u' :: '0' :: '0' :: (Nat.digitChar (c.toNat / 16) :: [Nat.digitChar (c.toNat % 16)])

/-- One character of a string. -/
def stringChar (c : Char) : List Char :=
  match c with
  | '"' => ['\\', '"']
  | '\\' => ['\\', '\\']
  | '\x08' => ['\\', 'b']
  | '\x0c' => ['\\', 'f']
  | '\n' => ['\\', 'n']
  | '\r' => ['\\', 'r']
  | '\t' => ['\\', 't']
  | c => if c.toNat < 0x20 then controlEscape c else [c]

/-- A string between its quotes. -/
def stringChars (s : String) : List Char :=
  '"' :: (s.toList.flatMap stringChar ++ ['"'])

mutual

/-- The characters of a value. -/
def chars : Json → List Char
  | .null => ['n', 'u', 'l', 'l']
  | .bool true => ['t', 'r', 'u', 'e']
  | .bool false => ['f', 'a', 'l', 's', 'e']
  | .number n => n.chars
  | .string s => stringChars s
  | .array items => '[' :: (itemChars items ++ [']'])
  | .object fields => '\x7b' :: (fieldChars fields ++ ['\x7d'])

/-- The items of an array, with commas between them. -/
def itemChars : List Json → List Char
  | [] => []
  | [v] => chars v
  | v :: rest => chars v ++ ',' :: itemChars rest

/-- The fields of an object, with commas between them. -/
def fieldChars : List (String × Json) → List Char
  | [] => []
  | [(n, v)] => stringChars n ++ ':' :: chars v
  | (n, v) :: rest => stringChars n ++ ':' :: (chars v ++ ',' :: fieldChars rest)

end

/-- The compact text of a value. -/
def compact (v : Json) : String :=
  String.ofList v.chars

/-- The compact text of a number. -/
def Number.compact (n : Number) : String :=
  String.ofList n.chars

/-! ## What the text looks like -/

example : compact (.array [.null, .bool true, .number (.integer (-5))]) = "[null,true,-5]" := by
  decide +kernel
example : compact (.object [("a\n", .string "\x01")]) = "\x7b\"a\\n\":\"\\u0001\"\x7d" := by
  decide +kernel

end ScriptTree.Json

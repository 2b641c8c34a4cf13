/-
  Reading JSON text.

  The grammar is the strict one: four blank characters, no comments, no trailing commas, nothing
  after the value, control characters only as escapes, and `\u` escapes that form characters in
  whole.  Brackets may nest 127 deep.  That bound is what the recursion runs on: a value within an
  array or an object is read with one level less, and the items of one array are read one after
  another.

  A reader takes a list of characters and gives what it read together with the rest, or nothing.
  A text that is not JSON is refused as a whole, without a reason.
-/
import ScriptTree.Json.Numeral

namespace ScriptTree.Json

/-! ## Blanks and strings -/

/-- The blanks that may stand between the parts of a text. -/
def isSpace (c : Char) : Bool :=
  c == ' ' || c == '\t' || c == '\n' || c == '\r'

/-- A text without the blanks at its front. -/
def skipSpace (cs : List Char) : List Char :=
  cs.dropWhile isSpace

/-- The value of a hexadecimal digit in either case. -/
def hexValue? (c : Char) : Option Nat :=
  if c.isDigit then some (c.toNat - '0'.toNat)
  else if 'a' ≤ c ∧ c ≤ 'f' then some (c.toNat - 'a'.toNat + 10)
  else if 'A' ≤ c ∧ c ≤ 'F' then some (c.toNat - 'A'.toNat + 10)
  else none

/-- The value of four hexadecimal digits. -/
def hexValue4? (a b c d : Char) : Option Nat := do
  let a ← hexValue? a
  let b ← hexValue? b
  let c ← hexValue? c
  let d ← hexValue? d
  return 4096 * a + 256 * b + 16 * c + d

/-- What stands inside a string: a character, or a 16-bit unit given by its number, which may be
    one half of a character. -/
inductive Piece where
  | char (c : Char)
  | unit (n : Nat)
  deriving DecidableEq, Repr

/-- The character that a letter after a backslash stands for. -/
def escaped? : Char → Option Char
  | '"' => some '"'
  | '\\' => some '\\'
  | '/' => some '/'
  | 'b' => some '\x08'
  | 'f' => some '\x0c'
  | 'n' => some '\n'
  | 'r' => some '\r'
  | 't' => some '\t'
  | _ => none

/-- The pieces of a string up to its closing quote, and what follows the quote. -/
def readPieces : List Char → Option (List Piece × List Char)
  | [] => none
  | '"' :: rest => some ([], rest)
  | '\\' :: 'u' :: a :: b :: c :: d :: rest =>
    match hexValue4? a b c d with
    | some n => (readPieces rest).map fun (ps, rest) => (.unit n :: ps, rest)
    | none => none
  | '\\' :: e :: rest =>
    match escaped? e with
    | some c => (readPieces rest).map fun (ps, rest) => (.char c :: ps, rest)
    | none => none
  | c :: rest =>
    if c.toNat < 0x20 ∨ c = '\\' then none
    else (readPieces rest).map fun (ps, rest) => (.char c :: ps, rest)

/-- The characters that pieces spell: a leading half is followed by a trailing half, and neither
    stands otherwise. -/
def joinPieces : List Piece → Option (List Char)
  | [] => some []
  | .char c :: rest => (joinPieces rest).map (c :: ·)
  | .unit n :: .unit m :: rest =>
    if 0xd800 ≤ n ∧ n < 0xdc00 then
      if 0xdc00 ≤ m ∧ m < 0xe000 then
        (joinPieces rest).map
          (Char.ofNat (0x10000 + 0x400 * (n - 0xd800) + (m - 0xdc00)) :: ·)
      else none
    else if 0xdc00 ≤ n ∧ n < 0xe000 then none
    else (joinPieces (.unit m :: rest)).map (Char.ofNat n :: ·)
  | .unit n :: rest =>
    if 0xd800 ≤ n ∧ n < 0xe000 then none else (joinPieces rest).map (Char.ofNat n :: ·)

/-- A string after its opening quote. -/
def readString (cs : List Char) : Option (String × List Char) := do
  let (pieces, rest) ← readPieces cs
  let text ← joinPieces pieces
  return (String.ofList text, rest)

/-! ## Arrays and objects, given a reader for the values in them -/

/-- The items of an array from the first one to the closing bracket.  The count bounds the number
    of items and is never reached when it is the length of the text. -/
def readItems (value : List Char → Option (Json × List Char)) :
    Nat → List Char → Option (List Json × List Char)
  | 0, _ => none
  | n + 1, cs => do
    let (v, cs) ← value cs
    match skipSpace cs with
    | ']' :: rest => some ([v], rest)
    | ',' :: rest => (readItems value n rest).map fun (vs, rest) => (v :: vs, rest)
    | _ => none

/-- A name, a colon and a value. -/
def readField (value : List Char → Option (Json × List Char)) (cs : List Char) :
    Option ((String × Json) × List Char) :=
  match skipSpace cs with
  | '"' :: cs => do
    let (name, cs) ← readString cs
    match skipSpace cs with
    | ':' :: cs => (value cs).map fun (v, rest) => ((name, v), rest)
    | _ => none
  | _ => none

/-- The fields of an object in the order of the text, from the first one to the closing brace. -/
def readFields (value : List Char → Option (Json × List Char)) :
    Nat → List Char → Option (List (String × Json) × List Char)
  | 0, _ => none
  | n + 1, cs => do
    let (f, cs) ← readField value cs
    match skipSpace cs with
    | '\x7d' :: rest => some ([f], rest)
    | ',' :: rest => (readFields value n rest).map fun (fs, rest) => (f :: fs, rest)
    | _ => none

/-- The object with the given fields; of several with one name the last counts. -/
def ofFields (fields : List (String × Json)) : Json :=
  .object (fields.foldl (fun fs f => setField f.1 f.2 fs) [])

/-- A number at the front of a text. -/
def readNumber (cs : List Char) : Option (Json × List Char) := do
  let (numeral, rest) ← Numeral.take cs
  let n ← numeral.number?
  return (.number n, rest)

/-! ## Values -/

/-- The value at the front of a text, with brackets nested at most `depth` deep. -/
def readValue (depth : Nat) (cs : List Char) : Option (Json × List Char) :=
  match skipSpace cs with
  | 'n' :: 'u' :: 'l' :: 'l' :: rest => some (.null, rest)
  | 't' :: 'r' :: 'u' :: 'e' :: rest => some (.bool true, rest)
  | 'f' :: 'a' :: 'l' :: 's' :: 'e' :: rest => some (.bool false, rest)
  | '"' :: rest => (readString rest).map fun (s, rest) => (.string s, rest)
  | '[' :: rest =>
    match depth with
    | 0 => none
    | depth + 1 =>
      match skipSpace rest with
      | ']' :: rest => some (.array [], rest)
      | cs => (readItems (readValue depth) cs.length cs).map fun (vs, rest) => (.array vs, rest)
  | '\x7b' :: rest =>
    match depth with
    | 0 => none
    | depth + 1 =>
      match skipSpace rest with
      | '\x7d' :: rest => some (.object [], rest)
      | cs => (readFields (readValue depth) cs.length cs).map fun (fs, rest) => (ofFields fs, rest)
  | cs => readNumber cs

/-- How deep brackets may nest. -/
def maxDepth : Nat := 127

/-- The value a text stands for, if the text is JSON. -/
def parse (text : String) : Option Json :=
  match readValue maxDepth text.toList with
  | some (v, rest) => if skipSpace rest = [] then some v else none
  | none => none

end ScriptTree.Json

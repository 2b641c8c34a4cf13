/-
  Names of variables and of slots.

  An assignment needs a name the shell accepts; the one fault this library looks for is a hyphen.
  A slot of an associative array is named by two texts, the array and the key, and each is first
  spelled with identifier characters: the three separators that names commonly hold become words
  between underscores.
-/
namespace ScriptTree.Text

/-- Whether a text holds a hyphen, which no shell variable name may. -/
def hasHyphen (s : String) : Bool :=
  s.toList.contains '-'

/-- One character of a slot name. -/
def slotChar (c : Char) : List Char :=
  match c with
  | '-' => ['_', '_']
  | '.' => ['_', 'D', 'O', 'T', '_']
  | '/' => ['_', 'S', 'L', 'A', 'S', 'H', '_']
  | c => [c]

/-- The name of an array or of a key as part of a shell identifier. -/
def slotName (s : String) : String :=
  String.ofList (s.toList.flatMap slotChar)

/-! ## What slot names look like -/

example : slotName "my-var" = "my__var" := by decide
example : slotName "a.b/c" = "a_DOT_b_SLASH_c" := by decide
example : slotName "plain_name" = "plain_name" := by decide

end ScriptTree.Text

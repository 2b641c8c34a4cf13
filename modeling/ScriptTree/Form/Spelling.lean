/-
  The spelling of a form: the notation in which messages show it.

  Lists stand in round brackets, vectors in square ones and maps in braces with commas between
  their entries; a keyword has a colon, a string is quoted, a ratio shows both its parts, and the
  mark of an empty splice is written as the splice it came from.
-/
import ScriptTree.Form.Basic
import ScriptTree.Text.Quoted

namespace ScriptTree.Form

/-- An integer in decimal digits. -/
def intText (n : Int64) : String :=
  toString n.toInt

mutual

/-- A form in reader notation. -/
def spelling : Form → String
  | .nil => "nil"
  | .int n => intText n
  | .ratio n d => intText n ++ "/" ++ intText d
  | .str s => Text.quote s
  | .keyword name => ":" ++ name
  | .symbol name => name
  | .list items => "(" ++ spellItems items ++ ")"
  | .vector items => "[" ++ spellItems items ++ "]"
  | .map entries => "\x7b" ++ spellEntries entries ++ "\x7d"
  | .splice => "~@()"

/-- Forms with one space between them. -/
def spellItems : List Form → String
  | [] => ""
  | [f] => spelling f
  | f :: fs => spelling f ++ " " ++ spellItems fs

/-- Entries with a comma and a space between them. -/
def spellEntries : List (Form × Form) → String
  | [] => ""
  | [(k, v)] => spelling k ++ " " ++ spelling v
  | (k, v) :: es => spelling k ++ " " ++ spelling v ++ ", " ++ spellEntries es

end

example : spelling (.list [.symbol "a", .vector [.keyword "b", .ratio 1 (-2)], .splice])
    = "(a [:b 1/-2] ~@())" := by decide +kernel
example : spelling (.map [(.nil, .str "x"), (.int 0, .nil)]) = "\x7bnil \"x\", 0 nil\x7d" := by
  decide +kernel

end ScriptTree.Form

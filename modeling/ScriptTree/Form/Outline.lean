/-
  The outline of a form: every constructor by its name, for someone who looks at a decoded tree.

  An outline is first built as a tree of four shapes (`Outline`) and then written either on one
  line or with one element to a line, indented by four spaces a level and followed by a comma.  An
  empty collection stays closed in both.
-/
import ScriptTree.Form.Spelling

namespace ScriptTree

/-- The shapes an outline is made of. -/
inductive Outline where
  /-- A word that stands for itself. -/
  | word (text : String)
  /-- A name applied to one argument. -/
  | wrap (name : String) (arg : Outline)
  /-- A name with named fields. -/
  | record (name : String) (fields : List (String × Outline))
  | sequence (items : List Outline)
  | table (entries : List (Outline × Outline))

namespace Outline

/-! ## On one line -/

mutual

/-- An outline on one line. -/
def inline : Outline → String
  | .word text => text
  | .wrap name arg => name ++ "(" ++ inline arg ++ ")"
  | .record name fields => name ++ " \x7b " ++ inlineFields fields ++ " \x7d"
  | .sequence items => "[" ++ inlineItems items ++ "]"
  | .table entries => "\x7b" ++ inlineEntries entries ++ "\x7d"

/-- Items with commas between them. -/
def inlineItems : List Outline → String
  | [] => ""
  | [o] => inline o
  | o :: os => inline o ++ ", " ++ inlineItems os

/-- Named fields with commas between them. -/
def inlineFields : List (String × Outline) → String
  | [] => ""
  | [(n, o)] => n ++ ": " ++ inline o
  | (n, o) :: fs => n ++ ": " ++ inline o ++ ", " ++ inlineFields fs

/-- Entries with commas between them. -/
def inlineEntries : List (Outline × Outline) → String
  | [] => ""
  | [(k, v)] => inline k ++ ": " ++ inline v
  | (k, v) :: es => inline k ++ ": " ++ inline v ++ ", " ++ inlineEntries es

end

/-! ## One element to a line -/

/-- The start of a line at a level. -/
def margin (level : Nat) : String :=
  String.ofList (List.replicate (4 * level) ' ')

mutual

/-- An outline that starts on a line of the given level. -/
def indented (level : Nat) : Outline → String
  | .word text => text
  | .wrap name arg =>
    name ++ "(\n" ++ margin (level + 1) ++ indented (level + 1) arg ++ ",\n" ++ margin level ++ ")"
  | .record name fields =>
    name ++ " \x7b\n" ++ indentedFields (level + 1) fields ++ margin level ++ "\x7d"
  | .sequence [] => "[]"
  | .sequence items => "[\n" ++ indentedItems (level + 1) items ++ margin level ++ "]"
  | .table [] => "\x7b\x7d"
  | .table entries => "\x7b\n" ++ indentedEntries (level + 1) entries ++ margin level ++ "\x7d"

/-- Items, each on a line of the given level. -/
def indentedItems (level : Nat) : List Outline → String
  | [] => ""
  | o :: os => margin level ++ indented level o ++ ",\n" ++ indentedItems level os

/-- Named fields, each on a line of the given level. -/
def indentedFields (level : Nat) : List (String × Outline) → String
  | [] => ""
  | (n, o) :: fs =>
    margin level ++ n ++ ": " ++ indented level o ++ ",\n" ++ indentedFields level fs

/-- Entries, each starting on a line of the given level. -/
def indentedEntries (level : Nat) : List (Outline × Outline) → String
  | [] => ""
  | (k, v) :: es =>
    margin level ++ indented level k ++ ": " ++ indented level v ++ ",\n" ++
      indentedEntries level es

end

end Outline

namespace Form

mutual

/-- The outline of a form. -/
def outline : Form → Outline
  | .nil => .word "Nil"
  | .int n => .wrap "Int" (.word (intText n))
  | .ratio n d =>
    .record "Ratio" [("numer", .word (intText n)), ("denom", .word (intText d))]
  | .str s => .wrap "Str" (.word (Text.quote s))
  | .keyword name => .wrap "Keyword" (.word (Text.quote name))
  | .symbol name => .wrap "Symbol" (.word (Text.quote name))
  | .list items => .wrap "List" (.sequence (outlineItems items))
  | .vector items => .wrap "Vector" (.sequence (outlineItems items))
  | .map entries => .wrap "Map" (.table (outlineEntries entries))
  | .splice => .word "EmptySplice"

/-- The outlines of a list of forms. -/
def outlineItems : List Form → List Outline
  | [] => []
  | f :: fs => outline f :: outlineItems fs

/-- The outlines of the entries of a map. -/
def outlineEntries : List (Form × Form) → List (Outline × Outline)
  | [] => []
  | (k, v) :: es => (outline k, outline v) :: outlineEntries es

end

/-- The indented outline of the forms of a document. -/
def outlineText (forms : List Form) : String :=
  (Outline.sequence (outlineItems forms)).indented 0

example : (outline (.list [.nil, .ratio 1 2])).inline
    = "List([Nil, Ratio \x7b numer: 1, denom: 2 \x7d])" := by decide +kernel
example : outlineText [.vector [], .int 5]
    = "[\n    Vector(\n        [],\n    ),\n    Int(\n        5,\n    ),\n]" := by decide +kernel

end Form

end ScriptTree

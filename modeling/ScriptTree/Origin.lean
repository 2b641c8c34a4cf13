/-
  Where a tree came from.

  An origin is a file, a line, both or neither.  It never changes what is rendered; it is handed to
  extensions and attached to faults as a place, which is the origin in words.
-/
namespace ScriptTree

/-- The file and the line a tree came from, as far as they are known. -/
structure Origin where
  file : Option String
  line : Option Nat
  deriving DecidableEq, Repr, Inhabited

namespace Origin

/-- The origin of which nothing is known. -/
def unknown : Origin := ⟨none, none⟩

/-- The origin in words. -/
def describe : Origin → String
  | ⟨some file, some line⟩ => file ++ ":" ++ toString line
  | ⟨some file, none⟩ => file
  | ⟨none, some line⟩ => "line " ++ toString line
  | ⟨none, none⟩ => "<unknown>"

/-- The place to report, if anything is known. -/
def place? (o : Origin) : Option String :=
  if o.file.isNone && o.line.isNone then none else some o.describe

example : describe ⟨some "a.json", some 3⟩ = "a.json:3" := by decide +kernel
example : place? unknown = none := by decide

end Origin

end ScriptTree

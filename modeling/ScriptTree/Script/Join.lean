/-
  Joining finished texts.

  Each of the three ways first trims the texts and drops the blank ones, so joining what is already
  joined changes nothing: one per line, chained with `&&`, or chained under a guard that announces
  the work, reports a failure on the error stream and stops.
-/
import ScriptTree.Text.Blank

namespace ScriptTree.Script

/-- The texts, trimmed, without the blank ones. -/
def solid (texts : List String) : List String :=
  (texts.map Text.trim).filter (· ≠ "")

/-- Texts one per line, with a newline at the end. -/
def sequence (texts : List String) : String :=
  "\n".intercalate (solid texts) ++ "\n"

/-- Texts chained so that each runs only if the one before succeeded. -/
def chain (texts : List String) : String :=
  " && ".intercalate (solid texts)

/-- The guard around a chain of commands. -/
def guarded (message commands : String) : String :=
  "echo \"" ++ message ++ "...\"\n" ++
  "\x7b " ++ commands ++ "; \x7d || \x7b echo \"" ++ message ++ "\" failed; exit 1; \x7d >&2\n" ++
  "echo \"...done\"\n"

/-- Texts chained under a guard, or nothing if there is nothing to run. -/
def checked (message : String) (texts : List String) : String :=
  if Text.isBlank (chain texts) then "" else guarded message (chain texts)

example : sequence [" a \n", " ", "b"] = "a\nb\n" := by decide +kernel
example : chain ["a\n", "", "b"] = "a && b" := by decide +kernel
example : checked "m" ["\n"] = "" := by decide +kernel

end ScriptTree.Script

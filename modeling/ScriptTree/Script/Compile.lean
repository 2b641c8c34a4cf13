/-
  Scripts: rendered text made ready to run.

  A script is the rendered body with one newline at its end, or nothing at all if the body is
  empty; before it stand, where asked for, the line that names the interpreter and the functions
  behind associative arrays.
-/
import ScriptTree.Document
import ScriptTree.HashArray
import ScriptTree.Render.Layout

namespace ScriptTree.Script

/-- When the functions behind associative arrays are put in front of a script. -/
inductive Supply where
  /-- When the tree needs them. -/
  | auto
  | always
  | never
  deriving DecidableEq, Repr, Inhabited

/-- How a script is made. -/
structure Options where
  /-- Whether the script names its interpreter. -/
  shebang : Bool
  supply : Supply
  origin : Origin
  deriving Inhabited

/-- Whether the functions are put in front of the script of these forms. -/
def Supply.applies (supply : Supply) (forms : List Form) : Bool :=
  match supply with
  | .auto => Form.anyUsesHash forms
  | .always => true
  | .never => false

/-- The line that names the interpreter. -/
def shebangLine : String := "#!/bin/sh\n"

/-- A body with exactly one newline at its end, or nothing. -/
def tidy (body : String) : String :=
  let kept := Text.dropFinalNewlines body
  if kept = "" then "" else kept ++ "\n"

/-- The script of the forms of a tree. -/
def compile (options : Options) (extension : Extension) (forms : List Form) : Rendering := do
  let body ← Render.render ⟨extension, options.origin⟩ forms
  let script := HashArray.supply (options.supply.applies forms) (tidy body)
  return if options.shebang then shebangLine ++ script else script

/-- The script of a document, without extension. -/
def compileText (options : Options) (text : String) : Rendering := do
  compile options Extension.none (← Document.parse text)

end ScriptTree.Script

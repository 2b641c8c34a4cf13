/-
  The parts of a rendering: how the texts of several forms are put together.

  Rendering is written in the open style.  Every rule takes a function `sub`, which renders the
  forms it meets, and says how their texts are combined; tying the rules into one function is left
  to the module that has all of them.  So each rule can be read, and reasoned about, on its own.

  A sequence of forms becomes statements (one to a line), words (separated by spaces) or a list in
  brackets.  Statements and words leave out the marks of empty splices and whatever renders to
  nothing; a list in brackets keeps every item.
-/
import ScriptTree.Fault
import ScriptTree.Text.Blank

namespace ScriptTree

/-- A text, or the fault that kept it from being rendered. -/
abbrev Rendering := Except Fault String

namespace Render

/-- A rendering that fails by misuse; the place is added when rendering is done. -/
def misuse (cause : Misuse) : Rendering :=
  .error (.misuse cause none)

/-- The failure of a construct that was given the wrong number of arguments. -/
def badCount (c : Construct) (args : List Form) : Rendering :=
  misuse (.argumentCount c.name c.arity args.length)

/-- Forms as statements: each text that is not empty is a line of its own. -/
def statements (sub : Form → Rendering) : List Form → Rendering
  | [] => .ok ""
  | f :: fs =>
    if f.isSplice then statements sub fs
    else do
      let text ← sub f
      let rest ← statements sub fs
      return Text.asLine text ++ rest

/-- The texts of forms, without those that are blank. -/
def parts (sub : Form → Rendering) : List Form → Except Fault (List String)
  | [] => .ok []
  | f :: fs =>
    if f.isSplice then parts sub fs
    else do
      let text ← sub f
      let rest ← parts sub fs
      return if Text.isBlank text then rest else text :: rest

/-- The parts of forms with a separator between them. -/
def joined (sub : Form → Rendering) (separator : String) (fs : List Form) : Rendering := do
  return separator.intercalate (← parts sub fs)

/-- Forms as words of one command. -/
def words (sub : Form → Rendering) (fs : List Form) : Rendering :=
  joined sub " " fs

/-- All forms in round brackets, with commas between them. -/
def arguments (sub : Form → Rendering) (fs : List Form) : Rendering := do
  return "(" ++ ", ".intercalate (← fs.mapM sub) ++ ")"

/-- The entries of a map as an array initialiser. -/
def initialiser (sub : Form → Rendering) (entries : List (Form × Form)) : Rendering := do
  let slots ← entries.mapM fun e => do
    let key ← sub e.1
    let value ← sub e.2
    return "[" ++ key ++ "]=" ++ value
  return "(" ++ " ".intercalate slots ++ ")"

/-- A command followed by words, if there are any. -/
def command (name : String) (words : String) : String :=
  if words = "" then name else name ++ " " ++ words

/-- A text between double quotes, as it is. -/
def enquote (s : String) : String :=
  "\"" ++ s ++ "\""

end Render

end ScriptTree

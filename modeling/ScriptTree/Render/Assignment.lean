/-
  Constructs that give something a name: variables, aliases, array elements, functions.

  Of the constructs that assign a variable, three refuse a name with a hyphen, and they do so
  before the value is rendered.  A map given to `var` becomes an associative array.
-/
import ScriptTree.Render.Slots

namespace ScriptTree.Render

/-- The text of a form that has to be the name of a variable. -/
def variableName (sub : Form → Rendering) (f : Form) : Rendering := do
  let name ← sub f
  if Text.hasHyphen name then .error (.badName name none) else return name

/-- Two texts with something before, between and after them. -/
def pair (sub : Form → Rendering) (opening middle closing : String) (first second : Form) :
    Rendering := do
  let first ← sub first
  let second ← sub second
  return opening ++ first ++ middle ++ second ++ closing

/-- An assignment to a checked name. -/
def checkedAssignment (sub : Form → Rendering) (target value : Form) : Rendering := do
  let name ← variableName sub target
  let value ← sub value
  return name ++ "=" ++ value

/-- `local`, with a value or without. -/
def localVar (sub : Form → Rendering) (args : List Form) : Rendering :=
  match args with
  | [target] => return "local " ++ (← variableName sub target)
  | [target, value] => return "local " ++ (← checkedAssignment sub target value)
  | _ => badCount .localVar args

/-- `var`: a map becomes an associative array, and anything else is assigned. -/
def assign (sub : Form → Rendering) (args : List Form) : Rendering :=
  match args with
  | [target, .map entries] => setSlots sub target entries
  | [target, value] => checkedAssignment sub target value
  | _ => badCount .assign args

/-- `set!`. -/
def setVar (sub : Form → Rendering) (args : List Form) : Rendering :=
  match args with
  | [target, value] => checkedAssignment sub target value
  | _ => badCount .setVar args

/-- `defvar`, which takes any name. -/
def define (sub : Form → Rendering) (args : List Form) : Rendering :=
  match args with
  | [target, value] => pair sub "" "=" "" target value
  | _ => badCount .define args

/-- `let`. -/
def calculate (sub : Form → Rendering) (args : List Form) : Rendering :=
  match args with
  | [target, value] => pair sub "let " "=" "" target value
  | _ => badCount .calculate args

/-- `alias`. -/
def aliasFor (sub : Form → Rendering) (args : List Form) : Rendering :=
  match args with
  | [target, value] => pair sub "alias " "='" "'" target value
  | _ => badCount .aliasFor args

/-- `aget`. -/
def arrayGet (sub : Form → Rendering) (args : List Form) : Rendering :=
  match args with
  | [array, index] => pair sub "$\x7b" "[" "]\x7d" array index
  | _ => badCount .arrayGet args

/-- `aset`. -/
def arraySet (sub : Form → Rendering) (args : List Form) : Rendering :=
  match args with
  | [array, index, value] => do
    let element ← pair sub "" "[" "]=" array index
    let value ← sub value
    return element ++ value
  | _ => badCount .arraySet args

/-! ## Functions -/

/-- One line for each parameter, which takes the argument at its position, counted from `i`. -/
def parameterLines (sub : Form → Rendering) (i : Nat) : List Form → Rendering
  | [] => .ok ""
  | p :: ps => do
    let name ← sub p
    let rest ← parameterLines sub (i + 1) ps
    return name ++ "=$" ++ toString i ++ "\n" ++ rest

/-- A function with its parameters and its body. -/
def functionWith (sub : Form → Rendering) (opening : String) (params body : List Form) :
    Rendering := do
  let params ← parameterLines sub 1 params
  let body ← statements sub body
  return opening ++ params ++ body ++ "\x7d\n"

/-- `defn`, with a name or without. -/
def function (sub : Form → Rendering) (args : List Form) : Rendering :=
  match args with
  | .symbol name :: .vector params :: body =>
    functionWith sub ("function " ++ name ++ "() \x7b\n") params body
  | .vector params :: body => functionWith sub "function () \x7b\n" params body
  | _ => misuse .parameters

end ScriptTree.Render

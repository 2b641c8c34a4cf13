/-
  The layout of a form, and rendering as its iteration.

  `layout cx sub f` is the text of `f`, given the texts `sub` of smaller forms.  It only ever asks
  `sub` for forms of smaller size: parts of `f`, or, for `apply`, the list that `f` stands for, in
  which at least the word `apply` is gone.  So iterating `layout` as often as `f` has nodes gives a
  function that no longer depends on the count, `emit`; rendering the forms of a tree is `emit`
  on a single form, and statements otherwise.
-/
import ScriptTree.Render.Assignment
import ScriptTree.Render.Atom
import ScriptTree.Render.Test

namespace ScriptTree

/-- What one rendering is given besides the forms. -/
structure Setting where
  extension : Extension
  origin : Origin

namespace Render

/-! ## Loops, cases and calls -/

/-- The values a loop runs over: the words of a vector, or the text of anything else. -/
def loopValues (sub : Form → Rendering) (f : Form) : Rendering :=
  match f with
  | .vector items => words sub items
  | other => sub other

/-- `doseq`: the values are rendered before the variable. -/
def forEach (sub : Form → Rendering) (args : List Form) : Rendering :=
  match args with
  | .vector [item, values] :: forms => do
    let values ← loopValues sub values
    let item ← sub item
    let body ← statements sub forms
    return "for " ++ item ++ " in " ++ values ++ "; do\n" ++ body ++ "done"
  | _ => misuse .loopBinding

/-- The clauses of a `case`, a pattern and a body each. -/
def clauses (sub : Form → Rendering) : List Form → Rendering
  | pattern :: body :: rest => do
    let pattern ← sub pattern
    let body ← sub body
    let rest ← clauses sub rest
    return pattern ++ ")\n" ++ body ++ ";;\n" ++ rest
  | _ => .ok ""

/-- `case`, with as many bodies as patterns. -/
def caseOf (sub : Form → Rendering) (args : List Form) : Rendering :=
  match args with
  | [] => misuse .caseSubject
  | subject :: forms =>
    if forms.length % 2 ≠ 0 then misuse .casePairs
    else do
      let subject ← sub subject
      let clauses ← clauses sub forms
      return "case " ++ subject ++ " in\n" ++ clauses ++ "esac"

/-- `new`: a class and its arguments. -/
def newObject (sub : Form → Rendering) (args : List Form) : Rendering :=
  match args with
  | className :: rest => do
    let className ← sub className
    let arguments ← arguments sub rest
    return "new " ++ className ++ arguments
  | [] => badCount .newObject args

/-- A method called on its target. -/
def methodCall (sub : Form → Rendering) (method : String) (args : List Form) : Rendering :=
  match args with
  | target :: rest => do
    let target ← sub target
    let arguments ← arguments sub rest
    return target ++ "." ++ method ++ arguments
  | [] => misuse (.noTarget method)

/-- The method that a symbol with a leading point names. -/
def method? (name : String) : Option String :=
  match name.toList with
  | '.' :: c :: cs => some (String.ofList (c :: cs))
  | _ => none

/-- A call answered by the extension.  The arguments are not rendered here, and a call that is not
    resolved leaves nothing. -/
def extensionCall (cx : Setting) (call : Call) (args : List Form) : Rendering :=
  match cx.extension call args cx.origin with
  | .ok text => .ok (text.getD "")
  | .error cause => .error (.refused call.describe cause cx.origin.place?)

/-! ## Wrapping, joining and spreading -/

/-- A construct that wraps the text of its one argument. -/
def wrapped (sub : Form → Rendering) (c : Construct) (opening closing : String)
    (args : List Form) : Rendering :=
  match args with
  | [f] => return opening ++ (← sub f) ++ closing
  | _ => badCount c args

/-- `deref`: the output of a list, the value of anything else. -/
def deref (sub : Form → Rendering) (args : List Form) : Rendering :=
  match args with
  | [.list items] => wrapped sub .deref "$(" ")" [.list items]
  | _ => wrapped sub .deref "$\x7b" "\x7d" args

/-- `return`, with a value or without. -/
def returnFrom (sub : Form → Rendering) (args : List Form) : Rendering :=
  match args with
  | [] => .ok "return"
  | [f] => return "return " ++ (← sub f)
  | _ => badCount .returnFrom args

/-- `str`: all texts in a row. -/
def concat (sub : Form → Rendering) (args : List Form) : Rendering :=
  return String.join (← args.mapM sub)

/-- `group`: the parts, trimmed, as one command. -/
def group (sub : Form → Rendering) (args : List Form) : Rendering := do
  return "\x7b " ++ "; ".intercalate ((← parts sub args).map Text.trim) ++ "; \x7d"

/-- The arguments of `apply` as one list: the items of a last vector or list stand in its place. -/
def spread : List Form → List Form
  | [] => []
  | [.vector items] => items
  | [.list items] => items
  | [f] => [f]
  | f :: fs => f :: spread fs

/-- `apply`: rendered as the list it stands for. -/
def apply (sub : Form → Rendering) (args : List Form) : Rendering :=
  match args with
  | [] => badCount .apply args
  | _ => sub (.list (spread args))

/-! ## The rule for every form -/

/-- A construct and its arguments. -/
def construct (sub : Form → Rendering) (c : Construct) (args : List Form) : Rendering :=
  match c with
  | .ifElse => conditional sub c (condition sub) args
  | .ifNot => conditional sub c (negatedCondition sub) args
  | .whenTrue => whenTrue sub args
  | .whileTrue => whileTrue sub args
  | .forEach => forEach sub args
  | .caseOf => caseOf sub args
  | .localVar => localVar sub args
  | .assign => assign sub args
  | .define => define sub args
  | .calculate => calculate sub args
  | .aliasFor => aliasFor sub args
  | .concat => concat sub args
  | .quoted => wrapped sub c "\"" "\"" args
  | .println => return command "echo" (← words sub args)
  | .print => return command "echo -n" (← words sub args)
  | .returnFrom => returnFrom sub args
  | .setVar => setVar sub args
  | .newObject => newObject sub args
  | .arrayGet => arrayGet sub args
  | .arraySet => arraySet sub args
  | .hashGet => hashGet sub args
  | .hashMerge => hashMerge sub args
  | .hashSet => hashSet sub args
  | .deref => deref sub args
  | .block => statements sub args
  | .group => group sub args
  | .pipe => joined sub " | " args
  | .chainOr => joined sub " || " args
  | .chainAnd => joined sub " && " args
  | .apply => apply sub args
  | .function => function sub args
  | .negate => wrapped sub c "! " "" args
  | .predicate p => wrapped sub c (p.flag ++ " ") "" args

/-- A list headed by a symbol: a construct, an operation, a method call or a plain command. -/
def headed (sub : Form → Rendering) (name : String) (args : List Form) : Rendering :=
  match Construct.named? name with
  | some c => construct sub c args
  | none =>
    match Operator.named? name with
    | some op => operation sub op args
    | none =>
      match method? name with
      | some method => methodCall sub method args
      | none => words sub (.symbol name :: args)

/-- The text of a form, given the texts of smaller forms. -/
def layout (cx : Setting) (sub : Form → Rendering) : Form → Rendering
  | .list [] => .ok ""
  | .list (.symbol name :: args) => headed sub name args
  | .list (.map entries :: args) => extensionCall cx ⟨entries⟩ args
  | .list items => words sub items
  | .vector items => return "(" ++ (← words sub items) ++ ")"
  | .map entries => initialiser sub entries
  | other => atom other

/-! ## Rendering -/

/-- The layout of a form, iterated `n` times; the innermost level sees empty texts. -/
def emitWithin (cx : Setting) : Nat → Form → Rendering
  | 0, _ => .ok ""
  | n + 1, f => layout cx (emitWithin cx n) f

/-- The text of a form: exactly as many levels as it has nodes. -/
def emit (cx : Setting) (f : Form) : Rendering :=
  emitWithin cx f.size f

/-- The text of the forms of a tree.  A single form is rendered as itself, any other number as
    statements; a fault is reported at the origin. -/
def render (cx : Setting) (forms : List Form) : Rendering :=
  (match forms with
    | [f] => emit cx f
    | fs => statements (emit cx) fs).mapError (Fault.locate cx.origin)

end Render

/-- The setting without extension and origin. -/
def Setting.plain : Setting := ⟨Extension.none, Origin.unknown⟩

end ScriptTree

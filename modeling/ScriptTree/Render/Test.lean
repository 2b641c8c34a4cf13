/-
  Operators, tests and the constructs that branch on them.

  An operator with more than two operands folds to the left, and every step is grouped.  Operators
  that test quote their operands, unless an operand already looks like a test.  As a condition a
  test stands in square brackets without its outermost grouping; when it is negated it keeps the
  grouping, since negation binds tighter than what it holds.
-/
import ScriptTree.Render.Parts

namespace ScriptTree

namespace Operator

/-- Whether the text of an operand looks like a test and is left unquoted. -/
def looksLikeTest (s : String) : Bool :=
  match s.toList with
  | '\\' :: '(' :: _ => true
  | '!' :: _ => true
  | '-' :: _ => true
  | '@' :: _ => true
  | _ => false

/-- The text of an operand as it stands beside the operator. -/
def operand (op : Operator) (s : String) : String :=
  if op.tests && !looksLikeTest s then Render.enquote s else s

/-- A text grouped as one operand. -/
def group (op : Operator) (s : String) : String :=
  if op.tests then "\\( " ++ s ++ " \\)" else "(" ++ s ++ ")"

/-- Two operands with the operator between them. -/
def between (op : Operator) (left right : String) : String :=
  left ++ " " ++ op.shell ++ " " ++ right

/-- Operands folded to the left, with every step but the last grouped. -/
def fold (op : Operator) : String → List String → String
  | left, [] => left
  | left, [right] => op.between left right
  | left, right :: rest => op.fold (op.group (op.between left right)) rest

end Operator

namespace Render

/-- An operator and its operands without the outermost grouping. -/
def bareOperation (sub : Form → Rendering) (op : Operator) (args : List Form) : Rendering :=
  match args with
  | first :: second :: rest => do
    let left ← sub first
    let others ← (second :: rest).mapM sub
    return op.fold (op.operand left) (others.map op.operand)
  | _ => misuse (.operandCount op.name args.length)

/-- An operator and its operands as one group. -/
def operation (sub : Form → Rendering) (op : Operator) (args : List Form) : Rendering := do
  return op.group (← bareOperation sub op args)

/-! ## Conditions -/

/-- A test inside brackets: an operation goes without its outermost grouping. -/
def test (sub : Form → Rendering) (f : Form) : Rendering :=
  match f with
  | .list (.symbol name :: args) =>
    match Operator.named? name with
    | some op => bareOperation sub op args
    | none => sub f
  | _ => sub f

/-- A form as a condition. -/
def condition (sub : Form → Rendering) (f : Form) : Rendering := do
  if f.headSymbol?.any isTest then return "[ " ++ (← test sub f) ++ " ]" else sub f

/-- The opposite of a form as a condition. -/
def negatedCondition (sub : Form → Rendering) (f : Form) : Rendering := do
  if f.headSymbol?.any isTest then return "[ ! " ++ (← sub f) ++ " ]" else return "! " ++ (← sub f)

/-! ## Branches and bodies -/

/-- A branch of `if`: on lines of its own when it is compound or longer than one line. -/
def branch (sub : Form → Rendering) (f : Form) : Rendering := do
  let body ← sub f
  if f.isHeadedBy "do" || f.isHeadedBy "if" || f.isHeadedBy "if-not" || body.toList.contains '\n'
  then return "\n" ++ Text.trim body ++ "\n"
  else return " " ++ body ++ ";"

/-- `if` and `if-not`, which differ in how they take their condition. -/
def conditional (sub : Form → Rendering) (c : Construct) (judge : Form → Rendering)
    (args : List Form) : Rendering :=
  match args with
  | [test, yes] => do
    let test ← judge test
    let yes ← branch sub yes
    return "if " ++ test ++ "; then" ++ yes ++ "fi"
  | [test, yes, no] => do
    let test ← judge test
    let yes ← branch sub yes
    let no ← branch sub no
    return "if " ++ test ++ "; then" ++ yes ++ "else" ++ no ++ "fi"
  | _ => badCount c args

/-- The body of a `when`: a command that does nothing stands for a blank one. -/
def bodyOr (body : String) : String :=
  if Text.trim body = "" then ":" else Text.trim body

/-- `when`: the body comes before the condition, so its faults come first. -/
def whenTrue (sub : Form → Rendering) (args : List Form) : Rendering :=
  match args with
  | test :: forms => do
    let body ← statements sub forms
    let test ← condition sub test
    return "if " ++ test ++ "; then\n" ++ bodyOr body ++ "\nfi"
  | [] => badCount .whenTrue args

/-- `while`. -/
def whileTrue (sub : Form → Rendering) (args : List Form) : Rendering :=
  match args with
  | test :: forms => do
    let test ← condition sub test
    let body ← statements sub forms
    return "while " ++ test ++ "; do\n" ++ body ++ "done"
  | [] => badCount .whileTrue args

end Render

end ScriptTree

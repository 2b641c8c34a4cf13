/-
  Forms: the trees that scripts are written from.

  A form is an atom (nil, an integer, a ratio, a string, a keyword, a symbol), a list, a vector, a
  map, or the mark that an empty splice leaves behind.  The head of a list decides how the list is
  rendered; a map is a list of entries in the order in which they were made.

  `Form.size` counts the nodes of a form.  Every recursion over forms that does not follow their
  structure runs on it.
-/
namespace ScriptTree

/-- A tree of forms. -/
inductive Form where
  | nil
  | int (value : Int64)
  /-- An exact fraction, rendered as its decimal value. -/
  | ratio (numer denom : Int64)
  | str (text : String)
  | keyword (name : String)
  | symbol (name : String)
  /-- A form proper: its head decides how the whole is rendered. -/
  | list (items : List Form)
  | vector (items : List Form)
  /-- Entries in the order in which their keys first came. -/
  | map (entries : List (Form × Form))
  /-- What an empty splice leaves; enclosing statements and words drop it. -/
  | splice
  deriving Repr, Inhabited

namespace Form

/-! ## Views -/

/-- The name of a symbol. -/
def symbol? : Form → Option String
  | .symbol name => some name
  | _ => none

/-- The symbol at the head of a list. -/
def headSymbol? : Form → Option String
  | .list (.symbol name :: _) => some name
  | _ => none

/-- Whether a form is a list headed by the symbol `name`. -/
def isHeadedBy (f : Form) (name : String) : Bool :=
  f.headSymbol? == some name

/-- Whether a form is the mark of an empty splice. -/
def isSplice : Form → Bool
  | .splice => true
  | _ => false

/-! ## Size -/

mutual

/-- The number of nodes of a form. -/
def size : Form → Nat
  | .list items => 1 + sizeOfItems items
  | .vector items => 1 + sizeOfItems items
  | .map entries => 1 + sizeOfEntries entries
  | _ => 1

/-- The number of nodes of a list of forms. -/
def sizeOfItems : List Form → Nat
  | [] => 0
  | f :: fs => f.size + sizeOfItems fs

/-- The number of nodes of the keys and values of a map. -/
def sizeOfEntries : List (Form × Form) → Nat
  | [] => 0
  | (k, v) :: es => k.size + v.size + sizeOfEntries es

end

/-- A list headed by the symbol `name`. -/
def call (name : String) (args : List Form) : Form :=
  .list (.symbol name :: args)

end Form

end ScriptTree

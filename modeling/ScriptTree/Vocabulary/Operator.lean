/-
  Operators and predicates: the names that make a list a comparison, a calculation or a test.

  Both are tables.  An operator has a spelling in the shell and either calculates or tests; a test
  is grouped with escaped brackets and has its operands quoted.  A predicate is a test with one
  operand, written by its flag.
-/
namespace ScriptTree

/-- An infix operator. -/
structure Operator where
  name : String
  /-- How the shell spells it. -/
  shell : String
  /-- Whether it yields a test result; otherwise it calculates. -/
  tests : Bool
  deriving DecidableEq, Repr

namespace Operator

/-- All operators. -/
def all : List Operator :=
  [⟨"+", "+", false⟩, ⟨"-", "-", false⟩, ⟨"/", "/", false⟩, ⟨"*", "*", false⟩, ⟨"%", "%", false⟩,
   ⟨"==", "==", true⟩, ⟨"=", "==", true⟩, ⟨"<", "\\<", true⟩, ⟨">", "\\>", true⟩,
   ⟨"<=", "<=", true⟩, ⟨">=", ">=", true⟩, ⟨"!=", "!=", true⟩, ⟨"<<", "<<", true⟩,
   ⟨">>", ">>", true⟩, ⟨"<<<", "<<<", true⟩, ⟨">>>", ">>>", true⟩, ⟨"&", "&", true⟩,
   ⟨"|", "|", true⟩, ⟨"&&", "-a", true⟩, ⟨"||", "-o", true⟩, ⟨"and", "-a", true⟩,
   ⟨"or", "-o", true⟩]

/-- The operator with a name. -/
def named? (name : String) : Option Operator :=
  all.find? (·.name == name)

theorem mem_of_named {name : String} {op : Operator} (h : named? name = some op) : op ∈ all :=
  List.mem_of_find?_eq_some h

end Operator

/-- A test of one operand. -/
structure Predicate where
  name : String
  /-- The flag by which the shell knows it. -/
  flag : String
  deriving DecidableEq, Repr

namespace Predicate

/-- All predicates. -/
def all : List Predicate :=
  [⟨"file-exists?", "-e"⟩, ⟨"directory?", "-d"⟩, ⟨"symlink?", "-h"⟩, ⟨"readable?", "-r"⟩,
   ⟨"writeable?", "-w"⟩, ⟨"empty?", "-z"⟩]

/-- The predicate with a name. -/
def named? (name : String) : Option Predicate :=
  all.find? (·.name == name)

end Predicate

/-- Whether a name is that of an operator that tests. -/
def isTestOperator (name : String) : Bool :=
  (Operator.named? name).any (·.tests)

/-- Whether a list headed by a name is a test, which stands in brackets as a condition. -/
def isTest (name : String) : Bool :=
  isTestOperator name || name == "not" || (Predicate.named? name).isSome

example : isTest "and" = true ∧ isTest "empty?" = true ∧ isTest "+" = false := by decide +kernel
example : isTestOperator "not" = false := by decide +kernel

end ScriptTree

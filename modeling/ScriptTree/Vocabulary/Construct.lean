/-
  Constructs: the lists with a rule of their own, by the symbol at their head.

  Each construct has a name and an arity.  Three of them check the shape of their arguments
  instead of counting them (`doseq`, `case`, `defn`), and some take any number.
-/
import ScriptTree.Vocabulary.Operator

namespace ScriptTree

/-- How many arguments a construct takes. -/
structure Arity where
  least : Nat
  /-- No bound when missing. -/
  most : Option Nat
  deriving DecidableEq, Repr

/-- An arity in words. -/
def Arity.describe : Arity → String
  | ⟨least, none⟩ => "at least " ++ toString least
  | ⟨least, some most⟩ =>
    if least = most then toString least else toString least ++ " to " ++ toString most

/-- The constructs. -/
inductive Construct where
  | ifElse
  | ifNot
  | whenTrue
  | whileTrue
  | forEach
  | caseOf
  | localVar
  | assign
  | define
  | calculate
  | aliasFor
  | concat
  | quoted
  | println
  | print
  | returnFrom
  | setVar
  | newObject
  | arrayGet
  | arraySet
  | hashGet
  | hashMerge
  | hashSet
  | deref
  | block
  | group
  | pipe
  | chainOr
  | chainAnd
  | apply
  | function
  | negate
  | predicate (p : Predicate)
  deriving DecidableEq, Repr

namespace Construct

/-- The symbol that makes a list this construct. -/
def name : Construct → String
  | .ifElse => "if"
  | .ifNot => "if-not"
  | .whenTrue => "when"
  | .whileTrue => "while"
  | .forEach => "doseq"
  | .caseOf => "case"
  | .localVar => "local"
  | .assign => "var"
  | .define => "defvar"
  | .calculate => "let"
  | .aliasFor => "alias"
  | .concat => "str"
  | .quoted => "quoted"
  | .println => "println"
  | .print => "print"
  | .returnFrom => "return"
  | .setVar => "set!"
  | .newObject => "new"
  | .arrayGet => "aget"
  | .arraySet => "aset"
  | .hashGet => "get"
  | .hashMerge => "merge!"
  | .hashSet => "assoc!"
  | .deref => "deref"
  | .block => "do"
  | .group => "group"
  | .pipe => "pipe"
  | .chainOr => "chain-or"
  | .chainAnd => "chain-and"
  | .apply => "apply"
  | .function => "defn"
  | .negate => "not"
  | .predicate p => p.name

/-- The constructs other than predicates. -/
def plain : List Construct :=
  [.ifElse, .ifNot, .whenTrue, .whileTrue, .forEach, .caseOf, .localVar, .assign, .define,
   .calculate, .aliasFor, .concat, .quoted, .println, .print, .returnFrom, .setVar, .newObject,
   .arrayGet, .arraySet, .hashGet, .hashMerge, .hashSet, .deref, .block, .group, .pipe, .chainOr,
   .chainAnd, .apply, .function, .negate]

/-- The construct that a symbol makes of a list. -/
def named? (name : String) : Option Construct :=
  match plain.find? (·.name == name) with
  | some c => some c
  | none => (Predicate.named? name).map .predicate

/-- How many arguments a construct takes. -/
def arity : Construct → Arity
  | .ifElse | .ifNot => ⟨2, some 3⟩
  | .whenTrue | .whileTrue | .newObject | .apply => ⟨1, none⟩
  | .localVar => ⟨1, some 2⟩
  | .assign | .define | .calculate | .aliasFor | .setVar => ⟨2, some 2⟩
  | .arrayGet | .hashGet | .hashMerge => ⟨2, some 2⟩
  | .arraySet | .hashSet => ⟨3, some 3⟩
  | .quoted | .deref | .negate | .predicate _ => ⟨1, some 1⟩
  | .returnFrom => ⟨0, some 1⟩
  | .forEach | .caseOf | .function | .concat | .println | .print | .block | .group | .pipe
  | .chainOr | .chainAnd => ⟨0, none⟩

/-- A construct is found by its own name only. -/
theorem name_of_named {name : String} {c : Construct} (h : named? name = some c) : c.name = name := by
  unfold named? at h
  split at h
  · next d hd =>
    obtain rfl := Option.some.inj h
    simpa using List.find?_some hd
  · obtain ⟨p, hp, rfl⟩ := Option.map_eq_some_iff.mp h
    simpa [Construct.name] using List.find?_some hp

theorem predicate_mem_of_named {name : String} {p : Predicate}
    (h : named? name = some (.predicate p)) : p ∈ Predicate.all := by
  unfold named? at h
  split at h
  · next d hd =>
    -- no plain construct is a predicate
    obtain rfl := Option.some.inj h
    have hplain : ∀ c ∈ plain, c ≠ .predicate p := by simp [plain]
    exact absurd rfl (hplain _ (List.mem_of_find?_eq_some hd))
  · obtain ⟨q, hq, heq⟩ := Option.map_eq_some_iff.mp h
    obtain rfl : q = p := by simpa using heq
    exact List.mem_of_find?_eq_some hq

example : named? "if-not" = some .ifNot := by decide +kernel
example : named? "empty?" = some (.predicate ⟨"empty?", "-z"⟩) := by decide +kernel
example : named? "echo" = none := by decide +kernel
example : Construct.ifElse.arity.describe = "2 to 3" := by decide +kernel

end Construct

end ScriptTree

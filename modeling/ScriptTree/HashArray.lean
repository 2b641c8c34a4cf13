/-
  The shell functions behind associative arrays, and when a script needs them.

  The two functions keep each slot in a variable of its own, whose name holds the length of the
  array's name, so that no two pairs of array and key share one.  A tree needs them when somewhere
  in it stands a list that sets or reads a slot; `Form.usesHash` looks for one.
-/
import ScriptTree.Form.Basic

namespace ScriptTree

/-- The word in which both functions name the variable of a slot: the array's name with its length
    before it, and then the key. -/
def HashArray.slotWord : String :=
  "hash_$\x7b#1\x7d_$\x7b1\x7d_$\x7b2\x7d"

/-- The source of `hash_set` and `hash_echo`. -/
def HashArray.source : String :=
  "# Associative arrays for shells without them.\n" ++
  "# hash_set ARRAY KEY VALUE\n" ++
  "# hash_echo ARRAY KEY [-n]\n" ++
  "# ARRAY and KEY must already be valid identifiers. The array name's length\n" ++
  "# prefixes the storage name so distinct ARRAY/KEY pairs never share one.\n" ++
  "hash_set() \x7b\n" ++
  "  eval \"" ++ slotWord ++ "=\\$3\"\n" ++
  "\x7d\n" ++
  "hash_echo() \x7b\n" ++
  "  if [ \"$3\" = \"-n\" ]; then\n" ++
  "    eval \"printf '%s' \\\"\\$\x7b" ++ slotWord ++ "\x7d\\\"\"\n" ++
  "  else\n" ++
  "    eval \"printf '%s\\\\n' \\\"\\$\x7b" ++ slotWord ++ "\x7d\\\"\"\n" ++
  "  fi\n" ++
  "\x7d\n"

/-- A script with the functions in front of it, if it needs them. -/
def HashArray.supply (needed : Bool) (script : String) : String :=
  if needed then source ++ script else script

namespace Form

/-- Whether a list sets or reads a slot itself, by its head. -/
def touchesSlot : List Form → Bool
  | .symbol "get" :: _ => true
  | .symbol "assoc!" :: _ => true
  | .symbol "merge!" :: _ => true
  | .symbol "var" :: _ :: .map _ :: _ => true
  | _ => false

/-- Only four heads make a list set or read a slot. -/
theorem touchesSlot_eq_false {name : String} (h : name ∉ ["get", "assoc!", "merge!", "var"])
    (args : List Form) : touchesSlot (.symbol name :: args) = false := by
  unfold touchesSlot
  split <;> simp_all

mutual

/-- Whether a form holds a list that sets or reads a slot. -/
def usesHash : Form → Bool
  | .list items => touchesSlot items || anyUsesHash items
  | .vector items => anyUsesHash items
  | .map entries => entriesUseHash entries
  | _ => false

/-- Whether one of several forms does. -/
def anyUsesHash : List Form → Bool
  | [] => false
  | f :: fs => usesHash f || anyUsesHash fs

/-- Whether a key or a value of one of several entries does. -/
def entriesUseHash : List (Form × Form) → Bool
  | [] => false
  | (k, v) :: es => usesHash k || usesHash v || entriesUseHash es

end

example : usesHash (.call "when" [.symbol "x", .call "get" [.symbol "a", .keyword "k"]])
    = true := by decide +kernel
example : usesHash (.call "var" [.symbol "x", .str "1"]) = false := by decide +kernel

end Form

end ScriptTree

/-
  Associative arrays.

  A shell without them gets them from two functions, one that sets a slot and one that echoes it.
  The name of the array and the name of the key are rendered and then spelled with identifier
  characters, so that every construct reaches the same slot by the same two names.
-/
import ScriptTree.Render.Parts
import ScriptTree.Text.Slot

namespace ScriptTree.Render

/-- The command that sets one slot. -/
def setSlot (sub : Form → Rendering) (target key value : Form) : Rendering := do
  let target ← sub target
  let key ← sub key
  let value ← sub value
  return "hash_set " ++ Text.slotName target ++ " " ++ Text.slotName key ++ " " ++ value

/-- One command for each entry of a map, each on a line. -/
def setSlots (sub : Form → Rendering) (target : Form) (entries : List (Form × Form)) :
    Rendering := do
  return "\n".intercalate (← entries.mapM fun e => setSlot sub target e.1 e.2)

/-- The text of one slot. -/
def getSlot (sub : Form → Rendering) (target key : Form) : Rendering := do
  let target ← sub target
  let key ← sub key
  return "$(hash_echo " ++ Text.slotName target ++ " " ++ Text.slotName key ++ " -n)"

/-- `get`. -/
def hashGet (sub : Form → Rendering) (args : List Form) : Rendering :=
  match args with
  | [target, key] => getSlot sub target key
  | _ => badCount .hashGet args

/-- `assoc!`. -/
def hashSet (sub : Form → Rendering) (args : List Form) : Rendering :=
  match args with
  | [target, key, value] => setSlot sub target key value
  | _ => badCount .hashSet args

/-- `merge!`, which takes a map as it stands. -/
def hashMerge (sub : Form → Rendering) (args : List Form) : Rendering :=
  match args with
  | [target, .map entries] => setSlots sub target entries
  | [_, other] => misuse (.notMap other)
  | _ => badCount .hashMerge args

end ScriptTree.Render

/-
  Extensions: capabilities that a caller adds to the language of forms.

  A list headed by a map is a call of something defined elsewhere.  The map describes it, usually by
  a name under the keyword `:fn-name`, and the rest of the list are its arguments, as forms and not
  yet rendered.  An extension answers a call with a text, leaves it unresolved, or refuses it.
-/
import ScriptTree.Form.Same
import ScriptTree.Form.Spelling
import ScriptTree.Origin

namespace ScriptTree

/-- Why an extension refuses a call. -/
inductive Refusal where
  | invalidArguments (reason : String)
  | failed (reason : String)
  deriving DecidableEq, Repr

/-- The wording of a refusal. -/
def Refusal.message : Refusal → String
  | .invalidArguments reason => "invalid arguments: " ++ reason
  | .failed reason => "resolution failed: " ++ reason

/-- The map that describes a call. -/
structure Call where
  entries : List (Form × Form)

namespace Call

/-- The value under a keyword. -/
def get? (call : Call) (key : String) : Option Form :=
  Form.lookup (.keyword key) call.entries

/-- The name of the called capability, given as a symbol, a keyword or a string. -/
def name? (call : Call) : Option String :=
  match call.get? "fn-name" with
  | some (.symbol name) => some name
  | some (.keyword name) => some name
  | some (.str name) => some name
  | _ => none

/-- The call as messages show it: by its name, or by the whole map. -/
def describe (call : Call) : String :=
  call.name?.getD (Form.map call.entries).spelling

end Call

/-- What answers calls: a text, nothing for a call it does not know, or a refusal. -/
abbrev Extension := Call → List Form → Origin → Except Refusal (Option String)

/-- The extension that knows no call. -/
def Extension.none : Extension := fun _ _ _ => .ok .none

end ScriptTree

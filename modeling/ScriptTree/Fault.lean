/-
  Faults: what can go wrong between a document and a script, and how it is said.

  A fault is a misuse of the language of forms, a name that cannot be assigned to, a call that an
  extension refused, or a document that is no tree.  The first three carry the place they are
  reported at; it is set once, by `Fault.locate`, and never replaced.  All wording is in the
  `message` functions.
-/
import ScriptTree.Extension
import ScriptTree.Json.Writer
import ScriptTree.Vocabulary.Construct

namespace ScriptTree

/-- A form with the wrong number or shape of parts. -/
inductive Misuse where
  /-- A construct with a number of arguments outside its arity. -/
  | argumentCount (form : String) (expected : Arity) (got : Nat)
  /-- An operator with fewer than two operands. -/
  | operandCount (operator : String) (got : Nat)
  /-- A method call on nothing. -/
  | noTarget (method : String)
  /-- A ratio that is no number. -/
  | zeroDenominator (numer denom : Int64)
  /-- A `doseq` without a vector of two. -/
  | loopBinding
  /-- A `case` without anything to compare. -/
  | caseSubject
  /-- A `case` with a pattern that has no body. -/
  | casePairs
  /-- A `defn` without a vector of parameters. -/
  | parameters
  /-- A `merge!` of something other than a map. -/
  | notMap (got : Form)
  /-- Anything else, in the words of whoever reports it. -/
  | stated (message : String)

/-- The wording of a misuse. -/
def Misuse.message : Misuse → String
  | .argumentCount form expected got =>
    "`" ++ form ++ "` expects " ++ expected.describe ++ " arguments, got " ++ toString got
  | .operandCount operator got =>
    "infix operator `" ++ operator ++ "` needs at least 2 arguments, got " ++ toString got
  | .noTarget method => "method call `." ++ method ++ "` needs a target"
  | .zeroDenominator numer denom =>
    "ratio " ++ Form.intText numer ++ "/" ++ Form.intText denom ++ " has a zero denominator"
  | .loopBinding => "doseq expects a binding vector [item values]"
  | .caseSubject => "case expects an expression"
  | .casePairs => "case expects match/body pairs after the expression"
  | .parameters => "defn expects a parameter vector"
  | .notMap got => "merge! expects a map literal, got " ++ got.spelling
  | .stated message => message

/-- A document that does not encode a tree. -/
inductive Flaw where
  /-- The text is not JSON. -/
  | notJson
  | boolean (value : Bool)
  /-- A number that is no integer of 64 bits. -/
  | notInteger (value : Json.Number)
  /-- A tagged object with no tag or with several. -/
  | tagCount
  | ratioParts
  | ratioShape
  | entryShape (value : Json)
  | unknownTag (tag : String) (body : Json)
  /-- `forms` next to other keys. -/
  | formsNotAlone
  | formsNotArray
  /-- Anything else, in the words of whoever reports it. -/
  | stated (message : String)

/-- The wording of a flaw. -/
def Flaw.message : Flaw → String
  | .notJson => "invalid JSON"
  | .boolean value => "booleans have no node form: " ++ toString value
  | .notInteger value => "not an integer: " ++ value.compact
  | .tagCount => "tagged objects must have exactly one key"
  | .ratioParts => "ratio parts must be integers"
  | .ratioShape => "ratio must be [numerator, denominator]"
  | .entryShape value => "map entries must be [key, value] pairs, got " ++ value.compact
  | .unknownTag tag body => "unknown or malformed tag `" ++ tag ++ "`: " ++ body.compact
  | .formsNotAlone => "`forms` must be the only key"
  | .formsNotArray => "`forms` must be an array"
  | .stated message => message

/-- What went wrong, and where. -/
inductive Fault where
  | misuse (cause : Misuse) (place : Option String)
  /-- An assignment to a name the shell cannot use. -/
  | badName (name : String) (place : Option String)
  /-- A call that the extension refused. -/
  | refused (call : String) (cause : Refusal) (place : Option String)
  /-- A document that is no tree; it has no place. -/
  | undecodable (cause : Flaw)

namespace Fault

/-- The place a fault is reported at. -/
def place? : Fault → Option String
  | .misuse _ place => place
  | .badName _ place => place
  | .refused _ _ place => place
  | .undecodable _ => none

/-- The fault at the place of an origin, unless it has a place already. -/
def locate (origin : Origin) : Fault → Fault
  | .misuse cause place => .misuse cause (place.or origin.place?)
  | .badName name place => .badName name (place.or origin.place?)
  | .refused call cause place => .refused call cause (place.or origin.place?)
  | .undecodable cause => .undecodable cause

/-- A place as the end of a message. -/
def placeSuffix : Option String → String
  | some place => " at " ++ place
  | none => ""

/-- The wording of a fault. -/
def message : Fault → String
  | .misuse cause place => "compile error: " ++ cause.message ++ placeSuffix place
  | .badName name place =>
    "compile error: invalid shell identifier `" ++ name ++ "`: hyphens are not allowed" ++
      placeSuffix place
  | .refused call cause place =>
    "compile error: " ++ call ++ ": " ++ cause.message ++ placeSuffix place
  | .undecodable cause => "interchange error: " ++ cause.message

end Fault

end ScriptTree

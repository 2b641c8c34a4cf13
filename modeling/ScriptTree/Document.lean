/-
  Documents: trees of forms in JSON.

  Nil is null, an integer and a string are themselves, a list is an array, and every other form is
  an object with one field whose name is a tag.  A document is one form, or an object with the
  single field `forms` for several.  `encode` writes each form in one way; `decode` also takes a
  string under the tag `str`.
-/
import ScriptTree.Fault
import ScriptTree.Json.Reader

namespace ScriptTree

namespace Form

/-! ## Writing -/

/-- An integer as a JSON number. -/
def encodeInt (n : Int64) : Json :=
  .number (.integer n.toInt)

mutual

/-- The JSON value of a form. -/
def encode : Form → Json
  | .nil => .null
  | .int n => encodeInt n
  | .ratio n d => .object [("ratio", .array [encodeInt n, encodeInt d])]
  | .str s => .string s
  | .keyword name => .object [("kw", .string name)]
  | .symbol name => .object [("sym", .string name)]
  | .list items => .array (encodeItems items)
  | .vector items => .object [("vec", .array (encodeItems items))]
  | .map entries => .object [("map", .array (encodeEntries entries))]
  | .splice => .object [("splice", .null)]

/-- The JSON values of forms. -/
def encodeItems : List Form → List Json
  | [] => []
  | f :: fs => encode f :: encodeItems fs

/-- The JSON pairs of entries. -/
def encodeEntries : List (Form × Form) → List Json
  | [] => []
  | (k, v) :: es => .array [encode k, encode v] :: encodeEntries es

end

/-! ## Reading -/

/-- A ratio from the items under its tag. -/
def decodeRatio : List Json → Except Flaw Form
  | [.number n, .number d] =>
    match n.toInt64?, d.toInt64? with
    | some n, some d => .ok (.ratio n d)
    | _, _ => .error .ratioParts
  | [_, _] => .error .ratioParts
  | _ => .error .ratioShape

mutual

/-- The form a JSON value encodes. -/
def decode : Json → Except Flaw Form
  | .null => .ok .nil
  | .bool b => .error (.boolean b)
  | .number n =>
    match n.toInt64? with
    | some i => .ok (.int i)
    | none => .error (.notInteger n)
  | .string s => .ok (.str s)
  | .array items => return .list (← decodeItems items)
  | .object [("sym", .string name)] => .ok (.symbol name)
  | .object [("kw", .string name)] => .ok (.keyword name)
  | .object [("str", .string text)] => .ok (.str text)
  | .object [("ratio", .array parts)] => decodeRatio parts
  | .object [("vec", .array items)] => return .vector (← decodeItems items)
  | .object [("map", .array pairs)] => return ofEntries (← decodeEntries pairs)
  | .object [("splice", .null)] => .ok .splice
  | .object [(tag, body)] => .error (.unknownTag tag body)
  | .object _ => .error .tagCount

/-- The forms that JSON values encode; the first flaw counts. -/
def decodeItems : List Json → Except Flaw (List Form)
  | [] => .ok []
  | v :: vs => return (← decode v) :: (← decodeItems vs)

/-- The pairs that JSON arrays of two encode; the first flaw counts. -/
def decodeEntries : List Json → Except Flaw (List (Form × Form))
  | [] => .ok []
  | .array [k, v] :: rest => return (← decode k, ← decode v) :: (← decodeEntries rest)
  | other :: _ => .error (.entryShape other)

end

end Form

/-! ## Documents -/

namespace Document

/-- The forms of a document given as a JSON value. -/
def decode (value : Json) : Except Flaw (List Form) :=
  match value with
  | .object fields =>
    match fields.lookup "forms" with
    | some forms =>
      if fields.length ≠ 1 then .error .formsNotAlone
      else match forms with
        | .array items => Form.decodeItems items
        | _ => .error .formsNotArray
    | none => return [← Form.decode value]
  | _ => return [← Form.decode value]

/-- The document of several forms. -/
def encode (forms : List Form) : Json :=
  .object [("forms", .array (Form.encodeItems forms))]

/-- The forms of a document given as text. -/
def parse (text : String) : Except Fault (List Form) :=
  match Json.parse text with
  | none => .error (.undecodable .notJson)
  | some value => (decode value).mapError .undecodable

end Document

end ScriptTree

/-
  When two forms count as the same, and maps built under that equality.

  Two forms are the same when they agree constructor by constructor, except that the entries of a
  map may stand in any order, at every depth and inside keys as well: a map is the same as another
  when it has as many entries and each of its entries is found there.  A map built from pairs keeps
  each key once, in the place and spelling in which it first came and with the value that came
  last.

  `Form.digest` is the sequence of values by which a form is hashed.  It has to agree on forms that
  are the same, so a map contributes only its length.
-/
import ScriptTree.Form.Basic

namespace ScriptTree.Form

/-! ## Sameness -/

mutual

/-- Equality of forms without regard to the order of map entries. -/
def same : Form → Form → Bool
  | .nil, .nil => true
  | .int a, .int b => a == b
  | .ratio a b, .ratio c d => a == c && b == d
  | .str a, .str b => a == b
  | .keyword a, .keyword b => a == b
  | .symbol a, .symbol b => a == b
  | .list xs, .list ys => sameItems xs ys
  | .vector xs, .vector ys => sameItems xs ys
  | .map es, .map fs => es.length == fs.length && entriesIn es fs
  | .splice, .splice => true
  | _, _ => false

/-- Lists of the same forms in the same order. -/
def sameItems : List Form → List Form → Bool
  | [], [] => true
  | x :: xs, y :: ys => same x y && sameItems xs ys
  | _, _ => false

/-- Whether each entry of the first list is found in the second, where the first entry with the
    same key has the same value. -/
def entriesIn : List (Form × Form) → List (Form × Form) → Bool
  | [], _ => true
  | (k, v) :: es, fs =>
    (match fs.find? fun e => same k e.1 with
      | some e => same v e.2
      | none => false) && entriesIn es fs

end

/-! ## Entries by key -/

/-- The value under a key. -/
def lookup (key : Form) (entries : List (Form × Form)) : Option Form :=
  (entries.find? fun e => same key e.1).map (·.2)

/-- The entries with `value` under `key`: a key that is there keeps its place and spelling, a new
    one comes last. -/
def insert (key value : Form) : List (Form × Form) → List (Form × Form)
  | [] => [(key, value)]
  | (k, v) :: es => if same key k then (k, value) :: es else (k, v) :: insert key value es

/-- The entries that pairs make, one after another. -/
def entriesOf (pairs : List (Form × Form)) : List (Form × Form) :=
  pairs.foldl (fun es p => insert p.1 p.2 es) []

/-- The map that pairs make. -/
def ofEntries (pairs : List (Form × Form)) : Form :=
  .map (entriesOf pairs)

/-! ## Digests -/

/-- One of the values by which a form is hashed. -/
inductive Digit where
  /-- Which constructor it is. -/
  | kind (index : Nat)
  | int (value : Int64)
  | text (value : String)
  /-- How many items or entries follow or are meant. -/
  | length (count : Nat)
  deriving DecidableEq, Repr

mutual

/-- The values by which a form is hashed, in order. -/
def digest : Form → List Digit
  | .nil => [.kind 0]
  | .int n => [.kind 1, .int n]
  | .ratio n d => [.kind 2, .int n, .int d]
  | .str s => [.kind 3, .text s]
  | .keyword s => [.kind 4, .text s]
  | .symbol s => [.kind 5, .text s]
  | .list items => .kind 6 :: .length items.length :: digestItems items
  | .vector items => .kind 7 :: .length items.length :: digestItems items
  | .map entries => [.kind 8, .length entries.length]
  | .splice => [.kind 9]

/-- The digests of a list of forms, one after another. -/
def digestItems : List Form → List Digit
  | [] => []
  | f :: fs => digest f ++ digestItems fs

end

/-! ## Sameness and insertion on small maps -/

example : same (.map [(.nil, .int 1), (.splice, .nil)]) (.map [(.splice, .nil), (.nil, .int 1)])
    = true := by decide
example : same (.list [.nil, .int 1]) (.list [.int 1, .nil]) = false := by decide
example : lookup .nil (entriesOf [(.nil, .int 1), (.splice, .nil), (.nil, .int 2)])
    = some (.int 2) := by rfl

end ScriptTree.Form

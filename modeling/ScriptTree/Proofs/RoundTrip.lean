/-
  Documents read back.

  `encode` writes each form in one way and `decode` reads it back, constructor by constructor.  The
  only form that does not come back from every value is the map: its entries are put in one after
  another, so two keys that count as the same would become one.  `distinctKeys` rules that out at
  every depth, keys included; then each entry is new when its turn comes and the order is kept.

  The same holds of the text of a document, since an encoded form holds integers and objects with
  one field only, which is what compact text keeps.
-/
import ScriptTree.Document
import ScriptTree.Proofs.ReadBack

namespace ScriptTree

namespace Form

/-! ## Maps with distinct keys -/

/-- Whether each key differs from all keys before it. -/
def keysApart : List (Form × Form) → Bool
  | [] => true
  | (k, _) :: es => es.all (fun e => !same e.1 k) && keysApart es

mutual

/-- Whether no map in a form has two keys that count as the same, at any depth. -/
def distinctKeys : Form → Bool
  | .list items => itemsDistinct items
  | .vector items => itemsDistinct items
  | .map entries => keysApart entries && entriesDistinct entries
  | _ => true

/-- Whether that holds of all forms of a list. -/
def itemsDistinct : List Form → Bool
  | [] => true
  | f :: fs => distinctKeys f && itemsDistinct fs

/-- Whether that holds of the keys and values of all entries. -/
def entriesDistinct : List (Form × Form) → Bool
  | [] => true
  | (k, v) :: es => distinctKeys k && distinctKeys v && entriesDistinct es

end

/-- A key that is new comes last. -/
theorem insert_new {key : Form} (value : Form) {es : List (Form × Form)}
    (h : ∀ e ∈ es, same key e.1 = false) : insert key value es = es ++ [(key, value)] := by
  induction es with
  | nil => rfl
  | cons e es ih =>
    have hne := h e (by simp)
    simp only [insert, hne, List.cons_append]
    rw [ih fun d hd => h d (List.mem_cons_of_mem e hd)]
    simp

/-- Entries with distinct keys make the map they are, in the same order. -/
theorem ofEntries_of_keysApart {es : List (Form × Form)} (h : keysApart es = true) :
    ofEntries es = .map es := by
  -- the entries already there are the ones in front, and no later key is the same as theirs
  have fold : ∀ rest front : List (Form × Form), keysApart rest = true →
      (∀ e ∈ front, ∀ d ∈ rest, same d.1 e.1 = false) →
      rest.foldl (fun es p => insert p.1 p.2 es) front = front ++ rest := by
    intro rest
    induction rest with
    | nil => intro front _ _; simp
    | cons p rest ih =>
      intro front hrest hfront
      simp only [keysApart, Bool.and_eq_true, List.all_eq_true, Bool.not_eq_true'] at hrest
      obtain ⟨hp, hrest⟩ := hrest
      rw [List.foldl_cons, insert_new p.2 fun e he => hfront e he p (by simp)]
      rw [ih (front ++ [(p.1, p.2)]) hrest]
      · simp
      · intro e he d hd
        rcases List.mem_append.mp he with he | he
        · exact hfront e he d (List.mem_cons_of_mem p hd)
        · obtain rfl : e = p := by simpa using he
          exact hp d hd
  rw [ofEntries, entriesOf, fold es [] h (by simp), List.nil_append]

/-! ## Decoding what was encoded -/

theorem toInt64_toInt (n : Int64) : (Json.Number.integer n.toInt).toInt64? = some n := by
  have hlow := n.le_toInt
  have hhigh := n.toInt_lt
  have hrange : -0x8000000000000000 ≤ n.toInt ∧ n.toInt < 0x8000000000000000 := by omega
  simp only [Json.Number.toInt64?, if_pos hrange, Int64.ofInt_toInt]

mutual

/-- A form whose maps have distinct keys comes back from its encoding. -/
theorem decode_encode : ∀ f : Form, f.distinctKeys = true → decode f.encode = .ok f
  | .nil, _ => rfl
  | .int n, _ => by simp [encode, encodeInt, decode, toInt64_toInt]
  | .ratio n d, _ => by simp [encode, encodeInt, decode, decodeRatio, toInt64_toInt]
  | .str s, _ => rfl
  | .keyword name, _ => by simp [encode, decode]
  | .symbol name, _ => by simp [encode, decode]
  | .list items, h => by
    have hitems := decodeItems_encodeItems items h
    simp only [encode, decode, hitems]
    rfl
  | .vector items, h => by
    have hitems := decodeItems_encodeItems items h
    simp only [encode, decode, hitems]
    rfl
  | .map entries, h => by
    simp only [distinctKeys, Bool.and_eq_true] at h
    have hentries := decodeEntries_encodeEntries entries h.2
    simp only [encode, decode, hentries]
    rw [← ofEntries_of_keysApart h.1]
    rfl
  | .splice, _ => by simp [encode, decode]

theorem decodeItems_encodeItems : ∀ fs : List Form, itemsDistinct fs = true →
    decodeItems (encodeItems fs) = .ok fs
  | [], _ => rfl
  | f :: fs, h => by
    simp only [itemsDistinct, Bool.and_eq_true] at h
    simp only [encodeItems, decodeItems, decode_encode f h.1, decodeItems_encodeItems fs h.2]
    rfl

theorem decodeEntries_encodeEntries : ∀ es : List (Form × Form), entriesDistinct es = true →
    decodeEntries (encodeEntries es) = .ok es
  | [], _ => rfl
  | (k, v) :: es, h => by
    simp only [entriesDistinct, Bool.and_eq_true] at h
    simp only [encodeEntries, decodeEntries, decode_encode k h.1.1, decode_encode v h.1.2,
      decodeEntries_encodeEntries es h.2]
    rfl

end

/-! ## Encoded forms as text -/

theorem encodeInt_faithful (n : Int64) : (encodeInt n).Faithful := by
  have hlow := n.le_toInt
  have hhigh := n.toInt_lt
  show -0x8000000000000000 ≤ n.toInt ∧ n.toInt < 0x10000000000000000
  omega

mutual

/-- An encoded form is a value that compact text keeps. -/
theorem encode_faithful : ∀ f : Form, f.encode.Faithful
  | .nil => trivial
  | .int n => encodeInt_faithful n
  | .ratio n d => by
    simp [encode, Json.Faithful, Json.FaithfulFields, Json.FaithfulItems, encodeInt_faithful]
  | .str s => trivial
  | .keyword name => by simp [encode, Json.Faithful, Json.FaithfulFields]
  | .symbol name => by simp [encode, Json.Faithful, Json.FaithfulFields]
  | .list items => encodeItems_faithful items
  | .vector items => by
    have hitems := encodeItems_faithful items
    simp [encode, Json.Faithful, Json.FaithfulFields, hitems]
  | .map entries => by
    have hentries := encodeEntries_faithful entries
    simp [encode, Json.Faithful, Json.FaithfulFields, hentries]
  | .splice => by simp [encode, Json.Faithful, Json.FaithfulFields]

theorem encodeItems_faithful : ∀ fs : List Form, Json.FaithfulItems (encodeItems fs)
  | [] => trivial
  | f :: fs => ⟨encode_faithful f, encodeItems_faithful fs⟩

theorem encodeEntries_faithful : ∀ es : List (Form × Form), Json.FaithfulItems (encodeEntries es)
  | [] => trivial
  | (k, v) :: es =>
    ⟨⟨encode_faithful k, encode_faithful v, trivial⟩, encodeEntries_faithful es⟩

end

/-- No encoded form is an object with the field of a whole document. -/
theorem document_decode_encode (f : Form) :
    Document.decode f.encode = (decode f.encode).map fun g => [g] := by
  cases f <;> rfl

end Form

namespace Document

theorem encode_faithful (fs : List Form) : (encode fs).Faithful := by
  have hfs := Form.encodeItems_faithful fs
  simp [encode, Json.Faithful, Json.FaithfulFields, hfs]

/-- What decodes from a value is read from its compact text. -/
theorem parse_compact {v : Json} {fs : List Form} (hv : v.Faithful) (hfs : decode v = .ok fs)
    (hn : Json.nesting v.compact ≤ Json.maxDepth) : parse v.compact = .ok fs := by
  rw [parse, Json.parse_compact hv hn]
  simp only [hfs]
  rfl

/-- **Documents read back.**  Forms whose maps have distinct keys come back from the document they
    are encoded in, with all entries in their order, and a single form from its own encoding; and
    they come back from the compact text, as long as its brackets nest at most 127 deep. -/
theorem decode_and_parse_encode :
    (∀ fs : List Form, (∀ f ∈ fs, f.distinctKeys = true) →
      decode (encode fs) = .ok fs ∧
      (Json.nesting (encode fs).compact ≤ 127 → parse (encode fs).compact = .ok fs)) ∧
    (∀ f : Form, f.distinctKeys = true →
      decode f.encode = .ok [f] ∧
      (Json.nesting f.encode.compact ≤ 127 → parse f.encode.compact = .ok [f])) := by
  constructor
  · intro fs hfs
    have hitems : Form.itemsDistinct fs = true := by
      induction fs with
      | nil => rfl
      | cons f fs ih =>
        have hf := hfs f (by simp)
        have hrest := ih fun g hg => hfs g (List.mem_cons_of_mem f hg)
        simp [Form.itemsDistinct, hf, hrest]
    have hdecode : decode (encode fs) = .ok fs := by
      have h := Form.decodeItems_encodeItems fs hitems
      simpa [decode, encode] using h
    exact ⟨hdecode, parse_compact (encode_faithful fs) hdecode⟩
  · intro f hf
    have hdecode : decode f.encode = .ok [f] := by
      rw [Form.document_decode_encode, Form.decode_encode f hf]
      rfl
    exact ⟨hdecode, parse_compact (Form.encode_faithful f) hdecode⟩

/-- A map with a map for a key, as a document of its own and twice in one. -/
theorem decode_and_parse_encode_nested :
    let f : Form := .map [(.map [(.nil, .int (-1))], .str "a\n"), (.vector [.splice], .ratio 1 2)]
    f.distinctKeys = true ∧
    Json.nesting f.encode.compact ≤ 127 ∧ parse f.encode.compact = .ok [f] ∧
    Json.nesting (encode [f, f]).compact ≤ 127 ∧ parse (encode [f, f]).compact = .ok [f, f] := by
  intro f
  have hkeys : f.distinctKeys = true := by decide +kernel
  have hone : Json.nesting f.encode.compact ≤ 127 := by
    rw [Json.nesting_compact (Form.encode_faithful f)]
    decide +kernel
  have htwo : Json.nesting (encode [f, f]).compact ≤ 127 := by
    rw [Json.nesting_compact (encode_faithful [f, f])]
    decide +kernel
  have hboth : ∀ g ∈ [f, f], g.distinctKeys = true := by
    intro g hg
    obtain rfl : g = f := by simpa using hg
    exact hkeys
  exact ⟨hkeys, hone, (decode_and_parse_encode.2 f hkeys).2 hone, htwo,
    (decode_and_parse_encode.1 [f, f] hboth).2 htwo⟩

end Document

end ScriptTree

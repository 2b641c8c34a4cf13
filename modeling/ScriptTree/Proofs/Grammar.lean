/-
  The grammar of documents.

  Which JSON values encode a form can be said without reading one: null, an integer of 64 bits, a
  string, an array of such values, and an object with one field, whose name is a tag and whose
  value is what that tag asks for.  `Json.EncodesForm` is the least set with these members, and the
  reader takes exactly its members (`decode_succeeds`).  What the reader makes of an object is said
  once, tag by tag (`Tagged`, `decode_object`); after that nothing looks at its cases again.  The
  induction is on the size of a value and goes by its kind.

  A document is one such value, or an object whose only field is `forms`, with an array of them.
  That name is no tag, so inside a document it is refused like any other.  The main statement,
  `decode_accepts`, also says what a document gives, and what its refusal looks like.
-/
import Mathlib.Data.List.Forall2
import ScriptTree.Document
import ScriptTree.Proofs.Success

namespace ScriptTree

/-! ## The grammar -/

namespace Json

/-- An integer of 64 bits with a sign. -/
def IsWord (n : Int) : Prop :=
  -0x8000000000000000 ≤ n ∧ n < 0x8000000000000000

instance (n : Int) : Decidable (IsWord n) :=
  inferInstanceAs (Decidable (_ ∧ _))

mutual

/-- The values that encode a form. -/
inductive EncodesForm : Json → Prop
  | null : EncodesForm .null
  | integer {n : Int} (hn : IsWord n) : EncodesForm (.number (.integer n))
  | string (text : String) : EncodesForm (.string text)
  | array {items : List Json} (h : ∀ v ∈ items, EncodesForm v) : EncodesForm (.array items)
  | sym (name : String) : EncodesForm (.object [("sym", .string name)])
  | kw (name : String) : EncodesForm (.object [("kw", .string name)])
  | str (text : String) : EncodesForm (.object [("str", .string text)])
  | ratio {n d : Int} (hn : IsWord n) (hd : IsWord d) :
      EncodesForm (.object [("ratio", .array [.number (.integer n), .number (.integer d)])])
  | vec {items : List Json} (h : ∀ v ∈ items, EncodesForm v) :
      EncodesForm (.object [("vec", .array items)])
  | map {pairs : List Json} (h : ∀ p ∈ pairs, EncodesEntry p) :
      EncodesForm (.object [("map", .array pairs)])
  | splice : EncodesForm (.object [("splice", .null)])

/-- The values that encode an entry of a map. -/
inductive EncodesEntry : Json → Prop
  | pair {k v : Json} (hk : EncodesForm k) (hv : EncodesForm v) : EncodesEntry (.array [k, v])

end

/-- A number is read as an integer of 64 bits iff it is one. -/
theorem Number.exists_toInt64 {n : Number} :
    (∃ i, n.toInt64? = some i) ↔ ∃ m, n = .integer m ∧ IsWord m := by
  cases n with
  | real x => simp [toInt64?]
  | integer m =>
    by_cases hm : IsWord m
    · have hsome : (Number.integer m).toInt64? = some (Int64.ofInt m) := if_pos hm
      simp [hsome, hm]
    · have hnone : (Number.integer m).toInt64? = none := if_neg hm
      simp [hnone, hm]

/-! ## The grammar by shape -/

theorem encodesForm_number {n : Number} :
    EncodesForm (.number n) ↔ ∃ i, n.toInt64? = some i := by
  rw [Number.exists_toInt64]
  constructor
  · intro h
    cases h with
    | integer hm => exact ⟨_, rfl, hm⟩
  · rintro ⟨m, rfl, hm⟩
    exact .integer hm

theorem encodesForm_array {items : List Json} :
    EncodesForm (.array items) ↔ ∀ v ∈ items, EncodesForm v := by
  constructor
  · intro h
    cases h with
    | array hitems => exact hitems
  · exact .array

/-- An object that encodes a form has one field, named by a tag. -/
theorem encodesForm_object {fields : List (String × Json)} (h : EncodesForm (.object fields)) :
    ∃ tag ∈ ["sym", "kw", "str", "ratio", "vec", "map", "splice"], ∃ v, fields = [(tag, v)] := by
  cases h with
  | sym | kw | str | ratio | vec | map | splice =>
    refine ⟨_, ?_, _, rfl⟩
    simp

/-! ## Induction on values -/

theorem size_induction {P : Json → Prop}
    (step : ∀ v : Json, (∀ w : Json, sizeOf w < sizeOf v → P w) → P v) (v : Json) : P v :=
  (measure sizeOf).wf.induction v step

theorem size_lt_array {v : Json} {items : List Json} (h : v ∈ items) :
    sizeOf v < sizeOf (Json.array items) := by
  have := List.sizeOf_lt_of_mem h
  simp only [array.sizeOf_spec]
  omega

theorem size_lt_field {v : Json} {items : List Json} (h : v ∈ items) {tag : String} :
    sizeOf v < sizeOf (Json.object [(tag, .array items)]) := by
  have := size_lt_array h
  simp only [object.sizeOf_spec, List.cons.sizeOf_spec, Prod.mk.sizeOf_spec]
  omega

theorem size_lt_entry {k v : Json} {pairs : List Json} (h : .array [k, v] ∈ pairs) {tag : String} :
    sizeOf k < sizeOf (Json.object [(tag, .array pairs)]) ∧
      sizeOf v < sizeOf (Json.object [(tag, .array pairs)]) := by
  have hpair : sizeOf (Json.array [k, v]) < sizeOf (Json.object [(tag, .array pairs)]) :=
    size_lt_field h
  have hk : sizeOf k < sizeOf (Json.array [k, v]) := size_lt_array (by simp)
  have hv : sizeOf v < sizeOf (Json.array [k, v]) := size_lt_array (by simp)
  omega

end Json

namespace Form

open Json Render

/-! ## What is read, by shape -/

/-- The reader gives one form for each value, in their order. -/
theorem decodeItems_eq_ok {items : List Json} {fs : List Form} : decodeItems items = .ok fs ↔
    List.Forall₂ (fun item f => decode item = .ok f) items fs := by
  induction items generalizing fs with
  | nil => simp [decodeItems, eq_comm]
  | cons v vs ih =>
    rw [decodeItems, List.forall₂_cons_left_iff]
    simp only [bind_eq_ok, pure_eq_ok, ih]
    constructor
    · rintro ⟨f, hf, gs, hgs, rfl⟩
      exact ⟨f, gs, hf, hgs, rfl⟩
    · rintro ⟨f, gs, hf, hgs, rfl⟩
      exact ⟨f, hf, gs, hgs, rfl⟩

/-- What an entry of a map is read as: a pair of values, each read by itself. -/
def EntryRead (item : Json) (e : Form × Form) : Prop :=
  ∃ k v, item = .array [k, v] ∧ decode k = .ok e.1 ∧ decode v = .ok e.2

theorem decodeEntries_eq_ok {pairs : List Json} {ps : List (Form × Form)} :
    decodeEntries pairs = .ok ps ↔ List.Forall₂ EntryRead pairs ps := by
  induction pairs generalizing ps with
  | nil => simp [decodeEntries, eq_comm]
  | cons item rest ih =>
    rw [List.forall₂_cons_left_iff]
    unfold decodeEntries
    split
    · next heq => cases heq
    · next k v rest' heq =>
      obtain ⟨rfl, rfl⟩ := List.cons.inj heq
      simp only [bind_eq_ok, pure_eq_ok, ih]
      constructor
      · rintro ⟨k', hk, v', hv, es, hes, rfl⟩
        exact ⟨(k', v'), es, ⟨k, v, rfl, hk, hv⟩, hes, rfl⟩
      · rintro ⟨⟨k', v'⟩, es, ⟨_, _, hpair, hk, hv⟩, hes, rfl⟩
        cases hpair
        exact ⟨k', hk, v', hv, es, hes, rfl⟩
    · next other rest' hother heq =>
      obtain ⟨rfl, rfl⟩ := List.cons.inj heq
      constructor
      · intro h
        cases h
      · rintro ⟨_, _, ⟨k, v, rfl, -, -⟩, -, -⟩
        exact absurd rfl (hother k v)

/-- What an object is read as.  Its one field has a tag, and under it what that tag asks for. -/
inductive Tagged : List (String × Json) → Form → Prop
  | sym (name : String) : Tagged [("sym", .string name)] (.symbol name)
  | kw (name : String) : Tagged [("kw", .string name)] (.keyword name)
  | str (text : String) : Tagged [("str", .string text)] (.str text)
  | ratio {parts : List Json} {f : Form} (h : decodeRatio parts = .ok f) :
      Tagged [("ratio", .array parts)] f
  | vec {items : List Json} {fs : List Form} (h : decodeItems items = .ok fs) :
      Tagged [("vec", .array items)] (.vector fs)
  | map {pairs : List Json} {ps : List (Form × Form)} (h : decodeEntries pairs = .ok ps) :
      Tagged [("map", .array pairs)] (ofEntries ps)
  | splice : Tagged [("splice", .null)] .splice

/-- An object is read by its tag and in no other way. -/
theorem decode_object {fields : List (String × Json)} {f : Form} :
    decode (.object fields) = .ok f ↔ Tagged fields f := by
  constructor
  · intro h
    unfold decode at h
    split at h <;> rename_i heq <;> cases heq
    -- a value of another kind is no object; what is left is a tag each, and the two refusals
    · cases h
      exact .sym _
    · cases h
      exact .kw _
    · cases h
      exact .str _
    · exact .ratio h
    · simp only [bind_eq_ok, pure_eq_ok] at h
      obtain ⟨fs, hfs, rfl⟩ := h
      exact .vec hfs
    · simp only [bind_eq_ok, pure_eq_ok] at h
      obtain ⟨ps, hps, rfl⟩ := h
      exact .map hps
    · cases h
      exact .splice
    · cases h
    · cases h
  · intro h
    cases h with
    | sym name => rw [decode]
    | kw name => rw [decode]
    | str text => rw [decode]
    | ratio h => rw [decode, h]
    | vec h => rw [decode, h]; rfl
    | map h => rw [decode, h]; rfl
    | splice => rw [decode]

/-! ## The reader takes what the grammar has -/

/-- A ratio is read from two integers of 64 bits. -/
theorem decodeRatio_succeeds {parts : List Json} : Succeeds (decodeRatio parts) ↔
    ∃ n d, parts = [.number (.integer n), .number (.integer d)] ∧ IsWord n ∧ IsWord d := by
  have hwords : (∃ n d, parts = [.number (.integer n), .number (.integer d)] ∧
      IsWord n ∧ IsWord d) ↔ ∃ n d : Number, parts = [.number n, .number d] ∧
        (∃ i, n.toInt64? = some i) ∧ ∃ i, d.toInt64? = some i := by
    simp only [Number.exists_toInt64]
    constructor
    · rintro ⟨n, d, rfl, hn, hd⟩
      exact ⟨_, _, rfl, ⟨n, rfl, hn⟩, d, rfl, hd⟩
    · rintro ⟨_, _, rfl, ⟨n, rfl, hn⟩, d, rfl, hd⟩
      exact ⟨n, d, rfl, hn, hd⟩
  rw [hwords]
  unfold decodeRatio
  split
  · next n d => cases hn : n.toInt64? <;> cases hd : d.toInt64? <;> simp [hn, hd]
  · next v w hnumbers =>
    simp only [not_succeeds_error, false_iff]
    rintro ⟨n, d, hparts, -⟩
    simp only [List.cons.injEq] at hparts
    exact hnumbers n d hparts.1 hparts.2.1
  · next hpair =>
    simp only [not_succeeds_error, false_iff]
    rintro ⟨n, d, hparts, -⟩
    exact hpair _ _ hparts

theorem exists_forall₂_iff {α β : Type} {R : α → β → Prop} {l : List α} :
    (∃ m, List.Forall₂ R l m) ↔ ∀ a ∈ l, ∃ b, R a b := by
  induction l with
  | nil => simp
  | cons a l ih => simp [List.forall₂_cons_left_iff, ← ih]

theorem decodeItems_succeeds_iff {items : List Json} :
    Succeeds (decodeItems items) ↔ ∀ v ∈ items, Succeeds (decode v) := by
  simp only [Succeeds, decodeItems_eq_ok]
  exact exists_forall₂_iff

theorem decodeEntries_succeeds_iff {pairs : List Json} : Succeeds (decodeEntries pairs) ↔
    ∀ p ∈ pairs, ∃ k v, p = .array [k, v] ∧ Succeeds (decode k) ∧ Succeeds (decode v) := by
  simp only [Succeeds, decodeEntries_eq_ok, exists_forall₂_iff]
  refine forall₂_congr fun p _ => ?_
  constructor
  · rintro ⟨e, k, v, hp, hk, hv⟩
    exact ⟨k, v, hp, ⟨e.1, hk⟩, ⟨e.2, hv⟩⟩
  · rintro ⟨k, v, hp, ⟨k', hk⟩, ⟨v', hv⟩⟩
    exact ⟨(k', v'), k, v, hp, hk, hv⟩

/-- The reader takes a value iff it encodes a form. -/
theorem decode_succeeds (v : Json) : Succeeds (decode v) ↔ v.EncodesForm := by
  induction v using Json.size_induction with
  | step v ih =>
    cases v with
    | null => simp [decode, EncodesForm.null]
    | bool b =>
      simp only [decode, not_succeeds_error, false_iff]
      intro h
      cases h
    | number n =>
      rw [encodesForm_number]
      cases h : n.toInt64? <;> simp [decode, h]
    | string s => simp [decode, EncodesForm.string]
    | array items =>
      have hitems : Succeeds (decode (.array items)) ↔ Succeeds (decodeItems items) := by
        simp [decode]
      rw [encodesForm_array, hitems, decodeItems_succeeds_iff]
      exact forall₂_congr fun v hv => ih v (size_lt_array hv)
    | object fields =>
      have htagged : Succeeds (decode (.object fields)) ↔ ∃ f, Tagged fields f := by
        simp only [Succeeds, decode_object]
      rw [htagged]
      constructor
      · rintro ⟨f, h⟩
        cases h with
        | sym name => exact .sym name
        | kw name => exact .kw name
        | str text => exact .str text
        | ratio h =>
          obtain ⟨n, d, rfl, hn, hd⟩ := decodeRatio_succeeds.mp ⟨f, h⟩
          exact .ratio hn hd
        | vec h =>
          have hitems := decodeItems_succeeds_iff.mp ⟨_, h⟩
          exact .vec fun v hv => (ih v (size_lt_field hv)).mp (hitems v hv)
        | map h =>
          refine .map fun p hp => ?_
          obtain ⟨k, v, rfl, hk, hv⟩ := decodeEntries_succeeds_iff.mp ⟨_, h⟩ p hp
          exact .pair ((ih k (size_lt_entry hp).1).mp hk) ((ih v (size_lt_entry hp).2).mp hv)
        | splice => exact .splice
      · intro h
        cases h with
        | sym name => exact ⟨_, .sym name⟩
        | kw name => exact ⟨_, .kw name⟩
        | str text => exact ⟨_, .str text⟩
        | ratio hn hd =>
          obtain ⟨f, hf⟩ := decodeRatio_succeeds.mpr ⟨_, _, rfl, hn, hd⟩
          exact ⟨f, .ratio hf⟩
        | vec hitems =>
          obtain ⟨fs, hfs⟩ := decodeItems_succeeds_iff.mpr fun v hv =>
            (ih v (size_lt_field hv)).mpr (hitems v hv)
          exact ⟨_, .vec hfs⟩
        | map hpairs =>
          obtain ⟨ps, hps⟩ := decodeEntries_succeeds_iff.mpr fun p hp => by
            cases hpairs p hp with
            | pair hk hv =>
              exact ⟨_, _, rfl, (ih _ (size_lt_entry hp).1).mpr hk,
                (ih _ (size_lt_entry hp).2).mpr hv⟩
          exact ⟨_, .map hps⟩
        | splice => exact ⟨_, .splice⟩

theorem decodeItems_succeeds {items : List Json} :
    Succeeds (decodeItems items) ↔ ∀ v ∈ items, v.EncodesForm := by
  simp only [decodeItems_succeeds_iff, decode_succeeds]

end Form

/-! ## Documents -/

namespace Document

open Render

/-- The value is no object with a field `forms`. -/
def Single (v : Json) : Prop :=
  ∀ fields value, v = .object fields → ("forms", value) ∉ fields

/-- The field is found iff it is there. -/
theorem lookup_forms {fields : List (String × Json)} :
    fields.lookup "forms" = none ↔ ∀ value, ("forms", value) ∉ fields := by
  rw [List.lookup_eq_none_iff]
  constructor
  · intro h value hmem
    exact absurd (h _ hmem) (by simp)
  · rintro h ⟨name, value⟩ hmem
    rw [bne_iff_ne]
    rintro rfl
    exact h value hmem

/-- Without that field a value stands for one form. -/
theorem decode_of_single {v : Json} (h : Single v) : decode v = (return [← Form.decode v]) := by
  unfold decode
  split
  · next fields => rw [lookup_forms.mpr fun value => h fields value rfl]
  · rfl

/-- With that field it has to be the only one, and an array. -/
theorem eq_forms_of_decode {v : Json} {fs : List Form} (hv : ¬Single v) (h : decode v = .ok fs) :
    ∃ items, v = .object [("forms", .array items)] := by
  simp only [Single, not_forall, Classical.not_not] at hv
  obtain ⟨fields, value, rfl, hmem⟩ := hv
  cases hfound : fields.lookup "forms" with
  | none => exact absurd hmem (lookup_forms.mp hfound value)
  | some body =>
    simp only [decode, hfound] at h
    by_cases hone : fields.length = 1
    · rw [if_neg (by simp [hone])] at h
      obtain ⟨field, rfl⟩ := List.length_eq_one_iff.mp hone
      obtain rfl := List.mem_singleton.mp hmem
      obtain rfl : value = body := by simpa using hfound
      split at h
      · exact ⟨_, rfl⟩
      · exact nomatch h
    · rw [if_pos hone] at h
      exact nomatch h

/-- What a document gives: the forms of an array under `forms`, or one form. -/
theorem decode_eq_ok {v : Json} {fs : List Form} : decode v = .ok fs ↔
    (∃ items, v = .object [("forms", .array items)] ∧ Form.decodeItems items = .ok fs) ∨
    Single v ∧ ∃ f, Form.decode v = .ok f ∧ fs = [f] := by
  constructor
  · intro h
    by_cases hv : Single v
    · rw [decode_of_single hv] at h
      obtain ⟨f, hf, rfl⟩ : ∃ f, Form.decode v = .ok f ∧ [f] = fs := by simpa using h
      exact .inr ⟨hv, f, hf, rfl⟩
    · obtain ⟨items, rfl⟩ := eq_forms_of_decode hv h
      exact .inl ⟨items, rfl, h⟩
  · rintro (⟨items, rfl, hitems⟩ | ⟨hv, f, hf, rfl⟩)
    · exact hitems
    · rw [decode_of_single hv, hf]
      rfl

/-- A refused document is no JSON, or a value that was refused; the fault has no place. -/
theorem parse_eq_error {text : String} {e : Fault} (h : parse text = .error e) :
    e.place? = none ∧ (Json.parse text = none ∧ e = .undecodable .notJson ∨
      ∃ v flaw, Json.parse text = some v ∧ decode v = .error flaw ∧ e = .undecodable flaw) := by
  unfold parse at h
  split at h
  · next hnone =>
    cases h
    exact ⟨rfl, .inl ⟨hnone, rfl⟩⟩
  · next v hsome =>
    cases hv : decode v with
    | ok fs =>
      rw [hv] at h
      exact nomatch h
    | error flaw =>
      rw [hv] at h
      cases h
      exact ⟨rfl, .inr ⟨v, flaw, hsome, hv, rfl⟩⟩

/-- **The reader takes exactly the grammar.**  A value is read as a form iff it encodes one.  It is
    read as a document iff it is an object whose only field is `forms`, with an array of values that
    encode forms, and then gives a form for each in their order; or if it encodes a form and has no
    such field, and then gives that form alone.  Every refusal is a fault of the document, without
    place. -/
theorem decode_accepts :
    (∀ v, (∃ f, Form.decode v = .ok f) ↔ v.EncodesForm) ∧
    (∀ v, (∃ fs, decode v = .ok fs) ↔
      (∃ items, v = .object [("forms", .array items)] ∧ ∀ item ∈ items, item.EncodesForm) ∨
      Single v ∧ v.EncodesForm) ∧
    (∀ items fs, decode (.object [("forms", .array items)]) = .ok fs →
      List.Forall₂ (fun item f => Form.decode item = .ok f) items fs) ∧
    (∀ v fs, Single v → decode v = .ok fs → ∃ f, Form.decode v = .ok f ∧ fs = [f]) ∧
    (∀ text e, parse text = .error e → e.place? = none ∧
      (Json.parse text = none ∧ e = .undecodable .notJson ∨
        ∃ v flaw, Json.parse text = some v ∧ decode v = .error flaw ∧ e = .undecodable flaw)) := by
  refine ⟨Form.decode_succeeds, ?_, ?_, ?_, fun _ _ => parse_eq_error⟩
  · intro v
    constructor
    · rintro ⟨fs, h⟩
      rcases decode_eq_ok.mp h with ⟨items, rfl, hitems⟩ | ⟨hv, f, hf, rfl⟩
      · exact .inl ⟨items, rfl, Form.decodeItems_succeeds.mp ⟨fs, hitems⟩⟩
      · exact .inr ⟨hv, (Form.decode_succeeds v).mp ⟨f, hf⟩⟩
    · rintro (⟨items, rfl, hitems⟩ | ⟨hv, hform⟩)
      · obtain ⟨fs, hfs⟩ := Form.decodeItems_succeeds.mpr hitems
        exact ⟨fs, decode_eq_ok.mpr (.inl ⟨items, rfl, hfs⟩)⟩
      · obtain ⟨f, hf⟩ := (Form.decode_succeeds v).mpr hform
        exact ⟨[f], decode_eq_ok.mpr (.inr ⟨hv, f, hf, rfl⟩)⟩
  · intro items fs h
    exact Form.decodeItems_eq_ok.mp h
  · intro v fs hv h
    rcases decode_eq_ok.mp h with ⟨items, rfl, -⟩ | ⟨-, hform⟩
    · exact absurd List.mem_cons_self (hv _ _ rfl)
    · exact hform

/-- A document of two forms, one with a map in it; the same document inside an array, where `forms`
    is no tag; and a text with a number that is no integer. -/
theorem decode_accepts_forms :
    let entry := Json.array [.object [("kw", .string "a")], .number (.integer (-1))]
    let document := Json.object [("forms", .array [.null, .object [("map", .array [entry])]])]
    (∃ fs, decode document = .ok fs ∧ fs.length = 2) ∧
    (¬∃ f, Form.decode (.array [document]) = .ok f) ∧
    (∃ e, parse "[1.5]" = .error e ∧ e.place? = none) := by
  intro entry document
  obtain ⟨hform, hdocument, hitems, -, hrefused⟩ := decode_accepts
  refine ⟨?_, ?_, ?_⟩
  · have hentry : entry.EncodesEntry := .pair (.kw "a") (.integer (by decide))
    have hmap : Json.EncodesForm (.object [("map", .array [entry])]) :=
      .map (List.forall_mem_singleton.mpr hentry)
    have hboth : ∀ item ∈ [Json.null, .object [("map", .array [entry])]], item.EncodesForm :=
      List.forall_mem_cons.mpr ⟨.null, List.forall_mem_singleton.mpr hmap⟩
    obtain ⟨fs, hfs⟩ := (hdocument document).mpr (.inl ⟨_, rfl, hboth⟩)
    exact ⟨fs, hfs, (hitems _ fs hfs).length_eq.symm⟩
  · rw [hform]
    intro h
    have hinner := Json.encodesForm_array.mp h document List.mem_cons_self
    obtain ⟨tag, htag, v, hfields⟩ := Json.encodesForm_object hinner
    have hforms : "forms" = tag := by simpa using congrArg (·.map Prod.fst) hfields
    simp [← hforms] at htag
  · have hparse : ∃ e, parse "[1.5]" = .error e := ⟨_, rfl⟩
    obtain ⟨e, he⟩ := hparse
    exact ⟨e, he, (hrefused "[1.5]" e he).1⟩

end Document

end ScriptTree

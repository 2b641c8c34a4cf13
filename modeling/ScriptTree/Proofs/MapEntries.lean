/-
  Maps made of pairs.

  Pairs are put into a map one after another.  A key that is there already, in whatever spelling,
  keeps its place and takes the new value, and a new key comes last.  So one insertion changes the
  keys in at most one way (`map_fst_insert`) and the look-ups in exactly one (`lookup_insert`), and
  by induction on the pairs, from the last one:

  * the keys are those of the pairs without repetitions, each in its first spelling and in the order
    of its first occurrence (`map_fst_entriesOf`);
  * a look-up finds the last pair with the same key (`lookup_entriesOf`).

  Both rest on sameness being an equivalence, so the keys must be forms whose own maps have distinct
  keys.  Every form read from a document is one (`distinctKeys_of_decode`), since a document has no
  other way to a map than through its pairs.
-/
import Mathlib.Data.List.Induction
import ScriptTree.Proofs.Grammar
import ScriptTree.Proofs.Sameness

namespace ScriptTree.Form

open Render

/-! ## One insertion -/

theorem map_fst_insert (key value : Form) (es : List (Form × Form)) :
    (insert key value es).map Prod.fst =
      if es.any fun e => same key e.1 then es.map Prod.fst else es.map Prod.fst ++ [key] := by
  induction es with
  | nil => rfl
  | cons e es ih =>
    rw [insert]
    by_cases h : same key e.1 = true
    · simp [h]
    · simp only [h, Bool.false_eq_true, if_false, List.map_cons, ih, List.any_cons, Bool.false_or]
      split <;> rfl

/-- What holds of all keys and of all values is kept. -/
theorem forall_insert {P Q : Form → Prop} {key value : Form} (hkey : P key) (hvalue : Q value)
    {es : List (Form × Form)} (hes : ∀ e ∈ es, P e.1 ∧ Q e.2) :
    ∀ e ∈ insert key value es, P e.1 ∧ Q e.2 := by
  induction es with
  | nil => simpa [insert] using ⟨hkey, hvalue⟩
  | cons d ds ih =>
    rw [List.forall_mem_cons] at hes
    rw [insert]
    split
    · exact List.forall_mem_cons.mpr ⟨⟨hes.1.1, hvalue⟩, hes.2⟩
    · exact List.forall_mem_cons.mpr ⟨hes.1, ih hes.2⟩

theorem keysApart_insert {key value : Form} {es : List (Form × Form)} (h : keysApart es = true) :
    keysApart (insert key value es) = true := by
  rw [keysApart_iff] at h ⊢
  -- the keys alone matter
  rw [← List.pairwise_map (f := Prod.fst) (R := fun k l => ¬Same l k)] at h ⊢
  rw [map_fst_insert]
  split
  · exact h
  · next hnew =>
    refine List.pairwise_append.mpr ⟨h, List.pairwise_singleton _ _, ?_⟩
    intro k hk l hl
    obtain ⟨e, he, rfl⟩ := List.mem_map.mp hk
    obtain rfl := List.mem_singleton.mp hl
    exact fun hsame => hnew (List.any_eq_true.mpr ⟨e, he, hsame⟩)

theorem lookup_cons (key : Form) (e : Form × Form) (es : List (Form × Form)) :
    lookup key (e :: es) = if same key e.1 then some e.2 else lookup key es := by
  cases h : same key e.1 <;> simp [lookup, h]

/-- An insertion is seen under the same keys and under no others. -/
theorem lookup_insert {key value other : Form} {es : List (Form × Form)}
    (hkey : key.distinctKeys = true) (hother : other.distinctKeys = true)
    (hes : ∀ e ∈ es, e.1.distinctKeys = true) :
    lookup other (insert key value es) =
      if same other key then some value else lookup other es := by
  induction es with
  | nil => rw [insert, lookup_cons]
  | cons e es ih =>
    rw [List.forall_mem_cons] at hes
    rw [insert]
    by_cases hke : same key e.1 = true
    · have hsame : same other e.1 = same other key := by
        rw [Bool.eq_iff_iff]
        exact ⟨fun h => lawful.trans hother hes.1 hkey h (lawful.symm hkey hes.1 hke),
          fun h => lawful.trans hother hkey hes.1 h hke⟩
      rw [if_pos hke, lookup_cons, lookup_cons, hsame]
      split <;> rfl
    · rw [if_neg hke, lookup_cons, lookup_cons, ih hes.2]
      by_cases hoe : same other e.1 = true
      · have hok : ¬same other key = true := fun h =>
          hke (lawful.trans hkey hother hes.1 (lawful.symm hother hkey h) hoe)
        rw [if_pos hoe, if_neg hok, if_pos hoe]
      · rw [if_neg hoe, if_neg hoe]

/-! ## All insertions -/

theorem entriesOf_append_singleton (ps : List (Form × Form)) (p : Form × Form) :
    entriesOf (ps ++ [p]) = insert p.1 p.2 (entriesOf ps) := by
  rw [entriesOf, entriesOf, List.foldl_append]
  rfl

theorem keysApart_entriesOf (ps : List (Form × Form)) : keysApart (entriesOf ps) = true := by
  induction ps using List.reverseRecOn with
  | nil => rfl
  | append_singleton ps p ih =>
    rw [entriesOf_append_singleton]
    exact keysApart_insert ih

theorem forall_entriesOf {P Q : Form → Prop} {ps : List (Form × Form)}
    (h : ∀ p ∈ ps, P p.1 ∧ Q p.2) : ∀ e ∈ entriesOf ps, P e.1 ∧ Q e.2 := by
  induction ps using List.reverseRecOn with
  | nil => simp [entriesOf]
  | append_singleton ps p ih =>
    rw [List.forall_mem_append, List.forall_mem_singleton] at h
    rw [entriesOf_append_singleton]
    exact forall_insert h.2.1 h.2.2 (ih h.1)

theorem distinctKeys_of_mem_entriesOf {ps : List (Form × Form)}
    (h : ∀ p ∈ ps, p.1.distinctKeys = true) : ∀ e ∈ entriesOf ps, e.1.distinctKeys = true := by
  intro e he
  have hall := forall_entriesOf (P := fun k => k.distinctKeys = true) (Q := fun _ => True)
    (fun p hp => ⟨h p hp, trivial⟩)
  exact (hall e he).1

theorem distinctKeys_ofEntries {ps : List (Form × Form)}
    (h : ∀ p ∈ ps, p.1.distinctKeys = true ∧ p.2.distinctKeys = true) :
    (ofEntries ps).distinctKeys = true :=
  distinctKeys_map_iff.mpr ⟨keysApart_entriesOf ps,
    forall_entriesOf (P := fun k => k.distinctKeys = true) (Q := fun v => v.distinctKeys = true) h⟩

/-- Keys without repetitions: each in the spelling and in the place in which it first comes. -/
def firstKeys : List Form → List Form
  | [] => []
  | k :: ks => k :: (firstKeys ks).filter fun l => !same l k

theorem mem_of_mem_firstKeys {ks : List Form} {key : Form} (h : key ∈ firstKeys ks) :
    key ∈ ks := by
  induction ks with
  | nil => exact h
  | cons k ks ih =>
    rw [firstKeys, List.mem_cons, List.mem_filter] at h
    rcases h with rfl | ⟨h, _⟩
    · exact List.mem_cons_self
    · exact List.mem_cons_of_mem _ (ih h)

/-- A further key is kept iff it is new. -/
theorem firstKeys_append_singleton {ks : List Form} {key : Form}
    (hks : ∀ k ∈ ks, k.distinctKeys = true) (hkey : key.distinctKeys = true) :
    firstKeys (ks ++ [key]) =
      if (firstKeys ks).any (same key) then firstKeys ks else firstKeys ks ++ [key] := by
  induction ks with
  | nil => rfl
  | cons k ks ih =>
    rw [List.forall_mem_cons] at hks
    rw [List.cons_append, firstKeys, firstKeys, ih hks.2]
    by_cases hk : same key k = true
    · -- the first key drops it, kept before or not
      split <;> simp [hk]
    · have hany : ((firstKeys ks).filter fun l => !same l k).any (same key) =
          (firstKeys ks).any (same key) := by
        rw [Bool.eq_iff_iff, List.any_eq_true, List.any_eq_true]
        constructor
        · rintro ⟨l, hl, hsame⟩
          exact ⟨l, (List.mem_filter.mp hl).1, hsame⟩
        · rintro ⟨l, hl, hsame⟩
          have hlk : ¬same l k = true := fun h =>
            hk (lawful.trans hkey (hks.2 l (mem_of_mem_firstKeys hl)) hks.1 hsame h)
          exact ⟨l, List.mem_filter.mpr ⟨hl, by simp [hlk]⟩, hsame⟩
      rw [List.any_cons, hany]
      split <;> simp_all

theorem map_fst_entriesOf {ps : List (Form × Form)} (h : ∀ p ∈ ps, p.1.distinctKeys = true) :
    (entriesOf ps).map Prod.fst = firstKeys (ps.map Prod.fst) := by
  induction ps using List.reverseRecOn with
  | nil => rfl
  | append_singleton ps p ih =>
    rw [List.forall_mem_append, List.forall_mem_singleton] at h
    have hany : (entriesOf ps).any (fun e => same p.1 e.1) =
        ((entriesOf ps).map Prod.fst).any (same p.1) := by
      rw [List.any_map]
      rfl
    rw [entriesOf_append_singleton, map_fst_insert, hany, ih h.1, List.map_append,
      List.map_singleton, firstKeys_append_singleton (List.forall_mem_map.mpr h.1) h.2]

/-- The last pair with the same key counts. -/
theorem lookup_entriesOf {ps : List (Form × Form)} {key : Form} (hkey : key.distinctKeys = true)
    (h : ∀ p ∈ ps, p.1.distinctKeys = true) :
    lookup key (entriesOf ps) = lookup key ps.reverse := by
  induction ps using List.reverseRecOn with
  | nil => rfl
  | append_singleton ps p ih =>
    rw [List.forall_mem_append, List.forall_mem_singleton] at h
    rw [entriesOf_append_singleton,
      lookup_insert h.2 hkey (distinctKeys_of_mem_entriesOf h.1), ih h.1,
      List.reverse_append, List.reverse_singleton, List.singleton_append, lookup_cons]

/-- A look-up through the list from its end finds the last pair. -/
theorem lookup_reverse_eq_some {ps : List (Form × Form)} {key value : Form}
    (h : lookup key ps.reverse = some value) :
    ∃ before k after, ps = before ++ (k, value) :: after ∧ same key k = true ∧
      ∀ p ∈ after, same key p.1 = false := by
  rw [lookup, Option.map_eq_some_iff] at h
  obtain ⟨⟨k, v⟩, hfind, rfl⟩ := h
  obtain ⟨hk, after, before, hps, hafter⟩ := List.find?_eq_some_iff_append.mp hfind
  refine ⟨before.reverse, k, after.reverse, ?_, hk, ?_⟩
  · rw [← List.reverse_reverse ps, hps]
    simp
  · intro p hp
    simpa using hafter p (List.mem_reverse.mp hp)

/-! ## Pairs in a document -/

/-- Pairs that are read one by one are read together. -/
theorem decodeEntries_pairs {pairs : List (Json × Json)} {ps : List (Form × Form)}
    (h : List.Forall₂ (fun j p => decode j.1 = .ok p.1 ∧ decode j.2 = .ok p.2) pairs ps) :
    decodeEntries (pairs.map fun j => .array [j.1, j.2]) = .ok ps := by
  rw [decodeEntries_eq_ok, List.forall₂_map_left_iff]
  exact h.imp fun j p hjp => ⟨j.1, j.2, rfl, hjp⟩

theorem distinctKeys_of_decodeRatio {parts : List Json} {f : Form}
    (h : decodeRatio parts = .ok f) : f.distinctKeys = true := by
  unfold decodeRatio at h
  split at h
  · split at h
    · cases h
      rfl
    · cases h
  · cases h
  · cases h

theorem distinctKeys_of_decodeItems {items : List Json} {fs : List Form}
    (ih : ∀ v ∈ items, ∀ f, decode v = .ok f → f.distinctKeys = true)
    (h : decodeItems items = .ok fs) : ∀ f ∈ fs, f.distinctKeys = true := by
  intro f hf
  obtain ⟨v, hv, hread⟩ := (decodeItems_eq_ok.mp h).exists_of_mem_right hf
  exact ih v hv f hread

/-- Every form that is read has maps with distinct keys only. -/
theorem distinctKeys_of_decode (v : Json) : ∀ f, decode v = .ok f → f.distinctKeys = true := by
  induction v using Json.size_induction with
  | step v ih =>
    intro f h
    cases v with
    | null =>
      cases h
      rfl
    | bool b => cases h
    | number n =>
      cases hn : n.toInt64? with
      | none => simp [decode, hn] at h
      | some i =>
        simp only [decode, hn, Except.ok.injEq] at h
        subst h
        rfl
    | string s =>
      cases h
      rfl
    | array items =>
      obtain ⟨fs, hfs, rfl⟩ : ∃ fs, decodeItems items = .ok fs ∧ Form.list fs = f := by
        simpa [decode] using h
      exact itemsDistinct_iff.mpr
        (distinctKeys_of_decodeItems (fun v hv => ih v (Json.size_lt_array hv)) hfs)
    | object fields =>
      cases decode_object.mp h with
      | sym | kw | str | splice => rfl
      | ratio hparts => exact distinctKeys_of_decodeRatio hparts
      | vec hfs =>
        exact itemsDistinct_iff.mpr
          (distinctKeys_of_decodeItems (fun v hv => ih v (Json.size_lt_field hv)) hfs)
      | map hps =>
        refine distinctKeys_ofEntries fun p hp => ?_
        obtain ⟨_, hmem, k, v, rfl, hk, hv⟩ := (decodeEntries_eq_ok.mp hps).exists_of_mem_right hp
        exact ⟨ih k (Json.size_lt_entry hmem).1 _ hk, ih v (Json.size_lt_entry hmem).2 _ hv⟩

/-! ## The map of pairs -/

/-- A map made of pairs has the keys of the pairs without repetitions, each in the spelling and the
    place in which it first comes and with the value that comes last; and an array of pairs in a
    document is read as the map that the pairs make. -/
theorem ofEntries_keeps :
    (∀ ps : List (Form × Form), (∀ p ∈ ps, p.1.distinctKeys = true) →
      ∃ es, ofEntries ps = .map es ∧
        es.Pairwise (fun d e => same d.1 e.1 = false ∧ same e.1 d.1 = false) ∧
        es.map Prod.fst = firstKeys (ps.map Prod.fst) ∧
        ∀ e ∈ es, ∃ before k after, ps = before ++ (k, e.2) :: after ∧ same e.1 k = true ∧
          ∀ p ∈ after, same e.1 p.1 = false) ∧
    ∀ (pairs : List (Json × Json)) (ps : List (Form × Form)),
      List.Forall₂ (fun j p => decode j.1 = .ok p.1 ∧ decode j.2 = .ok p.2) pairs ps →
      (∀ p ∈ ps, p.1.distinctKeys = true) ∧
        decode (.object [("map", .array (pairs.map fun j => .array [j.1, j.2]))]) =
          .ok (ofEntries ps) := by
  constructor
  · intro ps hps
    have hkeys := distinctKeys_of_mem_entriesOf hps
    have hapart := keysApart_entriesOf ps
    refine ⟨entriesOf ps, rfl, ?_, map_fst_entriesOf hps, ?_⟩
    · refine (keysApart_iff.mp hapart).imp_of_mem fun {d e} hd he hne => ?_
      have hne' : ¬Same d.1 e.1 := fun h => hne (lawful.symm (hkeys d hd) (hkeys e he) h)
      exact ⟨eq_false_of_ne_true hne', eq_false_of_ne_true hne⟩
    · intro e he
      apply lookup_reverse_eq_some
      rw [← lookup_entriesOf (hkeys e he) hps, lookup,
        find?_eq_some_of_mem lawful (hkeys e he) hkeys hapart he (lawful.refl (hkeys e he))]
      rfl
  · intro pairs ps h
    constructor
    · intro p hp
      obtain ⟨j, -, hj, -⟩ := h.exists_of_mem_right hp
      exact distinctKeys_of_decode j.1 p.1 hj
    · rw [decode, decodeEntries_pairs h]
      rfl

/-- A key that comes twice, the second time with its own entries in another order. -/
theorem ofEntries_keeps_respelt :
    let ab : Form := .map [(.keyword "a", .int 1), (.keyword "b", .int 2)]
    let ba : Form := .map [(.keyword "b", .int 2), (.keyword "a", .int 1)]
    let ps : List (Form × Form) := [(ab, .str "first"), (.nil, .int 0), (ba, .str "last")]
    (∀ p ∈ ps, p.1.distinctKeys = true) ∧
      (∃ es, ofEntries ps = .map es ∧ es.map Prod.fst = [ab, .nil]) ∧
      decode (.object [("map", .array (ps.map fun p => .array [p.1.encode, p.2.encode]))]) =
        .ok (.map [(ab, .str "last"), (.nil, .int 0)]) := by
  intro ab ba ps
  have hdistinct : ∀ p ∈ ps, p.1.distinctKeys = true ∧ p.2.distinctKeys = true := by
    decide +kernel
  have hkeys : ∀ p ∈ ps, p.1.distinctKeys = true := fun p hp => (hdistinct p hp).1
  refine ⟨hkeys, ?_, ?_⟩
  · obtain ⟨es, hes, -, hfirst, -⟩ := ofEntries_keeps.1 ps hkeys
    exact ⟨es, hes, hfirst.trans rfl⟩
  · have hread : List.Forall₂ (fun j p => decode j.1 = .ok p.1 ∧ decode j.2 = .ok p.2)
        (ps.map fun p => (p.1.encode, p.2.encode)) ps := by
      rw [List.forall₂_map_left_iff, List.forall₂_same]
      exact fun p hp =>
        ⟨decode_encode p.1 (hdistinct p hp).1, decode_encode p.2 (hdistinct p hp).2⟩
    have hmap := (ofEntries_keeps.2 _ _ hread).2
    rw [List.map_map] at hmap
    exact hmap.trans rfl

end ScriptTree.Form

/-
  Sameness as the equality of keys.

  Two forms are the same when they agree up to the order of the entries of their maps.  `same` finds
  this out by looking up each entry of the one map in the other, by the very sameness that is being
  decided.  So that it is an equivalence, and that it is what it was meant to be, are shown
  together, by induction on the size of the forms:

  1. If sameness is an equivalence on the keys and values of two maps (`Lawful`), a look-up finds
     the one entry with a given key, and two maps are the same iff they have as many entries and
     each entry of the first has a partner in the second (`same_of_matches`).
  2. No two entries have the same partner, as their keys differ.  So with equally many entries the
     partners are all of the second map (`exists_matching`): the maps are the same up to order.
  3. Hence sameness is an equivalence one size up (`lawful_below`), and so on all forms whose maps
     have distinct keys (`lawful`).

  `Reordered` says what sameness is meant to be without looking anything up.  Forms that are the
  same have the same digest, whatever their maps are like, so a table that only compares keys of the
  same hash misses none (`same_lawful`).
-/
import Mathlib.Data.List.Forall2
import ScriptTree.Proofs.RoundTrip
import ScriptTree.Proofs.Unfold

/-! ## Lists related one by one -/

theorem List.Forall₂.imp_of_mem {α β : Type} {R S : α → β → Prop} {l : List α} {m : List β}
    (h : List.Forall₂ R l m) (himp : ∀ a ∈ l, ∀ b ∈ m, R a b → S a b) : List.Forall₂ S l m := by
  induction h with
  | nil => exact .nil
  | cons hab _ ih =>
    refine .cons (himp _ mem_cons_self _ mem_cons_self hab) (ih fun a ha b hb => ?_)
    exact himp a (mem_cons_of_mem _ ha) b (mem_cons_of_mem _ hb)

theorem List.Forall₂.exists_of_mem {α β : Type} {R : α → β → Prop} {l : List α} {m : List β}
    (h : List.Forall₂ R l m) {a : α} (ha : a ∈ l) : ∃ b ∈ m, R a b := by
  induction h with
  | nil => simp at ha
  | @cons a' b' l m hab _ ih =>
    rcases mem_cons.mp ha with rfl | ha
    · exact ⟨b', mem_cons_self, hab⟩
    · obtain ⟨b, hb, hab⟩ := ih ha
      exact ⟨b, mem_cons_of_mem b' hb, hab⟩

theorem List.Forall₂.exists_of_mem_right {α β : Type} {R : α → β → Prop} {l : List α} {m : List β}
    (h : List.Forall₂ R l m) {b : β} (hb : b ∈ m) : ∃ a ∈ l, R a b :=
  exists_of_mem (List.Forall₂.flip (R := fun b a => R a b) h) hb

namespace ScriptTree.Form

/-! ## Forms up to the order of entries -/

mutual

/-- The same form but for the order of the entries of maps, at every depth and inside keys. -/
inductive Reordered : Form → Form → Prop
  | nil : Reordered .nil .nil
  | int (n : Int64) : Reordered (.int n) (.int n)
  | ratio (n d : Int64) : Reordered (.ratio n d) (.ratio n d)
  | str (text : String) : Reordered (.str text) (.str text)
  | keyword (name : String) : Reordered (.keyword name) (.keyword name)
  | symbol (name : String) : Reordered (.symbol name) (.symbol name)
  | splice : Reordered .splice .splice
  | list {fs gs : List Form} (h : List.Forall₂ Reordered fs gs) : Reordered (.list fs) (.list gs)
  | vector {fs gs : List Form} (h : List.Forall₂ Reordered fs gs) :
      Reordered (.vector fs) (.vector gs)
  | map {es es' ds : List (Form × Form)} (h : List.Forall₂ ReorderedEntry es es')
      (hperm : es'.Perm ds) : Reordered (.map es) (.map ds)

/-- Entries whose keys and values are. -/
inductive ReorderedEntry : Form × Form → Form × Form → Prop
  | mk {k v l w : Form} (hkey : Reordered k l) (hvalue : Reordered v w) :
      ReorderedEntry (k, v) (l, w)

end

theorem ReorderedEntry.key {e d : Form × Form} (h : ReorderedEntry e d) : Reordered e.1 d.1 := by
  cases h with
  | mk hkey _ => exact hkey

theorem ReorderedEntry.value {e d : Form × Form} (h : ReorderedEntry e d) :
    Reordered e.2 d.2 := by
  cases h with
  | mk _ hvalue => exact hvalue

/-! ## One level of sameness -/

/-- Forms that count as the same. -/
abbrev Same (f g : Form) : Prop :=
  same f g = true

/-- The same atom, lists or vectors of related items, or maps with equally many entries, where each
    entry of the first has a partner in the second. -/
inductive Matches (R : Form → Form → Prop) : Form → Form → Prop
  | nil : Matches R .nil .nil
  | int (n : Int64) : Matches R (.int n) (.int n)
  | ratio (n d : Int64) : Matches R (.ratio n d) (.ratio n d)
  | str (text : String) : Matches R (.str text) (.str text)
  | keyword (name : String) : Matches R (.keyword name) (.keyword name)
  | symbol (name : String) : Matches R (.symbol name) (.symbol name)
  | splice : Matches R .splice .splice
  | list {fs gs : List Form} (h : List.Forall₂ R fs gs) : Matches R (.list fs) (.list gs)
  | vector {fs gs : List Form} (h : List.Forall₂ R fs gs) : Matches R (.vector fs) (.vector gs)
  | map {es ds : List (Form × Form)} (hlength : es.length = ds.length)
      (h : ∀ e ∈ es, ∃ d ∈ ds, R e.1 d.1 ∧ R e.2 d.2) : Matches R (.map es) (.map ds)

theorem sameItems_iff {fs gs : List Form} : sameItems fs gs = true ↔ List.Forall₂ Same fs gs := by
  induction fs generalizing gs with
  | nil => cases gs <;> simp [sameItems]
  | cons f fs ih => cases gs <;> simp [sameItems, ih]

theorem entriesIn_iff {es ds : List (Form × Form)} : entriesIn es ds = true ↔
    ∀ e ∈ es, ∃ d, ds.find? (fun d => same e.1 d.1) = some d ∧ Same e.2 d.2 := by
  induction es with
  | nil => simp [entriesIn]
  | cons e es ih =>
    obtain ⟨k, v⟩ := e
    rw [entriesIn, Bool.and_eq_true, ih, List.forall_mem_cons]
    refine and_congr_left fun _ => ?_
    cases ds.find? (fun d => same k d.1) <;> simp

/-- What sameness says one level down, of any forms. -/
theorem matches_of_same {f g : Form} (h : same f g = true) : Matches Same f g := by
  unfold same at h
  split at h
  · exact .nil
  · next a b =>
    obtain rfl : a = b := by simpa using h
    exact .int a
  · next a b c d =>
    obtain ⟨rfl, rfl⟩ : a = c ∧ b = d := by simpa using h
    exact .ratio a b
  · next a b =>
    obtain rfl : a = b := by simpa using h
    exact .str a
  · next a b =>
    obtain rfl : a = b := by simpa using h
    exact .keyword a
  · next a b =>
    obtain rfl : a = b := by simpa using h
    exact .symbol a
  · exact .list (sameItems_iff.mp h)
  · exact .vector (sameItems_iff.mp h)
  · next es ds =>
    obtain ⟨hlength, hentries⟩ : es.length = ds.length ∧ entriesIn es ds = true := by
      simpa using h
    refine .map hlength fun e he => ?_
    obtain ⟨d, hfind, hvalue⟩ := entriesIn_iff.mp hentries e he
    have hkey : same e.1 d.1 = true := by simpa using List.find?_some hfind
    exact ⟨d, List.mem_of_find?_eq_some hfind, hkey, hvalue⟩
  · exact .splice
  · exact absurd h (by simp)

/-! ## Parts -/

/-- The items of a list or a vector, the keys and values of a map. -/
def parts : Form → List Form
  | .list items => items
  | .vector items => items
  | .map entries => entries.flatMap fun e => [e.1, e.2]
  | _ => []

theorem mem_parts_of_mem {e : Form × Form} {es : List (Form × Form)} (he : e ∈ es) :
    e.1 ∈ (Form.map es).parts ∧ e.2 ∈ (Form.map es).parts := by
  simp only [parts, List.mem_flatMap]
  exact ⟨⟨e, he, by simp⟩, ⟨e, he, by simp⟩⟩

theorem size_lt_of_mem_parts {f g : Form} (h : g ∈ f.parts) : g.size < f.size := by
  unfold parts at h
  split at h
  · have := size_le_of_mem h
    simp only [size]
    omega
  · have := size_le_of_mem h
    simp only [size]
    omega
  · obtain ⟨e, he, hg⟩ := List.mem_flatMap.mp h
    have := size_le_of_mem_entries (k := e.1) (v := e.2) he
    simp only [List.mem_cons, List.not_mem_nil, or_false] at hg
    simp only [size]
    rcases hg with rfl | rfl <;> omega
  · simp at h

theorem itemsDistinct_iff {fs : List Form} :
    itemsDistinct fs = true ↔ ∀ f ∈ fs, f.distinctKeys = true := by
  induction fs with
  | nil => simp [itemsDistinct]
  | cons f fs ih => simp [itemsDistinct, ih]

theorem entriesDistinct_iff {es : List (Form × Form)} : entriesDistinct es = true ↔
    ∀ e ∈ es, e.1.distinctKeys = true ∧ e.2.distinctKeys = true := by
  induction es with
  | nil => simp [entriesDistinct]
  | cons e es ih =>
    rw [entriesDistinct, List.forall_mem_cons, ← ih]
    simp

/-- Each key differs from those before it. -/
theorem keysApart_iff {es : List (Form × Form)} :
    keysApart es = true ↔ es.Pairwise fun d e => ¬Same e.1 d.1 := by
  induction es with
  | nil => simp [keysApart]
  | cons e es ih => simp [keysApart, ih]

theorem distinctKeys_map_iff {es : List (Form × Form)} : (Form.map es).distinctKeys = true ↔
    keysApart es = true ∧ ∀ e ∈ es, e.1.distinctKeys = true ∧ e.2.distinctKeys = true := by
  rw [distinctKeys, Bool.and_eq_true, entriesDistinct_iff]

theorem distinctKeys_of_mem_parts {f g : Form} (hf : f.distinctKeys = true) (h : g ∈ f.parts) :
    g.distinctKeys = true := by
  unfold parts at h
  split at h
  · exact itemsDistinct_iff.mp hf g h
  · exact itemsDistinct_iff.mp hf g h
  · obtain ⟨e, he, hg⟩ := List.mem_flatMap.mp h
    obtain ⟨hkey, hvalue⟩ := (distinctKeys_map_iff.mp hf).2 e he
    simp only [List.mem_cons, List.not_mem_nil, or_false] at hg
    rcases hg with rfl | rfl
    · exact hkey
    · exact hvalue
  · simp at h

/-! ## Digests -/

theorem digestItems_eq {fs gs : List Form}
    (h : List.Forall₂ (fun f g => f.digest = g.digest) fs gs) :
    digestItems fs = digestItems gs := by
  induction h with
  | nil => rfl
  | cons hfg _ ih => rw [digestItems, digestItems, hfg, ih]

/-- Forms that are the same have the same digest. -/
theorem digest_eq_of_same {f g : Form} (h : same f g = true) : f.digest = g.digest := by
  have part : ∀ p ∈ f.parts, ∀ q, Same p q → p.digest = q.digest := by
    intro p hp q hpq
    have := size_lt_of_mem_parts hp
    exact digest_eq_of_same hpq
  cases matches_of_same h with
  | list hitems =>
    rw [digest, digest, hitems.length_eq]
    rw [digestItems_eq (hitems.imp_of_mem fun p hp q _ => part p hp q)]
  | vector hitems =>
    rw [digest, digest, hitems.length_eq]
    rw [digestItems_eq (hitems.imp_of_mem fun p hp q _ => part p hp q)]
  | map hlength _ => rw [digest, digest, hlength]
  | _ => rfl
termination_by f.size

/-! ## Maps over a lawful equality -/

/-- Sameness is an equivalence on a class of forms. -/
structure Lawful (C : Form → Prop) : Prop where
  refl : ∀ {f}, C f → Same f f
  symm : ∀ {f g}, C f → C g → Same f g → Same g f
  trans : ∀ {f g h}, C f → C g → C h → Same f g → Same g h → Same f h

/-- As many elements as partners, no two of which have a partner in common: the partners are all
    there is. -/
theorem exists_matching {α β : Type} {R : α → β → Prop} {l : List α} {m : List β}
    (hlength : l.length = m.length) (h : ∀ a ∈ l, ∃ b ∈ m, R a b)
    (hapart : l.Pairwise fun a a' => ∀ b ∈ m, R a b → ¬R a' b) :
    ∃ m', List.Forall₂ R l m' ∧ m'.Perm m := by
  induction l generalizing m with
  | nil =>
    obtain rfl : m = [] := List.eq_nil_of_length_eq_zero hlength.symm
    exact ⟨[], .nil, .nil⟩
  | cons a l ih =>
    obtain ⟨hfirst, hrest⟩ := List.pairwise_cons.mp hapart
    obtain ⟨b, hb, hab⟩ := h a List.mem_cons_self
    obtain ⟨before, after, rfl⟩ := List.append_of_mem hb
    -- the others have their partners among the rest, as `b` is taken
    have hothers : ∀ a' ∈ l, ∃ b' ∈ before ++ after, R a' b' := by
      intro a' ha'
      obtain ⟨b', hb', hab'⟩ := h a' (List.mem_cons_of_mem a ha')
      refine ⟨b', ?_, hab'⟩
      rcases List.mem_append.mp hb' with hb' | hb'
      · exact List.mem_append_left _ hb'
      · rcases List.mem_cons.mp hb' with rfl | hb'
        · exact absurd hab' (hfirst a' ha' b' hb hab)
        · exact List.mem_append_right _ hb'
    have hsubset : before ++ after ⊆ before ++ b :: after :=
      List.append_subset.mpr ⟨List.subset_append_left _ _,
        List.subset_append_of_subset_right _ (List.subset_cons_self b after)⟩
    obtain ⟨m', hm', hperm⟩ := ih (m := before ++ after) (by simp at hlength ⊢; omega) hothers
      (hrest.imp fun hne b' hb' => hne b' (hsubset hb'))
    exact ⟨b :: m', .cons hab hm', (hperm.cons b).trans List.perm_middle.symm⟩

section

variable {C : Form → Prop} (law : Lawful C)

include law

/-- A look-up finds the entry with the same key, wherever it stands. -/
theorem find?_eq_some_of_mem {key : Form} (hkey : C key) {es : List (Form × Form)}
    (hkeys : ∀ e ∈ es, C e.1) (hapart : keysApart es = true) {e : Form × Form} (he : e ∈ es)
    (h : same key e.1 = true) : es.find? (fun d => same key d.1) = some e := by
  rw [keysApart_iff] at hapart
  induction es with
  | nil => simp at he
  | cons d ds ih =>
    obtain ⟨hfirst, hrest⟩ := List.pairwise_cons.mp hapart
    have hd := hkeys d List.mem_cons_self
    rcases List.mem_cons.mp he with rfl | he'
    · simp [h]
    · -- the first key is another one, or it would be the same as the one of `e`
      have hne : ¬same key d.1 = true := by
        intro hsame
        have hek := law.symm hkey (hkeys e he) h
        exact hfirst e he' (law.trans (hkeys e he) hkey hd hek hsame)
      simpa [hne] using ih (fun e he => hkeys e (List.mem_cons_of_mem d he)) hrest he'

/-- Where sameness is an equivalence on the parts, forms that match are the same. -/
theorem same_of_matches {f g : Form} (hf : ∀ p ∈ f.parts, C p) (hg : ∀ p ∈ g.parts, C p)
    (hkeys : g.distinctKeys = true) (h : Matches Same f g) : same f g = true := by
  cases h with
  | list hitems => exact sameItems_iff.mpr hitems
  | vector hitems => exact sameItems_iff.mpr hitems
  | @map es ds hlength h =>
    rw [same, Bool.and_eq_true]
    refine ⟨by simp [hlength], entriesIn_iff.mpr fun e he => ?_⟩
    obtain ⟨d, hd, hkey, hvalue⟩ := h e he
    have hfind := find?_eq_some_of_mem law (hf _ (mem_parts_of_mem he).1)
      (fun d hd => hg _ (mem_parts_of_mem hd).1) (distinctKeys_map_iff.mp hkeys).1 hd hkey
    exact ⟨d, hfind, hvalue⟩
  | _ => simp [same]

/-- The entries of maps that match are those of the other in some order. -/
theorem exists_perm_of_matches {es ds : List (Form × Form)} (hes : ∀ e ∈ es, C e.1)
    (hds : ∀ d ∈ ds, C d.1) (hapart : keysApart es = true) (hlength : es.length = ds.length)
    (h : ∀ e ∈ es, ∃ d ∈ ds, Same e.1 d.1 ∧ Same e.2 d.2) :
    ∃ ds', List.Forall₂ (fun e d => Same e.1 d.1 ∧ Same e.2 d.2) es ds' ∧ ds'.Perm ds := by
  refine exists_matching hlength h ?_
  rw [keysApart_iff] at hapart
  refine hapart.imp_of_mem fun {d e} hd he hde c hc hdc hec => ?_
  -- entries with a partner in common have the same key
  have hcd := law.symm (hes d hd) (hds c hc) hdc.1
  exact hde (law.trans (hes e he) (hds c hc) (hes d hd) hec.1 hcd)

theorem Lawful.items_symm {fs gs : List Form} (hfs : ∀ f ∈ fs, C f) (hgs : ∀ g ∈ gs, C g)
    (h : List.Forall₂ Same fs gs) : List.Forall₂ Same gs fs :=
  List.Forall₂.flip (h.imp_of_mem fun f hf g hg hfg => law.symm (hfs f hf) (hgs g hg) hfg)

theorem Lawful.items_trans {fs gs hs : List Form} (hfs : ∀ f ∈ fs, C f) (hgs : ∀ g ∈ gs, C g)
    (hhs : ∀ h ∈ hs, C h) (hfg : List.Forall₂ Same fs gs) (hgh : List.Forall₂ Same gs hs) :
    List.Forall₂ Same fs hs := by
  induction hfg generalizing hs with
  | nil => exact hgh
  | cons hfg _ ih =>
    obtain ⟨h, hs, hfirst, hrest, rfl⟩ := List.forall₂_cons_left_iff.mp hgh
    rw [List.forall_mem_cons] at hfs hgs hhs
    exact .cons (law.trans hfs.1 hgs.1 hhs.1 hfg hfirst) (ih hfs.2 hgs.2 hhs.2 hrest)

/-! ## Sameness one size up -/

theorem matches_refl {f : Form} (hf : ∀ p ∈ f.parts, C p) : Matches Same f f := by
  cases f with
  | list fs => exact .list (List.forall₂_same.mpr fun f hfs => law.refl (hf f hfs))
  | vector fs => exact .vector (List.forall₂_same.mpr fun f hfs => law.refl (hf f hfs))
  | map es =>
    refine .map rfl fun e he => ⟨e, he, ?_⟩
    exact ⟨law.refl (hf _ (mem_parts_of_mem he).1), law.refl (hf _ (mem_parts_of_mem he).2)⟩
  | _ => constructor

theorem matches_symm {f g : Form} (hf : ∀ p ∈ f.parts, C p) (hg : ∀ p ∈ g.parts, C p)
    (hkeys : f.distinctKeys = true) (h : Matches Same f g) : Matches Same g f := by
  cases h with
  | list hitems => exact .list (law.items_symm hf hg hitems)
  | vector hitems => exact .vector (law.items_symm hf hg hitems)
  | @map es ds hlength h =>
    refine .map hlength.symm fun d hd => ?_
    -- every entry of the second map is the partner of one of the first
    obtain ⟨ds', hpartners, hperm⟩ := exists_perm_of_matches law
      (fun e he => hf _ (mem_parts_of_mem he).1) (fun d hd => hg _ (mem_parts_of_mem hd).1)
      (distinctKeys_map_iff.mp hkeys).1 hlength h
    obtain ⟨e, he, hkey, hvalue⟩ := hpartners.exists_of_mem_right (hperm.mem_iff.mpr hd)
    refine ⟨e, he, ?_⟩
    exact ⟨law.symm (hf _ (mem_parts_of_mem he).1) (hg _ (mem_parts_of_mem hd).1) hkey,
      law.symm (hf _ (mem_parts_of_mem he).2) (hg _ (mem_parts_of_mem hd).2) hvalue⟩
  | _ => constructor

theorem matches_trans {f g h : Form} (hf : ∀ p ∈ f.parts, C p) (hg : ∀ p ∈ g.parts, C p)
    (hh : ∀ p ∈ h.parts, C p) (hfg : Matches Same f g) (hgh : Matches Same g h) :
    Matches Same f h := by
  cases hfg with
  | list hitems =>
    cases hgh with
    | list hitems' => exact .list (law.items_trans hf hg hh hitems hitems')
  | vector hitems =>
    cases hgh with
    | vector hitems' => exact .vector (law.items_trans hf hg hh hitems hitems')
  | map hlength hentries =>
    cases hgh with
    | map hlength' hentries' =>
      refine .map (hlength.trans hlength') fun e he => ?_
      obtain ⟨d, hd, hkey, hvalue⟩ := hentries e he
      obtain ⟨c, hc, hkey', hvalue'⟩ := hentries' d hd
      have hpe := mem_parts_of_mem he
      have hpd := mem_parts_of_mem hd
      have hpc := mem_parts_of_mem hc
      exact ⟨c, hc, law.trans (hf _ hpe.1) (hg _ hpd.1) (hh _ hpc.1) hkey hkey',
        law.trans (hf _ hpe.2) (hg _ hpd.2) (hh _ hpc.2) hvalue hvalue'⟩
  | _ => exact hgh

end

/-! ## Sameness is an equivalence -/

theorem lawful_below (n : Nat) : Lawful fun f => f.distinctKeys = true ∧ f.size < n := by
  induction n with
  | zero =>
    exact ⟨fun hf => absurd hf.2 (Nat.not_lt_zero _), fun hf => absurd hf.2 (Nat.not_lt_zero _),
      fun hf => absurd hf.2 (Nat.not_lt_zero _)⟩
  | succ n ih =>
    have hparts : ∀ {f : Form}, f.distinctKeys = true ∧ f.size < n + 1 →
        ∀ p ∈ f.parts, p.distinctKeys = true ∧ p.size < n := by
      intro f hf p hp
      have := size_lt_of_mem_parts hp
      exact ⟨distinctKeys_of_mem_parts hf.1 hp, by omega⟩
    refine ⟨?_, ?_, ?_⟩
    · intro f hf
      exact same_of_matches ih (hparts hf) (hparts hf) hf.1 (matches_refl ih (hparts hf))
    · intro f g hf hg hfg
      have h := matches_symm ih (hparts hf) (hparts hg) hf.1 (matches_of_same hfg)
      exact same_of_matches ih (hparts hg) (hparts hf) hf.1 h
    · intro f g h hf hg hh hfg hgh
      have hmatches := matches_trans ih (hparts hf) (hparts hg) (hparts hh) (matches_of_same hfg)
        (matches_of_same hgh)
      exact same_of_matches ih (hparts hf) (hparts hh) hh.1 hmatches

/-- On forms whose maps have distinct keys, sameness is an equivalence. -/
theorem lawful : Lawful fun f => f.distinctKeys = true where
  refl {f} hf := (lawful_below (f.size + 1)).refl ⟨hf, by omega⟩
  symm {f g} hf hg := (lawful_below (f.size + g.size + 1)).symm ⟨hf, by omega⟩ ⟨hg, by omega⟩
  trans {f g h} hf hg hh := (lawful_below (f.size + g.size + h.size + 1)).trans ⟨hf, by omega⟩
    ⟨hg, by omega⟩ ⟨hh, by omega⟩

/-! ## Sameness is equality up to the order of entries -/

theorem reordered_of_same {f g : Form} (hf : f.distinctKeys = true) (hg : g.distinctKeys = true)
    (h : same f g = true) : Reordered f g := by
  have part : ∀ p ∈ f.parts, ∀ q ∈ g.parts, Same p q → Reordered p q := by
    intro p hp q hq hpq
    have := size_lt_of_mem_parts hp
    exact reordered_of_same (distinctKeys_of_mem_parts hf hp) (distinctKeys_of_mem_parts hg hq) hpq
  cases matches_of_same h with
  | list hitems => exact .list (hitems.imp_of_mem part)
  | vector hitems => exact .vector (hitems.imp_of_mem part)
  | @map es ds hlength hentries =>
    obtain ⟨hapart, hes⟩ := distinctKeys_map_iff.mp hf
    obtain ⟨-, hds⟩ := distinctKeys_map_iff.mp hg
    obtain ⟨ds', hpartners, hperm⟩ := exists_perm_of_matches lawful (fun e he => (hes e he).1)
      (fun d hd => (hds d hd).1) hapart hlength hentries
    refine .map (hpartners.imp_of_mem fun e he d hd hed => ?_) hperm
    have hpe := mem_parts_of_mem he
    have hpd := mem_parts_of_mem (hperm.mem_iff.mp hd)
    exact .mk (part _ hpe.1 _ hpd.1 hed.1) (part _ hpe.2 _ hpd.2 hed.2)
  | _ => constructor
termination_by f.size

theorem same_of_reordered {f g : Form} (hf : f.distinctKeys = true) (hg : g.distinctKeys = true)
    (h : Reordered f g) : same f g = true := by
  have part : ∀ p ∈ f.parts, ∀ q ∈ g.parts, Reordered p q → Same p q := by
    intro p hp q hq hpq
    have := size_lt_of_mem_parts hp
    exact same_of_reordered (distinctKeys_of_mem_parts hf hp) (distinctKeys_of_mem_parts hg hq) hpq
  refine same_of_matches lawful (fun p => distinctKeys_of_mem_parts hf)
    (fun p => distinctKeys_of_mem_parts hg) hg ?_
  cases h with
  | list hitems => exact .list (hitems.imp_of_mem part)
  | vector hitems => exact .vector (hitems.imp_of_mem part)
  | @map es es' ds hentries hperm =>
    refine .map (hentries.length_eq.trans hperm.length_eq) fun e he => ?_
    obtain ⟨d, hd, hed⟩ := hentries.exists_of_mem he
    have hd := hperm.mem_iff.mp hd
    have hpe := mem_parts_of_mem he
    have hpd := mem_parts_of_mem hd
    exact ⟨d, hd, part _ hpe.1 _ hpd.1 hed.key, part _ hpe.2 _ hpd.2 hed.value⟩
  | _ => constructor
termination_by f.size

/-! ## Keys of a table -/

/-- The entry that a hash table finds under a key: it compares the key with those of the same hash
    only. -/
def probe (hash : List Digit → UInt64) (key : Form) (entries : List (Form × Form)) :
    Option (Form × Form) :=
  (entries.filter fun e => hash e.1.digest == hash key.digest).find? fun e => same key e.1

/-- No entry is missed because of its hash. -/
theorem probe_eq_find? (hash : List Digit → UInt64) (key : Form) (es : List (Form × Form)) :
    probe hash key es = es.find? fun e => same key e.1 := by
  rw [probe, List.find?_filter]
  congr 1
  funext e
  cases h : same key e.1 with
  | false => simp
  | true => simp [digest_eq_of_same h]

/-- **Sameness is a lawful equality of keys.**  On forms whose maps have distinct keys it is an
    equivalence, and it is what it was meant to be: the same form up to the order of the entries of
    maps, at every depth.  Forms that are the same have the same digest.  So under any hash a table
    with distinct keys finds the entry whose key is the same, as a look-up does. -/
theorem same_lawful :
    Equivalence (fun f g : { f : Form // f.distinctKeys = true } => same f.1 g.1 = true) ∧
    (∀ f g : Form, f.distinctKeys = true → g.distinctKeys = true →
      (same f g = true ↔ Reordered f g)) ∧
    (∀ f g : Form, same f g = true → f.digest = g.digest) ∧
    ∀ (hash : List Digit → UInt64) (key : Form) (es : List (Form × Form)),
      key.distinctKeys = true → (Form.map es).distinctKeys = true →
      ∀ e ∈ es, same key e.1 = true → probe hash key es = some e ∧ lookup key es = some e.2 := by
  refine ⟨⟨?_, ?_, ?_⟩, ?_, fun _ _ => digest_eq_of_same, ?_⟩
  · exact fun f => lawful.refl f.2
  · exact fun {f g} => lawful.symm f.2 g.2
  · exact fun {f g h} => lawful.trans f.2 g.2 h.2
  · exact fun f g hf hg => ⟨reordered_of_same hf hg, same_of_reordered hf hg⟩
  · intro hash key es hkey hes e he h
    obtain ⟨hapart, hparts⟩ := distinctKeys_map_iff.mp hes
    have hfind := find?_eq_some_of_mem lawful hkey (fun d hd => (hparts d hd).1) hapart he h
    exact ⟨by rw [probe_eq_find?, hfind], by rw [lookup, hfind]; rfl⟩

/-- Two maps whose entries stand in another order, one of them under a key that is a map itself;
    the second is a key of a table, and the first finds it. -/
theorem same_lawful_nested :
    let f : Form := .map [(.map [(.nil, .int 1), (.splice, .str "b")], .vector []), (.nil, .nil)]
    let g : Form := .map [(.nil, .nil), (.map [(.splice, .str "b"), (.nil, .int 1)], .vector [])]
    let table := [(Form.symbol "x", Form.nil), (g, .str "found")]
    same f g = true ∧ same g f = true ∧ Reordered f g ∧ f.digest = g.digest ∧
      (∀ hash, probe hash f table = some (g, .str "found")) ∧
      lookup f table = some (.str "found") := by
  intro f g table
  obtain ⟨hequivalence, hreordered, hdigest, htable⟩ := same_lawful
  have hf : f.distinctKeys = true := by decide +kernel
  have hg : g.distinctKeys = true := by decide +kernel
  have hfg : same f g = true := by decide +kernel
  have hfound := fun hash => htable hash f table hf (by decide +kernel) (g, .str "found")
    (by simp [table]) hfg
  exact ⟨hfg, hequivalence.symm (x := ⟨f, hf⟩) (y := ⟨g, hg⟩) hfg, (hreordered f g hf hg).mp hfg,
    hdigest f g hfg, fun hash => (hfound hash).1, (hfound fun _ => 0).2⟩

end ScriptTree.Form

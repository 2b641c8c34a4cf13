/-
  Joining what is joined already.

  A join trims its texts and drops the blank ones, and then adds separators and sometimes a newline
  of its own.  When a joined text is joined again, trimming has to take away what the first join
  added at the ends and nothing else.  It does, because the texts that a join keeps are tight: they
  begin and end with characters that are not white.  A join of tight texts is tight again
  (`tight_intercalate`), however white the separator, so trimming leaves it as it is.

  From there on only the list of kept texts matters.  A group without any is dropped by the outer
  join as it would be by the inner one, and any other group contributes its texts with the
  separators between them.  So, by induction on the groups, texts may be joined group by group
  (`intercalate_regroup`).  Lines, chains and guarded chains are three cases of this.
-/
import ScriptTree.Proofs.Chains

namespace ScriptTree

namespace Text

/-! ## Tight texts -/

/-- A text that begins and ends with characters that are not white. -/
structure Tight (s : String) : Prop where
  first : ∃ c, s.toList.head? = some c ∧ isWhite c = false
  last : ∃ c, s.toList.getLast? = some c ∧ isWhite c = false

theorem Tight.ne_empty {s : String} (h : Tight s) : s ≠ "" := by
  rintro rfl
  obtain ⟨c, hc, -⟩ := h.first
  exact absurd hc (by simp)

/-- Dropping white characters changes nothing where the first character is not white. -/
theorem dropWhile_isWhite {cs : List Char} (h : ∃ c, cs.head? = some c ∧ isWhite c = false) :
    cs.dropWhile isWhite = cs := by
  obtain ⟨c, hc, hwhite⟩ := h
  cases cs with
  | nil => exact absurd hc (by simp)
  | cons d ds =>
    obtain rfl : d = c := by simpa using hc
    exact List.dropWhile_cons_of_neg (by simp [hwhite])

/-- From a tight text only a blank text behind it is trimmed. -/
theorem Tight.trim_append {s : String} (h : Tight s) {after : String}
    (hafter : isBlank after = true) : trim (s ++ after) = s := by
  have hlast : ∃ c, s.toList.reverse.head? = some c ∧ isWhite c = false := by
    simpa using h.last
  have hfirst : ∃ c, (s.toList ++ after.toList).head? = some c ∧ isWhite c = false := by
    obtain ⟨c, hc, hwhite⟩ := h.first
    exact ⟨c, by simp [hc], hwhite⟩
  have hback : (after.toList.reverse ++ s.toList.reverse).dropWhile isWhite = s.toList.reverse := by
    rw [List.dropWhile_append_of_pos, dropWhile_isWhite hlast]
    intro c hc
    exact List.all_eq_true.mp hafter c (List.mem_reverse.mp hc)
  rw [trim, trimChars, String.toList_append, dropWhile_isWhite hfirst, List.reverse_append, hback,
    List.reverse_reverse, String.ofList_toList]

/-- Where the dropping of white characters stops short of the end, it stops at one that is not. -/
theorem exists_head?_dropWhile {cs : List Char} (h : cs.dropWhile isWhite ≠ []) :
    ∃ c, (cs.dropWhile isWhite).head? = some c ∧ isWhite c = false :=
  ⟨_, List.head?_eq_some_head h, List.head_dropWhile_not isWhite h⟩

/-- What trimming leaves of a text that is not blank is tight. -/
theorem tight_trim {s : String} (h : isBlank s = false) : Tight (trim s) := by
  -- the text behind its first white characters, and what trimming leaves of it, reversed
  let tail := s.toList.dropWhile isWhite
  let kept := tail.reverse.dropWhile isWhite
  have htrim : (trim s).toList = kept.reverse := String.toList_ofList
  have hkept : kept ≠ [] := by
    intro hnil
    have hempty : trim s = "" := by rw [← String.toList_inj, htrim, hnil]; rfl
    rw [trim_eq_empty_iff.mp hempty] at h
    exact absurd h (by decide)
  have htail : tail = kept.reverse ++ (tail.reverse.takeWhile isWhite).reverse := by
    rw [← List.reverse_append, List.takeWhile_append_dropWhile, List.reverse_reverse]
  have hhead : tail.head? = kept.reverse.head? := by
    rw [htail, List.head?_append_of_ne_nil _ (by simpa using hkept)]
  constructor
  · rw [htrim, ← hhead]
    exact exists_head?_dropWhile fun hnil => hkept (by simp [kept, tail, hnil])
  · rw [htrim, List.getLast?_reverse]
    exact exists_head?_dropWhile hkept

/-- A text between two tight ones, whatever it is, is kept. -/
theorem Tight.append {s t : String} (hs : Tight s) (between : String) (ht : Tight t) :
    Tight (s ++ between ++ t) := by
  obtain ⟨c, hc, hcwhite⟩ := hs.first
  obtain ⟨d, hd, hdwhite⟩ := ht.last
  exact ⟨⟨c, by simp [hc], hcwhite⟩, ⟨d, by simp [List.getLast?_append, hd], hdwhite⟩⟩

/-- Tight texts, if there are any, make a tight join. -/
theorem tight_intercalate (separator : String) {ts : List String} (hne : ts ≠ [])
    (h : ∀ t ∈ ts, Tight t) : Tight (separator.intercalate ts) := by
  induction ts with
  | nil => exact absurd rfl hne
  | cons t ts ih =>
    have ht : Tight t := h t (by simp)
    by_cases hts : ts = []
    · rw [hts, String.intercalate_singleton]
      exact ht
    · rw [String.intercalate_cons_of_ne_nil hts]
      exact ht.append separator (ih hts fun u hu => h u (List.mem_cons_of_mem t hu))

end Text

namespace Script

/-! ## What a join keeps -/

theorem solid_append (xs ys : List String) : solid (xs ++ ys) = solid xs ++ solid ys := by
  simp [solid]

theorem tight_of_mem_solid {texts : List String} : ∀ t ∈ solid texts, Text.Tight t := by
  intro t ht
  rw [solid_eq] at ht
  obtain ⟨s, hs, rfl⟩ := List.mem_map.mp ht
  exact Text.tight_trim (by simpa using (List.mem_filter.mp hs).2)

/-- A join of what is kept is empty only if nothing is. -/
theorem intercalate_solid_eq_empty_iff (separator : String) {texts : List String} :
    separator.intercalate (solid texts) = "" ↔ solid texts = [] :=
  Text.intercalate_eq_empty_iff separator fun t ht => (tight_of_mem_solid t ht).ne_empty

/-- Nothing is kept iff every text is blank. -/
theorem solid_eq_nil_iff {texts : List String} :
    solid texts = [] ↔ ∀ s ∈ texts, Text.isBlank s = true := by
  rw [solid_eq]
  simp

/-- Trimming a join, with a blank text behind it or not, leaves the kept texts and their
    separators. -/
theorem trim_intercalate_solid (separator : String) (texts : List String) {after : String}
    (hafter : Text.isBlank after = true) :
    Text.trim (separator.intercalate (solid texts) ++ after) =
      separator.intercalate (solid texts) := by
  by_cases hnone : solid texts = []
  · rw [hnone, String.intercalate_nil, String.empty_append, Text.trim_eq_empty_iff]
    exact hafter
  · exact (Text.tight_intercalate separator hnone tight_of_mem_solid).trim_append hafter

/-! ## Groups -/

/-- Of a group that was joined, the next join keeps nothing if nothing was kept in it, and
    otherwise its kept texts with the separators between them. -/
theorem solid_joined (separator : String) {join : List String → String}
    (hjoin : ∀ texts, Text.trim (join texts) = separator.intercalate (solid texts))
    (texts : List String) : solid [join texts] =
      if solid texts = [] then [] else [separator.intercalate (solid texts)] := by
  have hempty : separator.intercalate (solid texts) = "" ↔ solid texts = [] :=
    intercalate_solid_eq_empty_iff separator
  show List.filter (· ≠ "") [Text.trim (join texts)] = _
  rw [hjoin]
  by_cases hnone : solid texts = []
  · rw [if_pos hnone, hempty.mpr hnone]
    rfl
  · rw [if_neg hnone, List.filter_cons_of_pos (by simpa using fun h => hnone (hempty.mp h))]
    rfl

/-- Joining group by group is joining all, for any join of which trimming leaves the kept texts
    and their separators. -/
theorem intercalate_regroup (separator : String) {join : List String → String}
    (hjoin : ∀ texts, Text.trim (join texts) = separator.intercalate (solid texts))
    (groups : List (List String)) :
    separator.intercalate (solid (groups.map join)) =
      separator.intercalate (solid groups.flatten) := by
  induction groups with
  | nil => rfl
  | cons texts groups ih =>
    -- the groups behind keep something iff their texts do, since their joins are the same text
    have hrest : solid (groups.map join) = [] ↔ solid groups.flatten = [] := by
      rw [← intercalate_solid_eq_empty_iff separator, ih, intercalate_solid_eq_empty_iff]
    rw [List.map_cons, ← List.singleton_append, solid_append, solid_joined separator hjoin,
      List.flatten_cons, solid_append]
    by_cases hfirst : solid texts = []
    · rw [if_pos hfirst, hfirst, List.nil_append, List.nil_append, ih]
    · rw [if_neg hfirst]
      by_cases hnone : solid groups.flatten = []
      · rw [hrest.mpr hnone, hnone, List.append_nil, List.append_nil, String.intercalate_singleton]
      · rw [String.intercalate_append_of_ne_nil (by simp) fun h => hnone (hrest.mp h),
          String.intercalate_append_of_ne_nil hfirst hnone, String.intercalate_singleton, ih]

theorem trim_sequence (texts : List String) :
    Text.trim (sequence texts) = "\n".intercalate (solid texts) :=
  trim_intercalate_solid "\n" texts (show Text.isBlank "\n" = true by decide)

theorem trim_chain (texts : List String) :
    Text.trim (chain texts) = " && ".intercalate (solid texts) := by
  have htrim := trim_intercalate_solid " && " texts (show Text.isBlank "" = true from rfl)
  rwa [String.append_empty] at htrim

theorem chain_regroup (groups : List (List String)) :
    chain (groups.map chain) = chain groups.flatten :=
  intercalate_regroup " && " trim_chain groups

/-- A chain is blank iff all its texts are. -/
theorem isBlank_chain {texts : List String} :
    Text.isBlank (chain texts) = true ↔ ∀ s ∈ texts, Text.isBlank s = true := by
  rw [← Text.trim_eq_empty_iff, trim_chain, intercalate_solid_eq_empty_iff, solid_eq_nil_iff]

theorem guarded_ne_empty (message commands : String) : guarded message commands ≠ "" := by
  intro hempty
  have hdone : "echo \"...done\"\n" = "" := (String.append_eq_empty_iff.mp hempty).2
  exact absurd hdone (by decide)

/-- Nothing is checked iff there is nothing to run. -/
theorem checked_eq_empty_iff {message : String} {texts : List String} :
    checked message texts = "" ↔ ∀ s ∈ texts, Text.isBlank s = true := by
  rw [← isBlank_chain, checked]
  by_cases hblank : Text.isBlank (chain texts) = true
  · simp [hblank]
  · simp [hblank, guarded_ne_empty]

/-- Texts may be joined group by group, as lines, as a chain and under a guard, with the same
    outcome as all at once.  A guard is left out iff every text is white throughout. -/
theorem joins_regroup (message : String) (groups : List (List String)) :
    sequence (groups.map sequence) = sequence groups.flatten ∧
    chain (groups.map chain) = chain groups.flatten ∧
    checked message (groups.map chain) = checked message groups.flatten ∧
    ∀ texts, checked message texts = "" ↔
      ∀ s ∈ texts, ∀ c ∈ s.toList, Text.isWhite c = true := by
  refine ⟨?_, chain_regroup groups, ?_, ?_⟩
  · rw [sequence, intercalate_regroup "\n" trim_sequence groups, sequence]
  · rw [checked, chain_regroup groups, checked]
  · intro texts
    rw [checked_eq_empty_iff]
    simp only [Text.isBlank, List.all_eq_true]

end Script

end ScriptTree

/-
  The atoms of a form.

  Conditions on a whole tree are mostly conditions on its atoms: that no text in it holds a certain
  character, that a certain symbol does not occur.  `Form.atoms` lists the atoms from left to right,
  and `Form.texts` and `Form.symbols` are what is read off them.  A part has no atoms that the whole
  does not have, and spreading the arguments of `apply` gives a list with the very same atoms
  (`atomsOfItems_spread`), so such a condition passes to everything that rendering looks at.
-/
import ScriptTree.Proofs.Unfold

namespace ScriptTree

namespace Form

mutual

/-- The atoms of a form, from left to right. -/
def atoms : Form → List Form
  | .list items => atomsOfItems items
  | .vector items => atomsOfItems items
  | .map entries => atomsOfEntries entries
  | atom => [atom]

/-- The atoms of several forms. -/
def atomsOfItems : List Form → List Form
  | [] => []
  | f :: fs => atoms f ++ atomsOfItems fs

/-- The atoms of the keys and values of a map. -/
def atomsOfEntries : List (Form × Form) → List Form
  | [] => []
  | (k, v) :: es => atoms k ++ atoms v ++ atomsOfEntries es

end

/-- The text of a string, a keyword or a symbol. -/
def text? : Form → Option String
  | .str text => some text
  | .keyword name => some name
  | .symbol name => some name
  | _ => none

/-- The texts in a form. -/
def texts (f : Form) : List String :=
  f.atoms.filterMap text?

/-- The names of the symbols in a form. -/
def symbols (f : Form) : List String :=
  f.atoms.filterMap symbol?

/-! ## Atoms of parts -/

theorem atoms_subset_of_mem {f : Form} {fs : List Form} (h : f ∈ fs) :
    f.atoms ⊆ atomsOfItems fs := by
  induction fs with
  | nil => simp at h
  | cons g gs ih =>
    rw [atomsOfItems]
    rcases List.mem_cons.mp h with rfl | h
    · exact List.subset_append_left _ _
    · exact List.subset_append_of_subset_right _ (ih h)

theorem atoms_subset_of_mem_entries {e : Form × Form} {es : List (Form × Form)} (h : e ∈ es) :
    e.1.atoms ⊆ atomsOfEntries es ∧ e.2.atoms ⊆ atomsOfEntries es := by
  induction es with
  | nil => simp at h
  | cons d ds ih =>
    obtain ⟨k, v⟩ := d
    rw [atomsOfEntries]
    rcases List.mem_cons.mp h with rfl | h
    · exact ⟨fun a ha => by simp [ha], fun a ha => by simp [ha]⟩
    · obtain ⟨hk, hv⟩ := ih h
      exact ⟨List.subset_append_of_subset_right _ hk, List.subset_append_of_subset_right _ hv⟩

/-- Spreading moves no atom: a vector or list in last place gives up its brackets only. -/
theorem atomsOfItems_spread (fs : List Form) :
    atomsOfItems (Render.spread fs) = atomsOfItems fs := by
  fun_induction Render.spread fs with
  | case1 => rfl
  | case2 items => simp [atomsOfItems, atoms]
  | case3 items => simp [atomsOfItems, atoms]
  | case4 f => rfl
  | case5 f fs _ _ _ ih => rw [atomsOfItems, atomsOfItems, ih]

/-- The list that an `apply` stands for has no atoms of its own. -/
theorem atoms_spread_subset (args : List Form) :
    (Form.list (Render.spread args)).atoms ⊆ (Form.call "apply" args).atoms := by
  rw [atoms, atomsOfItems_spread, call, atoms, atomsOfItems]
  exact List.subset_append_right _ _

/-! ## Texts and symbols of parts -/

theorem texts_subset {f g : Form} (h : f.atoms ⊆ g.atoms) : f.texts ⊆ g.texts :=
  List.filterMap_subset text? h

theorem symbols_subset {f g : Form} (h : f.atoms ⊆ g.atoms) : f.symbols ⊆ g.symbols :=
  List.filterMap_subset symbol? h

/-- The head of a list is one of its symbols. -/
theorem head_mem_symbols (name : String) (args : List Form) :
    name ∈ (Form.list (.symbol name :: args)).symbols := by
  simp [symbols, atoms, atomsOfItems, symbol?]

end Form

end ScriptTree

/-
  Rendering without a count.

  `emit` iterates `layout` as often as a form has nodes.  This file shows that the count does not
  matter: a layout asks for smaller forms only, so two functions that agree on smaller forms give
  the same layout (`layout_congr`), any sufficient count gives the same text
  (`emitWithin_eq_emit`), and `emit` satisfies its own recurrence (`emit_eq`).  Whatever is said
  about rendering from here on is said through that recurrence.

  That a layout asks for smaller forms only needs no look at the rules: forms below a size, each
  beside itself, are a likeness (`likeness_itself_below`), and rules keep to those.
-/
import ScriptTree.Proofs.Likeness

namespace ScriptTree

namespace Form

/-! ## Sizes of parts -/

theorem size_pos (f : Form) : 0 < f.size := by
  unfold size; split <;> omega

theorem size_le_of_mem {f : Form} {fs : List Form} (h : f ∈ fs) : f.size ≤ sizeOfItems fs := by
  induction fs with
  | nil => simp at h
  | cons g gs ih =>
    rcases List.mem_cons.mp h with rfl | h
    · simp [sizeOfItems]
    · have := ih h
      simp [sizeOfItems]; omega

theorem size_le_of_mem_entries {k v : Form} {es : List (Form × Form)} (h : (k, v) ∈ es) :
    k.size + v.size ≤ sizeOfEntries es := by
  induction es with
  | nil => simp at h
  | cons e es ih =>
    obtain ⟨a, b⟩ := e
    rcases List.mem_cons.mp h with h | h
    · obtain ⟨rfl, rfl⟩ := Prod.mk.inj h
      simp [sizeOfEntries]
    · have := ih h
      simp [sizeOfEntries]; omega

theorem size_lt_list {f : Form} {fs : List Form} (h : f ∈ fs) : f.size < (Form.list fs).size := by
  have := size_le_of_mem h
  rw [size]
  omega

theorem size_lt_vector {f : Form} {fs : List Form} (h : f ∈ fs) :
    f.size < (Form.vector fs).size := by
  have := size_le_of_mem h
  rw [size]
  omega

theorem size_lt_map {e : Form × Form} {es : List (Form × Form)} (h : e ∈ es) :
    e.1.size < (Form.map es).size ∧ e.2.size < (Form.map es).size := by
  have := size_le_of_mem_entries (k := e.1) (v := e.2) h
  rw [size]
  omega

end Form

namespace Render

/-- Spreading adds no nodes. -/
theorem sizeOfItems_spread_le (fs : List Form) :
    Form.sizeOfItems (spread fs) ≤ Form.sizeOfItems fs := by
  fun_induction spread fs with
  | case1 => simp
  | case2 items => simp [Form.sizeOfItems, Form.size]
  | case3 items => simp [Form.sizeOfItems, Form.size]
  | case4 f => simp
  | case5 f fs _ _ _ ih => simp [Form.sizeOfItems]; omega

/-! ## Functions that agree below a size -/

/-- The two functions agree on all forms with fewer than `n` nodes. -/
def Agree (n : Nat) (r s : Form → Rendering) : Prop :=
  ∀ f : Form, f.size < n → r f = s f

theorem hereditary_below (n : Nat) : Form.Hereditary fun f => f.size < n where
  items h _ hf := Nat.lt_trans (Form.size_lt_list hf) h
  elements h _ hf := Nat.lt_trans (Form.size_lt_vector hf) h
  entries h _ he :=
    ⟨Nat.lt_trans (Form.size_lt_map he).1 h, Nat.lt_trans (Form.size_lt_map he).2 h⟩

theorem likeness_itself_below (n : Nat) : Likeness (Form.Itself fun f => f.size < n) Eq where
  resembles := Form.Itself.resembles (hereditary_below n)
  misuse _ := rfl
  notMap h := by rw [h.1]
  badName _ _ := rfl

/-- A layout asks for smaller forms only. -/
theorem layout_congr {cx : Setting} {r s : Form → Rendering} {f : Form} (h : Agree f.size r s) :
    layout cx r f = layout cx s f := by
  have like := likeness_itself_below f.size
  have texts : ∀ {g g'}, Form.Itself (fun g => g.size < f.size) g g' →
      SameUpTo Eq (r g) (s g') := by
    rintro g _ ⟨rfl, hg⟩
    exact .of_eq (h g hg)
  apply SameUpTo.eq
  cases f with
  | list items =>
    have hitems : List.Forall₂ (Form.Itself (·.size < (Form.list items).size)) items items :=
      Form.Itself.forall₂ fun _ => Form.size_lt_list
    refine layout_list_same like texts (fun hg _ => by rw [hg.1]) hitems ?_ ?_
    · rintro es ds args args' heq hds
      rw [heq] at hds
      cases hds
      exact .of_eq rfl
    · rintro args args' heq hargs
      rw [heq] at hargs
      cases hargs
      -- the spread list has no more items in it, and the word `apply` is gone
      have := sizeOfItems_spread_le args
      exact ⟨rfl, by simp only [heq, Form.size, Form.sizeOfItems]; omega⟩
  | vector items =>
    have hitems : List.Forall₂ (Form.Itself (·.size < (Form.vector items).size)) items items :=
      Form.Itself.forall₂ fun _ => Form.size_lt_vector
    exact (words_same like texts hitems).bind fun _ => .ok _
  | map entries =>
    refine initialiser_same (R := Form.Itself fun g => g.size < (Form.map entries).size) texts
      (List.forall₂_same.mpr fun e he => ?_)
    exact ⟨⟨rfl, (Form.size_lt_map he).1⟩, rfl, (Form.size_lt_map he).2⟩
  | _ => exact .of_eq rfl

/-- Any sufficient count gives the same text. -/
theorem emitWithin_eq_emit (cx : Setting) (n : Nat) (f : Form) (h : f.size ≤ n) :
    emitWithin cx n f = emit cx f := by
  have go : ∀ (m k : Nat) (f : Form), f.size ≤ m → f.size ≤ k →
      emitWithin cx m f = emitWithin cx k f := by
    intro m
    induction m with
    | zero => intro k f hm; have := f.size_pos; omega
    | succ m ih =>
      intro k f hm hk
      cases k with
      | zero => have := f.size_pos; omega
      | succ k => exact layout_congr fun g hg => ih k g (by omega) (by omega)
  exact go n f.size f h (Nat.le_refl _)

/-- The recurrence of rendering: the text of a form is its layout over the texts of its parts. -/
theorem emit_eq (cx : Setting) (f : Form) : emit cx f = layout cx (emit cx) f := by
  rw [emit]
  cases hf : f.size with
  | zero => have := f.size_pos; omega
  | succ n =>
    refine layout_congr fun g hg => ?_
    exact emitWithin_eq_emit cx n g (by omega)

end Render

end ScriptTree

/-
  When a rule succeeds.

  A rule renders its parts in order and gives up at the first fault, so from the success of the
  whole the success of every part can be read off.  This file has the lemmas for that: how a
  sequence of steps succeeds, with a given result or at all (`Succeeds`), what statements and parts
  are in terms of the texts of all their forms, and that without extension the origin of a tree does
  not matter to its text.
-/
import ScriptTree.Proofs.Unfold

namespace ScriptTree

/-! ## Sequences of steps -/

namespace Render

section

variable {α β ε : Type}

@[simp] theorem bind_eq_ok {x : Except ε α} {f : α → Except ε β} {b : β} :
    x >>= f = .ok b ↔ ∃ a, x = .ok a ∧ f a = .ok b := by
  cases x with
  | error e => simp [bind, Except.bind]
  | ok a => simp [bind, Except.bind]

@[simp] theorem pure_eq_ok {a b : α} : (pure a : Except ε α) = .ok b ↔ a = b := by
  simp [pure, Except.pure]

@[simp] theorem map_eq_ok {x : Except ε α} {f : α → β} {b : β} :
    f <$> x = .ok b ↔ ∃ a, x = .ok a ∧ f a = b := by
  cases x with
  | error e => simp [Functor.map, Except.map]
  | ok a => simp [Functor.map, Except.map]

@[simp] theorem mapError_eq_ok {x : Except ε α} {f : ε → β} {a : α} :
    x.mapError f = .ok a ↔ x = .ok a := by
  cases x with
  | error e =>
    show Except.error (f e) = .ok a ↔ Except.error e = .ok a
    simp
  | ok b =>
    show Except.ok b = .ok a ↔ Except.ok b = .ok a
    simp

@[simp] theorem misuse_ne_ok (cause : Misuse) (s : String) : misuse cause ≠ .ok s := by
  simp [misuse]

@[simp] theorem badCount_ne_ok (c : Construct) (args : List Form) (s : String) :
    badCount c args ≠ .ok s := by
  simp [badCount]

/-- Results can be compared where faults cannot. -/
theorem eq_ok_of_toOption {x : Except ε α} {a : α} (h : x.toOption = some a) : x = .ok a := by
  cases x with
  | error e => exact nomatch h
  | ok b => rw [Option.some.inj h]

/-- Everything a traversal gives was given for one of its elements. -/
theorem exists_of_mem_mapM {f : α → Except ε β} {l : List α} {bs : List β}
    (h : l.mapM f = .ok bs) : ∀ b ∈ bs, ∃ a ∈ l, f a = .ok b := by
  induction l generalizing bs with
  | nil =>
    intro b hb
    obtain rfl : [] = bs := by simpa using h
    simp at hb
  | cons a l ih =>
    rw [List.mapM_cons] at h
    obtain ⟨b', hb', bs', hbs', rfl⟩ : ∃ b', f a = .ok b' ∧ ∃ bs', l.mapM f = .ok bs' ∧
        b' :: bs' = bs := by simpa using h
    intro b hb
    rcases List.mem_cons.mp hb with rfl | hb
    · exact ⟨a, by simp, hb'⟩
    · obtain ⟨c, hc, hcb⟩ := ih hbs' b hb
      exact ⟨c, List.mem_cons_of_mem a hc, hcb⟩

/-! ## Success alone -/

/-- A step gives a result. -/
def Succeeds {ε α : Type} (x : Except ε α) : Prop :=
  ∃ a, x = .ok a

@[simp] theorem exists_eq_ok {x : Except ε α} : (∃ a, x = .ok a) ↔ Succeeds x :=
  Iff.rfl

@[simp] theorem succeeds_ok (a : α) : Succeeds (.ok a : Except ε α) :=
  ⟨a, rfl⟩

@[simp] theorem succeeds_pure (a : α) : Succeeds (pure a : Except ε α) :=
  ⟨a, rfl⟩

@[simp] theorem not_succeeds_error (e : ε) : ¬ Succeeds (.error e : Except ε α) :=
  nofun

@[simp] theorem not_succeeds_misuse (cause : Misuse) : ¬ Succeeds (misuse cause) :=
  nofun

@[simp] theorem not_succeeds_badCount (c : Construct) (args : List Form) :
    ¬ Succeeds (badCount c args) :=
  nofun

@[simp] theorem succeeds_bind {x : Except ε α} {f : α → Except ε β} :
    Succeeds (x >>= f) ↔ ∃ a, x = .ok a ∧ Succeeds (f a) := by
  cases x with
  | error e => simp [bind, Except.bind]
  | ok a => simp [bind, Except.bind]

theorem succeeds_bind_of_succeeds {x : Except ε α} {f : α → Except ε β}
    (h : ∀ a, Succeeds (f a)) : Succeeds (x >>= f) ↔ Succeeds x := by
  simp [h]

@[simp] theorem succeeds_map {x : Except ε α} {f : α → β} :
    Succeeds (f <$> x) ↔ Succeeds x := by
  cases x with
  | error e => simp [Functor.map, Except.map]
  | ok a => simp [Functor.map, Except.map]

theorem succeeds_mapM {f : α → Except ε β} {l : List α} :
    Succeeds (l.mapM f) ↔ ∀ a ∈ l, Succeeds (f a) := by
  induction l with
  | nil => simp
  | cons a l ih => simp [List.mapM_cons, ih]

end

/-! ## Statements and parts as texts of all forms -/

/-- There is one mark of a splice. -/
theorem eq_splice_of_isSplice {f : Form} (h : f.isSplice = true) : f = .splice := by
  cases f with
  | splice => rfl
  | _ => simp [Form.isSplice] at h

theorem emit_splice (cx : Setting) : emit cx .splice = .ok "" := by
  rw [emit_eq]
  rfl

variable (sub : Form → Rendering)

/-- Statements are the texts of all forms but the marks of splices, each as a line. -/
theorem statements_eq (fs : List Form) : statements sub fs =
    (do return String.join ((← (fs.filter fun f => !f.isSplice).mapM sub).map Text.asLine)) := by
  induction fs with
  | nil => rfl
  | cons f fs ih =>
    by_cases hf : f.isSplice = true
    · rw [statements, if_pos hf, ih, List.filter_cons_of_neg (by simp [hf])]
    · rw [statements, if_neg hf, ih, List.filter_cons_of_pos (by simpa using hf), List.mapM_cons]
      simp

/-- Parts are the texts of all forms but the marks of splices, without the blank ones. -/
theorem parts_eq (fs : List Form) : parts sub fs =
    (do return (← (fs.filter fun f => !f.isSplice).mapM sub).filter fun s => !Text.isBlank s) := by
  induction fs with
  | nil => rfl
  | cons f fs ih =>
    by_cases hf : f.isSplice = true
    · rw [parts, if_pos hf, ih, List.filter_cons_of_neg (by simp [hf])]
    · rw [parts, if_neg hf, ih, List.filter_cons_of_pos (by simpa using hf), List.mapM_cons]
      cases sub f with
      | error e => rfl
      | ok text =>
        cases (fs.filter fun f => !f.isSplice).mapM sub with
        | error e => rfl
        | ok texts => cases hb : Text.isBlank text <;> simp [hb, bind, Except.bind, pure, Except.pure]

end Render

/-! ## Rendering without extension -/

namespace Render

/-- Without extension the origin is never looked at. -/
theorem layout_none (o o' : Origin) (sub : Form → Rendering) (f : Form) :
    layout ⟨Extension.none, o⟩ sub f = layout ⟨Extension.none, o'⟩ sub f := by
  unfold layout
  split <;> rfl

theorem emitWithin_none (o o' : Origin) (n : Nat) (f : Form) :
    emitWithin ⟨Extension.none, o⟩ n f = emitWithin ⟨Extension.none, o'⟩ n f := by
  induction n generalizing f with
  | zero => rfl
  | succ n ih =>
    have hsub : emitWithin ⟨Extension.none, o⟩ n = emitWithin ⟨Extension.none, o'⟩ n := funext ih
    rw [emitWithin, emitWithin, hsub, layout_none o o']

/-- A text rendered without extension is the same wherever the tree came from. -/
theorem render_none {o : Origin} (o' : Origin) {fs : List Form} {text : String}
    (h : render ⟨Extension.none, o⟩ fs = .ok text) :
    render ⟨Extension.none, o'⟩ fs = .ok text := by
  have hemit : emit ⟨Extension.none, o⟩ = emit ⟨Extension.none, o'⟩ :=
    funext fun f => emitWithin_none o o' f.size f
  unfold render at h ⊢
  rw [mapError_eq_ok] at h ⊢
  rwa [← hemit]

end Render

end ScriptTree

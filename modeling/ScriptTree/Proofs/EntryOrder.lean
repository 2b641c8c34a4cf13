/-
  The order of map entries.

  Forms that are the same up to the order of the entries of maps may have different texts, since
  entries are printed in their order, but either both have a text or neither has one.  The proof
  compares what success depends on:

  1. **One step.**  Reordered forms ask for the same shape, and what they need, what they show and
     what they print themselves corresponds (`alike_of_reordered`).  For two lists of needs it is
     enough that each member of the one has a partner in the other and conversely (`Correspond`):
     it makes no difference how often a form is needed, or when.

  2. **The run.**  One condition looks at a text: a target must have no hyphen in it.  So the
     induction on the size carries two statements at once, that both forms have a text and that both
     texts have a hyphen (`renders_and_hyphenated_iff`).

  The scan for slots looks at the heads of lists, which no reordering moves, and at the parts of a
  form one by one (`usesHash_eq_of_reordered`).
-/
import ScriptTree.HashArray
import ScriptTree.Proofs.Hyphens
import ScriptTree.Proofs.Sameness

namespace ScriptTree

/-! ## Lists that correspond -/

/-- Each member of one list has a partner in the other, and conversely. -/
def Correspond {α : Type} (R : α → α → Prop) (l m : List α) : Prop :=
  (∀ a ∈ l, ∃ b ∈ m, R a b) ∧ ∀ b ∈ m, ∃ a ∈ l, R a b

namespace Correspond

variable {α β : Type} {R : α → α → Prop} {S : β → β → Prop} {P : α → Prop}

theorem of_forall₂ {l m : List α} (h : List.Forall₂ R l m) : Correspond R l m :=
  ⟨fun _ ha => h.exists_of_mem ha, fun _ hb => h.exists_of_mem_right hb⟩

theorem perm {l m n : List α} (h : Correspond R l m) (hperm : m.Perm n) : Correspond R l n := by
  constructor
  · intro a ha
    obtain ⟨b, hb, hab⟩ := h.1 a ha
    exact ⟨b, hperm.mem_iff.mp hb, hab⟩
  · intro b hb
    exact h.2 b (hperm.mem_iff.mpr hb)

theorem flatMap {l m : List α} {k k' : α → List β} (h : Correspond R l m)
    (hk : ∀ a b, R a b → Correspond S (k a) (k' b)) :
    Correspond S (l.flatMap k) (m.flatMap k') := by
  constructor
  · intro c hc
    obtain ⟨a, ha, hca⟩ := List.mem_flatMap.mp hc
    obtain ⟨b, hb, hab⟩ := h.1 a ha
    obtain ⟨d, hd, hcd⟩ := (hk a b hab).1 c hca
    exact ⟨d, List.mem_flatMap.mpr ⟨b, hb, hd⟩, hcd⟩
  · intro d hd
    obtain ⟨b, hb, hdb⟩ := List.mem_flatMap.mp hd
    obtain ⟨a, ha, hab⟩ := h.2 b hb
    obtain ⟨c, hc, hcd⟩ := (hk a b hab).2 d hdb
    exact ⟨c, List.mem_flatMap.mpr ⟨a, ha, hc⟩, hcd⟩

section

variable {l m : List α} (h : Correspond R l m) (hP : ∀ a ∈ l, ∀ b, R a b → (P a ↔ P b))

include h hP

theorem forall_iff : (∀ a ∈ l, P a) ↔ ∀ b ∈ m, P b := by
  constructor
  · intro hall b hb
    obtain ⟨a, ha, hab⟩ := h.2 b hb
    exact (hP a ha b hab).mp (hall a ha)
  · intro hall a ha
    obtain ⟨b, hb, hab⟩ := h.1 a ha
    exact (hP a ha b hab).mpr (hall b hb)

theorem exists_iff : (∃ a ∈ l, P a) ↔ ∃ b ∈ m, P b := by
  constructor
  · rintro ⟨a, ha, hPa⟩
    obtain ⟨b, hb, hab⟩ := h.1 a ha
    exact ⟨b, hb, (hP a ha b hab).mp hPa⟩
  · rintro ⟨b, hb, hPb⟩
    obtain ⟨a, ha, hab⟩ := h.2 b hb
    exact ⟨a, ha, (hP a ha b hab).mpr hPb⟩

end

end Correspond

namespace Form

/-! ## Parts of reordered forms -/

/-- Entries that are paired one by one and then reordered. -/
theorem correspond_entries {es es' ds : List (Form × Form)}
    (h : List.Forall₂ ReorderedEntry es es') (hperm : es'.Perm ds) :
    Correspond ReorderedEntry es ds :=
  (Correspond.of_forall₂ h).perm hperm

theorem correspond_parts {f g : Form} (h : Reordered f g) :
    Correspond Reordered f.parts g.parts := by
  cases h with
  | list hitems => exact .of_forall₂ hitems
  | vector hitems => exact .of_forall₂ hitems
  | map hentries hperm =>
    refine (correspond_entries hentries hperm).flatMap fun e d hed => .of_forall₂ ?_
    exact .cons hed.key (.cons hed.value .nil)
  | _ => exact .of_forall₂ .nil

theorem spread_reordered {fs gs : List Form} (h : List.Forall₂ Reordered fs gs) :
    List.Forall₂ Reordered (Render.spread fs) (Render.spread gs) := by
  have hcons : ∀ (f g : Form) (fs : List Form),
      Render.spread (f :: g :: fs) = f :: Render.spread (g :: fs) := by
    intro f g fs
    cases f <;> rfl
  match h with
  | .nil => exact .nil
  | .cons hf .nil =>
    cases hf with
    | list hitems => exact hitems
    | vector hitems => exact hitems
    | map hentries hperm => exact .cons (.map hentries hperm) .nil
    | _ => exact .cons (by constructor) .nil
  | .cons hf (.cons hg hrest) =>
    rw [hcons, hcons]
    exact .cons hf (spread_reordered (.cons hg hrest))

end Form

namespace Construct

open Form

/-! ## One step of a construct -/

/-- Two lists of arguments are the same to a construct as far as its success goes: it prints a
    hyphen for both or for none, and what it needs and shows corresponds; and both have the right
    shape or neither has, as long as targets do not tell them apart. -/
structure Alike (c : Construct) (args args' : List Form) : Prop where
  prints : c.PrintsHyphen args ↔ c.PrintsHyphen args'
  needs : Correspond Reordered (c.needs args) (c.needs args')
  shown : Correspond Reordered (c.shown args) (c.shown args')
  shaped : (∀ f ∈ args, ∀ g, Reordered f g → (f.Nameable ↔ g.Nameable)) →
    (c.Shaped args ↔ c.Shaped args')

variable {args args' : List Form}

/-- A construct that needs its arguments and shows them. -/
theorem alike_of_args {c : Construct} (h : List.Forall₂ Reordered args args')
    (hneeds : c.needs args = args ∧ c.needs args' = args')
    (hshown : c.shown args = args ∧ c.shown args' = args')
    (hprints : c.PrintsHyphen args ↔ c.PrintsHyphen args')
    (hshaped : (∀ f ∈ args, ∀ g, Reordered f g → (f.Nameable ↔ g.Nameable)) →
      (c.Shaped args ↔ c.Shaped args')) : c.Alike args args' where
  prints := hprints
  needs := by
    rw [hneeds.1, hneeds.2]
    exact .of_forall₂ h
  shown := by
    rw [hshown.1, hshown.2]
    exact .of_forall₂ h
  shaped := hshaped

theorem correspond_slotForms {target target' : Form} {es ds : List (Form × Form)}
    (ht : Reordered target target') (h : Correspond ReorderedEntry es ds) :
    Correspond Reordered (slotForms target es) (slotForms target' ds) :=
  h.flatMap fun _ _ hed => .of_forall₂ (.cons ht (.cons hed.key (.cons hed.value .nil)))

theorem correspond_values {es ds : List (Form × Form)} (h : Correspond ReorderedEntry es ds) :
    Correspond Reordered (es.map Prod.snd) (ds.map Prod.snd) := by
  rw [← List.flatMap_pure_eq_map, ← List.flatMap_pure_eq_map]
  exact h.flatMap fun _ _ hed => .of_forall₂ (.cons hed.value .nil)

theorem assign_alike (h : List.Forall₂ Reordered args args') : assign.Alike args args' := by
  match h with
  | .nil => exact alike_of_args .nil ⟨rfl, rfl⟩ ⟨rfl, rfl⟩ Iff.rfl fun _ => Iff.rfl
  | .cons ht .nil =>
    exact alike_of_args (.cons ht .nil) ⟨rfl, rfl⟩ ⟨rfl, rfl⟩ Iff.rfl fun hname =>
      hname _ List.mem_cons_self _ ht
  | .cons ht (.cons hv .nil) =>
    have hargs := List.Forall₂.cons ht (.cons hv .nil)
    cases hv with
    | map hentries hperm =>
      have hcorr := correspond_entries hentries hperm
      exact ⟨Iff.rfl, correspond_slotForms ht hcorr, correspond_values hcorr, fun _ => Iff.rfl⟩
    | _ =>
      exact alike_of_args hargs ⟨rfl, rfl⟩ ⟨rfl, rfl⟩ Iff.rfl fun hname =>
        hname _ List.mem_cons_self _ ht
  | .cons ht (.cons hv (.cons hw hrest)) =>
    have hargs := List.Forall₂.cons ht (.cons hv (.cons hw hrest))
    cases hv with
    | _ =>
      exact alike_of_args hargs ⟨rfl, rfl⟩ ⟨rfl, rfl⟩ Iff.rfl fun hname =>
        hname _ List.mem_cons_self _ ht

/-- `merge!` needs and shows what `var` does. -/
theorem hashMerge_eq_assign (args : List Form) :
    hashMerge.needs args = assign.needs args ∧ hashMerge.shown args = assign.shown args := by
  match args with
  | [] => exact ⟨rfl, rfl⟩
  | [_] => exact ⟨rfl, rfl⟩
  | [_, value] =>
    cases value with
    | _ => exact ⟨rfl, rfl⟩
  | _ :: value :: _ :: _ =>
    cases value with
    | _ => exact ⟨rfl, rfl⟩

theorem hashMerge_alike (h : List.Forall₂ Reordered args args') :
    hashMerge.Alike args args' where
  prints := Iff.rfl
  needs := by
    rw [(hashMerge_eq_assign args).1, (hashMerge_eq_assign args').1]
    exact (assign_alike h).needs
  shown := by
    rw [(hashMerge_eq_assign args).2, (hashMerge_eq_assign args').2]
    exact (assign_alike h).shown
  shaped _ := by
    match h with
    | .nil => exact Iff.rfl
    | .cons _ .nil => exact Iff.rfl
    | .cons _ (.cons hv .nil) =>
      cases hv with
      | _ => exact Iff.rfl
    | .cons _ (.cons hv (.cons _ _)) =>
      cases hv with
      | _ => exact Iff.rfl

theorem hashSet_alike (h : List.Forall₂ Reordered args args') : hashSet.Alike args args' := by
  refine ⟨Iff.rfl, .of_forall₂ h, .of_forall₂ ?_, fun _ => Iff.rfl⟩
  match h with
  | .cons _ (.cons _ (.cons hv .nil)) => exact .cons hv .nil
  | .nil => exact .nil
  | .cons ht .nil => exact .cons ht .nil
  | .cons ht (.cons hk .nil) => exact .cons ht (.cons hk .nil)
  | .cons ht (.cons hk (.cons hv (.cons hw hrest))) =>
    exact .cons ht (.cons hk (.cons hv (.cons hw hrest)))

theorem forEach_alike (h : List.Forall₂ Reordered args args') : forEach.Alike args args' := by
  match h with
  | .nil => exact alike_of_args .nil ⟨rfl, rfl⟩ ⟨rfl, rfl⟩ Iff.rfl fun _ => Iff.rfl
  | .cons hbinding hbody =>
    have hargs := List.Forall₂.cons hbinding hbody
    cases hbinding with
    | vector hitems =>
      have hforms := List.rel_append hitems hbody
      refine ⟨Iff.rfl, .of_forall₂ hforms, .of_forall₂ hforms, fun _ => ?_⟩
      match hitems with
      | .nil => exact Iff.rfl
      | .cons _ .nil => exact Iff.rfl
      | .cons _ (.cons _ .nil) => exact Iff.rfl
      | .cons _ (.cons _ (.cons _ _)) => exact Iff.rfl
    | _ => exact alike_of_args hargs ⟨rfl, rfl⟩ ⟨rfl, rfl⟩ Iff.rfl fun _ => Iff.rfl

theorem function_alike (h : List.Forall₂ Reordered args args') : function.Alike args args' := by
  match h with
  | .nil => exact alike_of_args .nil ⟨rfl, rfl⟩ ⟨rfl, rfl⟩ Iff.rfl fun _ => Iff.rfl
  | .cons hhead hrest =>
    have hargs := List.Forall₂.cons hhead hrest
    cases hhead with
    | vector hparams =>
      have hforms := List.rel_append hparams hrest
      exact ⟨Iff.rfl, .of_forall₂ hforms, .of_forall₂ hforms, fun _ => Iff.rfl⟩
    | symbol name =>
      match hrest with
      | .nil => exact alike_of_args hargs ⟨rfl, rfl⟩ ⟨rfl, rfl⟩ Iff.rfl fun _ => Iff.rfl
      | .cons hsecond hbody =>
        have hargs := List.Forall₂.cons (.symbol name) (.cons hsecond hbody)
        cases hsecond with
        | vector hparams =>
          have hforms := List.rel_append hparams hbody
          exact ⟨Iff.rfl, .of_forall₂ hforms, .of_forall₂ hforms, fun _ => Iff.rfl⟩
        | _ => exact alike_of_args hargs ⟨rfl, rfl⟩ ⟨rfl, rfl⟩ Iff.rfl fun _ => Iff.rfl
    | _ => exact alike_of_args hargs ⟨rfl, rfl⟩ ⟨rfl, rfl⟩ Iff.rfl fun _ => Iff.rfl

/-- Reordered arguments are the same to every construct. -/
theorem alike (c : Construct) (h : List.Forall₂ Reordered args args') : c.Alike args args' := by
  cases c with
  | assign => exact assign_alike h
  | hashMerge => exact hashMerge_alike h
  | hashSet => exact hashSet_alike h
  | forEach => exact forEach_alike h
  | function => exact function_alike h
  | hashGet => exact ⟨Iff.rfl, .of_forall₂ h, .of_forall₂ .nil, fun _ => Iff.rfl⟩
  | apply =>
    have hlist := Correspond.of_forall₂ (.cons (Reordered.list (spread_reordered h)) .nil)
    exact ⟨Iff.rfl, hlist, hlist, fun _ => Iff.rfl⟩
  | localVar | setVar =>
    refine alike_of_args h ⟨rfl, rfl⟩ ⟨rfl, rfl⟩ Iff.rfl fun hname => ?_
    cases h with
    | nil => exact Iff.rfl
    | cons ht _ => exact hname _ List.mem_cons_self _ ht
  | caseOf =>
    refine alike_of_args h ⟨rfl, rfl⟩ ⟨rfl, rfl⟩ Iff.rfl fun _ => ?_
    simp only [Shaped, h.length_eq]
  | _ => exact alike_of_args h ⟨rfl, rfl⟩ ⟨rfl, rfl⟩ Iff.rfl fun _ => Iff.rfl

end Construct

namespace Form

/-! ## One step of a form -/

/-- Two forms are the same as far as their success goes. -/
structure Alike (f g : Form) : Prop where
  prints : f.PrintsHyphen ↔ g.PrintsHyphen
  needs : Correspond Reordered f.needs g.needs
  shown : Correspond Reordered f.shown g.shown
  shaped : (∀ p, p.size < f.size → ∀ q, Reordered p q → (p.Nameable ↔ q.Nameable)) →
    (f.Shaped ↔ g.Shaped)

theorem headed_alike (name : String) {args args' : List Form}
    (h : List.Forall₂ Reordered args args') :
    Alike (.list (.symbol name :: args)) (.list (.symbol name :: args')) := by
  cases hc : Construct.named? name with
  | some c =>
    obtain ⟨hprints, hneeds, hshown, hshaped⟩ := c.alike h
    refine ⟨?_, ?_, ?_, fun hname => ?_⟩
    · simpa only [PrintsHyphen, hc] using hprints
    · simpa only [needs, hc] using hneeds
    · simpa only [shown, hc] using hshown
    · have htargets := hshaped fun f hf => hname f (by
        have := size_le_of_mem hf
        simp only [size, sizeOfItems]
        omega)
      simp only [Shaped, hc, h.length_eq, htargets]
  | none =>
    refine ⟨?_, ?_, ?_, fun _ => ?_⟩
    · simp only [PrintsHyphen, hc]
    · simpa only [needs, hc] using .of_forall₂ h
    · simpa only [shown, hc] using .of_forall₂ h
    · simp only [Shaped, hc, h.length_eq]

/-- Reordered forms are the same as far as their success goes. -/
theorem alike_of_reordered {f g : Form} (h : Reordered f g) : f.Alike g := by
  -- what is neither headed by a symbol nor called shows and needs its parts
  have hparts := correspond_parts h
  cases h with
  | list hitems =>
    match hitems with
    | .nil => exact ⟨Iff.rfl, hparts, hparts, fun _ => Iff.rfl⟩
    | .cons hhead hargs =>
      cases hhead with
      | symbol name => exact headed_alike name hargs
      | map _ _ => exact ⟨Iff.rfl, .of_forall₂ .nil, .of_forall₂ .nil, fun _ => Iff.rfl⟩
      | _ => exact ⟨Iff.rfl, hparts, hparts, fun _ => Iff.rfl⟩
  | _ => exact ⟨Iff.rfl, hparts, hparts, fun _ => Iff.rfl⟩

end Form

namespace Render

open Form

/-! ## Whole trees -/

theorem nameable_iff {f : Form} : f.Nameable ↔ ¬f.Hyphenated := by
  simp [Form.Nameable, Form.Hyphenated]

/-- What is shown is needed. -/
theorem mem_needs_of_mem_shown {f g : Form} (h : g ∈ f.shown) : g ∈ f.needs := by
  have hvalues : ∀ {target : Form} {es : List (Form × Form)}, g ∈ es.map Prod.snd →
      g ∈ Construct.slotForms target es := by
    intro target es hg
    obtain ⟨e, he, rfl⟩ := List.mem_map.mp hg
    exact List.mem_flatMap.mpr ⟨e, he, by simp⟩
  have hargs : ∀ {c : Construct} {args : List Form}, g ∈ c.shown args → g ∈ c.needs args := by
    intro c args hg
    unfold Construct.shown at hg
    split at hg
    · simp at hg
    · simpa [Construct.needs] using .inr (.inr (List.mem_singleton.mp hg))
    · exact hvalues hg
    · exact hvalues hg
    · exact hg
  unfold Form.shown at h
  split at h
  · next name args =>
    rw [Form.needs]
    split at h
    · next c hc => simpa only [hc] using hargs h
    · next hc => simpa only [hc] using h
  · exact h

/-- Reordered forms have a text or none, and a hyphen in it or none. -/
theorem renders_and_hyphenated_iff {f g : Form} (h : Reordered f g) :
    (Renders f ↔ Renders g) ∧ (f.Hyphenated ↔ g.Hyphenated) := by
  have below : ∀ p, p.size < f.size → ∀ q, Reordered p q →
      (Renders p ↔ Renders q) ∧ (p.Hyphenated ↔ q.Hyphenated) :=
    fun p hp q hpq => renders_and_hyphenated_iff hpq
  obtain ⟨hprints, hneeds, hshown, hshaped⟩ := alike_of_reordered h
  have hrenders : Renders f ↔ Renders g := by
    rw [renders_iff_needs f, renders_iff_needs g]
    refine and_congr (hshaped fun p hp q hpq => ?_) (hneeds.forall_iff fun p hp q hpq => ?_)
    · rw [nameable_iff, nameable_iff, (below p hp q hpq).2]
    · exact (below p (size_lt_of_mem_needs hp) q hpq).1
  refine ⟨hrenders, ?_⟩
  by_cases hf : Renders f
  · rw [hyphenated_iff hf, hyphenated_iff (hrenders.mp hf)]
    refine or_congr hprints (hshown.exists_iff fun p hp q hpq => ?_)
    exact (below p (size_lt_of_mem_needs (mem_needs_of_mem_shown hp)) q hpq).2
  · -- without a text there is no hyphen
    have hnone : ∀ {f : Form}, ¬Renders f → ¬f.Hyphenated := fun hf ⟨s, hs, _⟩ => hf ⟨s, hs⟩
    exact iff_of_false (hnone hf) (hnone fun hg => hf (hrenders.mpr hg))
termination_by f.size

end Render

namespace Form

/-! ## The scan for slots -/

theorem anyUsesHash_iff {fs : List Form} :
    anyUsesHash fs = true ↔ ∃ f ∈ fs, usesHash f = true := by
  induction fs with
  | nil => simp [anyUsesHash]
  | cons f fs ih => simp [anyUsesHash, ih]

theorem entriesUseHash_iff {es : List (Form × Form)} :
    entriesUseHash es = true ↔ ∃ p ∈ (Form.map es).parts, usesHash p = true := by
  induction es with
  | nil => simp [entriesUseHash, parts]
  | cons e es ih =>
    rw [entriesUseHash, Bool.or_eq_true, Bool.or_eq_true, ih]
    simp [parts, or_assoc]

/-- The scan finds a slot in a list that touches one itself, or in a part. -/
theorem usesHash_iff {f : Form} : usesHash f = true ↔
    (∃ items, f = .list items ∧ touchesSlot items = true) ∨ ∃ p ∈ f.parts, usesHash p = true := by
  cases f with
  | list items => simp [usesHash, anyUsesHash_iff, parts]
  | vector items => simp [usesHash, anyUsesHash_iff, parts]
  | map es => simp [usesHash, entriesUseHash_iff]
  | _ => simp [usesHash, parts]

theorem touchesSlot_reordered {fs gs : List Form} (h : List.Forall₂ Reordered fs gs) :
    touchesSlot fs = touchesSlot gs := by
  match h with
  | .nil => rfl
  | .cons hhead hargs =>
    cases hhead with
    | symbol name =>
      by_cases hname : name ∈ ["get", "assoc!", "merge!", "var"]
      · simp only [List.mem_cons, List.not_mem_nil, or_false] at hname
        rcases hname with rfl | rfl | rfl | rfl
        · rfl
        · rfl
        · rfl
        · -- `var` looks for a map in the second place
          match hargs with
          | .nil => rfl
          | .cons _ .nil => rfl
          | .cons _ (.cons hvalue _) =>
            cases hvalue with
            | _ => rfl
      · rw [touchesSlot_eq_false hname, touchesSlot_eq_false hname]
    | _ => rfl

theorem usesHash_eq_of_reordered {f g : Form} (h : Reordered f g) : usesHash f = usesHash g := by
  have hparts : (∃ p ∈ f.parts, usesHash p = true) ↔ ∃ q ∈ g.parts, usesHash q = true := by
    refine (correspond_parts h).exists_iff fun p hp q hpq => ?_
    have := size_lt_of_mem_parts hp
    rw [usesHash_eq_of_reordered hpq]
  rw [Bool.eq_iff_iff, usesHash_iff, usesHash_iff, hparts]
  cases h with
  | list hitems => simp [touchesSlot_reordered hitems]
  | _ => simp
termination_by f.size

end Form

namespace Render

/-- A single tree has a text without extension iff it has one without origin, too. -/
theorem render_single_succeeds (origin : Origin) (f : Form) :
    (∃ text, render ⟨Extension.none, origin⟩ [f] = .ok text) ↔ Renders f := by
  constructor
  · rintro ⟨text, h⟩
    exact ⟨text, mapError_eq_ok.mp (render_none Origin.unknown h)⟩
  · rintro ⟨text, h⟩
    exact ⟨text, render_none origin (mapError_eq_ok.mpr h)⟩

/-- **The order of map entries decides nothing.**  Of two trees that count as the same both have a
    text without extension or neither has one, and the scan for slots finds the same in both. -/
theorem same_succeeds_iff (origin : Origin) (f g : Form) (hf : f.distinctKeys = true)
    (hg : g.distinctKeys = true) (h : Form.same f g = true) :
    ((∃ text, render ⟨Extension.none, origin⟩ [f] = .ok text) ↔
      ∃ text, render ⟨Extension.none, origin⟩ [g] = .ok text) ∧
    Form.anyUsesHash [f] = Form.anyUsesHash [g] := by
  have hreordered := Form.reordered_of_same hf hg h
  constructor
  · rw [render_single_succeeds, render_single_succeeds]
    exact (renders_and_hyphenated_iff hreordered).1
  · simp only [Form.anyUsesHash, Form.usesHash_eq_of_reordered hreordered]

/-- An assignment whose target is a map, and a call of `apply` that stands for one whose target has
    a hyphen in the text of a value: the first has a text in either order, the second in none. -/
theorem same_succeeds_iff_target :
    let ab : Form := .map [(.symbol "a", .int 1), (.symbol "b", .map [(.nil, .int 2)])]
    let ba : Form := .map [(.symbol "b", .map [(.nil, .int 2)]), (.symbol "a", .int 1)]
    let cd : Form := .map [(.symbol "c", .int (-1)), (.symbol "d", .int 1)]
    let dc : Form := .map [(.symbol "d", .int 1), (.symbol "c", .int (-1))]
    let assigned (target : Form) : Form := .call "set!" [target, .call "get" [.symbol "m", target]]
    let applied (target : Form) : Form := .call "apply" [.symbol "local", .vector [target]]
    let cx : Setting := ⟨Extension.none, Origin.unknown⟩
    ((∃ text, render cx [assigned ab] = .ok text) ∧ ∃ text, render cx [assigned ba] = .ok text) ∧
    (¬(∃ text, render cx [applied cd] = .ok text) ∧ ¬∃ text, render cx [applied dc] = .ok text) ∧
    Form.anyUsesHash [assigned ba] = true := by
  intro ab ba cd dc assigned applied cx
  obtain ⟨hassigned, hscan⟩ := same_succeeds_iff Origin.unknown (assigned ab) (assigned ba)
    (by decide +kernel) (by decide +kernel) (by decide +kernel)
  obtain ⟨happlied, -⟩ := same_succeeds_iff Origin.unknown (applied cd) (applied dc)
    (by decide +kernel) (by decide +kernel) (by decide +kernel)
  have htext : ∃ text, render cx [assigned ab] = .ok text :=
    (render_single_succeeds _ _).mpr (renders_of_wellFormed (by decide +kernel))
  have hnone : ¬∃ text, render cx [applied cd] = .ok text := fun h =>
    absurd (wellFormed_of_renders ((render_single_succeeds _ _).mp h)) (by decide +kernel)
  exact ⟨⟨htext, hassigned.mp htext⟩, ⟨hnone, fun h => hnone (happlied.mpr h)⟩,
    hscan ▸ by decide +kernel⟩

end Render

end ScriptTree

/-
  A list may be replaced by another with the same text.

  The text of a tree depends on the lists in it through their texts, and through little else: a
  condition asks whether a list is headed by a test, a branch whether it is headed by `do`, `if` or
  `if-not`, and `apply` takes its last argument apart.  So in a tree without `apply`, a list with
  none of these heads may be replaced by any other such list that renders to the same text, at any
  depth, and the tree renders to the same text as before or fails as before (`render_fill_same`).
  A tree with a place for a list is a `Context`; the place may be anywhere but inside a key of a
  map, since another key would make another map.
-/
import ScriptTree.Proofs.Atoms
import ScriptTree.Proofs.SideBySide

namespace ScriptTree

/-! ## Forms with a hole -/

/-- A form with a hole in it, which is not inside a key of a map. -/
inductive Context where
  | hole
  | list (before : List Form) (inner : Context) (after : List Form)
  | vector (before : List Form) (inner : Context) (after : List Form)
  | value (before : List (Form × Form)) (key : Form) (inner : Context)
      (after : List (Form × Form))

namespace Context

/-- The form with `c` in the place of the hole. -/
def fill (c : Form) : Context → Form
  | .hole => c
  | .list before inner after => .list (before ++ inner.fill c :: after)
  | .vector before inner after => .vector (before ++ inner.fill c :: after)
  | .value before key inner after => .map (before ++ (key, inner.fill c) :: after)

end Context

/-- Whether the form around a list looks for this head: a condition looks for tests, and a branch
    for what is laid out on lines of its own. -/
def isShown (name : String) : Bool :=
  isTest name || name == "do" || name == "if" || name == "if-not"

namespace Form

/-- A list whose head is not looked for is no test, and a branch lays it out by its text. -/
theorem plain_of_not_isShown {f : Form} (h : f.headSymbol?.any isShown = false) :
    f.headSymbol?.any isTest = false ∧ ∀ body, f.onLines body = body.toList.contains '\n' := by
  unfold onLines isHeadedBy
  cases hf : f.headSymbol? with
  | none => simp
  | some name =>
    simp only [hf, Option.any_some, isShown, Bool.or_eq_false_iff, beq_eq_false_iff_ne] at h
    obtain ⟨⟨⟨htest, hdo⟩, hif⟩, hnot⟩ := h
    simp [htest, hdo, hif, hnot]

/-- Forms in which `apply` does not occur. -/
theorem hereditary_applyless : Hereditary fun f => "apply" ∉ f.symbols where
  items hfs _ hf happly := hfs (symbols_subset (atoms_subset_of_mem hf) happly)
  elements hfs _ hf happly := hfs (symbols_subset (atoms_subset_of_mem hf) happly)
  entries hes _ he :=
    ⟨fun happly => hes (symbols_subset (atoms_subset_of_mem_entries he).1 happly),
      fun happly => hes (symbols_subset (atoms_subset_of_mem_entries he).2 happly)⟩

end Form

namespace Render

/-! ## Forms that differ in one place -/

/-- The same form without `apply`, or one in which the list `c` is replaced by `d` in one place. -/
def Replaced (c d f g : Form) : Prop :=
  "apply" ∉ f.symbols ∧ (f = g ∨ ∃ K : Context, f = K.fill c ∧ g = K.fill d)

namespace Replaced

variable {c d : Form}

theorem same {f : Form} (h : "apply" ∉ f.symbols) : Replaced c d f f :=
  ⟨h, .inl rfl⟩

/-- Items of which one holds the place are related one by one. -/
theorem forall₂ {before after : List Form} {K : Context}
    (h : ∀ f ∈ before ++ K.fill c :: after, "apply" ∉ f.symbols) :
    List.Forall₂ (Replaced c d) (before ++ K.fill c :: after) (before ++ K.fill d :: after) := by
  have hbefore : ∀ f ∈ before, Replaced c d f f := fun f hf => same (h f (by simp [hf]))
  have hafter : ∀ f ∈ after, Replaced c d f f := fun f hf => same (h f (by simp [hf]))
  have hplace : Replaced c d (K.fill c) (K.fill d) := ⟨h _ (by simp), .inr ⟨K, rfl, rfl⟩⟩
  exact List.rel_append (List.forall₂_same.mpr hbefore)
    (.cons hplace (List.forall₂_same.mpr hafter))

/-- So are the entries of a map with the place in a value. -/
theorem forall₂_entries {before after : List (Form × Form)} {key : Form} {K : Context}
    (h : ∀ e ∈ before ++ (key, K.fill c) :: after, "apply" ∉ e.1.symbols ∧ "apply" ∉ e.2.symbols) :
    List.Forall₂ (fun e e' => Replaced c d e.1 e'.1 ∧ Replaced c d e.2 e'.2)
      (before ++ (key, K.fill c) :: after) (before ++ (key, K.fill d) :: after) := by
  have hbefore : ∀ e ∈ before, Replaced c d e.1 e.1 ∧ Replaced c d e.2 e.2 :=
    fun e he => ⟨same (h e (by simp [he])).1, same (h e (by simp [he])).2⟩
  have hafter : ∀ e ∈ after, Replaced c d e.1 e.1 ∧ Replaced c d e.2 e.2 :=
    fun e he => ⟨same (h e (by simp [he])).1, same (h e (by simp [he])).2⟩
  have hentry := h (key, K.fill c) (by simp)
  exact List.rel_append (List.forall₂_same.mpr hbefore)
    (.cons ⟨same hentry.1, hentry.2, .inr ⟨K, rfl, rfl⟩⟩ (List.forall₂_same.mpr hafter))

end Replaced

section

variable {cs ds : List Form}

/-- Related lists have related items, unless they are the two lists that are exchanged. -/
theorem Replaced.items {fs gs : List Form}
    (h : Replaced (.list cs) (.list ds) (.list fs) (.list gs)) :
    List.Forall₂ (Replaced (.list cs) (.list ds)) fs gs ∨ fs = cs ∧ gs = ds := by
  obtain ⟨happly, heq | ⟨K, hf, hg⟩⟩ := h
  · obtain rfl := Form.list.inj heq
    exact .inl (List.forall₂_same.mpr fun f hf =>
      .same (Form.hereditary_applyless.items happly f hf))
  · cases K with
    | hole => exact .inr ⟨Form.list.inj hf, Form.list.inj hg⟩
    | list before K after =>
      obtain rfl := Form.list.inj hf
      obtain rfl := Form.list.inj hg
      exact .inl (Replaced.forall₂ (Form.hereditary_applyless.items happly))
    | vector before K after => exact absurd hf (by simp [Context.fill])
    | value before key K after => exact absurd hf (by simp [Context.fill])

variable (hcs : (Form.list cs).headSymbol?.any isShown = false)
  (hds : (Form.list ds).headSymbol?.any isShown = false)

include hcs hds

theorem Replaced.resembles {f g : Form} (h : Replaced (.list cs) (.list ds) f g) :
    Form.Resembles (Replaced (.list cs) (.list ds)) f g := by
  obtain ⟨happly, rfl | ⟨K, rfl, rfl⟩⟩ := h
  · exact Form.hereditary_applyless.resembles_self (fun _ => .same) happly
  · cases K with
    | hole => exact .plain (Form.plain_of_not_isShown hcs).1 (Form.plain_of_not_isShown hds).1
    | list before K after =>
      exact .list (Replaced.forall₂ (Form.hereditary_applyless.items happly))
    | vector before K after =>
      exact .vector (Replaced.forall₂ (Form.hereditary_applyless.elements happly))
    | value before key K after =>
      exact .map (Replaced.forall₂_entries (Form.hereditary_applyless.entries happly))

/-- A place inside a list is not its head, which has to be a symbol to be looked for. -/
theorem Replaced.onLines {f g : Form} (h : Replaced (.list cs) (.list ds) f g) (body : String) :
    f.onLines body = g.onLines body := by
  obtain ⟨-, rfl | ⟨K, rfl, rfl⟩⟩ := h
  · rfl
  · cases K with
    | hole =>
      rw [Context.fill, Context.fill, (Form.plain_of_not_isShown hcs).2,
        (Form.plain_of_not_isShown hds).2]
    | list before K after =>
      cases before with
      | nil => cases K <;> rfl
      | cons head before => cases head <;> rfl
    | vector before K after => rfl
    | value before key K after => rfl

/-- Two lists that render alike may be exchanged in any tree without `apply`. -/
theorem replaced_parallel {origin : Origin}
    (htext : SameUpTo (fun _ _ => True) (emit ⟨Extension.none, origin⟩ (.list cs))
      (emit ⟨Extension.none, origin⟩ (.list ds))) :
    Parallel ⟨Extension.none, origin⟩ ⟨Extension.none, origin⟩
      (Replaced (.list cs) (.list ds)) (fun _ _ => True) where
  resembles := Replaced.resembles hcs hds
  misuse _ := trivial
  notMap _ := trivial
  badName _ _ := trivial
  lines h _ := h.onLines hcs hds _
  lists h := h.items.imp_right (by rintro ⟨rfl, rfl⟩ _; exact htext)
  call _ := .ok ""
  spread h := absurd (Form.head_mem_symbols "apply" _) h.1

end

/-! ## Replacement -/

/-- In a tree without `apply`, a list that is headed neither by a test nor by `do`, `if` or
    `if-not` may be replaced, anywhere but inside a key of a map, by another such list with the same text:
    both trees render to the same text, or both fail. -/
theorem render_fill_same (origin : Origin) (K : Context) (cs ds : List Form) (text : String)
    (happly : "apply" ∉ (K.fill (.list cs)).symbols)
    (hcs : (Form.list cs).headSymbol?.any isShown = false)
    (hds : (Form.list ds).headSymbol?.any isShown = false)
    (hc : render ⟨Extension.none, origin⟩ [.list cs] = .ok text)
    (hd : render ⟨Extension.none, origin⟩ [.list ds] = .ok text) :
    SameUpTo (fun _ _ => True) (render ⟨Extension.none, origin⟩ [K.fill (.list cs)])
      (render ⟨Extension.none, origin⟩ [K.fill (.list ds)]) := by
  -- a success has no place to report, so the texts can be read off the forms themselves
  rw [render, mapError_eq_ok] at hc hd
  have htext : SameUpTo (fun _ _ => True) (emit ⟨Extension.none, origin⟩ (.list cs))
      (emit ⟨Extension.none, origin⟩ (.list ds)) := by
    rw [hc, hd]
    exact .ok text
  have hreplaced : Replaced (.list cs) (.list ds) (K.fill (.list cs)) (K.fill (.list ds)) :=
    ⟨happly, .inr ⟨K, rfl, rfl⟩⟩
  exact render_same (replaced_parallel hcs hds htext) (fun _ _ _ => trivial) (.cons hreplaced .nil)

/-- A command inside a test, inside a conditional, inside the value of a slot. -/
theorem render_fill_same_command :
    let K := Context.list [.symbol "var", .symbol "m"] (.value [] (.keyword "k")
      (.list [.symbol "if"] (.list [.symbol "="] (.list [.symbol "deref"] .hole []) [.str "b"])
        [.symbol "x"]) []) []
    let command := Form.call "println" [.symbol "a"]
    let other := Form.call "str" [.str "ec", .str "ho a"]
    render Setting.plain [K.fill command] =
      .ok "hash_set m k if [ \"$(echo a)\" == \"b\" ]; then x;fi" ∧
    SameUpTo (fun _ _ => True) (render Setting.plain [K.fill command])
      (render Setting.plain [K.fill other]) := by
  intro K command other
  have hcommand : render Setting.plain [command] = .ok "echo a" := by rfl
  have hother : render Setting.plain [other] = .ok "echo a" := by rfl
  refine ⟨eq_ok_of_toOption (by decide +kernel), ?_⟩
  exact render_fill_same Origin.unknown K _ _ "echo a" (by decide +kernel) (by decide +kernel)
    (by decide +kernel) hcommand hother

end Render

end ScriptTree

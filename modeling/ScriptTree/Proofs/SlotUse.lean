/-
  What the scan for slots sees.

  A script gets the functions behind associative arrays when the scan finds a list that sets or
  reads a slot.  The scan looks at the heads of the lists in a tree, and rendering decides by the
  heads of the lists it is asked for.  These are the same lists, with one exception, so there are
  two results.

  Without `apply` the scan misses nothing: a tree whose own texts hold no underscore renders to a
  text with `hash_` in it only if the scan finds a slot (`compile_supplies_functions`).  The
  invariant of the walk is that a tree in which the scan finds nothing renders to a text without
  underscores.

  With `apply` a list is rendered that stands nowhere in the tree.  The scan sees its items, since
  they are the arguments or inside them, but not its head: a slot is missed when the spread list
  touches one by its own head, and only then (`usesHash_apply_iff`).
-/
import ScriptTree.Proofs.RenderLaw
import ScriptTree.Script.Compile

namespace ScriptTree

namespace Form

/-! ## Where the scan looks -/

theorem anyUsesHash_eq_false {fs : List Form} (h : anyUsesHash fs = false) :
    ∀ f ∈ fs, usesHash f = false := by
  induction fs with
  | nil => simp
  | cons g gs ih =>
    obtain ⟨hg, hgs⟩ : usesHash g = false ∧ anyUsesHash gs = false := by
      simpa [anyUsesHash] using h
    intro f hf
    rcases List.mem_cons.mp hf with rfl | hf
    · exact hg
    · exact ih hgs f hf

theorem entriesUseHash_eq_false {es : List (Form × Form)} (h : entriesUseHash es = false) :
    ∀ e ∈ es, usesHash e.1 = false ∧ usesHash e.2 = false := by
  induction es with
  | nil => simp
  | cons d ds ih =>
    obtain ⟨⟨hk, hv⟩, hds⟩ : (usesHash d.1 = false ∧ usesHash d.2 = false) ∧
        entriesUseHash ds = false := by simpa [entriesUseHash] using h
    intro e he
    rcases List.mem_cons.mp he with rfl | he
    · exact ⟨hk, hv⟩
    · exact ih hds e he

/-- A list in which nothing is found touches no slot itself, and nothing is found in its items. -/
theorem usesHash_list_eq_false {fs : List Form} (h : usesHash (.list fs) = false) :
    touchesSlot fs = false ∧ anyUsesHash fs = false := by
  simpa [usesHash] using h

end Form

namespace Render

/-! ## Trees in which the scan finds nothing -/

/-- A form without `apply` and underscores, in which the scan finds no slot. -/
structure Slotless (f : Form) : Prop where
  texts : ∀ t ∈ f.texts, '_' ∉ t.toList
  applyless : "apply" ∉ f.symbols
  scanned : f.usesHash = false

theorem Slotless.part {f g : Form} (hf : Slotless f) (h : g.atoms ⊆ f.atoms)
    (hg : g.usesHash = false) : Slotless g where
  texts t ht := hf.texts t (Form.texts_subset h ht)
  applyless happly := hf.applyless (Form.symbols_subset h happly)
  scanned := hg

theorem mem_of_mem_trim {s : String} {c : Char} (h : c ∈ (Text.trim s).toList) : c ∈ s.toList := by
  simp only [Text.trim, Text.trimChars, String.toList_ofList, List.mem_reverse] at h
  have hdropped := (List.dropWhile_sublist _).subset h
  exact (List.dropWhile_sublist _).subset (List.mem_reverse.mp hdropped)

/-- Such forms render without underscores. -/
theorem slotless_law : FormLaw Slotless fun s => '_' ∉ s.toList where
  base _ _ h := h
  insert a b s hab hs := by
    simp only [String.toList_append, List.mem_append, not_or] at hab ⊢
    exact ⟨⟨hab.1, hs⟩, hab.2⟩
  trim s hs hmem := hs (mem_of_mem_trim hmem)
  text f hf t ht := hf.texts t ht
  method name method hf h hmem :=
    hf.texts name (List.mem_singleton_self name) (mem_of_mem_method h hmem)
  items fs hfs f hf :=
    have hscan := (Form.usesHash_list_eq_false hfs.scanned).2
    hfs.part (Form.atoms_subset_of_mem hf) (Form.anyUsesHash_eq_false hscan f hf)
  elements fs hfs f hf :=
    have hscan : Form.anyUsesHash fs = false := hfs.scanned
    hfs.part (Form.atoms_subset_of_mem hf) (Form.anyUsesHash_eq_false hscan f hf)
  entries es hes e he :=
    have hscan := Form.entriesUseHash_eq_false hes.scanned e he
    have hatoms := Form.atoms_subset_of_mem_entries he
    ⟨hes.part hatoms.1 hscan.1, hes.part hatoms.2 hscan.2⟩
  spread args hargs := absurd (Form.head_mem_symbols "apply" args) hargs.applyless
  clause _ _ := by decide
  slot fs hfs htouches := by
    have huntouched := (Form.usesHash_list_eq_false hfs.scanned).1
    simp [htouches] at huntouched

end Render

namespace Script

open Render

/-- The script of a tree that the scan finds a slot in starts with the functions. -/
theorem compile_auto {options : Options} (hauto : options.supply = .auto) {extension : Extension}
    {fs : List Form} (hscan : Form.anyUsesHash fs = true) {text : String}
    (h : render ⟨extension, options.origin⟩ fs = .ok text) :
    compile options extension fs =
      .ok ((if options.shebang then shebangLine else "") ++ HashArray.source ++ tidy text) := by
  simp only [compile, h, hauto, Supply.applies, hscan, HashArray.supply]
  cases options.shebang with
  | false => simp [bind, Except.bind, pure, Except.pure]
  | true => simp [bind, Except.bind, pure, Except.pure, String.append_assoc]

/-- If a tree without `apply` and underscores renders to a text that mentions one of the functions,
    the scan finds a slot in it, and its script has the functions in front. -/
theorem compile_supplies_functions (origin : Origin) (fs : List Form) (text : String)
    (happly : ∀ f ∈ fs, "apply" ∉ f.symbols)
    (htexts : ∀ f ∈ fs, ∀ t ∈ f.texts, '_' ∉ t.toList)
    (h : render ⟨Extension.none, origin⟩ fs = .ok text)
    (hmentions : "hash_".toList <:+: text.toList) :
    Form.anyUsesHash fs = true ∧
      ∀ options : Options, options.supply = .auto → compile options Extension.none fs =
        .ok ((if options.shebang then shebangLine else "") ++ HashArray.source ++ tidy text) := by
  have hscan : Form.anyUsesHash fs = true := by
    cases hnone : Form.anyUsesHash fs with
    | true => rfl
    | false =>
      have hfs : ∀ f ∈ fs, Slotless f := fun f hf =>
        ⟨htexts f hf, happly f hf, Form.anyUsesHash_eq_false hnone f hf⟩
      have hfree : '_' ∉ text.toList := render_law slotless_law origin hfs h
      exact absurd (hmentions.subset (by decide)) hfree
  exact ⟨hscan, fun options hauto => compile_auto hauto hscan (render_none options.origin h)⟩

/-- A slot read inside the values of a loop. -/
theorem compile_supplies_functions_loop :
    let tree := Form.call "doseq" [.vector [.symbol "x", .vector [.symbol "a",
      .call "get" [.symbol "m", .keyword "k"]]], .call "println" [.symbol "x"]]
    let text := "for x in a $(hash_echo m k -n); do\necho x\ndone"
    Form.anyUsesHash [tree] = true ∧ ∀ options : Options, options.supply = .auto →
      compile options Extension.none [tree] =
        .ok ((if options.shebang then shebangLine else "") ++ HashArray.source ++ tidy text) := by
  intro tree text
  have hrender : render Setting.plain [tree] = .ok text := by rfl
  have hmentions : "hash_".toList <:+: text.toList :=
    ⟨"for x in a $(".toList, "echo m k -n); do\necho x\ndone".toList, by decide⟩
  exact compile_supplies_functions Origin.unknown [tree] text (by decide +kernel) (by decide +kernel)
    hrender hmentions

end Script

/-! ## Slots reached through `apply` -/

namespace Form

theorem usesHash_apply (args : List Form) : usesHash (.call "apply" args) = anyUsesHash args := by
  simp [call, usesHash, anyUsesHash, touchesSlot]

/-- What the scan finds in the items of a spread list, it finds in the arguments. -/
theorem anyUsesHash_of_spread {args : List Form} (h : anyUsesHash (Render.spread args) = true) :
    anyUsesHash args = true := by
  fun_induction Render.spread args with
  | case1 => exact h
  | case2 items => simpa [anyUsesHash, usesHash] using h
  | case3 items => simp [anyUsesHash, usesHash, h]
  | case4 f => exact h
  | case5 f fs _ _ _ ih =>
    rcases Bool.or_eq_true_iff.mp h with h | h
    · simp [anyUsesHash, h]
    · simp [anyUsesHash, ih h]

end Form

namespace Render

/-- An `apply` is rendered as the list it stands for. -/
theorem emit_apply (cx : Setting) {args : List Form} (hargs : args ≠ []) :
    emit cx (.call "apply" args) = emit cx (.list (spread args)) := by
  rw [emit_eq]
  cases args with
  | nil => exact absurd rfl hargs
  | cons f fs => rfl

theorem render_apply (cx : Setting) {args : List Form} (hargs : args ≠ []) :
    render cx [.call "apply" args] = render cx [.list (spread args)] := by
  simp only [render, emit_apply cx hargs]

end Render

namespace Script

open Render

/-- Of an `apply` and the list it stands for, which render alike, the scan finds a slot in the
    `apply` whenever it finds one in the list, except where the list touches a slot by its own head
    and no argument holds one.  Then the script of the `apply` goes without the functions, and that
    of the list has them. -/
theorem usesHash_apply_iff (args : List Form) (hargs : args ≠ []) :
    (∀ cx, render cx [.call "apply" args] = render cx [.list (spread args)]) ∧
    ((Form.usesHash (.list (spread args)) = true → Form.usesHash (.call "apply" args) = true) ↔
      ¬(Form.touchesSlot (spread args) = true ∧ Form.anyUsesHash args = false)) ∧
    (Form.touchesSlot (spread args) = true ∧ Form.anyUsesHash args = false →
      ∀ (options : Options) (extension : Extension), options.supply = .auto →
        compile options extension [.call "apply" args] =
          compile { options with supply := .never } extension [.list (spread args)] ∧
        compile options extension [.list (spread args)] =
          compile { options with supply := .always } extension [.list (spread args)]) := by
  refine ⟨fun cx => render_apply cx hargs, ⟨?_, ?_⟩, ?_⟩
  · rintro hseen ⟨htouches, hnone⟩
    have happly := hseen (by simp [Form.usesHash, htouches])
    rw [Form.usesHash_apply, hnone] at happly
    exact absurd happly (by decide)
  · intro hmissed hlist
    rw [Form.usesHash_apply]
    rcases Bool.or_eq_true_iff.mp hlist with htouches | hitems
    · cases hscan : Form.anyUsesHash args with
      | true => rfl
      | false => exact absurd ⟨htouches, hscan⟩ hmissed
    · exact Form.anyUsesHash_of_spread hitems
  · rintro ⟨htouches, hnone⟩ options extension hauto
    have happly : Form.anyUsesHash [.call "apply" args] = false := by
      simp [Form.anyUsesHash, Form.usesHash_apply, hnone]
    have hlist : Form.anyUsesHash [.list (spread args)] = true := by
      simp [Form.anyUsesHash, Form.usesHash, htouches]
    constructor
    · simp only [compile, Supply.applies, hauto, happly, render_apply _ hargs]
    · simp only [compile, Supply.applies, hauto, hlist]

/-- The form `(apply get [m k])` reads a slot, and the scan does not see it. -/
theorem usesHash_apply_iff_get :
    let args := [Form.symbol "get", .vector [.symbol "m", .symbol "k"]]
    render Setting.plain [.call "apply" args] = .ok "$(hash_echo m k -n)" ∧
      ¬(Form.usesHash (.list (spread args)) = true → Form.usesHash (.call "apply" args) = true) := by
  intro args
  have hmissed : Form.touchesSlot (spread args) = true ∧ Form.anyUsesHash args = false := by
    decide +kernel
  obtain ⟨hrender, hseen, -⟩ := usesHash_apply_iff args (by simp [args])
  refine ⟨?_, fun h => hseen.mp h hmissed⟩
  rw [hrender]
  rfl

end Script

end ScriptTree

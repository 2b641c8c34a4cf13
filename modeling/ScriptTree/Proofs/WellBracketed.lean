/-
  Rendered text is well bracketed.

  Every rule closes the brackets and quotes that it opens, in the order in which it opened them,
  with one exception: the clauses of a `case` end their patterns with a closing bracket alone.  So
  a tree without `case` whose own texts hold no bracket and no quote renders to a text whose
  brackets nest and whose quotes come in pairs (`render_wellBracketed`).  Names of slots are
  spelled anew and blocks are trimmed on the way, which leaves brackets and quotes where they were.
-/
import ScriptTree.Proofs.RenderLaw

namespace ScriptTree.Render

/-- A form whose texts hold neither brackets nor quotes, and in which `case` does not occur. -/
structure Unmarked (f : Form) : Prop where
  texts : ∀ t ∈ f.texts, ∀ c ∈ t.toList, Text.isMark c = false
  caseless : "case" ∉ f.symbols

theorem Unmarked.of_subset {f g : Form} (hf : Unmarked f) (h : g.atoms ⊆ f.atoms) : Unmarked g where
  texts t ht := hf.texts t (Form.texts_subset h ht)
  caseless hcase := hf.caseless (Form.symbols_subset h hcase)

/-- Being well bracketed is a law of such forms. -/
theorem wellBracketed_law : FormLaw Unmarked Text.WellBracketed where
  base _ h _ := h
  insert _ _ _ hab hs := hab.insert hs
  trim s hs := hs.congr (Text.marks_trim s).symm
  text f hf t ht := Text.wellBracketed_of_unmarked (hf.texts t ht)
  method name method hf h := by
    apply Text.wellBracketed_of_unmarked
    intro c hc
    exact hf.texts name (List.mem_singleton_self name) c (mem_of_mem_method h hc)
  items fs hfs f hf := hfs.of_subset (Form.atoms_subset_of_mem hf)
  elements fs hfs f hf := hfs.of_subset (Form.atoms_subset_of_mem hf)
  entries es hes e he :=
    ⟨hes.of_subset (Form.atoms_subset_of_mem_entries he).1,
      hes.of_subset (Form.atoms_subset_of_mem_entries he).2⟩
  spread args hargs := hargs.of_subset (Form.atoms_spread_subset args)
  clause args hargs := absurd (Form.head_mem_symbols "case" args) hargs.caseless
  slot _ _ _ := by
    refine ⟨by decide, by decide, ?_⟩
    intro s hs
    exact hs.congr (Text.marks_slotName s).symm

/-- A tree without `case`, whose texts hold neither brackets nor quotes, renders to a text whose
    brackets nest and whose quotes of either kind come in pairs. -/
theorem render_wellBracketed (origin : Origin) (fs : List Form) (text : String)
    (htexts : ∀ f ∈ fs, ∀ t ∈ f.texts, ∀ c ∈ t.toList, Text.isMark c = false)
    (hcase : ∀ f ∈ fs, "case" ∉ f.symbols)
    (h : render ⟨Extension.none, origin⟩ fs = .ok text) : Text.WellBracketed text :=
  render_law wellBracketed_law origin (fun f hf => ⟨htexts f hf, hcase f hf⟩) h

/-- A conditional with a test, a slot set from a map, and another read through `apply`. -/
theorem render_wellBracketed_conditional :
    let tree := Form.call "if" [.call "=" [.symbol "x", .ratio 1 2],
      .call "var" [.symbol "m", .map [(.keyword "k.v", .vector [.int 1, .str "b"])]],
      .call "alias" [.symbol "a", .call "apply" [.symbol "get", .vector [.symbol "m", .keyword "k"]]]]
    let text := "if [ \"x\" == \"0.5\" ]; then hash_set m k_DOT_v (1 b);" ++
      "else alias a='$(hash_echo m k -n)';fi"
    render Setting.plain [tree] = .ok text ∧ Text.WellBracketed text := by
  intro tree text
  have hunmarked : ∀ t ∈ tree.texts, t.toList.all (fun c => !Text.isMark c) = true := by
    decide +kernel
  have htexts : ∀ f ∈ [tree], ∀ t ∈ f.texts, ∀ c ∈ t.toList, Text.isMark c = false := by
    intro f hf t ht c hc
    obtain rfl := List.mem_singleton.mp hf
    simpa using List.all_eq_true.mp (hunmarked t ht) c hc
  have hrender : render Setting.plain [tree] = .ok text := by rfl
  exact ⟨hrender, render_wellBracketed Origin.unknown [tree] text htexts (by decide +kernel) hrender⟩

-- the clauses of a `case` are the exception
example : render Setting.plain [.call "case" [.symbol "x", .symbol "a", .symbol "b"]]
      = .ok "case x in\na)\nb;;\nesac" ∧
    ¬ Text.WellBracketed "case x in\na)\nb;;\nesac" := ⟨rfl, by decide⟩

end ScriptTree.Render

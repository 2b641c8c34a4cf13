/-
  Two renderings side by side.

  Every rule renders related forms alike, as long as it renders their parts alike (`Likeness`).  So
  whole trees are rendered alike, by induction on the size of the first of the two.  `Parallel` is
  what a relation between forms has to grant for that besides a likeness: how branches are laid out,
  how calls of the extension are answered, and what `apply` stands for.  `emit_same` is the result
  for one form, `render_same` the one for trees.
-/
import ScriptTree.Proofs.Success

namespace ScriptTree.Render

variable {R : Form → Form → Prop} {E : Fault → Fault → Prop}

/-! ## Below a size

  A rule is given related forms that are smaller than the one it renders, so the induction is on the
  size of the first of two forms. -/

/-- The relation, kept to forms with fewer than `n` nodes. -/
def Below (n : Nat) (R : Form → Form → Prop) (f g : Form) : Prop :=
  f.size < n ∧ R f g

theorem items_below {n : Nat} {fs gs : List Form} (h : List.Forall₂ R fs gs)
    (hn : Form.sizeOfItems fs < n) : List.Forall₂ (Below n R) fs gs :=
  (List.forall₂_and_left _ _).mpr ⟨fun _ hf => Nat.lt_of_le_of_lt (Form.size_le_of_mem hf) hn, h⟩

theorem entries_below {n : Nat} {es ds : List (Form × Form)}
    (h : List.Forall₂ (fun e d => R e.1 d.1 ∧ R e.2 d.2) es ds) (hn : Form.sizeOfEntries es < n) :
    List.Forall₂ (fun e d => Below n R e.1 d.1 ∧ Below n R e.2 d.2) es ds := by
  have hsizes : ∀ e ∈ es, e.1.size < n ∧ e.2.size < n := by
    intro e he
    have := Form.size_le_of_mem_entries (k := e.1) (v := e.2) he
    omega
  have hboth := (List.forall₂_and_left _ _).mpr ⟨hsizes, h⟩
  exact hboth.imp fun e d hed => ⟨⟨hed.1.1, hed.2.1⟩, ⟨hed.1.2, hed.2.2⟩⟩

theorem likeness_below (like : Likeness R E) (n : Nat) : Likeness (Below n R) E where
  resembles := by
    rintro f g ⟨hn, h⟩
    cases like.resembles h with
    | nil => exact .nil
    | int n => exact .int n
    | ratio n d => exact .ratio n d
    | str text => exact .str text
    | keyword name => exact .keyword name
    | symbol name => exact .symbol name
    | splice => exact .splice
    | list hitems => exact .list (items_below hitems (by rw [Form.size] at hn; omega))
    | vector hitems => exact .vector (items_below hitems (by rw [Form.size] at hn; omega))
    | map hentries => exact .map (entries_below hentries (by rw [Form.size] at hn; omega))
    | plain hf hg => exact .plain hf hg
  misuse := like.misuse
  notMap h := like.notMap h.2
  badName := like.badName

/-- A likeness whose branches are laid out alike, whose extension calls and spread lists are alike
    too, and whose lists render alike if their items are not related and smaller forms render alike. -/
structure Parallel (cx cx' : Setting) (R : Form → Form → Prop) (E : Fault → Fault → Prop) : Prop
    extends Likeness R E where
  lines : ∀ {f g body}, R f g → emit cx f = .ok body → f.onLines body = g.onLines body
  lists : ∀ {fs gs}, R (.list fs) (.list gs) → List.Forall₂ R fs gs ∨
    ((∀ {f g}, Below (Form.list fs).size R f g → SameUpTo E (emit cx f) (emit cx' g)) →
      SameUpTo E (emit cx (.list fs)) (emit cx' (.list gs)))
  call : ∀ {es ds args args'}, R (.list (.map es :: args)) (.list (.map ds :: args')) →
    SameUpTo E (extensionCall cx ⟨es⟩ args) (extensionCall cx' ⟨ds⟩ args')
  spread : ∀ {args args'}, R (.call "apply" args) (.call "apply" args') →
    R (.list (spread args)) (.list (spread args'))

/-- One tree beside itself: of the two settings only the calls have to be compared. -/
theorem itself_parallel {cx cx' : Setting} {C : Form → Prop} (hC : Form.Hereditary C)
    (hspread : ∀ args, C (.call "apply" args) → C (.list (spread args)))
    (hmisuse : ∀ cause, E (.misuse cause none) (.misuse cause none))
    (hname : ∀ name, Text.hasHyphen name = true → E (.badName name none) (.badName name none))
    (hcall : ∀ es args, C (.list (.map es :: args)) →
      SameUpTo E (extensionCall cx ⟨es⟩ args) (extensionCall cx' ⟨es⟩ args)) :
    Parallel cx cx' (Form.Itself C) E where
  resembles := Form.Itself.resembles hC
  misuse := hmisuse
  notMap h := by
    rw [h.1]
    exact hmisuse _
  badName := hname
  lines h _ := by rw [h.1]
  lists h := .inl (h.items hC)
  call := by
    rintro es _ args _ ⟨heq, hlist⟩
    obtain ⟨hmap, rfl⟩ := List.cons.inj (Form.list.inj heq)
    obtain rfl := Form.map.inj hmap
    exact hcall es args hlist
  spread := by
    rintro args _ ⟨heq, hargs⟩
    obtain rfl := (List.cons.inj (Form.list.inj heq)).2
    exact ⟨rfl, hspread args hargs⟩

section

variable {cx cx' : Setting} (par : Parallel cx cx' R E)

include par

theorem emit_list_same {fs gs : List Form} (h : R (.list fs) (.list gs))
    (ih : ∀ {f g}, Below (Form.list fs).size R f g → SameUpTo E (emit cx f) (emit cx' g)) :
    SameUpTo E (emit cx (.list fs)) (emit cx' (.list gs)) := by
  rcases par.lists h with hitems | hsame
  · rw [emit_eq cx, emit_eq cx']
    have hbelow := items_below hitems (n := (Form.list fs).size) (by simp [Form.size])
    refine layout_list_same (likeness_below par.toLikeness _) ih (fun hab => par.lines hab.2) hbelow
      ?_ ?_
    · rintro es ds args args' rfl rfl
      exact par.call h
    · rintro args args' rfl rfl
      -- the spread list has no more items in it, and the word `apply` is gone
      have := sizeOfItems_spread_le args
      exact ⟨by simp only [Form.size, Form.sizeOfItems]; omega, par.spread h⟩
  · exact hsame ih

/-- Related forms render alike. -/
theorem emit_same {f g : Form} (h : R f g) : SameUpTo E (emit cx f) (emit cx' g) := by
  induction hn : f.size using Nat.strongRecOn generalizing f g with
  | ind n ih =>
    subst hn
    have texts : ∀ {a b}, Below f.size R a b → SameUpTo E (emit cx a) (emit cx' b) :=
      fun hab => ih _ hab.1 hab.2 rfl
    have like := likeness_below par.toLikeness f.size
    cases par.resembles h with
    | list _ => exact emit_list_same par h texts
    | plain _ _ => exact emit_list_same par h texts
    | @vector fs gs hitems =>
      rw [emit_eq cx, emit_eq cx']
      have hbelow := items_below hitems (n := (Form.vector fs).size) (by simp [Form.size])
      exact (words_same like texts hbelow).bind fun _ => .ok _
    | @map es ds hentries =>
      rw [emit_eq cx, emit_eq cx']
      have hbelow := entries_below hentries (n := (Form.map es).size) (by simp [Form.size])
      exact initialiser_same (R := Below _ R) texts hbelow
    | ratio n d =>
      rw [emit_eq cx, emit_eq cx']
      show SameUpTo E (ratio n d) (ratio n d)
      unfold ratio
      split
      · exact .error (par.misuse _)
      · exact .ok _
    | _ =>
      rw [emit_eq cx, emit_eq cx']
      exact .ok _

/-- Trees that are related one by one render alike; the faults are compared where they are
    reported. -/
theorem render_same {D : Fault → Fault → Prop}
    (hplaces : ∀ e d, E e d → D (e.locate cx.origin) (d.locate cx'.origin)) {fs gs : List Form}
    (h : List.Forall₂ R fs gs) : SameUpTo D (render cx fs) (render cx' gs) := by
  unfold render
  refine SameUpTo.mapError (E := E) ?_ hplaces
  match h with
  | .nil => exact .ok ""
  | .cons hf .nil => exact emit_same par hf
  | .cons hf (.cons hg hrest) =>
    exact statements_same par.toLikeness (emit_same par) (.cons hf (.cons hg hrest))

end

end ScriptTree.Render

/-
  Where the faults of rendering come from.

  A rule fails for one of three reasons: its arguments have the wrong number or shape, a name that
  it assigns to holds a hyphen, or the extension refuses a call.  Every other fault is the fault of
  a part, passed on as it is.  So whatever a rendering reports can be followed down to its cause:
  it is reported at the origin of the tree, and if it is a refusal, the extension refused a call
  that a map in the tree describes (`render_fault_cause`).  That holds for the calls that `apply`
  makes, too: they stand nowhere in the tree, but the maps at their heads do.
-/
import ScriptTree.Proofs.SideBySide

namespace ScriptTree

/-! ## Forms inside forms -/

namespace Form

/-- The form `g` is the whole of a form or somewhere inside it. -/
inductive Occurs (g : Form) : Form → Prop
  | self : Occurs g g
  | item {f : Form} {fs : List Form} (hf : f ∈ fs) (h : Occurs g f) : Occurs g (.list fs)
  | element {f : Form} {fs : List Form} (hf : f ∈ fs) (h : Occurs g f) : Occurs g (.vector fs)
  | key {e : Form × Form} {es : List (Form × Form)} (he : e ∈ es) (h : Occurs g e.1) :
      Occurs g (.map es)
  | value {e : Form × Form} {es : List (Form × Form)} (he : e ∈ es) (h : Occurs g e.2) :
      Occurs g (.map es)

/-- An item of a spread list is an argument, or an item of a vector or list among the arguments. -/
theorem mem_of_mem_spread {f : Form} {args : List Form} (h : f ∈ Render.spread args) :
    f ∈ args ∨ ∃ items, f ∈ items ∧ (.vector items ∈ args ∨ .list items ∈ args) := by
  fun_induction Render.spread args with
  | case1 => simp at h
  | case2 items => exact .inr ⟨items, h, .inl (List.mem_singleton_self _)⟩
  | case3 items => exact .inr ⟨items, h, .inr (List.mem_singleton_self _)⟩
  | case4 g => exact .inl h
  | case5 g gs _ _ _ ih =>
    rcases List.mem_cons.mp h with rfl | h
    · exact .inl List.mem_cons_self
    · rcases ih h with h | ⟨items, hitem, hvector | hlist⟩
      · exact .inl (List.mem_cons_of_mem g h)
      · exact .inr ⟨items, hitem, .inl (List.mem_cons_of_mem g hvector)⟩
      · exact .inr ⟨items, hitem, .inr (List.mem_cons_of_mem g hlist)⟩

/-- The maps in the list that an `apply` stands for are in the `apply`. -/
theorem occurs_map_of_spread {entries : List (Form × Form)} {args : List Form}
    (h : Occurs (.map entries) (.list (Render.spread args))) :
    Occurs (.map entries) (.call "apply" args) := by
  cases h with
  | @item f _ hf h =>
    rcases mem_of_mem_spread hf with hf | ⟨items, hitem, hvector | hlist⟩
    · exact .item (List.mem_cons_of_mem _ hf) h
    · exact .item (List.mem_cons_of_mem _ hvector) (.element hitem h)
    · exact .item (List.mem_cons_of_mem _ hlist) (.item hitem h)

/-- All maps in a form belong to a class. -/
def MapsIn (M : List (Form × Form) → Prop) (f : Form) : Prop :=
  ∀ entries, Occurs (.map entries) f → M entries

theorem hereditary_mapsIn (M : List (Form × Form) → Prop) : Hereditary (MapsIn M) where
  items hfs _ hf entries h := hfs entries (.item hf h)
  elements hfs _ hf entries h := hfs entries (.element hf h)
  entries hes _ he :=
    ⟨fun entries h => hes entries (.key he h), fun entries h => hes entries (.value he h)⟩

/-- The list that an `apply` stands for may be nowhere in the tree, but every map in it is. -/
theorem mapsIn_spread {M : List (Form × Form) → Prop} (args : List Form)
    (h : MapsIn M (.call "apply" args)) : MapsIn M (.list (Render.spread args)) :=
  fun entries hmap => h entries (occurs_map_of_spread hmap)

end Form

/-! ## Causes -/

/-- What a fault must be before it is reported, if the maps at hand are in a class `M`: only a
    refusal has a place already, and it is a refusal of one of these maps. -/
def Fault.Caused (cx : Setting) (M : List (Form × Form) → Prop) : Fault → Prop
  | .misuse _ place => place = none
  | .badName name place => '-' ∈ name.toList ∧ place = none
  | .refused call cause place => place = cx.origin.place? ∧ ∃ entries args, M entries ∧
      cx.extension ⟨entries⟩ args cx.origin = .error cause ∧ call = Call.describe ⟨entries⟩
  | .undecodable _ => False

/-- Reporting gives a fault the place that it lacks. -/
theorem Fault.Caused.place? {cx : Setting} {M : List (Form × Form) → Prop} {e : Fault}
    (h : e.Caused cx M) : (e.locate cx.origin).place? = cx.origin.place? := by
  cases e with
  | misuse cause place =>
    obtain rfl : place = none := h
    rfl
  | badName name place =>
    obtain ⟨-, rfl⟩ := h
    rfl
  | refused call cause place =>
    obtain ⟨rfl, -⟩ := h
    show cx.origin.place?.or cx.origin.place? = cx.origin.place?
    cases cx.origin.place? <;> rfl
  | undecodable cause => exact h.elim

namespace Render

/-- One rendering beside itself: whatever faults it has are caused. -/
theorem caused_parallel (cx : Setting) (M : List (Form × Form) → Prop) :
    Parallel cx cx (Form.Itself (Form.MapsIn M)) (fun e d => e = d ∧ e.Caused cx M) := by
  refine itself_parallel (Form.hereditary_mapsIn M) Form.mapsIn_spread (fun _ => ⟨rfl, rfl⟩) ?_ ?_
  · intro name hname
    exact ⟨rfl, List.contains_iff_mem.mp hname, rfl⟩
  · intro es args hlist
    unfold extensionCall
    split
    · exact .ok _
    · next cause hcause =>
      exact .error ⟨rfl, rfl, es, args, hlist es (.item List.mem_cons_self .self), hcause, rfl⟩

/-- Whatever rendering reports is a fault with a cause in the tree, at the place of the origin. -/
theorem render_caused {cx : Setting} {fs : List Form} {e : Fault} (h : render cx fs = .error e) :
    ∃ d : Fault, e = d.locate cx.origin ∧
      d.Caused cx fun entries => ∃ f ∈ fs, Form.Occurs (.map entries) f := by
  let M := fun entries => ∃ f ∈ fs, Form.Occurs (.map entries) f
  have hself : List.Forall₂ (Form.Itself (Form.MapsIn M)) fs fs :=
    Form.Itself.forall₂ fun f hf entries hmap => ⟨f, hf, hmap⟩
  have hsame := render_same (D := fun e _ => ∃ d : Fault, e = d.locate cx.origin ∧ d.Caused cx M)
    (caused_parallel cx M) (fun d _ hd => ⟨d, rfl, hd.2⟩) hself
  rw [h] at hsame
  cases hsame with
  | error hcaused => exact hcaused

/-- A fault of rendering is reported at the origin and is no fault of a document.  A refusal is the
    extension's, of a call described by a map in the tree, so there is none without extension; and a
    name that is refused holds a hyphen. -/
theorem render_fault_cause (cx : Setting) (fs : List Form) (e : Fault)
    (h : render cx fs = .error e) :
    e.place? = cx.origin.place? ∧ (∀ flaw, e ≠ .undecodable flaw) ∧
    (∀ call cause place, e = .refused call cause place → cx.extension ≠ Extension.none ∧
      ∃ entries args, (∃ f ∈ fs, Form.Occurs (.map entries) f) ∧
        cx.extension ⟨entries⟩ args cx.origin = .error cause ∧ call = Call.describe ⟨entries⟩) ∧
    ∀ name place, e = .badName name place → '-' ∈ name.toList := by
  obtain ⟨d, rfl, hd⟩ := render_caused h
  refine ⟨hd.place?, ?_⟩
  cases d with
  | misuse cause place => exact ⟨nofun, nofun, nofun⟩
  | badName name place =>
    refine ⟨nofun, nofun, ?_⟩
    rintro _ _ ⟨⟩
    exact hd.1
  | refused call cause place =>
    refine ⟨nofun, ?_, nofun⟩
    rintro _ _ _ ⟨⟩
    obtain ⟨-, entries, args, hmap, hrefused, hcall⟩ := hd
    refine ⟨?_, entries, args, hmap, hrefused, hcall⟩
    intro hnone
    rw [hnone] at hrefused
    exact nomatch hrefused
  | undecodable cause => exact hd.elim

/-- A call that stands nowhere in the tree, refused in the middle of a block. -/
theorem render_fault_cause_apply :
    let entries := [(Form.keyword "fn-name", Form.symbol "install")]
    let tree := Form.call "do" [.call "println" [.symbol "x"],
      .call "apply" [.map entries, .vector [.int 1, .int 2]]]
    let cx : Setting := ⟨fun _ _ _ => .error (.failed "offline"), ⟨some "a.json", some 3⟩⟩
    let fault := Fault.refused "install" (.failed "offline") (some "a.json:3")
    render cx [tree] = .error fault ∧ fault.place? = cx.origin.place? ∧
      cx.extension ≠ Extension.none ∧
      ∃ entries args, (∃ f ∈ [tree], Form.Occurs (.map entries) f) ∧
        cx.extension ⟨entries⟩ args cx.origin = .error (.failed "offline") ∧
        "install" = Call.describe ⟨entries⟩ := by
  intro entries tree cx fault
  have hrender : render cx [tree] = .error fault := by rfl
  obtain ⟨hplace, -, hrefused, -⟩ := render_fault_cause cx [tree] fault hrender
  exact ⟨hrender, hplace, hrefused "install" (.failed "offline") (some "a.json:3") rfl⟩

end Render

end ScriptTree

/-
  What a text does not depend on.

  Besides the forms, a rendering is given an extension and an origin.  The origin is handed to the
  extension and is where faults are reported; the extension is asked about lists headed by a map
  and about nothing else.  So two renderings of one tree can differ in two ways only.

  If the extension does not look at the origin, a tree renders to the same text wherever it came
  from, or fails with a fault that differs in its place alone.  And if there is no map in the tree,
  the extension does not matter at all: not even `apply` makes a call then, since the head of the
  list that it stands for is in the tree (`render_independent`).
-/
import ScriptTree.Proofs.FaultCause

namespace ScriptTree

namespace Fault

/-- A fault without the place that it is reported at. -/
def unplaced : Fault → Fault
  | .misuse cause _ => .misuse cause none
  | .badName name _ => .badName name none
  | .refused call cause _ => .refused call cause none
  | .undecodable cause => .undecodable cause

/-- Reporting a fault changes its place only. -/
theorem unplaced_locate (origin : Origin) (e : Fault) :
    (e.locate origin).unplaced = e.unplaced := by
  cases e <;> rfl

end Fault

/-- An extension that answers a call alike wherever it came from. -/
def Extension.IgnoresOrigin (extension : Extension) : Prop :=
  ∀ call args o o', extension call args o = extension call args o'

namespace Render

/-- One tree from two origins, under an extension that does not look at them. -/
theorem origins_parallel {extension : Extension} (h : extension.IgnoresOrigin) (o o' : Origin) :
    Parallel ⟨extension, o⟩ ⟨extension, o'⟩ (Form.Itself fun _ => True)
      (fun e d => e.unplaced = d.unplaced) := by
  have hall : Form.Hereditary fun _ => True :=
    ⟨fun _ _ _ => trivial, fun _ _ _ => trivial, fun _ _ _ => ⟨trivial, trivial⟩⟩
  refine itself_parallel hall (fun _ _ => trivial) (fun _ => rfl) (fun _ _ => rfl) ?_
  intro es args _
  simp only [extensionCall, h ⟨es⟩ args o o']
  cases extension ⟨es⟩ args o' with
  | ok text => exact .ok _
  | error cause => exact .error rfl

/-- One tree without maps under two extensions, neither of which is ever asked. -/
theorem extensions_parallel (extension extension' : Extension) (o : Origin) :
    Parallel ⟨extension, o⟩ ⟨extension', o⟩ (Form.Itself (Form.MapsIn fun _ => False)) Eq := by
  refine itself_parallel (Form.hereditary_mapsIn _) Form.mapsIn_spread (fun _ => rfl)
    (fun _ _ => rfl) ?_
  intro es args hlist
  exact (hlist es (.item List.mem_cons_self .self)).elim

/-- Under an extension that does not look at origins, a tree renders to the same text from every
    origin, or fails with the same fault up to its place.  A tree without maps renders to the same
    text under every extension, or fails with the same fault. -/
theorem render_independent :
    (∀ extension : Extension, extension.IgnoresOrigin → ∀ (fs : List Form) (o o' : Origin),
      SameUpTo (fun e d => e.unplaced = d.unplaced) (render ⟨extension, o⟩ fs)
        (render ⟨extension, o'⟩ fs)) ∧
    (∀ fs : List Form, (∀ f ∈ fs, ∀ entries, ¬Form.Occurs (.map entries) f) →
      ∀ (extension extension' : Extension) (o : Origin),
        render ⟨extension, o⟩ fs = render ⟨extension', o⟩ fs) := by
  constructor
  · intro extension hextension fs o o'
    refine render_same (origins_parallel hextension o o') ?_ (Form.Itself.forall₂ fun _ _ => trivial)
    intro e d hed
    rw [Fault.unplaced_locate, Fault.unplaced_locate, hed]
  · intro fs hfs extension extension' o
    have hsame := render_same (D := Eq) (extensions_parallel extension extension' o)
      (fun e d hed => by rw [hed]) (Form.Itself.forall₂ hfs)
    exact hsame.eq

/-- A refused call that only `apply` makes, reported at two places; and a fault of a tree without
    maps, under an extension that refuses everything and under none. -/
theorem render_independent_apply :
    let offline : Extension := fun _ _ _ => .error (.failed "offline")
    let o : Origin := ⟨some "a.json", some 3⟩
    let call := Form.call "apply" [.map [(.keyword "fn-name", .symbol "install")], .vector [.nil]]
    let assignment := Form.call "apply" [.symbol "set!", .vector [.str "a-b", .nil]]
    offline.IgnoresOrigin ∧
    render ⟨offline, o⟩ [call] =
      .error (.refused "install" (.failed "offline") (some "a.json:3")) ∧
    SameUpTo (fun e d => e.unplaced = d.unplaced) (render ⟨offline, o⟩ [call])
      (render ⟨offline, Origin.unknown⟩ [call]) ∧
    render ⟨offline, o⟩ [assignment] = .error (.badName "a-b" (some "a.json:3")) ∧
    render ⟨offline, o⟩ [assignment] = render ⟨Extension.none, o⟩ [assignment] := by
  intro offline o call assignment
  have hoffline : offline.IgnoresOrigin := fun _ _ _ _ => rfl
  have hmapless : ∀ f ∈ [assignment], ∀ entries, ¬Form.Occurs (.map entries) f := by
    intro f hf entries h
    rw [List.mem_singleton.mp hf] at h
    simp only [assignment, Form.call] at h
    cases h with
    | @item g _ hg h =>
      have hg : g = .symbol "apply" ∨ g = .symbol "set!" ∨ g = .vector [.str "a-b", .nil] := by
        simpa using hg
      rcases hg with rfl | rfl | rfl
      · cases h
      · cases h
      · cases h with
        | @element e _ he h =>
          have he : e = .str "a-b" ∨ e = .nil := by simpa using he
          rcases he with rfl | rfl
          · cases h
          · cases h
  exact ⟨hoffline, rfl, render_independent.1 offline hoffline [call] o Origin.unknown, rfl,
    render_independent.2 [assignment] hmapless offline Extension.none o⟩

end Render

end ScriptTree

/-
  Marks of empty splices.

  An empty splice leaves a mark behind.  Where forms become statements, words or one text in a row,
  the mark vanishes: the three ways of putting texts together are functions of the texts of all
  forms but the marks (`statements_eq`, `parts_eq`, `concat_eq`).  So marks may be put in there, in
  any number and anywhere, and the text or the fault stays what it was.

  1. `Interspersed` says that a list of forms is another one with marks put in, and `Respliced`
     lists the places where this may be done to a form.  They are defined together, so that marks
     may be put into the forms of a list as well.
  2. Without their marks, interspersed lists have the same texts one by one, and so respliced forms
     have the same text or the same fault (`Respliced.emit_eq`).  The induction is on the two
     relations at once.
  3. The scan for slots looks at the heads of lists, of which none is a mark, and goes on to the
     parts, where a mark adds nothing (`Respliced.usesHash_eq`).
  4. At the top of a tree a single mark decides whether a form is rendered as itself or as a
     statement.  Tidying a script makes up for the difference, as it does for blocks.
-/
import ScriptTree.Proofs.Bodies
import ScriptTree.Proofs.Parameters
import ScriptTree.Proofs.ScriptShape

namespace ScriptTree

namespace Form

/-- The forms that are no marks of splices. -/
def unspliced (fs : List Form) : List Form :=
  fs.filter fun f => !f.isSplice

theorem unspliced_cons_of_isSplice {f : Form} (h : f.isSplice = true) (fs : List Form) :
    unspliced (f :: fs) = unspliced fs :=
  List.filter_cons_of_neg (by simp [h])

theorem unspliced_cons_of_not_isSplice {f : Form} (h : f.isSplice = false) (fs : List Form) :
    unspliced (f :: fs) = f :: unspliced fs :=
  List.filter_cons_of_pos (by simp [h])

/-- Whether a list with this head is a plain command: no symbol that has a rule of its own, and no
    map, which makes the list a call of the extension. -/
def isCommand : Form → Bool
  | .symbol name => (Construct.named? name).isNone && (Operator.named? name).isNone &&
      (Render.method? name).isNone
  | .map _ => false
  | _ => true

/-! ## Putting marks in -/

mutual

/-- The second form is the first with marks put in at places where they vanish. -/
inductive Respliced : Form → Form → Prop
  | refl (f : Form) : Respliced f f
  | joining {name : String} {fs gs : List Form}
      (hname : name ∈ ["do", "group", "pipe", "chain-or", "chain-and", "println", "print", "str"])
      (h : Interspersed fs gs) : Respliced (.call name fs) (.call name gs)
  | vector {fs gs : List Form} (h : Interspersed fs gs) : Respliced (.vector fs) (.vector gs)
  | command {head : Form} {fs gs : List Form} (hhead : head.isCommand = true)
      (h : Interspersed fs gs) : Respliced (.list (head :: fs)) (.list (head :: gs))
  /-- Among the statements of `when` and `while`. -/
  | guarded {name : String} (test : Form) {fs gs : List Form} (hname : name ∈ ["when", "while"])
      (h : Interspersed fs gs) : Respliced (.call name (test :: fs)) (.call name (test :: gs))
  /-- Among the statements of `doseq`, whatever it is given to bind. -/
  | loop (binding : Form) {fs gs : List Form} (h : Interspersed fs gs) :
      Respliced (.call "doseq" (binding :: fs)) (.call "doseq" (binding :: gs))
  /-- Among the values of `doseq` and among its statements. -/
  | loopOver (item : Form) {values values' fs gs : List Form} (hvalues : Interspersed values values')
      (h : Interspersed fs gs) :
      Respliced (.call "doseq" (.vector [item, .vector values] :: fs))
        (.call "doseq" (.vector [item, .vector values'] :: gs))
  /-- Among the statements of `defn`, with a name or without. -/
  | function (name? : Option String) (params : List Form) {fs gs : List Form}
      (h : Interspersed fs gs) :
      Respliced (Render.functionForm name? params fs) (Render.functionForm name? params gs)

/-- The second list is the first with marks put in, between its forms and in them. -/
inductive Interspersed : List Form → List Form → Prop
  | nil : Interspersed [] []
  | keep {f g : Form} {fs gs : List Form} (hfg : Respliced f g) (h : Interspersed fs gs) :
      Interspersed (f :: fs) (g :: gs)
  | insert {fs gs : List Form} (h : Interspersed fs gs) : Interspersed fs (.splice :: gs)

end

/-- Marks are not put in the place of a form. -/
theorem Respliced.isSplice_eq {f g : Form} (h : Respliced f g) : f.isSplice = g.isSplice := by
  cases h <;> rfl

end Form

namespace Render

open Form (unspliced Respliced Interspersed)

/-! ## What the rules ask for -/

section

variable {sub : Form → Rendering} {fs gs : List Form}

theorem statements_unspliced (h : (unspliced fs).mapM sub = (unspliced gs).mapM sub) :
    statements sub fs = statements sub gs := by
  rw [statements_eq, statements_eq]
  exact congrArg (· >>= _) h

theorem parts_unspliced (h : (unspliced fs).mapM sub = (unspliced gs).mapM sub) :
    parts sub fs = parts sub gs := by
  rw [parts_eq, parts_eq]
  exact congrArg (· >>= _) h

/-- Texts in a row, of which the empty ones of marks show nothing. -/
theorem concat_eq (hsplice : sub .splice = .ok "") (fs : List Form) :
    concat sub fs = (do return String.join (← (unspliced fs).mapM sub)) := by
  induction fs with
  | nil => rfl
  | cons f fs ih =>
    have hcons : concat sub (f :: fs) = (do return (← sub f) ++ (← concat sub fs)) := by
      simp [concat]
    cases hf : f.isSplice with
    | true =>
      obtain rfl := eq_splice_of_isSplice hf
      rw [hcons, hsplice, Form.unspliced_cons_of_isSplice hf, ← ih]
      cases concat sub fs with
      | error e => rfl
      | ok text => exact congrArg Except.ok String.empty_append
    | false =>
      rw [hcons, ih, Form.unspliced_cons_of_not_isSplice hf]
      simp

end

/-! ## Texts -/

section

variable {cx : Setting} {fs gs : List Form}
  (h : (unspliced fs).mapM (emit cx) = (unspliced gs).mapM (emit cx))

include h

theorem emit_joining {name : String}
    (hname : name ∈ ["do", "group", "pipe", "chain-or", "chain-and", "println", "print", "str"]) :
    emit cx (.call name fs) = emit cx (.call name gs) := by
  have hparts := parts_unspliced h
  have hwords : words (emit cx) fs = words (emit cx) gs := by rw [words, words, joined, joined, hparts]
  rw [emit_eq, emit_eq cx (.call name gs)]
  simp only [List.mem_cons, List.not_mem_nil, or_false] at hname
  rcases hname with rfl | rfl | rfl | rfl | rfl | rfl | rfl | rfl
  · exact statements_unspliced h
  · show group (emit cx) fs = group (emit cx) gs
    rw [group, group, hparts]
  · show joined (emit cx) " | " fs = joined (emit cx) " | " gs
    rw [joined, joined, hparts]
  · show joined (emit cx) " || " fs = joined (emit cx) " || " gs
    rw [joined, joined, hparts]
  · show joined (emit cx) " && " fs = joined (emit cx) " && " gs
    rw [joined, joined, hparts]
  · exact congrArg (· >>= fun words => return command "echo" words) hwords
  · exact congrArg (· >>= fun words => return command "echo -n" words) hwords
  · show concat (emit cx) fs = concat (emit cx) gs
    rw [concat_eq (emit_splice cx), concat_eq (emit_splice cx), h]

/-- A plain command is its words. -/
theorem emit_command {head : Form} (hhead : head.isCommand = true) :
    emit cx (.list (head :: fs)) = emit cx (.list (head :: gs)) := by
  have hwords : words (emit cx) (head :: fs) = words (emit cx) (head :: gs) := by
    have hboth : (unspliced (head :: fs)).mapM (emit cx) = (unspliced (head :: gs)).mapM (emit cx) := by
      cases hsplice : head.isSplice with
      | true =>
        rwa [Form.unspliced_cons_of_isSplice hsplice, Form.unspliced_cons_of_isSplice hsplice]
      | false =>
        rw [Form.unspliced_cons_of_not_isSplice hsplice, Form.unspliced_cons_of_not_isSplice hsplice,
          List.mapM_cons, List.mapM_cons, h]
    rw [words, words, joined, joined, parts_unspliced hboth]
  rw [emit_eq, emit_eq cx (.list (head :: gs))]
  cases head with
  | symbol name =>
    obtain ⟨⟨hconstruct, hoperator⟩, hmethod⟩ : (Construct.named? name = none ∧
        Operator.named? name = none) ∧ method? name = none := by
      simpa [Form.isCommand, Option.isNone_iff_eq_none] using hhead
    show headed (emit cx) name fs = headed (emit cx) name gs
    simp only [headed, hconstruct, hoperator, hmethod]
    exact hwords
  | map entries => simp [Form.isCommand] at hhead
  | _ => exact hwords

theorem emit_vector :
    emit cx (.vector fs) = emit cx (.vector gs) := by
  rw [emit_eq, emit_eq cx (.vector gs), layout, layout, words, words, joined, joined,
    parts_unspliced h]

theorem emit_guarded {name : String} (hname : name ∈ ["when", "while"]) (test : Form) :
    emit cx (.call name (test :: fs)) = emit cx (.call name (test :: gs)) := by
  simp only [List.mem_cons, List.not_mem_nil, or_false] at hname
  rcases hname with rfl | rfl
  · rw [emit_whenTrue, emit_whenTrue, whenTrue, whenTrue, statements_unspliced h]
  · rw [emit_whileTrue, emit_whileTrue, whileTrue, whileTrue, statements_unspliced h]

theorem emit_loop (binding : Form) :
    emit cx (.call "doseq" (binding :: fs)) = emit cx (.call "doseq" (binding :: gs)) := by
  rw [emit_forEach, emit_forEach]
  unfold forEach
  split
  · next item values forms heq =>
    obtain ⟨rfl, rfl⟩ := List.cons.inj heq
    simp only [statements_unspliced h]
  · next hbinding =>
    split
    · next item values forms heq =>
      obtain ⟨rfl, rfl⟩ := List.cons.inj heq
      exact absurd rfl (hbinding item values fs)
    · rfl

theorem emit_functionForm (name? : Option String) (params : List Form) :
    emit cx (functionForm name? params fs) = emit cx (functionForm name? params gs) := by
  rw [emit_function, emit_function, functionWith, functionWith, statements_unspliced h]

end

/-- Of the vector that it runs over, a loop takes the words. -/
theorem emit_loopOver {cx : Setting} {values values' : List Form}
    (h : (unspliced values).mapM (emit cx) = (unspliced values').mapM (emit cx)) (item : Form)
    (fs : List Form) :
    emit cx (.call "doseq" (.vector [item, .vector values] :: fs)) =
      emit cx (.call "doseq" (.vector [item, .vector values'] :: fs)) := by
  rw [emit_forEach, emit_forEach, forEach, forEach, loopValues, loopValues, words, words, joined,
    joined, parts_unspliced h]

end Render

namespace Form

open Render

mutual

/-- Respliced forms have the same text or the same fault. -/
theorem Respliced.emit_eq (cx : Setting) {f g : Form} :
    Respliced f g → emit cx f = emit cx g
  | .refl f => rfl
  | .joining hname h => emit_joining (h.mapM_eq cx) hname
  | .vector h => emit_vector (h.mapM_eq cx)
  | .command hhead h => emit_command (h.mapM_eq cx) hhead
  | .guarded test hname h => emit_guarded (h.mapM_eq cx) hname test
  | .loop binding h => emit_loop (h.mapM_eq cx) binding
  | .loopOver item hvalues h =>
    (emit_loopOver (hvalues.mapM_eq cx) item _).trans (emit_loop (h.mapM_eq cx) _)
  | .function name? params h => emit_functionForm (h.mapM_eq cx) name? params

/-- Interspersed lists have the same texts once their marks are left out. -/
theorem Interspersed.mapM_eq (cx : Setting) {fs gs : List Form} :
    Interspersed fs gs → (unspliced fs).mapM (emit cx) = (unspliced gs).mapM (emit cx)
  | .nil => rfl
  | @Interspersed.keep f g fs gs hfg h => by
    have hrest := h.mapM_eq cx
    cases hf : f.isSplice with
    | true =>
      have hg : g.isSplice = true := hfg.isSplice_eq ▸ hf
      rwa [unspliced_cons_of_isSplice hf, unspliced_cons_of_isSplice hg]
    | false =>
      have hg : g.isSplice = false := hfg.isSplice_eq ▸ hf
      rw [unspliced_cons_of_not_isSplice hf, unspliced_cons_of_not_isSplice hg, List.mapM_cons,
        List.mapM_cons, hfg.emit_eq cx, hrest]
  | .insert h => h.mapM_eq cx

end

/-! ## The scan for slots -/

/-- A plain command sets and reads no slot. -/
theorem touchesSlot_of_isCommand {head : Form} (h : head.isCommand = true) (fs : List Form) :
    touchesSlot (head :: fs) = false := by
  cases head with
  | symbol name =>
    refine touchesSlot_eq_false (fun hname => ?_) fs
    have hnone : Construct.named? name = none := by
      simp only [isCommand, Bool.and_eq_true, Option.isNone_iff_eq_none] at h
      exact h.1.1
    have hall : ∀ name ∈ ["get", "assoc!", "merge!", "var"], Construct.named? name ≠ none := by
      decide +kernel
    exact hall name hname hnone
  | _ => rfl

/-- If a list touches no slot itself, the scan goes on to its items. -/
theorem usesHash_call {name : String} (h : name ∉ ["get", "assoc!", "merge!", "var"])
    (args : List Form) : usesHash (.call name args) = anyUsesHash args := by
  simp [call, usesHash, anyUsesHash, touchesSlot_eq_false h]

theorem anyUsesHash_append (fs gs : List Form) :
    anyUsesHash (fs ++ gs) = (anyUsesHash fs || anyUsesHash gs) := by
  induction fs with
  | nil => rfl
  | cons f fs ih => rw [List.cons_append, anyUsesHash, ih, anyUsesHash, Bool.or_assoc]

mutual

theorem Respliced.usesHash_eq {f g : Form} : Respliced f g → f.usesHash = g.usesHash
  | .refl f => rfl
  | @Respliced.joining name fs gs hname h => by
    have hslotless : ∀ name ∈
        ["do", "group", "pipe", "chain-or", "chain-and", "println", "print", "str"],
        name ∉ ["get", "assoc!", "merge!", "var"] := by decide +kernel
    rw [usesHash_call (hslotless name hname), usesHash_call (hslotless name hname),
      h.anyUsesHash_eq]
  | .vector h => by
    rw [usesHash, usesHash, h.anyUsesHash_eq]
  | .command hhead h => by
    rw [usesHash, usesHash, touchesSlot_of_isCommand hhead, touchesSlot_of_isCommand hhead,
      anyUsesHash, anyUsesHash, h.anyUsesHash_eq]
  | @Respliced.guarded name test fs gs hname h => by
    have hslotless : ∀ name ∈ ["when", "while"], name ∉ ["get", "assoc!", "merge!", "var"] := by
      decide +kernel
    rw [usesHash_call (hslotless name hname), usesHash_call (hslotless name hname), anyUsesHash,
      anyUsesHash, h.anyUsesHash_eq]
  | .loop binding h => by
    rw [usesHash_call (by decide +kernel), usesHash_call (by decide +kernel), anyUsesHash,
      anyUsesHash, h.anyUsesHash_eq]
  | .loopOver item hvalues h => by
    rw [usesHash_call (by decide +kernel), usesHash_call (by decide +kernel)]
    simp only [anyUsesHash, usesHash, hvalues.anyUsesHash_eq, h.anyUsesHash_eq]
  | .function name? params h => by
    rw [functionForm, functionForm, usesHash_call (by decide +kernel),
      usesHash_call (by decide +kernel), anyUsesHash_append, anyUsesHash_append, anyUsesHash,
      anyUsesHash, h.anyUsesHash_eq]

theorem Interspersed.anyUsesHash_eq {fs gs : List Form} :
    Interspersed fs gs → anyUsesHash fs = anyUsesHash gs
  | .nil => rfl
  | .keep hfg h => by rw [anyUsesHash, anyUsesHash, hfg.usesHash_eq, h.anyUsesHash_eq]
  | .insert h => by simp [h.anyUsesHash_eq, anyUsesHash, usesHash]

end

/-- Any form stays as it is. -/
theorem Interspersed.refl (fs : List Form) : Interspersed fs fs := by
  induction fs with
  | nil => exact .nil
  | cons f fs ih => exact .keep (.refl f) ih

theorem Interspersed.append {fs gs fs' gs' : List Form} (h : Interspersed fs gs)
    (h' : Interspersed fs' gs') : Interspersed (fs ++ fs') (gs ++ gs') := by
  match h with
  | .nil => exact h'
  | .keep hfg h => exact .keep hfg (h.append h')
  | .insert h => exact .insert (h.append h')

end Form

namespace Script

open Render

/-- Marks among the forms of a tree, and in them, do not show in its script. -/
theorem compile_interspersed {fs gs : List Form} (h : Form.Interspersed fs gs) (options : Options)
    (extension : Extension) : compile options extension fs = compile options extension gs := by
  obtain ⟨shebang, supply, origin⟩ := options
  have hbody : body extension origin fs = body extension origin gs := by
    -- as the block that holds them, the forms are statements whatever their number
    rw [← body_block, ← body_block extension origin gs, body, body, render_block, render_block,
      statements_unspliced (h.mapM_eq ⟨extension, origin⟩)]
  have happlies : supply.applies fs = supply.applies gs := by
    rw [Bool.eq_iff_iff, applies_iff, applies_iff, h.anyUsesHash_eq]
  rw [compile_eq, compile_eq, hbody, happlies]

/-- **Marks of splices vanish** from statements and words.  Put in among the arguments of a construct
    that joins texts, among the items of a vector or behind the head of a plain command, they change
    neither the text nor the fault of a form, nor the script of a tree that holds it; and among the
    forms at the top of a tree they do not change its script, not even where one form becomes
    several or none becomes one. -/
theorem splices_vanish :
    (∀ f g, Form.Respliced f g →
      (∀ cx, render cx [f] = render cx [g]) ∧
      ∀ options extension before after,
        compile options extension (before ++ f :: after) =
          compile options extension (before ++ g :: after)) ∧
    ∀ fs gs, Form.Interspersed fs gs → ∀ options extension,
      compile options extension fs = compile options extension gs := by
  refine ⟨?_, fun fs gs h => compile_interspersed h⟩
  intro f g h
  constructor
  · intro cx
    rw [render, render, h.emit_eq cx]
  · intro options extension before after
    have hforms : Form.Interspersed (before ++ f :: after) (before ++ g :: after) :=
      .append (.refl before) (.keep h (.refl after))
    exact compile_interspersed hforms options extension

/-- Marks in a loop: in the vector it runs over, among its statements, and inside one of them; and a
    tree of one form that becomes one of three. -/
theorem splices_vanish_loop :
    let loop := Form.call "doseq" [.vector [.symbol "x", .vector [.str "a"]],
      .call "println" [.symbol "x"]]
    let marked := Form.call "doseq" [.vector [.symbol "x", .vector [.splice, .str "a", .splice]],
      .splice, .call "println" [.splice, .symbol "x"]]
    let options : Options := ⟨true, .auto, Origin.unknown⟩
    render Setting.plain [marked] = render Setting.plain [loop] ∧
    render Setting.plain [loop] = .ok "for x in a; do\necho x\ndone" ∧
    compile options Extension.none [.splice, marked, .splice] =
      compile options Extension.none [loop] ∧
    compile options Extension.none [loop] = .ok "#!/bin/sh\nfor x in a; do\necho x\ndone\n" := by
  intro loop marked options
  have hvalues : Form.Interspersed [.str "a"] [.splice, .str "a", .splice] :=
    .insert (.keep (.refl _) (.insert .nil))
  have hcommand : Form.Respliced (.call "println" [.symbol "x"])
      (.call "println" [.splice, .symbol "x"]) :=
    .joining (by simp) (.insert (.refl _))
  have hloop : Form.Respliced loop marked :=
    .loopOver (.symbol "x") hvalues (.insert (.keep hcommand .nil))
  have htop : Form.Interspersed [loop] [.splice, marked, .splice] :=
    .insert (.keep hloop (.insert .nil))
  obtain ⟨hforms, htrees⟩ := splices_vanish
  exact ⟨((hforms _ _ hloop).1 Setting.plain).symm, eq_ok_of_toOption (by decide +kernel),
    (htrees _ _ htop options Extension.none).symm, eq_ok_of_toOption (by decide +kernel)⟩

end Script

end ScriptTree

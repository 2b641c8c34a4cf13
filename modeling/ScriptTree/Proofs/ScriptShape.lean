/-
  The shape of a script.

  A script has three parts: the line that names the interpreter, the functions behind associative
  arrays, and the body.  The first two are fixed texts that the options ask for or leave out, and
  the body is made without looking at those options (`compile_eq`).  Each of the three is tidy,
  that is, empty or ended by exactly one newline, so the whole is tidy as well.

  The body is where two ways of rendering meet.  A single form is rendered as itself and may end
  without a newline, with one or with many; several forms are statements, which are whole lines.
  Tidying takes all newlines off the end and puts one back, so it cannot tell a text from the line
  made of it (`tidy_asLine`).  Hence forms give the same script as the one block that holds them.
-/
import ScriptTree.Proofs.Blocks
import ScriptTree.Script.Compile

namespace ScriptTree

namespace Text

/-! ## Newlines at the end -/

/-- A text that ends with exactly one newline: the character before it is another one. -/
def EndsOnce (s : String) : Prop :=
  ∃ cs c, s.toList = cs ++ [c, '\n'] ∧ c ≠ '\n'

/-- Nothing at all, or a text that ends with exactly one newline. -/
def Tidy (s : String) : Prop :=
  s = "" ∨ EndsOnce s

theorem EndsOnce.append (s : String) {t : String} (h : EndsOnce t) : EndsOnce (s ++ t) := by
  obtain ⟨cs, c, ht, hc⟩ := h
  refine ⟨s.toList ++ cs, c, ?_, hc⟩
  rw [String.toList_append, ht, List.append_assoc]

theorem Tidy.append {s t : String} (hs : Tidy s) (ht : Tidy t) : Tidy (s ++ t) := by
  rcases ht with rfl | ht
  · rwa [String.append_empty]
  · exact .inr (ht.append s)

theorem Tidy.ite {s : String} (hs : Tidy s) (p : Prop) [Decidable p] :
    Tidy (if p then s else "") := by
  split
  · exact hs
  · exact .inl rfl

/-- The last character of what is left is no newline. -/
theorem dropFinalNewlines_eq (s : String) : dropFinalNewlines s = "" ∨
    ∃ cs c, (dropFinalNewlines s).toList = cs ++ [c] ∧ c ≠ '\n' := by
  unfold dropFinalNewlines
  cases h : s.toList.reverse.dropWhile (· == '\n') with
  | nil => exact .inl rfl
  | cons c cs =>
    have hc := List.head_dropWhile_not (· == '\n') (l := s.toList.reverse) (by simp [h])
    simp only [h, List.head_cons] at hc
    exact .inr ⟨cs.reverse, c, by simp, by simpa using hc⟩

/-- Making a line of a text adds nothing that is kept. -/
theorem dropFinalNewlines_asLine (s : String) :
    dropFinalNewlines (asLine s) = dropFinalNewlines s := by
  unfold asLine
  split
  · next h => rw [h]
  · split
    · rfl
    · simp [dropFinalNewlines, List.reverse_append]

end Text

namespace Script

open Render Text

/-! ## Tidied bodies -/

theorem tidy_asLine (s : String) : tidy (asLine s) = tidy s := by
  rw [tidy, tidy, dropFinalNewlines_asLine]

theorem tidy_tidy (s : String) : Tidy (tidy s) := by
  show Tidy (if dropFinalNewlines s = "" then "" else dropFinalNewlines s ++ "\n")
  split
  · exact .inl rfl
  · next h =>
    obtain ⟨cs, c, hkept, hc⟩ := (dropFinalNewlines_eq s).resolve_left h
    refine .inr ⟨cs, c, ?_, hc⟩
    simp [hkept]

/-- The body of a script.  It is made without the options that choose what stands before it. -/
def body (extension : Extension) (origin : Origin) (fs : List Form) : Rendering :=
  tidy <$> render ⟨extension, origin⟩ fs

theorem body_tidy {extension : Extension} {origin : Origin} {fs : List Form} {b : String}
    (h : body extension origin fs = .ok b) : Tidy b := by
  obtain ⟨text, -, rfl⟩ := map_eq_ok.mp h
  exact tidy_tidy text

/-- One form is a block of one statement, but for the newline at its end. -/
theorem statements_single (cx : Setting) (f : Form) :
    statements (emit cx) [f] = asLine <$> emit cx f := by
  rw [statements]
  split
  · next hf =>
    rw [eq_splice_of_isSplice hf, emit_splice]
    rfl
  · cases emit cx f with
    | error e => rfl
    | ok text => exact congrArg Except.ok (String.append_empty)

/-- Forms have the body of the block that holds them. -/
theorem body_block (extension : Extension) (origin : Origin) (fs : List Form) :
    body extension origin [.call "do" fs] = body extension origin fs := by
  rw [body, body, render_block]
  -- only a single form is rendered otherwise than as statements
  cases fs with
  | nil => rfl
  | cons f rest =>
    cases rest with
    | cons g gs => rfl
    | nil =>
      rw [statements_single, render]
      cases emit ⟨extension, origin⟩ f with
      | error e => rfl
      | ok text => exact congrArg Except.ok (tidy_asLine text)

/-! ## Scripts -/

/-- The scan sees through a block. -/
theorem anyUsesHash_block (fs : List Form) :
    Form.anyUsesHash [.call "do" fs] = Form.anyUsesHash fs := by
  simp [Form.anyUsesHash, Form.usesHash, Form.call, Form.touchesSlot]

/-- The functions are in front of a script if that is asked for, or left to the scan and the scan
    finds a slot. -/
theorem applies_iff {supply : Supply} {fs : List Form} : supply.applies fs = true ↔
    supply = .always ∨ supply = .auto ∧ Form.anyUsesHash fs = true := by
  cases supply <;> simp [Supply.applies]

/-- A script is put together from its three parts. -/
theorem compile_eq (shebang : Bool) (supply : Supply) (origin : Origin) (extension : Extension)
    (fs : List Form) : compile ⟨shebang, supply, origin⟩ extension fs =
      (fun b => (if shebang then shebangLine else "") ++
        (if supply.applies fs then HashArray.source else "") ++ b) <$>
      body extension origin fs := by
  unfold compile body
  cases render ⟨extension, origin⟩ fs with
  | error e => rfl
  | ok text =>
    refine congrArg Except.ok ?_
    cases shebang <;> cases supply.applies fs <;> simp [HashArray.supply, String.append_assoc]

theorem shebangLine_tidy : Tidy shebangLine :=
  .inr ⟨"#!/bin/s".toList, 'h', by decide, by decide⟩

/-- The functions end with the bracket that closes the last of them. -/
theorem source_tidy : Tidy HashArray.source :=
  .inr (EndsOnce.append _ ⟨[], '\x7d', rfl, by decide⟩)

/-- **The shape of a script.**  Forms give the same script as the block that holds them, or the same
    fault.  A script is the interpreter's line, if asked for, the functions, if asked for or needed,
    and a body that depends on neither choice; it is empty or ends with exactly one newline, and so
    is the body.  Leaving the functions to the scan is the same as asking for them or forbidding
    them. -/
theorem compile_shape (extension : Extension) (origin : Origin) (fs : List Form) :
    (∀ shebang supply, compile ⟨shebang, supply, origin⟩ extension fs =
      compile ⟨shebang, supply, origin⟩ extension [.call "do" fs]) ∧
    (∀ shebang supply, compile ⟨shebang, supply, origin⟩ extension fs =
      (fun b => (if shebang then "#!/bin/sh\n" else "") ++
        (if supply = .always ∨ supply = .auto ∧ Form.anyUsesHash fs = true
          then HashArray.source else "") ++ b) <$> body extension origin fs) ∧
    (∀ b, body extension origin fs = .ok b → b = "" ∨ EndsOnce b) ∧
    (∀ shebang supply text, compile ⟨shebang, supply, origin⟩ extension fs = .ok text →
      text = "" ∨ EndsOnce text) ∧
    (∀ shebang, compile ⟨shebang, .auto, origin⟩ extension fs =
        compile ⟨shebang, .always, origin⟩ extension fs ∨
      compile ⟨shebang, .auto, origin⟩ extension fs =
        compile ⟨shebang, .never, origin⟩ extension fs) := by
  refine ⟨?_, ?_, fun b => body_tidy, ?_, ?_⟩
  · intro shebang supply
    have happlies : supply.applies [.call "do" fs] = supply.applies fs := by
      rw [Bool.eq_iff_iff, applies_iff, applies_iff, anyUsesHash_block]
    rw [compile_eq, compile_eq, body_block, happlies]
  · intro shebang supply
    simp only [compile_eq, applies_iff, shebangLine]
  · intro shebang supply text h
    rw [compile_eq] at h
    obtain ⟨b, hb, rfl⟩ := map_eq_ok.mp h
    exact ((shebangLine_tidy.ite _).append (source_tidy.ite _)).append (body_tidy hb)
  · intro shebang
    rw [compile_eq, compile_eq, compile_eq]
    cases h : Form.anyUsesHash fs with
    | true => exact .inl (by simp [Supply.applies, h])
    | false => exact .inr (by simp [Supply.applies, h])

/-- A function, whose text ends its own line, alone and in a block; and no form at all. -/
theorem compile_shape_function :
    let function := Form.call "defn" [.symbol "f", .vector []]
    let options : Options := ⟨true, .auto, Origin.unknown⟩
    compile options Extension.none [function] = .ok "#!/bin/sh\nfunction f() \x7b\n\x7d\n" ∧
    compile options Extension.none [.call "do" [function]] =
      .ok "#!/bin/sh\nfunction f() \x7b\n\x7d\n" ∧
    EndsOnce "#!/bin/sh\nfunction f() \x7b\n\x7d\n" ∧
    compile options Extension.none [] = .ok "#!/bin/sh\n" ∧ EndsOnce "#!/bin/sh\n" := by
  intro function options
  obtain ⟨hblock, -, -, hends, -⟩ := compile_shape Extension.none Origin.unknown [function]
  obtain ⟨-, -, -, hendsNone, -⟩ := compile_shape Extension.none Origin.unknown []
  have hscript : compile options Extension.none [function] =
      .ok "#!/bin/sh\nfunction f() \x7b\n\x7d\n" := eq_ok_of_toOption (by decide +kernel)
  have hnone : compile options Extension.none [] = .ok "#!/bin/sh\n" :=
    eq_ok_of_toOption (by decide +kernel)
  refine ⟨hscript, ?_, (hends true .auto _ hscript).resolve_left (by decide), hnone,
    (hendsNone true .auto _ hnone).resolve_left (by decide)⟩
  rw [← hblock]
  exact hscript

end Script

end ScriptTree

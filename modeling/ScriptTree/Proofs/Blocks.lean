/-
  Blocks inside blocks.

  A block `(do ...)` is rendered as its statements, and each statement that is not empty ends its
  line exactly once.  So a text made of statements is already made of whole lines: as a statement
  of an outer block it is taken as it stands (`asLine_statements`), and statements put one after
  the other render to texts put one after the other (`statements_append`).  From these two facts a
  block among statements may be replaced by what it holds (`statements_block`), and by induction a
  nest of blocks of any depth renders as the one block of its leaf statements
  (`render_block_flatten`), with the same fault if one of them fails.
-/
import ScriptTree.Proofs.Success

namespace ScriptTree

namespace Form

/-! ## The leaf statements of a nest -/

/-- The statements of a nest of blocks that are no blocks themselves, from left to right. -/
def leafStatements : List Form → List Form
  | [] => []
  | .list (.symbol "do" :: args) :: fs => leafStatements args ++ leafStatements fs
  | f :: fs => f :: leafStatements fs

/-- No block is left among the leaves. -/
theorem not_block_of_mem_leafStatements (fs : List Form) :
    ∀ f ∈ leafStatements fs, f.isHeadedBy "do" = false := by
  fun_induction leafStatements fs with
  | case1 => simp
  | case2 args fs ihArgs ihFs =>
    intro f hf
    rcases List.mem_append.mp hf with hf | hf
    · exact ihArgs f hf
    · exact ihFs f hf
  | case3 g fs hg ih =>
    intro f hf
    rcases List.mem_cons.mp hf with rfl | hf
    · -- `f` is headed by `do` only if it has the shape that the second clause takes
      cases hdo : f.isHeadedBy "do" with
      | false => rfl
      | true =>
        unfold isHeadedBy headSymbol? at hdo
        split at hdo
        · next name args =>
          obtain rfl : name = "do" := by simpa using hdo
          exact absurd rfl (hg args)
        · simp at hdo
    · exact ih f hf

end Form

namespace Text

theorem endsLine_append {s t : String} (h : endsLine t = true) : endsLine (s ++ t) = true := by
  have hlast : t.toList.getLast? = some '\n' := by simpa [endsLine] using h
  simp [endsLine, List.getLast?_append, hlast]

/-- A line is empty or ends with a newline. -/
theorem asLine_ends (s : String) : asLine s = "" ∨ endsLine (asLine s) = true := by
  unfold asLine
  split
  · exact .inl rfl
  · split
    · next h => exact .inr h
    · exact .inr (endsLine_append rfl)

/-- A text that is empty or ends with a newline is a line as it stands. -/
theorem asLine_eq_self {s : String} (h : s = "" ∨ endsLine s = true) : asLine s = s := by
  rcases h with rfl | h
  · rfl
  · rw [asLine, if_pos h]
    split
    · next hs => exact hs.symm
    · rfl

end Text

namespace Render

/-! ## Statements one after the other -/

theorem statements_append (sub : Form → Rendering) (fs gs : List Form) :
    statements sub (fs ++ gs) =
      (do return (← statements sub fs) ++ (← statements sub gs)) := by
  induction fs with
  | nil =>
    cases h : statements sub gs with
    | error e => exact h
    | ok t => simpa [statements, bind, Except.bind, pure, Except.pure] using h
  | cons f fs ih =>
    by_cases hf : f.isSplice = true
    · rw [List.cons_append, statements, if_pos hf, ih, statements, if_pos hf]
    · rw [List.cons_append, statements, if_neg hf, ih, statements, if_neg hf]
      cases sub f with
      | error e => rfl
      | ok text =>
        cases statements sub fs with
        | error e => rfl
        | ok before =>
          cases statements sub gs with
          | error e => rfl
          | ok after => exact congrArg Except.ok (String.append_assoc ..).symm

/-- Statements are whole lines. -/
theorem statements_ends {sub : Form → Rendering} {fs : List Form} {text : String}
    (h : statements sub fs = .ok text) : text = "" ∨ Text.endsLine text = true := by
  induction fs generalizing text with
  | nil => exact .inl (Except.ok.inj h).symm
  | cons f fs ih =>
    rw [statements] at h
    split at h
    · exact ih h
    · obtain ⟨first, -, rest, hrest, rfl⟩ : ∃ first, sub f = .ok first ∧
          ∃ rest, statements sub fs = .ok rest ∧ Text.asLine first ++ rest = text := by
        simpa only [bind_eq_ok, pure_eq_ok] using h
      by_cases hempty : rest = ""
      · rw [hempty, String.append_empty]
        exact Text.asLine_ends first
      · exact .inr (Text.endsLine_append ((ih hrest).resolve_left hempty))

/-- So as a statement themselves they get no further newline. -/
theorem asLine_statements {sub : Form → Rendering} {fs : List Form} {text : String}
    (h : statements sub fs = .ok text) : Text.asLine text = text :=
  Text.asLine_eq_self (statements_ends h)

/-! ## Blocks -/

theorem emit_block (cx : Setting) (fs : List Form) :
    emit cx (.call "do" fs) = statements (emit cx) fs := by
  rw [emit_eq]
  rfl

/-- A block among statements stands for the statements that it holds. -/
theorem statements_block (cx : Setting) (fs gs : List Form) :
    statements (emit cx) (.call "do" fs :: gs) = statements (emit cx) (fs ++ gs) := by
  have hblock : Form.isSplice (.call "do" fs) ≠ true := by simp [Form.isSplice, Form.call]
  rw [statements, if_neg hblock, emit_block, statements_append]
  cases h : statements (emit cx) fs with
  | error e => rfl
  | ok text =>
    -- the inner block is a line already, so making it one adds nothing
    show (do return Text.asLine text ++ (← statements (emit cx) gs)) =
      (do return text ++ (← statements (emit cx) gs))
    rw [asLine_statements h]

/-- Statements that render alike may be exchanged behind others. -/
theorem statements_append_congr {sub : Form → Rendering} (fs : List Form) {gs hs : List Form}
    (h : statements sub gs = statements sub hs) :
    statements sub (fs ++ gs) = statements sub (fs ++ hs) := by
  rw [statements_append, statements_append, h]

/-- A nest of blocks renders as its leaf statements. -/
theorem statements_leafStatements (cx : Setting) (fs : List Form) :
    statements (emit cx) fs = statements (emit cx) (Form.leafStatements fs) := by
  fun_induction Form.leafStatements fs with
  | case1 => rfl
  | case2 args fs ihArgs ihFs =>
    calc statements (emit cx) (.call "do" args :: fs)
      _ = statements (emit cx) (args ++ fs) := statements_block cx args fs
      _ = statements (emit cx) (Form.leafStatements args ++ Form.leafStatements fs) := by
        rw [statements_append, statements_append, ihArgs, ihFs]
  | case3 f fs _ ih => exact statements_append_congr [f] ih

theorem render_block (cx : Setting) (fs : List Form) : render cx [.call "do" fs] =
    (statements (emit cx) fs).mapError (Fault.locate cx.origin) := by
  rw [render, emit_block]

/-- Blocks flatten.  A block in statement position may be replaced by its statements, and a nest of
    any depth by its leaves, with the same text or the same fault; statements are whole lines, and
    those of two lists in a row are the statements of the one and then of the other. -/
theorem render_block_flatten (cx : Setting) :
    (∀ xs ys zs, render cx [.call "do" (xs ++ .call "do" ys :: zs)] =
      render cx [.call "do" (xs ++ ys ++ zs)]) ∧
    (∀ fs, (∀ f ∈ Form.leafStatements fs, f.isHeadedBy "do" = false) ∧
      render cx [.call "do" fs] = render cx [.call "do" (Form.leafStatements fs)]) ∧
    (∀ fs text, statements (emit cx) fs = .ok text → text = "" ∨ Text.endsLine text = true) ∧
    ∀ fs gs, statements (emit cx) (fs ++ gs) =
      (do return (← statements (emit cx) fs) ++ (← statements (emit cx) gs)) := by
  refine ⟨?_, ?_, fun fs text => statements_ends, statements_append (emit cx)⟩
  · intro xs ys zs
    rw [render_block, render_block, List.append_assoc,
      statements_append_congr xs (statements_block cx ys zs)]
  · intro fs
    refine ⟨Form.not_block_of_mem_leafStatements fs, ?_⟩
    rw [render_block, render_block, ← statements_leafStatements]

/-- Three levels, with an empty block and a function, whose text ends its own line. -/
theorem render_block_flatten_nested :
    let nest := [Form.symbol "a", .call "do" [.call "do" [], .call "do" [.symbol "b", .splice,
      .call "defn" [.vector []]]], .symbol "c"]
    let text := "a\nb\nfunction () \x7b\n\x7d\nc\n"
    render Setting.plain [.call "do" nest] = render Setting.plain [.call "do"
      [.symbol "a", .symbol "b", .splice, .call "defn" [.vector []], .symbol "c"]] ∧
    statements (emit Setting.plain) nest = .ok text ∧ Text.endsLine text = true := by
  intro nest text
  obtain ⟨-, hleaves, hends, -⟩ := render_block_flatten Setting.plain
  have htext : statements (emit Setting.plain) nest = .ok text := by rfl
  have hnest : Form.leafStatements nest =
      [.symbol "a", .symbol "b", .splice, .call "defn" [.vector []], .symbol "c"] := by
    simp [nest, Form.leafStatements, Form.call]
  refine ⟨?_, htext, (hends nest text htext).resolve_left (by decide)⟩
  rw [(hleaves nest).2, hnest]

end Render

end ScriptTree

/-
  Chains of forms and chains of texts.

  There are two ways to a chain of commands: the construct `chain-and`, which is given forms, and
  `Script.chain`, which is given the texts that forms were rendered to.  Both leave out what is
  blank and put ` && ` between the rest (`parts_of_texts`, `solid_eq`).  They differ in that the
  second trims each text before it is joined and the first does not.

  So the two chains are the same text iff there was nothing to trim, because trimming makes a text
  shorter unless it leaves it as it was, and a join is as long as its parts and separators together
  (`intercalate_trim_eq_iff`).  Where a text ends with a newline of its own, as that of a block or a
  function does, the chain of forms has this newline in front of the separator, and the chain of
  texts has none (`endsLine_intercalate`).
-/
import Mathlib.Data.List.Forall2
import ScriptTree.Proofs.Success
import ScriptTree.Script.Join

namespace ScriptTree

namespace Text

/-! ## Joins -/

/-- A text that is not empty decides how a text ends that it stands at the end of. -/
theorem endsLine_append_of_ne_empty (s : String) {t : String} (h : t ≠ "") :
    endsLine (s ++ t) = endsLine t := by
  have hlast : t.toList.getLast? ≠ none := by simpa using h
  unfold endsLine
  rw [String.toList_append, List.getLast?_append]
  cases ht : t.toList.getLast? with
  | none => exact absurd ht hlast
  | some c => rfl

/-- A join ends the way its last part does. -/
theorem endsLine_intercalate (separator : String) (ts : List String) {t : String} (h : t ≠ "") :
    endsLine (separator.intercalate (ts ++ [t])) = endsLine t := by
  by_cases hts : ts = []
  · rw [hts, List.nil_append, String.intercalate_singleton]
  · rw [String.intercalate_append_of_ne_nil hts (by simp), String.intercalate_singleton]
    exact endsLine_append_of_ne_empty _ h

/-- A join of texts that are not empty is empty only if there are none. -/
theorem intercalate_eq_empty_iff (separator : String) {ts : List String}
    (h : ∀ t ∈ ts, t ≠ "") : separator.intercalate ts = "" ↔ ts = [] := by
  constructor
  · intro hempty
    cases ts with
    | nil => rfl
    | cons t ts =>
      have ht : t ≠ "" := h t (by simp)
      by_cases hts : ts = []
      · rw [hts, String.intercalate_singleton] at hempty
        exact absurd hempty ht
      · rw [String.intercalate_cons_of_ne_nil hts] at hempty
        simp [ht] at hempty
  · rintro rfl
    exact String.intercalate_nil

/-- A join is as long as its parts and the separators between them. -/
theorem length_intercalate (separator : String) (ts : List String) :
    (separator.intercalate ts).length =
      (String.join ts).length + (ts.length - 1) * separator.length := by
  induction ts with
  | nil => simp
  | cons t ts ih =>
    cases ts with
    | nil => simp
    | cons u us =>
      have hcount : (t :: u :: us).length - 1 = (u :: us).length - 1 + 1 := by simp
      rw [String.join_cons, String.intercalate_cons_cons, hcount, Nat.succ_mul]
      simp only [String.length_append, ih]
      omega

/-- Trimming texts makes them no longer altogether, and leaves their length only if it leaves every
    one of them. -/
theorem length_join_trim (ts : List String) :
    (String.join (ts.map trim)).length ≤ (String.join ts).length ∧
    ((String.join (ts.map trim)).length = (String.join ts).length → ∀ t ∈ ts, trim t = t) := by
  induction ts with
  | nil => simp
  | cons t ts ih =>
    obtain ⟨hle, heq⟩ := ih
    have ht := length_trim_le t
    simp only [List.map_cons, String.join_cons, String.length_append]
    refine ⟨by omega, fun hlength => ?_⟩
    intro u hu
    rcases List.mem_cons.mp hu with rfl | hu
    · exact trim_eq_self_of_length (by omega)
    · exact heq (by omega) u hu

theorem intercalate_trim_eq_iff (separator : String) (ts : List String) :
    separator.intercalate (ts.map trim) = separator.intercalate ts ↔ ∀ t ∈ ts, trim t = t := by
  constructor
  · intro h
    have hlength : (separator.intercalate (ts.map trim)).length =
        (separator.intercalate ts).length := by rw [h]
    rw [length_intercalate, length_intercalate, List.length_map] at hlength
    exact (length_join_trim ts).2 (by omega)
  · intro h
    have hmap : ts.map trim = ts.map id := List.map_congr_left h
    rw [hmap, List.map_id]

end Text

namespace Script

/-- The texts that are not blank, trimmed. -/
theorem solid_eq (texts : List String) :
    solid texts = (texts.filter fun s => !Text.isBlank s).map Text.trim := by
  unfold solid
  induction texts with
  | nil => rfl
  | cons s texts ih =>
    cases hs : Text.isBlank s with
    | true =>
      have hempty : Text.trim s = "" := Text.trim_eq_empty_iff.mpr hs
      simpa [hs, hempty] using ih
    | false =>
      have hne : Text.trim s ≠ "" := fun h => by simp [Text.trim_eq_empty_iff.mp h] at hs
      simpa [hs, hne] using ih

theorem chain_eq (texts : List String) :
    chain texts = " && ".intercalate ((texts.filter fun s => !Text.isBlank s).map Text.trim) := by
  rw [chain, solid_eq]

end Script

namespace Render

/-! ## Parts from texts -/

/-- If every form has a text, the parts of the forms are those of the texts that are not blank. -/
theorem parts_of_texts {cx : Setting} {fs : List Form} {texts : List String}
    (h : List.Forall₂ (fun f s => emit cx f = .ok s) fs texts) :
    parts (emit cx) fs = .ok (texts.filter fun s => !Text.isBlank s) := by
  induction h with
  | nil => rfl
  | @cons f s fs texts hf _ ih =>
    rw [parts]
    split
    · next hsplice =>
      -- the mark of a splice is left out on the one side, and its blank text on the other
      rw [eq_splice_of_isSplice hsplice, emit_splice] at hf
      obtain rfl := Except.ok.inj hf
      exact ih
    · rw [hf, ih]
      cases hs : Text.isBlank s <;> simp [hs, bind, Except.bind, pure, Except.pure]

theorem emit_chainAnd (cx : Setting) (fs : List Form) :
    emit cx (.call "chain-and" fs) = joined (emit cx) " && " fs := by
  rw [emit_eq]
  rfl

theorem render_single_eq_ok {cx : Setting} {f : Form} {text : String} :
    render cx [f] = .ok text ↔ emit cx f = .ok text := by
  rw [render, mapError_eq_ok]

/-- The chain of forms that have texts joins the texts that are not blank as they are, and the chain
    of the texts joins them trimmed.  They are the same iff there is nothing to trim.  In front of
    each separator the first has the newline that the text before it may end with, and the second
    never has one. -/
theorem render_chainAnd (cx : Setting) (fs : List Form) (texts : List String)
    (h : List.Forall₂ (fun f s => render cx [f] = .ok s) fs texts) :
    let shown := texts.filter fun s => !Text.isBlank s
    render cx [.call "chain-and" fs] = .ok (" && ".intercalate shown) ∧
    Script.chain texts = " && ".intercalate (shown.map Text.trim) ∧
    (render cx [.call "chain-and" fs] = .ok (Script.chain texts) ↔
      ∀ s ∈ texts, Text.isBlank s = false → Text.trim s = s) ∧
    ∀ before s after, shown = before ++ s :: after → after ≠ [] →
      ∃ left left',
        render cx [.call "chain-and" fs] = .ok (left ++ " && " ++ " && ".intercalate after) ∧
        Text.endsLine left = Text.endsLine s ∧
        Script.chain texts = left' ++ " && " ++ " && ".intercalate (after.map Text.trim) ∧
        Text.endsLine left' = false := by
  intro shown
  have htexts : List.Forall₂ (fun f s => emit cx f = .ok s) fs texts :=
    h.imp fun f s hf => render_single_eq_ok.mp hf
  have hrender : render cx [.call "chain-and" fs] = .ok (" && ".intercalate shown) := by
    rw [render_single_eq_ok, emit_chainAnd, joined, parts_of_texts htexts]
    rfl
  have hchain : Script.chain texts = " && ".intercalate (shown.map Text.trim) :=
    Script.chain_eq texts
  refine ⟨hrender, hchain, ?_, ?_⟩
  · rw [hrender, hchain, Except.ok.injEq, eq_comm, Text.intercalate_trim_eq_iff]
    simp [shown]
  · intro before s after hshown hafter
    have hs : Text.isBlank s = false := by
      have hmem : s ∈ shown := by simp [hshown]
      simpa [shown] using (List.mem_filter.mp hmem).2
    have hne : s ≠ "" := by
      rintro rfl
      exact absurd hs (by decide)
    have htrim : Text.trim s ≠ "" := fun hempty => by
      simp [Text.trim_eq_empty_iff.mp hempty] at hs
    refine ⟨" && ".intercalate (before ++ [s]),
      " && ".intercalate (before.map Text.trim ++ [Text.trim s]), ?_, ?_, ?_, ?_⟩
    · rw [hrender, hshown, ← String.intercalate_append_of_ne_nil (by simp) hafter]
      simp
    · exact Text.endsLine_intercalate _ before hne
    · rw [hchain, hshown, ← String.intercalate_append_of_ne_nil (by simp) (by simpa using hafter)]
      simp
    · rw [Text.endsLine_intercalate _ _ htrim, Text.endsLine_trim]

/-- A block ends its own line, and the newline stays in the chain of forms. -/
theorem render_chainAnd_block :
    let forms := [Form.call "do" [.call "a" []], .splice, .call "b" []]
    let texts := ["a\n", "", "b"]
    List.Forall₂ (fun f s => render Setting.plain [f] = .ok s) forms texts ∧
    render Setting.plain [.call "chain-and" forms] = .ok "a\n && b" ∧
    Script.chain texts = "a && b" ∧
    render Setting.plain [.call "chain-and" forms] ≠ .ok (Script.chain texts) := by
  intro forms texts
  have hblock : render Setting.plain [.call "do" [.call "a" []]] = .ok "a\n" :=
    eq_ok_of_toOption (by decide +kernel)
  have hsplice : render Setting.plain [.splice] = .ok "" := eq_ok_of_toOption (by decide +kernel)
  have hcommand : render Setting.plain [.call "b" []] = .ok "b" :=
    eq_ok_of_toOption (by decide +kernel)
  have htexts : List.Forall₂ (fun f s => render Setting.plain [f] = .ok s) forms texts :=
    .cons hblock (.cons hsplice (.cons hcommand .nil))
  have hforms : render Setting.plain [.call "chain-and" forms] = .ok "a\n && b" :=
    eq_ok_of_toOption (by decide +kernel)
  have hmem : "a\n" ∈ texts := by simp [texts]
  obtain ⟨-, -, hiff, -⟩ := render_chainAnd Setting.plain forms texts htexts
  refine ⟨htexts, hforms, by decide +kernel, fun hsame => ?_⟩
  have htrimmed : Text.trim "a\n" = "a\n" := hiff.mp hsame "a\n" hmem (by decide +kernel)
  exact absurd htrimmed (by decide +kernel)

end Render

end ScriptTree

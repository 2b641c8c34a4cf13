/-
  The lines of a guarded chain.

  A guard announces what it does, runs a chain of commands between braces, reports a failure, and
  says that it is done: three lines, if the chain is one line.  The separators of a chain hold no
  newline, and trimming takes away the newlines at the ends of a text, but those inside a text stay.
  So the guard has one more line for each newline inside one of its texts (`length_lines_checked`),
  and it has the three lines iff there is none.

  A newline inside a text ends a line within the braces: what stands before it is run and its
  failure is lost, since the guard sees the last command of the last line only.  A line of a text
  that is neither its first nor its last stands on a line of its own there.
-/
import ScriptTree.Proofs.Regrouping

namespace ScriptTree

namespace Text

/-! ## Lines -/

/-- What stands between the newlines of a text. -/
def pieces (s : String) : List String :=
  (s.toList.splitOn '\n').map String.ofList

/-- The lines of a text, without their newlines.  Behind the last newline there is a line only if
    there is something. -/
def lines (s : String) : List String :=
  if (pieces s).getLast? = some "" then (pieces s).dropLast else pieces s

example : lines "" = [] ∧ lines "a\nb" = ["a", "b"] ∧ lines "a\n\nb\n" = ["a", "", "b"] := by
  decide +kernel

theorem pieces_ne_nil (s : String) : pieces s ≠ [] := by
  simp [pieces, List.splitOn_ne_nil]

theorem pieces_append (s t : String) : pieces (s ++ "\n" ++ t) = pieces s ++ pieces t := by
  have hchars : (s ++ "\n" ++ t).toList = s.toList ++ '\n' :: t.toList := by simp
  rw [pieces, hchars, List.splitOn_append_cons_self, List.map_append, pieces, pieces]

theorem pieces_eq_singleton {s : String} (h : '\n' ∉ s.toList) : pieces s = [s] := by
  rw [pieces, List.splitOn_eq_singleton h, List.map_singleton, String.ofList_toList]

/-- Each newline begins another piece. -/
theorem length_pieces (s : String) : (pieces s).length = s.toList.count '\n' + 1 := by
  rw [pieces, List.length_map]
  induction s.toList with
  | nil => rfl
  | cons c cs ih =>
    rw [List.splitOn_cons_eq_if_modifyHead]
    by_cases hc : c = '\n'
    · rw [if_pos (by simp [hc]), hc, List.count_cons_self, List.length_cons, ih]
    · rw [if_neg (by simp [hc]), List.length_modifyHead, ih, List.count_cons_of_ne hc]

/-- A newline ends a line. -/
theorem lines_append (s t : String) : lines (s ++ "\n" ++ t) = pieces s ++ lines t := by
  have hlast : (pieces (s ++ "\n" ++ t)).getLast? = (pieces t).getLast? := by
    rw [pieces_append, List.getLast?_append_of_ne_nil _ (pieces_ne_nil t)]
  unfold lines
  rw [hlast, pieces_append]
  split
  · exact List.dropLast_append_of_ne_nil (pieces_ne_nil t)
  · rfl

theorem lines_ended (s : String) : lines (s ++ "\n") = pieces s := by
  have hlines := lines_append s ""
  rwa [String.append_empty, show lines "" = [] by decide +kernel, List.append_nil] at hlines

/-- A line stands in front of the other lines. -/
theorem lines_cons {s : String} (h : '\n' ∉ s.toList) (t : String) :
    lines (s ++ "\n" ++ t) = s :: lines t := by
  rw [lines_append, pieces_eq_singleton h, List.singleton_append]

/-- Each part stands in the join somewhere. -/
theorem exists_intercalate_of_mem (separator : String) {ts : List String} {t : String}
    (h : t ∈ ts) : ∃ opening closing, separator.intercalate ts = opening ++ t ++ closing := by
  induction ts with
  | nil => exact absurd h (by simp)
  | cons u ts ih =>
    by_cases hts : ts = []
    · obtain rfl : t = u := by simpa [hts] using h
      exact ⟨"", "", by simp [hts]⟩
    · rw [String.intercalate_cons_of_ne_nil hts]
      rcases List.mem_cons.mp h with rfl | h
      · exact ⟨"", separator ++ separator.intercalate ts, by simp [String.append_assoc]⟩
      · obtain ⟨opening, closing, heq⟩ := ih h
        exact ⟨u ++ separator ++ opening, closing, by simp [heq, String.append_assoc]⟩

/-- Separators without newlines leave the newlines of a join to its parts. -/
theorem count_newline_intercalate {separator : String} (h : '\n' ∉ separator.toList)
    (ts : List String) : (separator.intercalate ts).toList.count '\n' =
      (String.join ts).toList.count '\n' := by
  have hseparator : separator.toList.count '\n' = 0 := List.count_eq_zero.mpr h
  induction ts with
  | nil => simp
  | cons t ts ih =>
    by_cases hts : ts = []
    · rw [hts, String.intercalate_singleton, String.join_cons, String.join_nil,
        String.append_empty]
    · rw [String.intercalate_cons_of_ne_nil hts, String.join_cons]
      simp only [String.toList_append, List.count_append]
      omega

end Text

namespace Script

open Text

/-! ## The three parts of a guard -/

/-- The line that announces what is done. -/
def announcement (message : String) : String :=
  "echo \"" ++ message ++ "...\""

/-- The commands between braces, and what is done if the last of them fails. -/
def guardLine (message commands : String) : String :=
  "\x7b " ++ commands ++ "; \x7d || \x7b echo \"" ++ message ++ "\" failed; exit 1; \x7d >&2"

theorem guarded_eq (message commands : String) : guarded message commands =
    announcement message ++ "\n" ++ (guardLine message commands ++ "\n" ++
      ("echo \"...done\"" ++ "\n")) := by
  rw [← String.toList_inj]
  simp [guarded, announcement, guardLine]

variable {message : String} (hmessage : '\n' ∉ message.toList)

include hmessage

theorem lines_guarded (commands : String) : lines (guarded message commands) =
    announcement message :: (pieces (guardLine message commands) ++ ["echo \"...done\""]) := by
  have hannounced : '\n' ∉ (announcement message).toList := by
    simpa [announcement] using hmessage
  have hdone : pieces "echo \"...done\"" = ["echo \"...done\""] := by decide +kernel
  rw [guarded_eq, lines_cons hannounced, lines_append, lines_ended, hdone]

/-- The newlines between the braces are those of the commands. -/
theorem count_guardLine (commands : String) :
    (guardLine message commands).toList.count '\n' = commands.toList.count '\n' := by
  have hcount : message.toList.count '\n' = 0 := List.count_eq_zero.mpr hmessage
  simp [guardLine, hcount]

omit hmessage

theorem checked_eq_guarded {texts : List String} (h : checked message texts ≠ "") :
    checked message texts = guarded message (chain texts) := by
  unfold checked at h ⊢
  split at h
  · exact absurd rfl h
  · next hblank => rw [if_neg hblank]

/-! ## Texts under a guard -/

/-- The blank texts that a join drops are empty when trimmed. -/
theorem join_solid (texts : List String) :
    String.join (solid texts) = String.join (texts.map trim) := by
  unfold solid
  induction texts with
  | nil => rfl
  | cons s texts ih =>
    by_cases hs : trim s = ""
    · rw [List.map_cons, List.filter_cons_of_neg (by simp [hs]), ih, String.join_cons, hs,
        String.empty_append]
    · rw [List.map_cons, List.filter_cons_of_pos (by simp [hs]), String.join_cons, ih,
        String.join_cons]

/-- The newlines of a chain are those that trimming leaves in its texts. -/
theorem count_chain (texts : List String) : (chain texts).toList.count '\n' =
    (String.join (texts.map trim)).toList.count '\n' := by
  rw [chain, count_newline_intercalate (by decide), join_solid]

theorem newline_mem_chain {texts : List String} :
    '\n' ∈ (chain texts).toList ↔ ∃ s ∈ texts, '\n' ∈ (trim s).toList := by
  rw [← List.count_pos_iff, count_chain, List.count_pos_iff, String.toList_join]
  simp

/-- A text that is not blank stands under the guard, trimmed. -/
theorem exists_checked_of_mem (message : String) {texts : List String} {s : String} (hs : s ∈ texts)
    (hsolid : isBlank s = false) :
    ∃ opening closing, checked message texts = opening ++ trim s ++ closing := by
  have hresult : checked message texts ≠ "" := fun hempty => by
    simp [checked_eq_empty_iff.mp hempty s hs] at hsolid
  have hmem : trim s ∈ solid texts := by
    rw [solid_eq]
    exact List.mem_map.mpr ⟨s, List.mem_filter.mpr ⟨hs, by simp [hsolid]⟩, rfl⟩
  obtain ⟨opening, closing, hchain⟩ := exists_intercalate_of_mem " && " hmem
  refine ⟨announcement message ++ "\n\x7b " ++ opening,
    closing ++ "; \x7d || \x7b echo \"" ++ message ++ "\" failed; exit 1; \x7d >&2\n" ++
      "echo \"...done\"\n", ?_⟩
  rw [checked_eq_guarded hresult, guarded, chain, hchain, ← String.toList_inj]
  simp [announcement]

/-- The lines of a guard that is there: one for each newline inside a text, besides the three. -/
theorem length_lines_checked (hmessage : '\n' ∉ message.toList) {texts : List String}
    (h : checked message texts ≠ "") : (lines (checked message texts)).length =
      3 + (String.join (texts.map trim)).toList.count '\n' := by
  rw [checked_eq_guarded h, lines_guarded hmessage, ← count_chain,
    ← count_guardLine hmessage (chain texts)]
  simp only [List.length_cons, List.length_append, List.length_nil, length_pieces]
  omega

/-- A guard has its three lines iff no text has a newline inside. -/
theorem lines_checked_iff (hmessage : '\n' ∉ message.toList) {texts : List String}
    (h : checked message texts ≠ "") : lines (checked message texts) =
        [announcement message, guardLine message (chain texts), "echo \"...done\""] ↔
      ∀ s ∈ texts, '\n' ∉ (trim s).toList := by
  have hinside : (∀ s ∈ texts, '\n' ∉ (trim s).toList) ↔ '\n' ∉ (chain texts).toList := by
    rw [newline_mem_chain]
    simp
  rw [hinside, ← List.count_eq_zero, ← count_guardLine hmessage]
  constructor
  · intro hlines
    have hlength := length_lines_checked hmessage h
    rw [hlines, ← count_chain, ← count_guardLine hmessage] at hlength
    simp only [List.length_cons, List.length_nil] at hlength
    omega
  · intro hcount
    rw [checked_eq_guarded h, lines_guarded hmessage,
      pieces_eq_singleton (List.count_eq_zero.mp hcount)]
    rfl

/-- What is checked under a message of one line is nothing, or the three lines of a guard, iff no
    text has a newline inside.  Otherwise each of these newlines ends a line between the braces:
    what stands before it is the end of one line and what stands behind it begins the next, without
    `&&`, and a line of a text between two of them is a line of its own. -/
theorem checked_lines (message : String) (texts : List String) (hmessage : '\n' ∉ message.toList) :
    let result := checked message texts
    (result = "" ∨ lines result =
        [announcement message, guardLine message (chain texts), "echo \"...done\""] ↔
      ∀ s ∈ texts, '\n' ∉ (trim s).toList) ∧
    (result ≠ "" →
      (lines result).length = 3 + (String.join (texts.map trim)).toList.count '\n') ∧
    ∀ s ∈ texts, ∀ before after, trim s = before ++ "\n" ++ after →
      ∃ opening closing, result = opening ++ before ++ "\n" ++ after ++ closing ∧
        lines result = pieces (opening ++ before) ++ lines (after ++ closing) ∧
        ∀ line rest, after = line ++ "\n" ++ rest → '\n' ∉ line.toList → line ∈ lines result := by
  intro result
  refine ⟨?_, length_lines_checked hmessage, ?_⟩
  · by_cases hresult : result = ""
    · have hblank : ∀ s ∈ texts, isBlank s = true := checked_eq_empty_iff.mp hresult
      simp only [hresult, true_or, true_iff]
      intro s hs
      rw [trim_eq_empty_iff.mpr (hblank s hs)]
      simp
    · rw [or_iff_right hresult, lines_checked_iff hmessage hresult]
  · intro s hs before after hsplit
    have hsolid : isBlank s = false := by
      cases hblank : isBlank s with
      | false => rfl
      | true =>
        rw [trim_eq_empty_iff.mpr hblank] at hsplit
        simpa using congrArg String.toList hsplit
    obtain ⟨opening, closing, hresult⟩ := exists_checked_of_mem message hs hsolid
    have hbreak : result = opening ++ before ++ "\n" ++ (after ++ closing) := by
      simp only [result, hresult, hsplit, String.append_assoc]
    refine ⟨opening, closing, by rw [hbreak, ← String.append_assoc], ?_, ?_⟩
    · rw [hbreak, lines_append]
    · intro line rest hafter hline
      have hnext : after ++ closing = line ++ "\n" ++ (rest ++ closing) := by
        rw [hafter, String.append_assoc]
      rw [hbreak, hnext, lines_append, lines_cons hline]
      simp

/-- A block of three statements: the second is a line of its own. -/
theorem checked_lines_block :
    let block := Form.call "do" [.call "a" [], .call "b" [], .call "c" []]
    let result := checked "step" ["a\nb\nc\n"]
    Render.render Setting.plain [block] = .ok "a\nb\nc\n" ∧
    '\n' ∉ "step".toList ∧
    lines result = ["echo \"step...\"", "\x7b a", "b",
      "c; \x7d || \x7b echo \"step\" failed; exit 1; \x7d >&2", "echo \"...done\""] ∧
    ¬(result = "" ∨ lines result =
      [announcement "step", guardLine "step" (chain ["a\nb\nc\n"]), "echo \"...done\""]) := by
  intro block result
  have hmessage : '\n' ∉ "step".toList := by decide
  have hblock : Render.render Setting.plain [block] = .ok "a\nb\nc\n" :=
    Render.eq_ok_of_toOption (by decide +kernel)
  obtain ⟨hiff, -, -⟩ := checked_lines "step" ["a\nb\nc\n"] hmessage
  refine ⟨hblock, hmessage, by decide +kernel, fun hthree => ?_⟩
  exact absurd (hiff.mp hthree "a\nb\nc\n" (by simp)) (by decide +kernel)

end Script

end ScriptTree

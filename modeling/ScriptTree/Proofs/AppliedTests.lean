/-
  Tests that are applied.

  An `apply` is rendered as the list it stands for, so on its own it has the same text as that list.
  As the condition of a construct it is looked at before it is rendered: whether brackets are put
  around a condition is decided by the symbol at its head, and that symbol is `apply`, which is no
  test, whatever it applies.

  So an applied command is a condition like the command itself, with the same text or the same fault
  in every construct that branches.  An applied test goes without the brackets that the test has,
  and with the grouping that an operation loses in them.  What stands around the condition is the
  same for both (`emit_branching_frame`), so the two texts differ in the condition and there only.
-/
import ScriptTree.Proofs.Chains
import ScriptTree.Proofs.Conditions
import ScriptTree.Proofs.SlotUse

namespace ScriptTree

/-- The list `(apply name args... [items...])`. -/
def Form.applied (name : String) (args items : List Form) : Form :=
  .call "apply" (.symbol name :: args ++ [.vector items])

namespace Render

theorem spread_append_vector (fs items : List Form) :
    spread (fs ++ [.vector items]) = fs ++ items := by
  induction fs with
  | nil => rfl
  | cons f fs ih =>
    -- behind the first form there is at least the vector, so it is not the last
    cases hrest : fs ++ [Form.vector items] with
    | nil => simp at hrest
    | cons g gs => simp [hrest, spread, ← ih]

theorem emit_applied (cx : Setting) (name : String) (args items : List Form) :
    emit cx (.applied name args items) = emit cx (.call name (args ++ items)) := by
  rw [Form.applied, emit_apply cx (by simp), spread_append_vector]
  rfl

/-! ## What stands around a condition -/

/-- Branches that have a text stand behind any other condition as they do behind this one. -/
theorem conditional_frame {sub : Form → Rendering} {c : Construct} {judge : Form → Rendering}
    {f : Form} {rest : List Form} {text : String}
    (h : conditional sub c judge (f :: rest) = .ok text) :
    ∃ closing, ∀ g, conditional sub c judge (g :: rest) =
      (do return "if " ++ (← judge g) ++ closing) := by
  have hframe : ∀ yes no?, conditional sub c judge (f :: yes :: Option.toList no?) = .ok text →
      ∃ closing, ∀ g, conditional sub c judge (g :: yes :: Option.toList no?) =
        (do return "if " ++ (← judge g) ++ closing) := by
    intro yes no? hyes
    rw [conditional_eq] at hyes
    obtain ⟨cond, -, tail, htail, -⟩ : ∃ cond, judge f = .ok cond ∧ ∃ tail,
        branches sub yes no? = .ok tail ∧ "if " ++ cond ++ "; then" ++ tail = text := by
      simpa only [bind_eq_ok, pure_eq_ok] using hyes
    refine ⟨"; then" ++ tail, fun g => ?_⟩
    rw [conditional_eq, htail]
    cases judge g with
    | error e => rfl
    | ok cond =>
      show Except.ok ("if " ++ cond ++ "; then" ++ tail) =
        Except.ok ("if " ++ cond ++ ("; then" ++ tail))
      rw [String.append_assoc]
  rcases rest with _ | ⟨yes, _ | ⟨no, _ | ⟨_, _⟩⟩⟩
  · exact absurd h (badCount_ne_ok c [f] text)
  · exact hframe yes none h
  · exact hframe yes (some no) h
  · exact absurd h (badCount_ne_ok c _ text)

/-- If a construct has a text, it has one with every other condition, and what stands around the
    condition is the same. -/
theorem emit_branching_frame {cx : Setting} {c : String}
    (hc : c ∈ ["if", "if-not", "when", "while"]) {f : Form} {rest : List Form} {text : String}
    (h : emit cx (.call c (f :: rest)) = .ok text) :
    ∃ opening closing, ∀ g, emit cx (.call c (g :: rest)) =
      (do return opening ++ (← judged cx c g) ++ closing) := by
  simp only [List.mem_cons, List.not_mem_nil, or_false] at hc
  rcases hc with rfl | rfl | rfl | rfl
  · rw [emit_ifElse] at h
    obtain ⟨closing, hframe⟩ := conditional_frame h
    exact ⟨"if ", closing, fun g => by rw [emit_ifElse, hframe]; rfl⟩
  · rw [emit_ifNot] at h
    obtain ⟨closing, hframe⟩ := conditional_frame h
    exact ⟨"if ", closing, fun g => by rw [emit_ifNot, hframe]; rfl⟩
  · rw [emit_whenTrue] at h
    obtain ⟨body, hbody, -⟩ := bind_eq_ok.mp h
    refine ⟨"if ", "; then\n" ++ bodyOr body ++ "\nfi", fun g => ?_⟩
    rw [emit_whenTrue, whenTrue, hbody]
    show (do return "if " ++ (← condition (emit cx) g) ++ "; then\n" ++ bodyOr body ++ "\nfi") =
      (do return "if " ++ (← condition (emit cx) g) ++ ("; then\n" ++ bodyOr body ++ "\nfi"))
    simp only [String.append_assoc]
  · rw [emit_whileTrue] at h
    obtain ⟨cond, -, hrest⟩ := bind_eq_ok.mp h
    obtain ⟨body, hbody, -⟩ := bind_eq_ok.mp hrest
    refine ⟨"while ", "; do\n" ++ body ++ "done", fun g => ?_⟩
    rw [emit_whileTrue, whileTrue, hbody]
    show (do return "while " ++ (← condition (emit cx) g) ++ "; do\n" ++ body ++ "done") =
      (do return "while " ++ (← condition (emit cx) g) ++ ("; do\n" ++ body ++ "done"))
    simp only [String.append_assoc]

/-! ## Conditions, applied and direct -/

/-- The text of a test outside of brackets: an operation keeps its grouping. -/
def grouped (name bare : String) : String :=
  if isTestOperator name then "\\( " ++ bare ++ " \\)" else bare

/-- A test as a construct takes it. -/
def bracketed (c name bare : String) : String :=
  if c = "if-not" then "[ ! " ++ grouped name bare ++ " ]" else "[ " ++ bare ++ " ]"

/-- A test as a construct takes it when it is applied. -/
def unbracketed (c name bare : String) : String :=
  if c = "if-not" then "! " ++ grouped name bare else grouped name bare

theorem bracketed_ne_unbracketed (c name bare : String) :
    bracketed c name bare ≠ unbracketed c name bare := by
  intro heq
  have hlength := congrArg String.length heq
  unfold bracketed unbracketed grouped at hlength
  by_cases hc : c = "if-not"
  · rw [if_pos hc, if_pos hc] at hlength
    simp only [String.length_append] at hlength
    have hopening : "[ ! ".length = 4 ∧ "! ".length = 2 := ⟨rfl, rfl⟩
    omega
  · rw [if_neg hc, if_neg hc] at hlength
    have hbrackets : "[ ".length = 2 ∧ " ]".length = 2 := ⟨rfl, rfl⟩
    have hgroup : "\\( ".length = 3 ∧ " \\)".length = 3 := ⟨rfl, rfl⟩
    split at hlength
    · simp only [String.length_append] at hlength
      omega
    · simp only [String.length_append] at hlength
      omega

section

variable (cx : Setting) {name : String}

/-- The text of a test is its text in brackets, with the grouping that it has outside. -/
theorem emit_test (h : isTest name = true) (args : List Form) : emit cx (.call name args) =
    (do return grouped name (← test (emit cx) (.call name args))) := by
  cases hop : Operator.named? name with
  | some op =>
    have htests : op.tests = true := by rw [← Operator.isTest_of_named hop, h]
    have hgroup : op.group = grouped name := by
      funext s
      simp [Operator.group, grouped, isTestOperator, hop, htests]
    rw [test_operation hop, Form.call, emit_operation hop, operation, hgroup]
  | none =>
    have htest : test (emit cx) (.call name args) = emit cx (.call name args) := by
      simp only [test, Form.call, hop]
    have hgrouped : grouped name = id := by
      funext s
      simp [grouped, isTestOperator, hop]
    rw [htest, hgrouped]
    simp

theorem judged_command {f : Form} (h : f.headSymbol?.any isTest = false) (c : String) :
    judged cx c f = if c = "if-not" then (do return "! " ++ (← emit cx f)) else emit cx f := by
  by_cases hc : c = "if-not"
  · rw [judged, if_pos hc, if_pos hc, negatedCondition_of_command cx h]
  · rw [judged, if_neg hc, if_neg hc, condition, if_neg (by simp [h])]

/-- An applied list is a command, whatever it applies. -/
theorem judged_applied (c : String) (args items : List Form) :
    judged cx c (.applied name args items) =
      if c = "if-not" then (do return "! " ++ (← emit cx (.call name (args ++ items))))
      else emit cx (.call name (args ++ items)) := by
  have hcommand : (Form.applied name args items).headSymbol?.any isTest = false := by
    show isTest "apply" = false
    decide +kernel
  rw [judged_command cx hcommand, emit_applied]

theorem judged_test (h : isTest name = true) (c : String) (args : List Form) :
    judged cx c (.call name args) =
      (do return bracketed c name (← test (emit cx) (.call name args))) := by
  have htest : (Form.call name args).headSymbol?.any isTest = true := h
  by_cases hc : c = "if-not"
  · rw [judged, if_pos hc, negatedCondition, if_pos htest, emit_test cx h]
    simp [bracketed, hc]
  · rw [judged, if_neg hc, condition, if_pos htest]
    simp [bracketed, hc]

theorem judged_applied_test (h : isTest name = true) (c : String) (args items : List Form) :
    judged cx c (.applied name args items) =
      (do return unbracketed c name (← test (emit cx) (.call name (args ++ items)))) := by
  rw [judged_applied, emit_test cx h]
  by_cases hc : c = "if-not"
  · simp [unbracketed, hc]
  · simp [unbracketed, hc]

end

/-- As the condition of a construct that branches, an applied command is what the command is, with
    the same text or the same fault.  An applied test has a text where the test has one, and the two
    texts differ, in the condition only: the test stands in brackets, the applied one stands without
    them and has the grouping that an operation loses in brackets. -/
theorem render_applied_test (cx : Setting) (c : String) (hc : c ∈ ["if", "if-not", "when", "while"])
    (name : String) (args items rest : List Form) :
    let applied := render cx [.call c (.applied name args items :: rest)]
    let direct := render cx [.call c (.call name (args ++ items) :: rest)]
    (isTest name = false → applied = direct) ∧
    ∀ text, direct = .ok text →
      (applied = .ok text ↔ isTest name = false) ∧
      (isTest name = true → ∃ opening bare closing,
        test (emit cx) (.call name (args ++ items)) = .ok bare ∧
        text = opening ++ bracketed c name bare ++ closing ∧
        applied = .ok (opening ++ unbracketed c name bare ++ closing)) := by
  intro applied direct
  have hcommand : isTest name = false → applied = direct := by
    intro h
    have hhead : (Form.call name (args ++ items)).headSymbol?.any isTest = false := h
    have hjudged : judged cx c (.applied name args items) =
        judged cx c (.call name (args ++ items)) := by
      rw [judged_applied, judged_command cx hhead]
    simp only [applied, direct, render, emit_branching_congr hc hjudged rest]
  have htest : ∀ text, direct = .ok text → isTest name = true → ∃ opening bare closing,
      test (emit cx) (.call name (args ++ items)) = .ok bare ∧
      text = opening ++ bracketed c name bare ++ closing ∧
      applied = .ok (opening ++ unbracketed c name bare ++ closing) := by
    intro text hdirect h
    have hemit : emit cx (.call c (.call name (args ++ items) :: rest)) = .ok text :=
      render_single_eq_ok.mp hdirect
    obtain ⟨opening, closing, hframe⟩ := emit_branching_frame hc hemit
    rw [hframe, judged_test cx h] at hemit
    obtain ⟨bare, hbare, htext⟩ : ∃ bare, test (emit cx) (.call name (args ++ items)) = .ok bare ∧
        opening ++ bracketed c name bare ++ closing = text := by
      simpa using hemit
    refine ⟨opening, bare, closing, hbare, htext.symm, ?_⟩
    rw [render_single_eq_ok, hframe, judged_applied_test cx h, hbare]
    rfl
  refine ⟨hcommand, fun text hdirect => ⟨⟨?_, ?_⟩, htest text hdirect⟩⟩
  · intro happlied
    cases h : isTest name with
    | false => rfl
    | true =>
      obtain ⟨opening, bare, closing, -, htext, hother⟩ := htest text hdirect h
      have hsame := Except.ok.inj (happlied.symm.trans hother)
      rw [htext, String.append_left_inj, String.append_right_inj] at hsame
      exact absurd hsame (bracketed_ne_unbracketed c name bare)
  · intro h
    rw [hcommand h, hdirect]

/-- A comparison loses its brackets, and a command has none to lose. -/
theorem render_applied_test_comparison :
    let yes := [Form.call "echo" [.symbol "ok"]]
    let direct := fun name => render Setting.plain
      [.call "if" (.call name ([.symbol "a"] ++ [.symbol "b"]) :: yes)]
    let applied := fun name => render Setting.plain
      [.call "if" (.applied name [.symbol "a"] [.symbol "b"] :: yes)]
    direct "==" = .ok "if [ \"a\" == \"b\" ]; then echo ok;fi" ∧
    applied "==" = .ok "if \\( \"a\" == \"b\" \\); then echo ok;fi" ∧
    applied "==" ≠ direct "==" ∧ applied "grep" = direct "grep" := by
  intro yes direct applied
  have hif : "if" ∈ ["if", "if-not", "when", "while"] := by simp
  have hdirect : direct "==" = .ok "if [ \"a\" == \"b\" ]; then echo ok;fi" :=
    eq_ok_of_toOption (by decide +kernel)
  have happlied : applied "==" = .ok "if \\( \"a\" == \"b\" \\); then echo ok;fi" :=
    eq_ok_of_toOption (by decide +kernel)
  obtain ⟨-, htest⟩ :=
    render_applied_test Setting.plain "if" hif "==" [.symbol "a"] [.symbol "b"] yes
  obtain ⟨hcommand, -⟩ :=
    render_applied_test Setting.plain "if" hif "grep" [.symbol "a"] [.symbol "b"] yes
  refine ⟨hdirect, happlied, fun hsame => ?_, hcommand (by decide +kernel)⟩
  exact absurd ((htest _ hdirect).1.mp (hsame.trans hdirect)) (by decide +kernel)

end Render

end ScriptTree

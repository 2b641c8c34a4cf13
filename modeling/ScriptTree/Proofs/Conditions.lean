/-
  Operations and conditions.

  An operator may take more than two operands, and an operation may stand for itself or be the
  test of a condition.  Neither adds anything new.

  1. Operands fold to the left (`fold_append`).  The fold prints a group for everything before
     the last operand, while an operation that is an operand itself is printed first and then
     quoted unless it looks like a test.  The two agree because a group looks like a test
     (`operand_group`), so an operation on many operands is a nest of operations on two.

  2. The constructs that branch on a test ask three things of it: the symbol at its head, its text,
     and its text in brackets.  Forms that agree in these (`SameTest`) may be exchanged as tests.
     The step from many operands to two keeps all three, and so does the whole nest, by induction on
     the operands (`sameTest_nest`).

  3. In brackets a test goes without its outermost grouping, and outside of them it has it.

  Negation is different.  `if-not` puts brackets around a test and none around a command;
  `if` with `not` puts them around either, because a list headed by `not` is a test whatever it
  negates.
-/
import Mathlib.Data.List.Induction
import ScriptTree.Proofs.WellFormed

namespace ScriptTree

/-! ## Operands -/

namespace Operator

/-- A group looks like a test, so as an operand it is taken as it stands. -/
@[simp] theorem operand_group (op : Operator) (s : String) :
    op.operand (op.group s) = op.group s := by
  unfold operand group
  cases op.tests with
  | false => rfl
  | true => simp [looksLikeTest]

/-- With one more operand, everything before it becomes a group. -/
theorem fold_append (op : Operator) (left right : String) (rest : List String) (last : String) :
    op.fold left (right :: (rest ++ [last])) =
      op.between (op.group (op.fold left (right :: rest))) last := by
  induction rest generalizing left right with
  | nil => rfl
  | cons next rest ih => exact ih (op.group (op.between left right)) next

/-- An operator makes a list a test iff it tests. -/
theorem isTest_of_named {name : String} {op : Operator} (h : named? name = some op) :
    isTest name = op.tests := by
  have hall : ∀ op ∈ all, isTest op.name = op.tests := by decide +kernel
  have hname : op.name = name := by simpa using List.find?_some h
  rw [← hname]
  exact hall op (mem_of_named h)

end Operator

/-- Operations on two operands, nested to the left. -/
def Form.leftNest (name : String) (first second : Form) (rest : List Form) : Form :=
  rest.foldl (fun nest f => .call name [nest, f]) (.call name [first, second])

namespace Render

section

variable {cx : Setting} {name : String} {op : Operator}

/-- An operation on many operands is that on the operation on all but the last, and the last. -/
theorem bareOperation_append (h : Operator.named? name = some op) {init : List Form}
    (hinit : 2 ≤ init.length) (last : Form) :
    bareOperation (emit cx) op (init ++ [last]) =
      bareOperation (emit cx) op [.call name init, last] := by
  match init with
  | [] => simp at hinit
  | [_] => simp at hinit
  | first :: second :: rest =>
    -- both sides render the operands in order and then differ in the text they put together
    simp only [bareOperation, Form.call, emit_operation h, operation, List.cons_append,
      List.mapM_cons, List.mapM_append, List.mapM_nil, bind_assoc, pure_bind, List.map_cons,
      List.map_append, List.map_nil, Operator.fold_append, Operator.operand_group, Operator.fold]

theorem test_operation (h : Operator.named? name = some op) (args : List Form) :
    test (emit cx) (.call name args) = bareOperation (emit cx) op args := by
  simp only [test, Form.call, h]

end

/-! ## Forms that are alike as tests -/

/-- The forms agree in all that is asked of a test. -/
structure SameTest (cx : Setting) (f g : Form) : Prop where
  head : f.headSymbol? = g.headSymbol?
  text : emit cx f = emit cx g
  bare : test (emit cx) f = test (emit cx) g

theorem SameTest.trans {cx : Setting} {f g h : Form} (hfg : SameTest cx f g)
    (hgh : SameTest cx g h) : SameTest cx f h :=
  ⟨hfg.head.trans hgh.head, hfg.text.trans hgh.text, hfg.bare.trans hgh.bare⟩

section

variable {cx : Setting} {name : String} {op : Operator}

/-- Two operations by the same operator are alike as soon as their texts in brackets are. -/
theorem sameTest_of_bareOperation (h : Operator.named? name = some op) {args args' : List Form}
    (hbare : bareOperation (emit cx) op args = bareOperation (emit cx) op args') :
    SameTest cx (.call name args) (.call name args') where
  head := rfl
  text := by simp only [Form.call, emit_operation h, operation, hbare]
  bare := by rw [test_operation h, test_operation h, hbare]

theorem sameTest_append (h : Operator.named? name = some op) {init : List Form}
    (hinit : 2 ≤ init.length) (last : Form) :
    SameTest cx (.call name (init ++ [last])) (.call name [.call name init, last]) :=
  sameTest_of_bareOperation h (bareOperation_append h hinit last)

/-- Of its first operand an operation shows the text only. -/
theorem sameTest_first (h : Operator.named? name = some op) {f g : Form}
    (hfg : emit cx f = emit cx g) (last : Form) :
    SameTest cx (.call name [f, last]) (.call name [g, last]) :=
  sameTest_of_bareOperation h (by simp only [bareOperation, hfg])

/-- An operation on many operands is a nest of operations on two. -/
theorem sameTest_nest (h : Operator.named? name = some op) (first second : Form)
    (rest : List Form) :
    SameTest cx (.call name (first :: second :: rest)) (.leftNest name first second rest) := by
  -- the fold takes its operands from the left, so the induction takes them from the right
  induction rest using List.reverseRecOn with
  | nil => exact ⟨rfl, rfl, rfl⟩
  | append_singleton rest last ih =>
    have hnest : Form.leftNest name first second (rest ++ [last]) =
        .call name [.leftNest name first second rest, last] := by
      simp [Form.leftNest]
    have hlast : SameTest cx (.call name (first :: second :: rest ++ [last]))
        (.call name [.call name (first :: second :: rest), last]) :=
      sameTest_append h (by simp) last
    rw [hnest]
    exact hlast.trans (sameTest_first h ih.text last)

end

/-! ## Tests of conditions -/

theorem emit_ifElse (cx : Setting) (args : List Form) : emit cx (.call "if" args) =
    conditional (emit cx) .ifElse (condition (emit cx)) args := by
  rw [emit_eq]
  rfl

theorem emit_ifNot (cx : Setting) (args : List Form) : emit cx (.call "if-not" args) =
    conditional (emit cx) .ifNot (negatedCondition (emit cx)) args := by
  rw [emit_eq]
  rfl

theorem emit_whenTrue (cx : Setting) (args : List Form) :
    emit cx (.call "when" args) = whenTrue (emit cx) args := by
  rw [emit_eq]
  rfl

theorem emit_whileTrue (cx : Setting) (args : List Form) :
    emit cx (.call "while" args) = whileTrue (emit cx) args := by
  rw [emit_eq]
  rfl

/-- A conditional asks nothing of its test but what it is judged to be. -/
theorem conditional_judge (sub : Form → Rendering) (c : Construct) {judge : Form → Rendering}
    {f g : Form} (h : judge f = judge g) (rest : List Form) :
    conditional sub c judge (f :: rest) = conditional sub c judge (g :: rest) := by
  match rest with
  | [] => rfl
  | [_] => simp only [conditional, h]
  | [_, _] => simp only [conditional, h]
  | _ :: _ :: _ :: _ => rfl

/-- How a construct that branches takes its test: `if-not` is the one that negates it. -/
def judged (cx : Setting) (c : String) (f : Form) : Rendering :=
  if c = "if-not" then negatedCondition (emit cx) f else condition (emit cx) f

/-- A construct that branches asks nothing of its test but what it is judged to be. -/
theorem emit_branching_congr {cx : Setting} {c : String}
    (hc : c ∈ ["if", "if-not", "when", "while"]) {f g : Form} (h : judged cx c f = judged cx c g)
    (rest : List Form) : emit cx (.call c (f :: rest)) = emit cx (.call c (g :: rest)) := by
  simp only [List.mem_cons, List.not_mem_nil, or_false] at hc
  rcases hc with rfl | rfl | rfl | rfl
  · have hcondition : condition (emit cx) f = condition (emit cx) g := h
    rw [emit_ifElse, emit_ifElse, conditional_judge _ _ hcondition]
  · have hcondition : negatedCondition (emit cx) f = negatedCondition (emit cx) g := h
    rw [emit_ifNot, emit_ifNot, conditional_judge _ _ hcondition]
  · have hcondition : condition (emit cx) f = condition (emit cx) g := h
    rw [emit_whenTrue, emit_whenTrue, whenTrue, whenTrue, hcondition]
  · have hcondition : condition (emit cx) f = condition (emit cx) g := h
    rw [emit_whileTrue, emit_whileTrue, whileTrue, whileTrue, hcondition]

namespace SameTest

variable {cx : Setting} {f g : Form} (h : SameTest cx f g)

include h

theorem judged_eq (c : String) : judged cx c f = judged cx c g := by
  simp only [judged, negatedCondition, condition, h.head, h.text, h.bare]

/-- Forms that are alike as tests may be exchanged in every construct that branches on one. -/
theorem emit_branching {name : String} (hname : name ∈ ["if", "if-not", "when", "while"])
    (rest : List Form) : emit cx (.call name (f :: rest)) = emit cx (.call name (g :: rest)) :=
  emit_branching_congr hname (h.judged_eq name) rest

/-- They render alike on their own and as the test of such a construct. -/
theorem render_eq : render cx [f] = render cx [g] ∧
    ∀ name ∈ ["if", "if-not", "when", "while"], ∀ rest,
      render cx [.call name (f :: rest)] = render cx [.call name (g :: rest)] := by
  constructor
  · simp only [render, h.text]
  · intro name hname rest
    simp only [render, h.emit_branching hname rest]

end SameTest

/-- An operation on more than two operands renders as the operation on all but the last and the
    last, and as the whole nest of operations on two, on its own and as a test.  The text of an
    operation is its text in brackets with a grouping around it. -/
theorem render_operation_folds (cx : Setting) (name : String) (op : Operator)
    (h : Operator.named? name = some op) :
    (∀ init last, 2 ≤ init.length →
      let flat := Form.call name (init ++ [last])
      let folded := Form.call name [.call name init, last]
      render cx [flat] = render cx [folded] ∧
      ∀ c ∈ ["if", "if-not", "when", "while"], ∀ rest,
        render cx [.call c (flat :: rest)] = render cx [.call c (folded :: rest)]) ∧
    (∀ first second others,
      let flat := Form.call name (first :: second :: others)
      let nest := Form.leftNest name first second others
      render cx [flat] = render cx [nest] ∧
      ∀ c ∈ ["if", "if-not", "when", "while"], ∀ rest,
        render cx [.call c (flat :: rest)] = render cx [.call c (nest :: rest)]) ∧
    ∀ args text, render cx [.call name args] = .ok text →
      ∃ bare, test (emit cx) (.call name args) = .ok bare ∧
        text = (if isTest name then "\\( " ++ bare ++ " \\)" else "(" ++ bare ++ ")") ∧
        (isTest name = true →
          condition (emit cx) (.call name args) = .ok ("[ " ++ bare ++ " ]")) := by
  refine ⟨?_, ?_, ?_⟩
  · intro init last hinit
    exact (sameTest_append h hinit last).render_eq
  · intro first second others
    exact (sameTest_nest h first second others).render_eq
  · intro args text htext
    rw [render, mapError_eq_ok, Form.call, emit_operation h] at htext
    obtain ⟨bare, hbare, rfl⟩ : ∃ bare, bareOperation (emit cx) op args = .ok bare ∧
        op.group bare = text := by simpa [operation] using htext
    have htest : test (emit cx) (.call name args) = .ok bare := by rw [test_operation h, hbare]
    refine ⟨bare, htest, ?_, fun hlogical => ?_⟩
    · rw [Operator.isTest_of_named h, Operator.group]
    · rw [condition, if_pos (by simpa [Form.headSymbol?, Form.call] using hlogical), htest]
      rfl

/-- Four operands, one of them an operation itself. -/
theorem render_operation_folds_and :
    let args := [Form.symbol "a", .call "not" [.symbol "b"], .symbol "c"]
    let flat := Form.call "and" (args ++ [.symbol "d"])
    let bare := "\\( \\( \"a\" -a ! b \\) -a \"c\" \\) -a \"d\""
    render Setting.plain [flat] =
      render Setting.plain [.call "and" [.call "and" args, .symbol "d"]] ∧
    render Setting.plain [flat] = .ok ("\\( " ++ bare ++ " \\)") ∧
    condition (emit Setting.plain) flat = .ok ("[ " ++ bare ++ " ]") := by
  intro args flat bare
  have hop : Operator.named? "and" = some ⟨"and", "-a", true⟩ := by decide +kernel
  obtain ⟨hfold, -, hgroup⟩ := render_operation_folds Setting.plain "and" _ hop
  have htext : render Setting.plain [flat] = .ok ("\\( " ++ bare ++ " \\)") :=
    eq_ok_of_toOption (by decide +kernel)
  refine ⟨(hfold args (.symbol "d") (by decide)).1, htext, ?_⟩
  obtain ⟨bare', hbare', -, hcondition⟩ := hgroup _ _ htext
  have hbare : test (emit Setting.plain) flat = .ok bare := eq_ok_of_toOption (by decide +kernel)
  obtain rfl : bare = bare' := Except.ok.inj (hbare.symm.trans hbare')
  exact hcondition (by decide +kernel)

/-! ## Negation -/

/-- The branches of a conditional, up to its end. -/
def branches (sub : Form → Rendering) (yes : Form) (no? : Option Form) : Rendering := do
  let yes ← branch sub yes
  match no? with
  | none => return yes ++ "fi"
  | some no => return yes ++ "else" ++ (← branch sub no) ++ "fi"

/-- A conditional with the right number of arguments is its test and then its branches. -/
theorem conditional_eq (sub : Form → Rendering) (c : Construct) (judge : Form → Rendering)
    (test yes : Form) (no? : Option Form) :
    conditional sub c judge (test :: yes :: no?.toList) = (do
      let test ← judge test
      return "if " ++ test ++ "; then" ++ (← branches sub yes no?)) := by
  cases no? with
  | none => simp [conditional, branches, String.append_assoc]
  | some no => simp [conditional, branches, String.append_assoc]

theorem emit_negate (cx : Setting) (f : Form) :
    emit cx (.call "not" [f]) = (do return "! " ++ (← emit cx f)) := by
  rw [emit_eq]
  show wrapped (emit cx) .negate "! " "" [f] = _
  simp [wrapped]

/-- A negation is a test whatever it negates. -/
theorem condition_negate (cx : Setting) (f : Form) :
    condition (emit cx) (.call "not" [f]) = (do return "[ ! " ++ (← emit cx f) ++ " ]") := by
  have hlogical : (Form.call "not" [f]).headSymbol?.any isTest = true := by
    show isTest "not" = true
    decide +kernel
  have hbare : test (emit cx) (.call "not" [f]) = emit cx (.call "not" [f]) := by
    have hname : Operator.named? "not" = none := by decide +kernel
    simp only [test, Form.call, hname]
  rw [condition, if_pos hlogical, hbare, emit_negate]
  simp [← String.append_assoc]

theorem negatedCondition_of_test (cx : Setting) {f : Form} (h : f.headSymbol?.any isTest = true) :
    negatedCondition (emit cx) f = condition (emit cx) (.call "not" [f]) := by
  rw [condition_negate, negatedCondition, if_pos h]

theorem negatedCondition_of_command (cx : Setting) {f : Form}
    (h : f.headSymbol?.any isTest = false) :
    negatedCondition (emit cx) f = (do return "! " ++ (← emit cx f)) := by
  rw [negatedCondition, if_neg (by simp [h])]

/-- On a test, `if-not` is `if` with `not`, with the same text or the same fault.  On anything
    else, which is a command, they have a text together, and then the texts differ in the brackets
    that `not` puts around the command. -/
theorem render_ifNot (cx : Setting) (test yes : Form) (no? : Option Form) :
    let direct := render cx [.call "if-not" (test :: yes :: no?.toList)]
    let negated := render cx [.call "if" (.call "not" [test] :: yes :: no?.toList)]
    (test.headSymbol?.any isTest = true → direct = negated) ∧
    (test.headSymbol?.any isTest = false → ∀ text, direct = .ok text ∨ negated = .ok text →
      direct ≠ negated ∧ ∃ command rest, emit cx test = .ok command ∧
        direct = .ok ("if " ++ ("! " ++ command) ++ "; then" ++ rest) ∧
        negated = .ok ("if " ++ ("[ ! " ++ command ++ " ]") ++ "; then" ++ rest)) := by
  intro direct negated
  have hdirect : direct = (do
      let test ← negatedCondition (emit cx) test
      return "if " ++ test ++ "; then" ++ (← branches (emit cx) yes no?)).mapError
        (Fault.locate cx.origin) := by
    simp only [direct, render, emit_ifNot, conditional_eq]
  have hnegated : negated = (do
      let test ← condition (emit cx) (.call "not" [test])
      return "if " ++ test ++ "; then" ++ (← branches (emit cx) yes no?)).mapError
        (Fault.locate cx.origin) := by
    simp only [negated, render, emit_ifElse, conditional_eq]
  constructor
  · intro htest
    rw [hdirect, hnegated, negatedCondition_of_test cx htest]
  · intro hcommand text htext
    rw [negatedCondition_of_command cx hcommand] at hdirect
    rw [condition_negate] at hnegated
    cases hemit : emit cx test with
    | error e => simp [hdirect, hnegated, hemit] at htext
    | ok command =>
      cases hrest : branches (emit cx) yes no? with
      | error e => simp [hdirect, hnegated, hemit, hrest] at htext
      | ok rest =>
        have hopen : direct = .ok ("if " ++ ("! " ++ command) ++ "; then" ++ rest) := by
          rw [hdirect, hemit, hrest]
          rfl
        have hbracketed :
            negated = .ok ("if " ++ ("[ ! " ++ command ++ " ]") ++ "; then" ++ rest) := by
          rw [hnegated, hemit, hrest]
          rfl
        refine ⟨?_, command, rest, rfl, hopen, hbracketed⟩
        -- they differ where the one has the bracket and the other the negation
        rw [hopen, hbracketed]
        intro heq
        simpa using congrArg String.toList (Except.ok.inj heq)

/-- A command: the shell runs it for the one, and reads its words as a test for the other. -/
theorem render_ifNot_ne : ¬∀ (cx : Setting) (test yes : Form) (no? : Option Form) (text : String),
    (render cx [.call "if-not" (test :: yes :: no?.toList)] = .ok text ∨
      render cx [.call "if" (.call "not" [test] :: yes :: no?.toList)] = .ok text) →
    render cx [.call "if-not" (test :: yes :: no?.toList)] =
      render cx [.call "if" (.call "not" [test] :: yes :: no?.toList)] := by
  intro hall
  have hdirect : render Setting.plain [.call "if-not"
      [.call "grep" [.symbol "x", .symbol "f"], .call "exit" [.int 1]]] =
        .ok "if ! grep x f; then exit 1;fi" :=
    eq_ok_of_toOption (by decide +kernel)
  have hnegated : render Setting.plain [.call "if" [.call "not"
      [.call "grep" [.symbol "x", .symbol "f"]], .call "exit" [.int 1]]] =
        .ok "if [ ! grep x f ]; then exit 1;fi" :=
    eq_ok_of_toOption (by decide +kernel)
  have hsame := hall Setting.plain (.call "grep" [.symbol "x", .symbol "f"])
    (.call "exit" [.int 1]) none _ (.inl hdirect)
  have htexts := hdirect.symm.trans (hsame.trans hnegated)
  exact absurd (Except.ok.inj htexts) (by decide)

/-- A test by an operator, and a command. -/
theorem render_ifNot_test_and_command :
    let test := Form.call "==" [.symbol "a", .symbol "b"]
    let command := Form.call "grep" [.symbol "x", .symbol "f"]
    let negated := fun test => render Setting.plain
      [.call "if" [.call "not" [test], .symbol "p", .symbol "q"]]
    let direct := fun test => render Setting.plain [.call "if-not" [test, .symbol "p", .symbol "q"]]
    direct test = negated test ∧
      direct test = .ok "if [ ! \\( \"a\" == \"b\" \\) ]; then p;else q;fi" ∧
      direct command ≠ negated command := by
  intro test command negated direct
  have htext : direct test = .ok "if [ ! \\( \"a\" == \"b\" \\) ]; then p;else q;fi" :=
    eq_ok_of_toOption (by decide +kernel)
  have hcommand : direct command = .ok "if ! grep x f; then p;else q;fi" :=
    eq_ok_of_toOption (by decide +kernel)
  refine ⟨?_, htext, ?_⟩
  · exact (render_ifNot Setting.plain test (.symbol "p") (some (.symbol "q"))).1 (by decide +kernel)
  · exact ((render_ifNot Setting.plain command (.symbol "p") (some (.symbol "q"))).2
      (by decide +kernel) _ (.inl hcommand)).1

end Render

end ScriptTree

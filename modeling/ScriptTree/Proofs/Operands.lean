/-
  Marks of empty splices among operands and arguments.

  Among operands and among arguments the mark of an empty splice does not vanish.  It is counted like
  any other form, and it stands there with its empty text.

  1. What an operation or a call is rendered to depends on the renderings of its operands or
     arguments alone, and the first fault among them is its own (`render_operation`,
     `render_invocation`).  Whether there is a fault does not depend on the marks (`mapM_unspliced`).
  2. Each operand and each argument adds its own length to the text, and each but the first adds that
     of what stands before it (`Operator.length_text`, `Text.length_intercalate`).  So a text with
     marks is longer than the one without them, unless there is no separator to leave out
     (`length_gaps_lt`).
  3. An operation has to have two operands, and marks are counted among them.  So marks can turn the
     fault of too few operands into a text.
-/
import ScriptTree.Proofs.Chains
import ScriptTree.Proofs.Splices
import ScriptTree.Proofs.WellFormed

namespace ScriptTree

open Form (unspliced)

namespace Form

/-- The form with an empty text in place of the mark of a splice. -/
def asText : Form → Form
  | .splice => .str ""
  | f => f

theorem unspliced_eq_self {fs : List Form} (h : ∀ f ∈ fs, f.isSplice = false) :
    unspliced fs = fs :=
  List.filter_eq_self.mpr (by simpa using h)

theorem length_unspliced_lt {fs : List Form} (h : ¬ ∀ f ∈ fs, f.isSplice = false) :
    (unspliced fs).length < fs.length :=
  List.length_filter_lt_length_iff_exists.mpr (by simpa using h)

end Form

/-! ## Lengths -/

/-- Texts that are left out add nothing to a length. -/
theorem length_join_le {kept texts : List String} (h : kept.Sublist texts) :
    (String.join kept).length ≤ (String.join texts).length := by
  induction h with
  | slnil => exact Nat.le_refl _
  | cons text _ ih =>
    rw [String.join_cons, String.length_append]
    omega
  | cons_cons text _ ih =>
    rw [String.join_cons, String.join_cons, String.length_append, String.length_append]
    omega

/-- With a gap between any two of them, fewer texts are shorter than all. -/
theorem length_gaps_lt {kept texts : List String} (h : kept.Sublist texts)
    (hfewer : kept.length < texts.length) (htwo : 2 ≤ texts.length) {gap : Nat} (hgap : 0 < gap) :
    (String.join kept).length + (kept.length - 1) * gap <
      (String.join texts).length + (texts.length - 1) * gap := by
  have hjoin := length_join_le h
  have hgaps : (kept.length - 1) * gap < (texts.length - 1) * gap :=
    Nat.mul_lt_mul_of_pos_right (by omega) hgap
  omega

namespace Operator

/-- The text of an operation, from the texts of its operands. -/
def text (op : Operator) : List String → String
  | [] => ""
  | left :: rest => op.group (op.fold (op.operand left) (rest.map op.operand))

theorem length_group (op : Operator) (s : String) :
    (op.group s).length = s.length + (op.group "").length := by
  unfold group
  split
  all_goals
    rw [String.length_append, String.length_append, String.length_append, String.length_append,
      String.length_empty]
    omega

/-- Every step of a fold adds its operand, the operator between spaces, and a grouping. -/
theorem length_group_fold (op : Operator) (left : String) {rest : List String} (h : rest ≠ []) :
    (op.group (op.fold left rest)).length = left.length + (String.join rest).length +
      rest.length * (op.shell.length + 2 + (op.group "").length) := by
  induction rest generalizing left with
  | nil => exact absurd rfl h
  | cons right rest ih =>
    have hstep : (op.group (op.between left right)).length =
        left.length + right.length + (op.shell.length + 2 + (op.group "").length) := by
      have hspace : " ".length = 1 := rfl
      rw [length_group, between]
      simp only [String.length_append, hspace]
      omega
    cases rest with
    | nil => simp [fold, hstep]
    | cons next rest =>
      have hrest := ih (op.group (op.between left right)) (List.cons_ne_nil next rest)
      rw [String.join_cons, String.length_append, List.length_cons, Nat.succ_mul, fold, hrest, hstep]
      · omega
      · simp

theorem length_text (op : Operator) {texts : List String} (h : 2 ≤ texts.length) :
    (op.text texts).length = (String.join (texts.map op.operand)).length +
      (texts.length - 1) * (op.shell.length + 2 + (op.group "").length) := by
  match texts, h with
  | left :: right :: rest, _ =>
    rw [text, length_group_fold op _ (by simp)]
    simp

end Operator

namespace Render

/-! ## Traversals -/

section

variable {α β ε ε' : Type}

theorem mapError_bind (k : ε → ε') (x : Except ε α) (f : α → Except ε β) :
    (x >>= f).mapError k = x.mapError k >>= fun a => (f a).mapError k := by
  cases x with
  | error e => rfl
  | ok a => rfl

/-- The fault of a traversal is that of one of its steps. -/
theorem mapError_mapM (k : ε → ε') (f : α → Except ε β) (l : List α) :
    (l.mapM f).mapError k = l.mapM fun a => (f a).mapError k := by
  induction l with
  | nil => rfl
  | cons a l ih =>
    rw [List.mapM_cons, List.mapM_cons, mapError_bind, ← ih]
    refine congrArg _ (funext fun b => ?_)
    rw [mapError_bind]
    rfl

end

/-- Marks have no fault.  So the forms with their marks and without have the same first fault or
    none, and then the texts without marks are some of all texts. -/
theorem mapM_unspliced (sub : Form → Rendering) (hsplice : sub .splice = .ok "") (fs : List Form) :
    (∃ e, fs.mapM sub = .error e ∧ (unspliced fs).mapM sub = .error e) ∨
    ∃ texts kept, fs.mapM sub = .ok texts ∧ (unspliced fs).mapM sub = .ok kept ∧
      kept.Sublist texts ∧ texts.length = fs.length ∧ kept.length = (unspliced fs).length := by
  induction fs with
  | nil => exact .inr ⟨[], [], rfl, rfl, .slnil, rfl, rfl⟩
  | cons f fs ih =>
    rw [List.mapM_cons]
    cases hf : f.isSplice with
    | true =>
      obtain rfl := eq_splice_of_isSplice hf
      rw [Form.unspliced_cons_of_isSplice hf, hsplice]
      rcases ih with ⟨e, hall, hkept⟩ | ⟨texts, kept, hall, hkept, hsub, htexts, hlength⟩
      · exact .inl ⟨e, by rw [hall]; rfl, hkept⟩
      · exact .inr ⟨"" :: texts, kept, by rw [hall]; rfl, hkept, .cons "" hsub, by simp [htexts],
          hlength⟩
    | false =>
      rw [Form.unspliced_cons_of_not_isSplice hf, List.mapM_cons]
      cases sub f with
      | error e => exact .inl ⟨e, rfl, rfl⟩
      | ok text =>
        rcases ih with ⟨e, hall, hkept⟩ | ⟨texts, kept, hall, hkept, hsub, htexts, hlength⟩
        · exact .inl ⟨e, by rw [hall]; rfl, by rw [hkept]; rfl⟩
        · exact .inr ⟨text :: texts, text :: kept, by rw [hall]; rfl, by rw [hkept]; rfl,
            .cons_cons text hsub, by simp [htexts], by simp [hlength]⟩

theorem exists_fault {sub : Form → Rendering} {fs : List Form} {e : Fault}
    (h : fs.mapM sub = .error e) : ∃ f ∈ fs, ¬ Succeeds (sub f) := by
  have hmapM : ¬ Succeeds (fs.mapM sub) := by simp [h]
  simpa [succeeds_mapM] using hmapM

/-- A fault that is the first one of at most one form is that of the form. -/
theorem exists_of_fault {sub : Form → Rendering} {fs : List Form} {e : Fault}
    (he : fs.mapM sub = .error e) (h : fs.length < 2) : ∃ f, fs = [f] ∧ sub f = .error e := by
  match fs, h with
  | [], _ => exact nomatch he
  | [f], _ =>
    cases hf : sub f with
    | error e' =>
      rw [List.mapM_cons, hf] at he
      obtain rfl : e' = e := Except.error.inj he
      exact ⟨f, rfl, hf⟩
    | ok text =>
      rw [List.mapM_cons, hf] at he
      exact nomatch he

theorem render_splice (cx : Setting) : render cx [.splice] = .ok "" :=
  render_single_eq_ok.mpr (emit_splice cx)

/-- A mark is rendered as the empty text is. -/
theorem mapM_asText (cx : Setting) (fs : List Form) :
    (fs.map Form.asText).mapM (fun f => render cx [f]) = fs.mapM fun f => render cx [f] := by
  have hform : ∀ f : Form, render cx [f.asText] = render cx [f] := by
    intro f
    cases f with
    | splice =>
      rw [render_splice, Form.asText, render_single_eq_ok, emit_eq]
      rfl
    | _ => rfl
  induction fs with
  | nil => rfl
  | cons f fs ih => rw [List.map_cons, List.mapM_cons, List.mapM_cons, hform, ih]

/-! ## Operations -/

theorem operation_eq (sub : Form → Rendering) (op : Operator) {args : List Form}
    (h : 2 ≤ args.length) : operation sub op args = (do return op.text (← args.mapM sub)) := by
  match args, h with
  | first :: second :: rest, _ => simp [operation, bareOperation, Operator.text]

section

variable {cx : Setting} {name : String} {op : Operator} {args : List Form}
  (hop : Operator.named? name = some op)

include hop

theorem render_operation (h : 2 ≤ args.length) :
    render cx [.call name args] = (do return op.text (← args.mapM fun a => render cx [a])) := by
  rw [render, Form.call, emit_operation hop, operation_eq _ _ h, mapError_bind, mapError_mapM]
  rfl

theorem render_operation_of_lt (h : args.length < 2) :
    render cx [.call name args] =
      .error (.misuse (.operandCount op.name args.length) cx.origin.place?) := by
  rw [render, Form.call, emit_operation hop]
  cases args with
  | nil => rfl
  | cons first rest =>
    cases rest with
    | nil => rfl
    | cons second rest =>
      simp only [List.length_cons] at h
      omega

theorem render_operation_of_texts {texts : List String} (h : 2 ≤ args.length)
    (htexts : args.mapM (fun a => render cx [a]) = .ok texts) :
    render cx [.call name args] = .ok (op.text texts) := by
  rw [render_operation hop h, htexts]
  rfl

theorem render_operation_of_fault {e : Fault} (h : 2 ≤ args.length)
    (he : args.mapM (fun a => render cx [a]) = .error e) :
    render cx [.call name args] = .error e := by
  rw [render_operation hop h, he]
  rfl

theorem render_operation_asText :
    render cx [.call name args] = render cx [.call name (args.map Form.asText)] := by
  by_cases h : 2 ≤ args.length
  · rw [render_operation hop h, render_operation hop (by simpa using h), mapM_asText]
  · rw [render_operation_of_lt hop (by omega), render_operation_of_lt hop (by simp; omega),
      List.length_map]

/-- An operation has a text iff it has two operands, marks among them, and all operands have
    texts. -/
theorem succeeds_render_operation : Succeeds (render cx [.call name args]) ↔
    2 ≤ args.length ∧ ∀ a ∈ args, Succeeds (render cx [a]) := by
  by_cases h : 2 ≤ args.length
  · rw [render_operation hop h]
    simp [h, succeeds_mapM]
  · rw [render_operation_of_lt hop (by omega)]
    simp [h]

/-- Texts that are left out of an operation are missed in it. -/
theorem render_operation_ne {fs : List Form} {texts kept : List String}
    (htexts : args.mapM (fun a => render cx [a]) = .ok texts)
    (hkept : fs.mapM (fun a => render cx [a]) = .ok kept) (hsub : kept.Sublist texts)
    (hargs : texts.length = args.length) (hfs : kept.length = fs.length)
    (hfewer : fs.length < args.length) (htwo : 2 ≤ args.length) :
    render cx [.call name args] ≠ render cx [.call name fs] := by
  rw [render_operation_of_texts hop htwo htexts]
  by_cases hfsTwo : 2 ≤ fs.length
  · rw [render_operation_of_texts hop hfsTwo hkept]
    intro h
    have hlength : (op.text texts).length = (op.text kept).length := by rw [Except.ok.inj h]
    rw [op.length_text (by omega), op.length_text (by omega)] at hlength
    have hgap : 0 < op.shell.length + 2 + (op.group "").length := by omega
    have hlt := length_gaps_lt (hsub.map op.operand) (by simp; omega) (by simp; omega) hgap
    rw [List.length_map, List.length_map] at hlt
    omega
  · rw [render_operation_of_lt hop (by omega)]
    nofun

/-- Marks among the operands vanish iff there are none, or else the operation fails with the first
    fault of an operand and would do so without the marks. -/
theorem render_operation_unspliced_iff :
    render cx [.call name args] = render cx [.call name (unspliced args)] ↔
      (∀ a ∈ args, a.isSplice = false) ∨
      (2 ≤ (unspliced args).length ∧ ∃ a ∈ args, ¬ Succeeds (render cx [a])) ∨
      (2 ≤ args.length ∧ ∃ a, unspliced args = [a] ∧ render cx [a] = render cx [.call name [a]]) := by
  by_cases hmarks : ∀ a ∈ args, a.isSplice = false
  · rw [Form.unspliced_eq_self hmarks]
    exact iff_of_true rfl (.inl hmarks)
  have hfewer := Form.length_unspliced_lt hmarks
  by_cases htwo : 2 ≤ args.length
  · rcases mapM_unspliced (fun a => render cx [a]) (render_splice cx) args with
      ⟨e, hargs, hkept⟩ | ⟨texts, kept, hargs, hkept, hsub, htexts, hlength⟩
    · by_cases hkeptTwo : 2 ≤ (unspliced args).length
      · rw [render_operation_of_fault hop htwo hargs, render_operation_of_fault hop hkeptTwo hkept]
        exact iff_of_true rfl (.inr (.inl ⟨hkeptTwo, exists_fault hargs⟩))
      · -- one operand is left, and what is reported without the marks is that there is only one
        obtain ⟨a, ha, hone⟩ := exists_of_fault hkept (by omega)
        rw [render_operation_of_fault hop htwo hargs, ha, ← hone]
        simp [hmarks, htwo]
    · have hall : ∀ a ∈ args, Succeeds (render cx [a]) := succeeds_mapM.mp ⟨texts, hargs⟩
      refine iff_of_false (render_operation_ne hop hargs hkept hsub htexts hlength hfewer htwo) ?_
      rintro (h | ⟨-, a, ha, h⟩ | ⟨-, a, ha, h⟩)
      · exact hmarks h
      · exact h (hall a ha)
      · have hmem : a ∈ args := List.mem_of_mem_filter (ha ▸ List.mem_singleton_self a)
        rw [render_operation_of_lt hop (by simp)] at h
        exact not_succeeds_error _ (h ▸ hall a hmem)
  · -- the two faults tell how many operands there are
    rw [render_operation_of_lt hop (by omega), render_operation_of_lt hop (by omega)]
    refine iff_of_false (fun h => ?_) ?_
    · have hcount : args.length = (unspliced args).length := by simpa using h
      omega
    · rintro (h | ⟨h, -⟩ | ⟨h, -⟩)
      · exact hmarks h
      · omega
      · omega

end

/-! ## Calls -/

/-- A name that starts with a point is not found in a table where no name does. -/
theorem find?_pointed {α : Type} {table : List α} {key : α → String}
    (htable : ∀ a ∈ table, (key a).toList.head? ≠ some '.') {name method : String}
    (h : method? name = some method) : table.find? (key · == name) = none := by
  have hpoint : name.toList.head? = some '.' := by
    unfold method? at h
    split at h
    · next heq => rw [heq]; rfl
    · exact nomatch h
  refine List.find?_eq_none.mpr fun a ha heq => htable a ha ?_
  rw [eq_of_beq heq, hpoint]

theorem emit_method {cx : Setting} {name method : String} (h : method? name = some method)
    (args : List Form) : emit cx (.call name args) = methodCall (emit cx) method args := by
  have hplain : Construct.plain.find? (·.name == name) = none :=
    find?_pointed (by decide +kernel) h
  have hpredicate : Predicate.named? name = none := find?_pointed (by decide +kernel) h
  have hoperator : Operator.named? name = none := find?_pointed (by decide +kernel) h
  have hconstruct : Construct.named? name = none := by
    rw [Construct.named?, hplain, hpredicate]
    rfl
  rw [emit_eq]
  show headed (emit cx) name args = _
  simp only [headed, hconstruct, hoperator, h]

theorem mapError_arguments (cx : Setting) (lead : String) (args : List Form) :
    (do return lead ++ (← arguments (emit cx) args)).mapError (Fault.locate cx.origin) = (do
      let texts ← args.mapM fun a => render cx [a]
      return lead ++ ("(" ++ ", ".intercalate texts ++ ")")) := by
  have hmapM : args.mapM (fun a => render cx [a]) =
      (args.mapM (emit cx)).mapError (Fault.locate cx.origin) :=
    (mapError_mapM _ _ _).symm
  rw [hmapM, arguments]
  cases args.mapM (emit cx) with
  | error e => rfl
  | ok texts => rfl

section

variable {name : String} (hname : name = "new" ∨ (method? name).isSome)

include hname

/-- A class or a target with its arguments in brackets. -/
theorem render_invocation (cx : Setting) : ∃ lead : String → String, ∀ target args,
    render cx [.call name (target :: args)] = (do
      let target ← render cx [target]
      let texts ← args.mapM fun a => render cx [a]
      return lead target ++ ("(" ++ ", ".intercalate texts ++ ")")) := by
  rcases hname with rfl | hmethod
  · refine ⟨fun target => "new " ++ target, fun target args => ?_⟩
    have hemit : emit cx (.call "new" (target :: args)) = newObject (emit cx) (target :: args) := by
      rw [emit_eq]
      rfl
    rw [render, hemit, newObject, mapError_bind]
    exact congrArg _ (funext fun target => mapError_arguments cx _ args)
  · obtain ⟨method, hmethod⟩ := Option.isSome_iff_exists.mp hmethod
    refine ⟨fun target => target ++ "." ++ method, fun target args => ?_⟩
    rw [render, emit_method hmethod, methodCall, mapError_bind]
    exact congrArg _ (funext fun target => mapError_arguments cx _ args)

theorem render_invocation_asText (cx : Setting) (target : Form) (args : List Form) :
    render cx [.call name (target :: args)] =
      render cx [.call name (target :: args.map Form.asText)] := by
  obtain ⟨lead, hrender⟩ := render_invocation hname cx
  rw [hrender, hrender, mapM_asText]

/-- Marks among the arguments vanish iff there are none, or there is nothing but one, or the call
    fails. -/
theorem render_invocation_unspliced_iff (cx : Setting) (target : Form) (args : List Form) :
    render cx [.call name (target :: args)] = render cx [.call name (target :: unspliced args)] ↔
      (∀ a ∈ args, a.isSplice = false) ∨ args = [.splice] ∨
      ∃ a ∈ target :: args, ¬ Succeeds (render cx [a]) := by
  obtain ⟨lead, hrender⟩ := render_invocation hname cx
  rw [hrender, hrender]
  cases htarget : render cx [target] with
  | error e => exact iff_of_true rfl (.inr (.inr ⟨target, by simp, by simp [htarget]⟩))
  | ok text =>
    rcases mapM_unspliced (fun a => render cx [a]) (render_splice cx) args with
      ⟨e, hargs, hkept⟩ | ⟨texts, kept, hargs, hkept, hsub, htexts, hlength⟩
    · obtain ⟨a, ha, hfault⟩ := exists_fault hargs
      rw [hargs, hkept]
      exact iff_of_true rfl (.inr (.inr ⟨a, List.mem_cons_of_mem target ha, hfault⟩))
    constructor
    · intro h
      by_contra hne
      obtain ⟨hmarks, hone, -⟩ := (not_or.trans (and_congr_right' not_or)).mp hne
      have hfewer := Form.length_unspliced_lt hmarks
      have htwo : 2 ≤ args.length := by
        match args, hmarks, hone with
        | [a], hmarks, hone => simp [eq_splice_of_isSplice (by simpa using hmarks)] at hone
        | _ :: _ :: _, _, _ => simp
      rw [hargs, hkept] at h
      have htext : ", ".intercalate texts = ", ".intercalate kept := by
        simpa using Except.ok.inj h
      have hjoins : (", ".intercalate texts).length = (", ".intercalate kept).length := by rw [htext]
      rw [Text.length_intercalate, Text.length_intercalate] at hjoins
      have hgap : 0 < ", ".length := by decide
      have hlt := length_gaps_lt hsub (by omega) (by omega) hgap
      omega
    · rintro (hmarks | rfl | ⟨a, ha, hfault⟩)
      · rw [Form.unspliced_eq_self hmarks]
      · -- the text of the mark is empty, and so is the list without it
        rw [List.mapM_cons, render_splice]
        rfl
      · have hall : ∀ a ∈ args, Succeeds (render cx [a]) := succeeds_mapM.mp ⟨texts, hargs⟩
        rcases List.mem_cons.mp ha with rfl | ha
        · exact absurd ⟨text, htarget⟩ hfault
        · exact absurd (hall a ha) hfault

end

/-- **Marks of splices stay** among operands and arguments.

    They are operands and arguments as empty texts would be.  So an operation counts its marks: it
    fails for want of operands if it has fewer than two with its marks, and otherwise has a text iff
    all its operands have one.  It comes out as it does without its marks iff it has none, or fails
    with the fault of an operand in both cases.  A call comes out as it does without marks among its
    arguments iff there are none, or there is a mark and nothing else, or the call fails. -/
theorem splices_stay (cx : Setting) :
    (∀ name op, Operator.named? name = some op → ∀ args,
      render cx [.call name args] = render cx [.call name (args.map Form.asText)] ∧
      (args.length < 2 → render cx [.call name args] =
        .error (.misuse (.operandCount op.name args.length) cx.origin.place?)) ∧
      (Succeeds (render cx [.call name args]) ↔
        2 ≤ args.length ∧ ∀ a ∈ args, Succeeds (render cx [a])) ∧
      (render cx [.call name args] = render cx [.call name (unspliced args)] ↔
        (∀ a ∈ args, a.isSplice = false) ∨
        (2 ≤ (unspliced args).length ∧ ∃ a ∈ args, ¬ Succeeds (render cx [a])) ∨
        (2 ≤ args.length ∧
          ∃ a, unspliced args = [a] ∧ render cx [a] = render cx [.call name [a]]))) ∧
    ∀ name, (name = "new" ∨ (method? name).isSome) → ∀ target args,
      render cx [.call name (target :: args)] =
        render cx [.call name (target :: args.map Form.asText)] ∧
      (render cx [.call name (target :: args)] =
          render cx [.call name (target :: unspliced args)] ↔
        (∀ a ∈ args, a.isSplice = false) ∨ args = [.splice] ∨
        ∃ a ∈ target :: args, ¬ Succeeds (render cx [a])) := by
  constructor
  · intro name op hop args
    exact ⟨render_operation_asText hop, render_operation_of_lt hop, succeeds_render_operation hop,
      render_operation_unspliced_iff hop⟩
  · intro name hname target args
    exact ⟨render_invocation_asText hname cx target args,
      render_invocation_unspliced_iff hname cx target args⟩

/-- A mark between two operands, one in place of an operand, and one among the arguments of a
    method. -/
theorem splices_stay_sum :
    let sum := Form.call "+" [.int 1, .splice, .int 2]
    let lone := Form.call "+" [.int 1, .splice]
    let call := Form.call ".set" [.symbol "obj", .splice, .int 2]
    render Setting.plain [sum] = .ok "((1 + ) + 2)" ∧
    render Setting.plain [sum] ≠ render Setting.plain [.call "+" [.int 1, .int 2]] ∧
    render Setting.plain [lone] = .ok "(1 + )" ∧
    render Setting.plain [.call "+" [.int 1]] = .error (.misuse (.operandCount "+" 1) none) ∧
    render Setting.plain [call] = .ok "obj.set(, 2)" ∧
    render Setting.plain [call] ≠ render Setting.plain [.call ".set" [.symbol "obj", .int 2]] := by
  intro sum lone call
  have hop : Operator.named? "+" = some ⟨"+", "+", false⟩ := by decide +kernel
  have hsum : render Setting.plain [sum] = .ok "((1 + ) + 2)" :=
    eq_ok_of_toOption (by decide +kernel)
  have hlone : render Setting.plain [lone] = .ok "(1 + )" := eq_ok_of_toOption (by decide +kernel)
  have hcall : render Setting.plain [call] = .ok "obj.set(, 2)" :=
    eq_ok_of_toOption (by decide +kernel)
  have hobject : Succeeds (render Setting.plain [.symbol "obj"]) :=
    ⟨"obj", eq_ok_of_toOption (by decide +kernel)⟩
  obtain ⟨hops, hcalls⟩ := splices_stay Setting.plain
  have hall : ∀ a ∈ [Form.int 1, .splice, .int 2], Succeeds (render Setting.plain [a]) :=
    ((hops "+" _ hop _).2.2.1.mp ⟨_, hsum⟩).2
  refine ⟨hsum, fun h => ?_, hlone, (hops "+" _ hop [.int 1]).2.1 (by decide), hcall, fun h => ?_⟩
  · rcases (hops "+" _ hop _).2.2.2.mp h with hmarks | ⟨-, a, ha, hfault⟩ | ⟨-, a, ha, -⟩
    · exact absurd (hmarks .splice (by simp)) (by decide)
    · exact hfault (hall a ha)
    · exact nomatch ha
  · rcases (hcalls ".set" (.inr (by decide +kernel)) (.symbol "obj") [.splice, .int 2]).2.mp h with
      hmarks | hone | ⟨a, ha, hfault⟩
    · exact absurd (hmarks .splice (by simp)) (by decide)
    · exact nomatch hone
    · rcases List.mem_cons.mp ha with rfl | ha
      · exact hfault hobject
      · exact hfault (hall a (List.mem_cons_of_mem _ ha))

end Render

end ScriptTree

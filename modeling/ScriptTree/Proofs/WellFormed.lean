/-
  Which trees have a text.

  Rendering without extension fails on ill-formed trees only, and `WellFormed` says which trees
  are well formed without mentioning how a text is put together.  A form has to have the right
  shape: the right number of arguments, a vector where a vector is asked for, a target that can
  name a variable.  And the forms it needs have to be well formed in turn.  These are mostly its
  parts, but not always: a call of an extension needs none of its arguments, a map that is assigned
  needs its target only if it has entries, and `apply` needs a list that is no part of it.

  One step says that a form has a text iff it has its shape and all that it needs has a text
  (`renders_iff_needs`).  As a form needs smaller forms only, it follows for whole trees that they
  have a text iff they are well formed (`renders_iff_wellFormed`).
-/
import ScriptTree.Proofs.Success

namespace ScriptTree

/-! ## Shape and needs -/

/-- The number of arguments is within the bounds. -/
def Arity.Admits (a : Arity) (n : Nat) : Prop :=
  a.least ≤ n ∧ ∀ most ∈ a.most, n ≤ most

/-- A target that can be the name of a variable: its text, if it has one, is without hyphen. -/
def Form.Nameable (f : Form) : Prop :=
  ∀ name, Render.emit .plain f = .ok name → '-' ∉ name.toList

namespace Construct

/-- What a construct asks of its arguments beside their number. -/
def Shaped (c : Construct) (args : List Form) : Prop :=
  match c, args with
  | .localVar, target :: _ => target.Nameable
  | .setVar, target :: _ => target.Nameable
  | .assign, [_, .map _] => True
  | .assign, target :: _ => target.Nameable
  | .hashMerge, [_, .map _] => True
  | .hashMerge, _ => False
  | .forEach, .vector [_, _] :: _ => True
  | .forEach, _ => False
  | .caseOf, args => args.length % 2 = 1
  | .function, .symbol _ :: .vector _ :: _ => True
  | .function, .vector _ :: _ => True
  | .function, _ => False
  | _, _ => True

/-- The forms that go into the slots of an array: for every entry the target, the key and the
    value. -/
def slotForms (target : Form) (entries : List (Form × Form)) : List Form :=
  entries.flatMap fun e => [target, e.1, e.2]

/-- The forms that have to have a text for a construct to have one. -/
def needs (c : Construct) (args : List Form) : List Form :=
  match c, args with
  -- without entries the target is never asked for
  | .assign, [target, .map entries] => slotForms target entries
  | .hashMerge, [target, .map entries] => slotForms target entries
  | .forEach, .vector binding :: body => binding ++ body
  | .function, .symbol _ :: .vector params :: body => params ++ body
  | .function, .vector params :: body => params ++ body
  | .apply, args => [.list (Render.spread args)]
  | _, args => args

end Construct

namespace Form

/-- The form itself is as it has to be, whatever it holds. -/
def Shaped : Form → Prop
  | .ratio _ denom => denom ≠ 0
  | .list (.symbol name :: args) =>
    match Construct.named? name with
    | some c => c.arity.Admits args.length ∧ c.Shaped args
    | none =>
      if (Operator.named? name).isSome then 2 ≤ args.length
      else if (Render.method? name).isSome then 1 ≤ args.length
      else True
  | _ => True

/-- The forms that have to have a text for a form to have one. -/
def needs : Form → List Form
  | .list (.symbol name :: args) =>
    match Construct.named? name with
    | some c => c.needs args
    | none => args
  -- the arguments of a call are the extension's
  | .list (.map _ :: _) => []
  | .list items => items
  | .vector items => items
  | .map entries => entries.flatMap fun e => [e.1, e.2]
  | _ => []

end Form

/-- A well-formed tree: every form has its shape, down through all that is needed. -/
inductive WellFormed : Form → Prop
  | intro (f : Form) : f.Shaped → (∀ g ∈ f.needs, WellFormed g) → WellFormed f

/-! ## What is needed is smaller -/

theorem Form.sizeOfItems_append (fs gs : List Form) :
    sizeOfItems (fs ++ gs) = sizeOfItems fs + sizeOfItems gs := by
  induction fs with
  | nil => simp [sizeOfItems]
  | cons f fs ih =>
    rw [List.cons_append, sizeOfItems, sizeOfItems, ih]
    omega

namespace Construct

theorem size_le_of_mem_slotForms {target f : Form} {entries : List (Form × Form)}
    (h : f ∈ slotForms target entries) : f.size ≤ target.size + Form.sizeOfEntries entries := by
  obtain ⟨e, he, hf⟩ := List.mem_flatMap.mp h
  have hsize := Form.size_le_of_mem_entries (k := e.1) (v := e.2) he
  simp only [List.mem_cons, List.not_mem_nil, or_false] at hf
  rcases hf with rfl | rfl | rfl <;> omega

/-- What a construct needs has no more nodes than its arguments, but for the list that `apply`
    stands for, which is one node more. -/
theorem size_le_of_mem_needs {c : Construct} {args : List Form} {f : Form}
    (h : f ∈ c.needs args) : f.size ≤ 1 + Form.sizeOfItems args := by
  unfold needs at h
  split at h
  · have hsize := size_le_of_mem_slotForms h
    simp only [Form.sizeOfItems, Form.size]
    omega
  · have hsize := size_le_of_mem_slotForms h
    simp only [Form.sizeOfItems, Form.size]
    omega
  · have hsize := Form.size_le_of_mem h
    simp only [Form.sizeOfItems_append, Form.sizeOfItems, Form.size] at hsize ⊢
    omega
  · have hsize := Form.size_le_of_mem h
    simp only [Form.sizeOfItems_append, Form.sizeOfItems, Form.size] at hsize ⊢
    omega
  · have hsize := Form.size_le_of_mem h
    simp only [Form.sizeOfItems_append, Form.sizeOfItems, Form.size] at hsize ⊢
    omega
  · obtain rfl := List.mem_singleton.mp h
    have hsize := Render.sizeOfItems_spread_le args
    simp only [Form.size]
    omega
  · have hsize := Form.size_le_of_mem h
    omega

end Construct

/-- A form needs smaller forms only. -/
theorem Form.size_lt_of_mem_needs {f g : Form} (h : g ∈ f.needs) : g.size < f.size := by
  unfold needs at h
  split at h
  · next name args =>
    simp only [size, sizeOfItems]
    split at h
    · have hsize := Construct.size_le_of_mem_needs h
      omega
    · have hsize := size_le_of_mem h
      omega
  · simp at h
  · have hsize := size_le_of_mem h
    simp only [size]
    omega
  · have hsize := size_le_of_mem h
    simp only [size]
    omega
  · next entries =>
    obtain ⟨e, he, hg⟩ := List.mem_flatMap.mp h
    have hsize := size_le_of_mem_entries (k := e.1) (v := e.2) he
    simp only [List.mem_cons, List.not_mem_nil, or_false] at hg
    simp only [size]
    rcases hg with rfl | rfl <;> omega
  · simp at h

namespace Render

/-! ## Sequences -/

/-- A form has a text. -/
def Renders (f : Form) : Prop :=
  Succeeds (emit .plain f)

theorem renders_splice : Renders .splice :=
  ⟨"", emit_splice .plain⟩

/-- The marks of splices that statements and parts leave out have a text, too. -/
theorem forall_filter_isSplice {fs : List Form} :
    (∀ f ∈ fs.filter fun f => !f.isSplice, Renders f) ↔ ∀ f ∈ fs, Renders f := by
  constructor
  · intro h f hf
    by_cases hs : f.isSplice = true
    · rw [eq_splice_of_isSplice hs]
      exact renders_splice
    · exact h f (List.mem_filter.mpr ⟨hf, by simpa using hs⟩)
  · intro h f hf
    exact h f (List.mem_filter.mp hf).1

theorem statements_succeeds {fs : List Form} :
    Succeeds (statements (emit .plain) fs) ↔ ∀ f ∈ fs, Renders f := by
  rw [statements_eq, ← forall_filter_isSplice]
  simp [succeeds_mapM, Renders]

theorem parts_succeeds {fs : List Form} :
    Succeeds (parts (emit .plain) fs) ↔ ∀ f ∈ fs, Renders f := by
  rw [parts_eq, ← forall_filter_isSplice]
  simp [succeeds_mapM, Renders]

theorem joined_succeeds {separator : String} {fs : List Form} :
    Succeeds (joined (emit .plain) separator fs) ↔ ∀ f ∈ fs, Renders f := by
  rw [← parts_succeeds]
  simp [joined]

theorem words_succeeds {fs : List Form} :
    Succeeds (words (emit .plain) fs) ↔ ∀ f ∈ fs, Renders f :=
  joined_succeeds

theorem arguments_succeeds {fs : List Form} :
    Succeeds (arguments (emit .plain) fs) ↔ ∀ f ∈ fs, Renders f := by
  simp [arguments, succeeds_mapM, Renders]

theorem initialiser_succeeds {entries : List (Form × Form)} :
    Succeeds (initialiser (emit .plain) entries) ↔
      ∀ f ∈ entries.flatMap fun e => [e.1, e.2], Renders f := by
  rw [List.forall_mem_flatMap]
  simp [initialiser, succeeds_mapM, Renders]

theorem setSlots_succeeds {target : Form} {entries : List (Form × Form)} :
    Succeeds (setSlots (emit .plain) target entries) ↔
      ∀ f ∈ Construct.slotForms target entries, Renders f := by
  rw [Construct.slotForms, List.forall_mem_flatMap]
  simp [setSlots, setSlot, succeeds_mapM, Renders]

theorem parameterLines_succeeds {ps : List Form} (i : Nat) :
    Succeeds (parameterLines (emit .plain) i ps) ↔ ∀ f ∈ ps, Renders f := by
  induction ps generalizing i with
  | nil => simp [parameterLines]
  | cons p ps ih => simp [parameterLines, ih, Renders]

theorem functionWith_succeeds {opening : String} {params body : List Form} :
    Succeeds (functionWith (emit .plain) opening params body) ↔
      ∀ f ∈ params ++ body, Renders f := by
  rw [List.forall_mem_append, ← parameterLines_succeeds 1, ← statements_succeeds]
  simp [functionWith]

/-- With as many bodies as patterns no form is left over. -/
theorem clauses_succeeds {fs : List Form} (h : fs.length % 2 = 0) :
    Succeeds (clauses (emit .plain) fs) ↔ ∀ f ∈ fs, Renders f := by
  fun_induction clauses (emit .plain) fs with
  | case1 p b rest ih =>
    rw [List.length_cons, List.length_cons] at h
    simp [ih (by omega), Renders]
  | case2 fs hfs =>
    cases fs with
    | nil => simp
    | cons p fs =>
      cases fs with
      | nil => simp at h
      | cons b rest => exact absurd rfl (hfs p b rest)

theorem variableName_succeeds {f : Form} :
    Succeeds (variableName (emit .plain) f) ↔ f.Nameable ∧ Renders f := by
  rw [variableName, Renders, Form.Nameable]
  cases emit .plain f with
  | error e => simp [bind, Except.bind]
  | ok name =>
    by_cases h : Text.hasHyphen name = true
    · simp_all [bind, Except.bind, Text.hasHyphen]
    · simp_all [bind, Except.bind, Text.hasHyphen]

theorem checkedAssignment_succeeds {target value : Form} :
    Succeeds (checkedAssignment (emit .plain) target value) ↔
      target.Nameable ∧ Renders target ∧ Renders value := by
  rw [← and_assoc, ← variableName_succeeds]
  simp [checkedAssignment, Renders]

theorem loopValues_succeeds {f : Form} :
    Succeeds (loopValues (emit .plain) f) ↔ Renders f := by
  rw [Renders, emit_eq]
  cases f with
  | vector items => simp [loopValues, layout]
  | _ => simp only [loopValues, emit_eq .plain]

/-! ## Conditions -/

theorem bareOperation_succeeds {op : Operator} {args : List Form} :
    Succeeds (bareOperation (emit .plain) op args) ↔
      2 ≤ args.length ∧ ∀ f ∈ args, Renders f := by
  match args with
  | [] => simp [bareOperation]
  | [_] => simp [bareOperation]
  | _ :: _ :: _ => simp [bareOperation, succeeds_mapM, Renders]

/-- No operator has the name of a construct. -/
theorem construct_named_of_operator {name : String} {op : Operator}
    (h : Operator.named? name = some op) : Construct.named? name = none := by
  have hall : ∀ op ∈ Operator.all, Construct.named? op.name = none := by decide +kernel
  have hname : op.name = name := by simpa using List.find?_some h
  rw [← hname]
  exact hall op (Operator.mem_of_named h)

theorem emit_operation {cx : Setting} {name : String} {op : Operator}
    (h : Operator.named? name = some op) (args : List Form) :
    emit cx (.list (.symbol name :: args)) = operation (emit cx) op args := by
  rw [emit_eq, layout, headed, construct_named_of_operator h, h]

/-- A test has a text in brackets iff it has one outside of them. -/
theorem test_succeeds {f : Form} : Succeeds (test (emit .plain) f) ↔ Renders f := by
  unfold test
  split
  · next name args =>
    split
    -- the two texts differ in the outermost grouping, which cannot fail
    · next op h => simp [Renders, emit_operation h, operation]
    · rfl
  · rfl

theorem condition_succeeds {f : Form} : Succeeds (condition (emit .plain) f) ↔ Renders f := by
  unfold condition
  split
  · rw [← test_succeeds]
    simp
  · rfl

theorem negatedCondition_succeeds {f : Form} :
    Succeeds (negatedCondition (emit .plain) f) ↔ Renders f := by
  unfold negatedCondition
  split <;> simp [Renders]

theorem branch_succeeds {f : Form} : Succeeds (branch (emit .plain) f) ↔ Renders f := by
  refine succeeds_bind_of_succeeds fun body => ?_
  split
  · exact succeeds_pure _
  · exact succeeds_pure _

/-! ## Constructs -/

/-- The arguments are right in number and shape, and what the construct needs has a text. -/
def Accepts (c : Construct) (args : List Form) : Prop :=
  c.arity.Admits args.length ∧ c.Shaped args ∧ ∀ f ∈ c.needs args, Renders f

/-- A construct that asks for nothing but a number of arguments with a text. -/
theorem accepts_of_count {x : Rendering} {c : Construct} {args : List Form}
    (hshape : c.Shaped args) (hneeds : c.needs args = args)
    (h : Succeeds x ↔ c.arity.Admits args.length ∧ ∀ f ∈ args, Renders f) :
    Succeeds x ↔ Accepts c args := by
  rw [h, Accepts, hneeds, and_iff_right hshape]

theorem any_succeeds {x : Rendering} {args : List Form}
    (h : Succeeds x ↔ ∀ f ∈ args, Renders f) :
    Succeeds x ↔ (Arity.mk 0 none).Admits args.length ∧ ∀ f ∈ args, Renders f := by
  simp [Arity.Admits, h]

theorem wrapped_succeeds {c : Construct} {opening closing : String} {args : List Form} :
    Succeeds (wrapped (emit .plain) c opening closing args) ↔
      (Arity.mk 1 (some 1)).Admits args.length ∧ ∀ f ∈ args, Renders f := by
  match args with
  | [] => simp [wrapped, Arity.Admits]
  | [_] => simp [wrapped, Arity.Admits, Renders]
  | _ :: _ :: _ => simp [wrapped, Arity.Admits]

theorem two_succeeds {c : Construct} {rule : Form → Form → Rendering}
    (hrule : ∀ f g, Succeeds (rule f g) ↔ Renders f ∧ Renders g) {args : List Form} :
    Succeeds (match args with | [f, g] => rule f g | _ => badCount c args) ↔
      (Arity.mk 2 (some 2)).Admits args.length ∧ ∀ f ∈ args, Renders f := by
  match args with
  | [] => simp [Arity.Admits]
  | [_] => simp [Arity.Admits]
  | [_, _] => simp [Arity.Admits, hrule]
  | _ :: _ :: _ :: _ => simp [Arity.Admits]

theorem three_succeeds {c : Construct} {rule : Form → Form → Form → Rendering}
    (hrule : ∀ f g h, Succeeds (rule f g h) ↔ Renders f ∧ Renders g ∧ Renders h)
    {args : List Form} :
    Succeeds (match args with | [f, g, h] => rule f g h | _ => badCount c args) ↔
      (Arity.mk 3 (some 3)).Admits args.length ∧ ∀ f ∈ args, Renders f := by
  match args with
  | [] => simp [Arity.Admits]
  | [_] => simp [Arity.Admits]
  | [_, _] => simp [Arity.Admits]
  | [_, _, _] => simp [Arity.Admits, hrule]
  | _ :: _ :: _ :: _ :: _ => simp [Arity.Admits]

/-- One form with a rule of its own, and any number of forms after it. -/
theorem first_succeeds {c : Construct} {rule : Form → List Form → Rendering}
    (hrule : ∀ f fs, Succeeds (rule f fs) ↔ Renders f ∧ ∀ g ∈ fs, Renders g) {args : List Form} :
    Succeeds (match args with | f :: fs => rule f fs | [] => badCount c args) ↔
      (Arity.mk 1 none).Admits args.length ∧ ∀ f ∈ args, Renders f := by
  cases args with
  | nil => simp [Arity.Admits]
  | cons f fs => simp [Arity.Admits, hrule]

theorem pair_succeeds {opening middle closing : String} (f g : Form) :
    Succeeds (pair (emit .plain) opening middle closing f g) ↔ Renders f ∧ Renders g := by
  simp [pair, Renders]

theorem conditional_succeeds {c : Construct} {judge : Form → Rendering}
    (hjudge : ∀ f, Succeeds (judge f) ↔ Renders f) {args : List Form} :
    Succeeds (conditional (emit .plain) c judge args) ↔
      (Arity.mk 2 (some 3)).Admits args.length ∧ ∀ f ∈ args, Renders f := by
  match args with
  | [] => simp [conditional, Arity.Admits]
  | [_] => simp [conditional, Arity.Admits]
  | [_, _] => simp [conditional, Arity.Admits, hjudge, branch_succeeds]
  | [_, _, _] => simp [conditional, Arity.Admits, hjudge, branch_succeeds]
  | _ :: _ :: _ :: _ :: _ => simp [conditional, Arity.Admits]

theorem returnFrom_succeeds {args : List Form} :
    Succeeds (returnFrom (emit .plain) args) ↔
      (Arity.mk 0 (some 1)).Admits args.length ∧ ∀ f ∈ args, Renders f := by
  match args with
  | [] => simp [returnFrom, Arity.Admits]
  | [_] => simp [returnFrom, Arity.Admits, Renders]
  | _ :: _ :: _ => simp [returnFrom, Arity.Admits]

theorem deref_succeeds {args : List Form} :
    Succeeds (deref (emit .plain) args) ↔
      (Arity.mk 1 (some 1)).Admits args.length ∧ ∀ f ∈ args, Renders f := by
  unfold deref
  split
  · exact wrapped_succeeds
  · exact wrapped_succeeds

/-! ### Constructs that ask for a shape -/

theorem forEach_succeeds {args : List Form} :
    Succeeds (forEach (emit .plain) args) ↔ Accepts .forEach args := by
  unfold forEach
  split
  · next item values body =>
    show _ ↔ (Arity.mk 0 none).Admits _ ∧ True ∧ ∀ f ∈ [item, values] ++ body, Renders f
    simp [Arity.Admits, loopValues_succeeds, statements_succeeds, and_left_comm, Renders]
  · simp [Accepts, Construct.Shaped]

theorem caseOf_succeeds {args : List Form} :
    Succeeds (caseOf (emit .plain) args) ↔ Accepts .caseOf args := by
  show _ ↔ (Arity.mk 0 none).Admits _ ∧ args.length % 2 = 1 ∧ ∀ f ∈ args, Renders f
  cases args with
  | nil => simp [caseOf]
  | cons subject forms =>
    rw [caseOf, List.length_cons]
    split
    · next h =>
      have hodd : ¬ (forms.length + 1) % 2 = 1 := by omega
      simp [hodd]
    · next h =>
      have hodd : (forms.length + 1) % 2 = 1 := by omega
      simp [Arity.Admits, hodd, clauses_succeeds (show forms.length % 2 = 0 by omega), Renders]

theorem localVar_succeeds {args : List Form} :
    Succeeds (localVar (emit .plain) args) ↔ Accepts .localVar args := by
  match args with
  | [] => simp [localVar, Accepts, Arity.Admits, Construct.arity]
  | [target] =>
    show _ ↔ (Arity.mk 1 (some 2)).Admits 1 ∧ target.Nameable ∧ ∀ f ∈ [target], Renders f
    simp [localVar, Arity.Admits, variableName_succeeds]
  | [target, value] =>
    show _ ↔ (Arity.mk 1 (some 2)).Admits 2 ∧ target.Nameable ∧ ∀ f ∈ [target, value], Renders f
    simp [localVar, Arity.Admits, checkedAssignment_succeeds]
  | _ :: _ :: _ :: _ => simp [localVar, Accepts, Arity.Admits, Construct.arity]

theorem setVar_succeeds {args : List Form} :
    Succeeds (setVar (emit .plain) args) ↔ Accepts .setVar args := by
  match args with
  | [] => simp [setVar, Accepts, Arity.Admits, Construct.arity]
  | [_] => simp [setVar, Accepts, Arity.Admits, Construct.arity]
  | [target, value] =>
    show _ ↔ (Arity.mk 2 (some 2)).Admits 2 ∧ target.Nameable ∧ ∀ f ∈ [target, value], Renders f
    simp [setVar, Arity.Admits, checkedAssignment_succeeds]
  | _ :: _ :: _ :: _ => simp [setVar, Accepts, Arity.Admits, Construct.arity]

theorem not_admits_two {args : List Form} (h : ∀ f g, args = [f, g] → False) :
    ¬ (Arity.mk 2 (some 2)).Admits args.length := by
  match args with
  | [] => simp [Arity.Admits]
  | [_] => simp [Arity.Admits]
  | [f, g] => exact absurd rfl (h f g)
  | _ :: _ :: _ :: _ => simp [Arity.Admits]

theorem assign_succeeds {args : List Form} :
    Succeeds (assign (emit .plain) args) ↔ Accepts .assign args := by
  unfold assign
  split
  · next target entries =>
    show _ ↔ (Arity.mk 2 (some 2)).Admits 2 ∧ True ∧
      ∀ f ∈ Construct.slotForms target entries, Renders f
    simp [Arity.Admits, setSlots_succeeds]
  · next target value hvalue =>
    -- shape and needs both ask whether the value is a map, which it is not
    have hshape : Construct.assign.Shaped [target, value] = target.Nameable := by
      cases value with
      | map entries => exact absurd rfl (hvalue entries)
      | _ => rfl
    have hneeds : Construct.assign.needs [target, value] = [target, value] := by
      cases value with
      | map entries => exact absurd rfl (hvalue entries)
      | _ => rfl
    simp [Accepts, hshape, hneeds, Arity.Admits, Construct.arity, checkedAssignment_succeeds]
  · next hargs =>
    exact iff_of_false (not_succeeds_badCount _ _) fun h => not_admits_two hargs h.1

theorem hashMerge_succeeds {args : List Form} :
    Succeeds (hashMerge (emit .plain) args) ↔ Accepts .hashMerge args := by
  unfold hashMerge
  split
  · next target entries =>
    show _ ↔ (Arity.mk 2 (some 2)).Admits 2 ∧ True ∧
      ∀ f ∈ Construct.slotForms target entries, Renders f
    simp [Arity.Admits, setSlots_succeeds]
  · next target value hvalue =>
    have hshape : ¬ Construct.hashMerge.Shaped [target, value] := by
      cases value with
      | map entries => exact absurd rfl (hvalue entries)
      | _ => exact id
    simp [Accepts, hshape]
  · next hargs =>
    exact iff_of_false (not_succeeds_badCount _ _) fun h => not_admits_two hargs h.1

theorem function_succeeds {args : List Form} :
    Succeeds (function (emit .plain) args) ↔ Accepts .function args := by
  unfold function
  split
  · next name params body =>
    show _ ↔ (Arity.mk 0 none).Admits _ ∧ True ∧ ∀ f ∈ params ++ body, Renders f
    rw [functionWith_succeeds]
    simp [Arity.Admits]
  · next params body =>
    show _ ↔ (Arity.mk 0 none).Admits _ ∧ True ∧ ∀ f ∈ params ++ body, Renders f
    rw [functionWith_succeeds]
    simp [Arity.Admits]
  · simp [Accepts, Construct.Shaped]

theorem apply_succeeds {args : List Form} :
    Succeeds (apply (emit .plain) args) ↔ Accepts .apply args := by
  cases args with
  | nil => simp [apply, Accepts, Arity.Admits, Construct.arity]
  | cons f fs =>
    show _ ↔ (Arity.mk 1 none).Admits _ ∧ True ∧ ∀ g ∈ [Form.list (spread (f :: fs))], Renders g
    simp [apply, Arity.Admits, Renders]

theorem construct_succeeds (c : Construct) (args : List Form) :
    Succeeds (construct (emit .plain) c args) ↔ Accepts c args := by
  cases c with
  | forEach => exact forEach_succeeds
  | caseOf => exact caseOf_succeeds
  | localVar => exact localVar_succeeds
  | assign => exact assign_succeeds
  | setVar => exact setVar_succeeds
  | hashMerge => exact hashMerge_succeeds
  | apply => exact apply_succeeds
  | function => exact function_succeeds
  | ifElse =>
    refine accepts_of_count trivial rfl ?_
    exact conditional_succeeds fun _ => condition_succeeds
  | ifNot =>
    refine accepts_of_count trivial rfl ?_
    exact conditional_succeeds fun _ => negatedCondition_succeeds
  | whenTrue =>
    refine accepts_of_count trivial rfl ?_
    exact first_succeeds fun _ _ => by simp [statements_succeeds, condition_succeeds, and_comm]
  | whileTrue =>
    refine accepts_of_count trivial rfl ?_
    exact first_succeeds fun _ _ => by simp [statements_succeeds, condition_succeeds]
  | newObject =>
    refine accepts_of_count trivial rfl ?_
    exact first_succeeds fun _ _ => by simp [arguments_succeeds, Renders]
  | define | calculate | aliasFor | arrayGet =>
    refine accepts_of_count trivial rfl ?_
    exact two_succeeds fun _ _ => pair_succeeds _ _
  | hashGet =>
    refine accepts_of_count trivial rfl ?_
    exact two_succeeds fun _ _ => by simp [getSlot, Renders]
  | arraySet =>
    refine accepts_of_count trivial rfl ?_
    exact three_succeeds fun _ _ _ => by simp [pair_succeeds, Renders, and_assoc]
  | hashSet =>
    refine accepts_of_count trivial rfl ?_
    exact three_succeeds fun _ _ _ => by simp [setSlot, Renders]
  | quoted | negate | predicate p =>
    refine accepts_of_count trivial rfl ?_
    exact wrapped_succeeds
  | deref =>
    refine accepts_of_count trivial rfl ?_
    exact deref_succeeds
  | returnFrom =>
    refine accepts_of_count trivial rfl ?_
    exact returnFrom_succeeds
  | concat =>
    refine accepts_of_count trivial rfl ?_
    exact any_succeeds (by simp [construct, concat, succeeds_mapM, Renders])
  | println | print =>
    refine accepts_of_count trivial rfl ?_
    exact any_succeeds (by simp [construct, words_succeeds])
  | block =>
    refine accepts_of_count trivial rfl ?_
    exact any_succeeds statements_succeeds
  | group =>
    refine accepts_of_count trivial rfl ?_
    exact any_succeeds (by simp [construct, group, parts_succeeds])
  | pipe | chainOr | chainAnd =>
    refine accepts_of_count trivial rfl ?_
    exact any_succeeds joined_succeeds

/-! ## One step -/

theorem methodCall_succeeds {method : String} {args : List Form} :
    Succeeds (methodCall (emit .plain) method args) ↔
      1 ≤ args.length ∧ ∀ f ∈ args, Renders f := by
  cases args with
  | nil => simp [methodCall]
  | cons target rest => simp [methodCall, arguments_succeeds, Renders]

/-- A symbol at the head of a list has a text of its own. -/
theorem renders_symbol (name : String) : Renders (.symbol name) := by
  rw [Renders, emit_eq]
  exact succeeds_ok name

theorem headed_succeeds (name : String) (args : List Form) :
    Succeeds (headed (emit .plain) name args) ↔ (Form.list (.symbol name :: args)).Shaped ∧
      ∀ f ∈ (Form.list (.symbol name :: args)).needs, Renders f := by
  rw [headed, Form.Shaped, Form.needs]
  cases Construct.named? name with
  | some c => rw [construct_succeeds, Accepts, and_assoc]
  | none =>
    cases Operator.named? name with
    | some op => simp [operation, bareOperation_succeeds]
    | none =>
      cases method? name with
      | some method => simp [methodCall_succeeds]
      | none => simp [words_succeeds, renders_symbol]

theorem list_succeeds (items : List Form) :
    Succeeds (layout .plain (emit .plain) (.list items)) ↔
      (Form.list items).Shaped ∧ ∀ f ∈ (Form.list items).needs, Renders f := by
  cases items with
  | nil => simp [layout, Form.Shaped, Form.needs]
  | cons head args =>
    cases head with
    | symbol name => exact headed_succeeds name args
    | map entries =>
      simp [layout, Form.Shaped, Form.needs, extensionCall, Setting.plain, Extension.none]
    | _ => simp [layout, Form.Shaped, Form.needs, words_succeeds]

/-- A form has a text iff it has its shape and all that it needs has a text. -/
theorem renders_iff_needs (f : Form) : Renders f ↔ f.Shaped ∧ ∀ g ∈ f.needs, Renders g := by
  rw [Renders, emit_eq]
  cases f with
  | list items => exact list_succeeds items
  | vector items => simp [layout, Form.Shaped, Form.needs, words_succeeds]
  | map entries =>
    rw [layout, initialiser_succeeds]
    simp [Form.Shaped, Form.needs]
  | ratio n d =>
    by_cases hd : d = 0
    · simp [layout, atom, ratio, Form.Shaped, hd]
    · simp [layout, atom, ratio, Form.Shaped, Form.needs, hd]
  | _ => simp [layout, atom, Form.Shaped, Form.needs]

/-! ## Whole trees -/

/-- A form that has a text is well formed. -/
theorem wellFormed_of_renders {f : Form} (h : Renders f) : WellFormed f := by
  obtain ⟨hshape, hneeds⟩ := (renders_iff_needs f).mp h
  -- by size and not by structure: the list that `apply` stands for is no part of it
  exact .intro f hshape fun g hg =>
    have := Form.size_lt_of_mem_needs hg
    wellFormed_of_renders (hneeds g hg)
termination_by f.size

/-- A well-formed form has a text. -/
theorem renders_of_wellFormed {f : Form} (h : WellFormed f) : Renders f := by
  induction h with
  | intro f hshape _ ih => exact (renders_iff_needs f).mpr ⟨hshape, ih⟩

theorem renders_iff_wellFormed {f : Form} : Renders f ↔ WellFormed f :=
  ⟨wellFormed_of_renders, renders_of_wellFormed⟩

/-- Without extension, rendering a tree fails exactly when the tree is ill formed. -/
theorem render_succeeds_iff (origin : Origin) (f : Form) :
    (∃ text, render ⟨Extension.none, origin⟩ [f] = .ok text) ↔ WellFormed f := by
  rw [← renders_iff_wellFormed]
  constructor
  · rintro ⟨text, h⟩
    exact ⟨text, mapError_eq_ok.mp (render_none Origin.unknown h)⟩
  · rintro ⟨text, h⟩
    exact ⟨text, render_none origin (mapError_eq_ok.mpr h)⟩

end Render

/-- Whether a tree is well formed is found out by rendering it. -/
instance : DecidablePred WellFormed := fun f =>
  match h : Render.emit .plain f with
  | .ok text => isTrue (Render.renders_iff_wellFormed.mp ⟨text, h⟩)
  | .error _ => isFalse fun hf => by
    obtain ⟨text, htext⟩ := Render.renders_iff_wellFormed.mpr hf
    rw [h] at htext
    cases htext

example : WellFormed (.call "var" [.ratio 1 0, .map []]) ∧
    ¬ WellFormed (.call "var" [.ratio 1 0, .map [(.nil, .nil)]]) := by
  decide +kernel

end ScriptTree

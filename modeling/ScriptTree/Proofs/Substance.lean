/-
  How much there is to a text.

  A text may be blank; it may hold nothing but white characters and semicolons, with which the
  shell does nothing; or it may hold something else.  These are the three values of `Substance`,
  and putting texts together takes the greater one (`substance_append`).

  What a tree renders to can be judged in this way without rendering it.  Most constructs print
  something themselves.  The others show their arguments: in a row, so that the greatest
  substance counts, or linked by a separator, which is printed only between two parts that are not
  blank.  `apply` shows the list it stands for, and slots are set only if there are entries.
  `Form.substance` says this by recursion on the tree, and `emit_weighs` that the text of a form, if
  it has one, has the substance of the form.
-/
import ScriptTree.Proofs.Success

namespace ScriptTree

/-- How much there is to a text: white characters only, white characters and semicolons, or
    something else. -/
inductive Substance where
  | blank
  | idle
  | solid
  deriving DecidableEq, Repr

namespace Substance

/-- The greater one of two. -/
def join : Substance → Substance → Substance
  | .solid, _ => .solid
  | _, .solid => .solid
  | .idle, _ => .idle
  | .blank, s => s

@[simp] theorem blank_join (a : Substance) : blank.join a = a := by cases a <;> rfl

@[simp] theorem join_blank (a : Substance) : a.join blank = a := by cases a <;> rfl

@[simp] theorem solid_join (a : Substance) : solid.join a = solid := by cases a <;> rfl

@[simp] theorem join_solid (a : Substance) : a.join solid = solid := by cases a <;> rfl

theorem join_comm (a b : Substance) : a.join b = b.join a := by
  cases a <;> cases b <;> rfl

theorem join_assoc (a b c : Substance) : (a.join b).join c = a.join (b.join c) := by
  cases a <;> cases b <;> cases c <;> rfl

theorem join_eq_blank {a b : Substance} : a.join b = blank ↔ a = blank ∧ b = blank := by
  cases a <;> cases b <;> decide

theorem join_eq_solid {a b : Substance} : a.join b = solid ↔ a = solid ∨ b = solid := by
  cases a <;> cases b <;> decide

/-- The greatest one of many. -/
def joinAll (l : List Substance) : Substance :=
  l.foldr join blank

@[simp] theorem joinAll_nil : joinAll [] = blank := rfl

@[simp] theorem joinAll_cons (a : Substance) (l : List Substance) :
    joinAll (a :: l) = a.join (joinAll l) := rfl

@[simp] theorem joinAll_append (l m : List Substance) :
    joinAll (l ++ m) = (joinAll l).join (joinAll m) := by
  induction l with
  | nil => simp
  | cons a l ih => rw [List.cons_append, joinAll_cons, joinAll_cons, ih, join_assoc]

theorem joinAll_reverse (l : List Substance) : joinAll l.reverse = joinAll l := by
  induction l with
  | nil => rfl
  | cons a l ih => rw [List.reverse_cons, joinAll_append, ih, join_comm]; simp

theorem joinAll_eq_blank {l : List Substance} : joinAll l = blank ↔ ∀ a ∈ l, a = blank := by
  induction l with
  | nil => simp
  | cons a l ih => simp [join_eq_blank, ih]

theorem joinAll_eq_solid {l : List Substance} : joinAll l = solid ↔ solid ∈ l := by
  induction l with
  | nil => simp
  | cons a l ih => rw [joinAll_cons, join_eq_solid, ih, List.mem_cons, eq_comm (a := a)]

/-- Those that are not blank. -/
def present (l : List Substance) : List Substance :=
  l.filter (· ≠ blank)

theorem present_cons (a : Substance) (l : List Substance) :
    present (a :: l) = present [a] ++ present l :=
  List.filter_append [a] l

theorem joinAll_present (l : List Substance) : joinAll (present l) = joinAll l := by
  induction l with
  | nil => rfl
  | cons a l ih =>
    by_cases ha : a = blank
    · simpa [present, ha] using ih
    · simpa [present, ha] using congrArg a.join ih

/-- Parts with a separator between any two that are not blank. -/
def linked (l : List Substance) : Substance :=
  match present l with
  | [] => blank
  | [a] => a
  | _ => solid

end Substance

/-! ## Texts -/

namespace Text

open Substance

/-- What a single character adds. -/
def charSubstance (c : Char) : Substance :=
  if isWhite c then blank else if c = ';' then idle else solid

/-- How much there is to a text. -/
def substance (s : String) : Substance :=
  joinAll (s.toList.map charSubstance)

@[simp] theorem substance_empty : substance "" = blank := rfl

@[simp] theorem substance_append (s t : String) :
    substance (s ++ t) = (substance s).join (substance t) := by
  simp [substance]

theorem charSubstance_eq_blank {c : Char} : charSubstance c = blank ↔ isWhite c = true := by
  unfold charSubstance
  split
  · next h => simp [h]
  · next h => split <;> simp [h]

theorem charSubstance_eq_solid {c : Char} :
    charSubstance c = solid ↔ isWhite c = false ∧ c ≠ ';' := by
  unfold charSubstance
  split
  · next h => simp [h]
  · next h => split <;> simp_all

theorem substance_eq_blank {s : String} : substance s = blank ↔ isBlank s = true := by
  simp [substance, joinAll_eq_blank, charSubstance_eq_blank, isBlank]

theorem substance_eq_solid {s : String} :
    substance s = solid ↔ ∃ c ∈ s.toList, isWhite c = false ∧ c ≠ ';' := by
  simp [substance, joinAll_eq_solid, charSubstance_eq_solid]

/-- A text with a character that is more than white and more than a semicolon. -/
theorem solid_of_mem {s : String} {c : Char} (hmem : c ∈ s.toList) (hc : charSubstance c = solid) :
    substance s = solid :=
  substance_eq_solid.mpr ⟨c, hmem, charSubstance_eq_solid.mp hc⟩

theorem joinAll_dropWhile (cs : List Char) :
    joinAll ((cs.dropWhile isWhite).map charSubstance) = joinAll (cs.map charSubstance) := by
  induction cs with
  | nil => rfl
  | cons c cs ih =>
    by_cases hc : isWhite c = true
    · rw [List.dropWhile_cons_of_pos hc, ih, List.map_cons, joinAll_cons,
        charSubstance_eq_blank.mpr hc, blank_join]
    · rw [List.dropWhile_cons_of_neg hc]

@[simp] theorem substance_trim (s : String) : substance (trim s) = substance s := by
  simp only [substance, trim, trimChars, String.toList_ofList, List.map_reverse, joinAll_reverse,
    joinAll_dropWhile]

@[simp] theorem substance_asLine (s : String) : substance (asLine s) = substance s := by
  unfold asLine
  split
  · next h => rw [h]
  · split
    · rfl
    · rw [substance_append, show substance "\n" = blank from rfl, join_blank]

theorem substance_join (ts : List String) :
    substance (String.join ts) = joinAll (ts.map substance) := by
  induction ts with
  | nil => rfl
  | cons t ts ih => simp [ih]

/-- A blank separator adds nothing. -/
theorem substance_intercalate {separator : String} (h : substance separator = blank)
    (ts : List String) : substance (separator.intercalate ts) = joinAll (ts.map substance) := by
  induction ts with
  | nil => rfl
  | cons t ts ih =>
    cases ts with
    | nil => simp
    | cons u us =>
      rw [String.intercalate_cons_cons, substance_append, substance_append, h, join_blank, ih]
      rfl

/-- A solid separator shows as soon as there are two parts. -/
theorem substance_intercalate_solid {separator : String} (h : substance separator = solid)
    {ts : List String} (hts : ∀ t ∈ ts, substance t ≠ blank) :
    substance (separator.intercalate ts) = linked (ts.map substance) := by
  have hpresent : present (ts.map substance) = ts.map substance := by
    simpa [present, List.filter_eq_self] using hts
  rw [linked, hpresent]
  match ts with
  | [] => rfl
  | [t] => simp
  | t :: u :: us =>
    rw [String.intercalate_cons_cons, substance_append, substance_append, h, join_solid, solid_join]
    rfl

end Text

/-! ## Forms -/

namespace Construct

/-- What the text of a construct shows. -/
inductive Manner where
  /-- The texts of the arguments in a row. -/
  | row
  /-- The texts of the arguments that are not blank, with a separator between them. -/
  | linked
  /-- The list that the arguments stand for. -/
  | spread
  /-- A command for each entry of a map. -/
  | slots
  /-- Something of its own. -/
  | own

def manner : Construct → Manner
  | .concat | .block => .row
  | .pipe | .chainOr | .chainAnd => .linked
  | .apply => .spread
  | .assign | .hashMerge => .slots
  | _ => .own

end Construct

namespace Form

/-- The arguments are a target and a map without entries. -/
def setsNothing : List Form → Bool
  | [_, .map []] => true
  | _ => false

/-- How much there is to the text of a form, if it has one. -/
def substance : Form → Substance
  | .str text => Text.substance text
  | .keyword name => Text.substance name
  | .symbol name => Text.substance name
  | .splice => .blank
  | .list [] => .blank
  -- a call that no extension answers
  | .list (.map _ :: _) => .blank
  | .list (.symbol name :: args) =>
    match (Construct.named? name).map Construct.manner with
    | some .row => .joinAll (args.map substance)
    | some .linked => .linked (args.map substance)
    | some .spread => substance (.list (Render.spread args))
    | some .slots => if setsNothing args then .blank else .solid
    | some .own => .solid
    | none =>
      if (Operator.named? name).isSome || (Render.method? name).isSome then .solid
      else .joinAll (Text.substance name :: args.map substance)
  | .list items => .joinAll (items.map substance)
  | .nil => .solid
  | .int _ => .solid
  | .ratio _ _ => .solid
  | .vector _ => .solid
  | .map _ => .solid
termination_by f => f.size
decreasing_by
  all_goals simp only [size, sizeOfItems]
  · have := size_le_of_mem ‹_ ∈ args›; omega
  · have := size_le_of_mem ‹_ ∈ args›; omega
  · have := Render.sizeOfItems_spread_le args; omega
  · have := size_le_of_mem ‹_ ∈ args›; omega
  · have := size_le_of_mem ‹_ ∈ items›; omega

example :
    let nothing := call "apply" [call "var" [.nil, .map []]]
    substance (call "do" [call "str" [.str ""], nothing]) = .blank := by
  decide +kernel

end Form

namespace Render

/-! ## Rules and the substance of their texts -/

/-- If the rule gives a text, then there is that much to it. -/
def Weighs (x : Rendering) (w : Substance) : Prop :=
  ∀ s, x = .ok s → Text.substance s = w

/-- If the rule gives texts, then there is that much to each of them. -/
def WeighsEach (x : Except Fault (List String)) (ws : List Substance) : Prop :=
  ∀ ts, x = .ok ts → ts.map Text.substance = ws

section

variable {v w : Substance}

theorem weighs_pure {s : String} (h : Text.substance s = w) : Weighs (pure s) w := by
  intro t ht
  rw [← pure_eq_ok.mp ht]
  exact h

theorem weighs_showing {s : String} (c : Char) (hmem : c ∈ s.toList)
    (hc : Text.charSubstance c = .solid) : Weighs (pure s) .solid :=
  weighs_pure (Text.solid_of_mem hmem hc)

theorem weighs_misuse (cause : Misuse) : Weighs (misuse cause) w :=
  fun s h => absurd h (misuse_ne_ok cause s)

theorem weighs_badCount (c : Construct) (args : List Form) : Weighs (badCount c args) w :=
  fun s h => absurd h (badCount_ne_ok c args s)

theorem Weighs.bind {x : Rendering} {k : String → Rendering} (hx : Weighs x v)
    (hk : ∀ s, Text.substance s = v → Weighs (k s) w) : Weighs (x >>= k) w := by
  intro t ht
  obtain ⟨s, hs, hks⟩ := bind_eq_ok.mp ht
  exact hk s (hx s hs) t hks

theorem WeighsEach.bind {ws : List Substance} {x : Except Fault (List String)}
    {k : List String → Rendering} (hx : WeighsEach x ws)
    (hk : ∀ ts, ts.map Text.substance = ws → Weighs (k ts) w) : Weighs (x >>= k) w := by
  intro t ht
  obtain ⟨ts, hts, hkts⟩ := bind_eq_ok.mp ht
  exact hk ts (hx ts hts) t hkts

/-- What comes last decides, whatever is rendered before it. -/
theorem weighs_bind {α : Type} {x : Except Fault α} {k : α → Rendering}
    (hk : ∀ a, Weighs (k a) w) : Weighs (x >>= k) w := by
  intro t ht
  obtain ⟨a, -, hka⟩ := bind_eq_ok.mp ht
  exact hk a t hka

theorem weighsEach_mapM {α : Type} {k : α → Rendering} {ws : α → Substance} {l : List α}
    (hk : ∀ a ∈ l, Weighs (k a) (ws a)) : WeighsEach (l.mapM k) (l.map ws) := by
  induction l with
  | nil =>
    intro ts hts
    obtain rfl : [] = ts := by simpa using hts
    rfl
  | cons a l ih =>
    intro ts hts
    rw [List.mapM_cons] at hts
    obtain ⟨t, ht, us, hus, rfl⟩ : ∃ t, k a = .ok t ∧ ∃ us, l.mapM k = .ok us ∧ t :: us = ts := by
      simpa using hts
    rw [List.map_cons, List.map_cons, hk a (by simp) t ht,
      ih (fun b hb => hk b (List.mem_cons_of_mem a hb)) us hus]

end

/-! ## Sequences -/

section

variable {sub : Form → Rendering} {fs : List Form}

/-- The marks of splices that statements and parts leave out are blank. -/
theorem present_filter_isSplice (fs : List Form) :
    Substance.present ((fs.filter fun f => !f.isSplice).map Form.substance) =
      Substance.present (fs.map Form.substance) := by
  induction fs with
  | nil => rfl
  | cons f fs ih =>
    by_cases hf : f.isSplice = true
    · have hblank : f.substance = .blank := by
        rw [eq_splice_of_isSplice hf, Form.substance]
      rw [List.filter_cons_of_neg (by simp [hf]), ih, List.map_cons, hblank]
      rfl
    · rw [List.filter_cons_of_pos (by simpa using hf), List.map_cons, List.map_cons,
        Substance.present_cons, ih, ← Substance.present_cons]

variable (h : ∀ f ∈ fs, Weighs (sub f) f.substance)

include h

theorem texts_weigh :
    WeighsEach ((fs.filter fun f => !f.isSplice).mapM sub)
      ((fs.filter fun f => !f.isSplice).map Form.substance) :=
  weighsEach_mapM fun f hf => h f (List.mem_filter.mp hf).1

theorem statements_weighs :
    Weighs (statements sub fs) (.joinAll (fs.map Form.substance)) := by
  rw [statements_eq, ← Substance.joinAll_present, ← present_filter_isSplice,
    Substance.joinAll_present]
  refine (texts_weigh h).bind fun ts hts => weighs_pure ?_
  rw [Text.substance_join, ← hts, List.map_map]
  exact congrArg _ (List.map_congr_left fun t _ => Text.substance_asLine t)

theorem parts_weigh : WeighsEach (parts sub fs) (Substance.present (fs.map Form.substance)) := by
  intro us hus
  rw [parts_eq] at hus
  obtain ⟨ts, hts, rfl⟩ : ∃ ts, (fs.filter fun f => !f.isSplice).mapM sub = .ok ts ∧
      ts.filter (fun s => !Text.isBlank s) = us := by simpa using hus
  rw [← present_filter_isSplice, ← texts_weigh h ts hts, Substance.present, List.filter_map]
  refine congrArg _ (List.filter_congr fun t _ => ?_)
  cases hblank : Text.isBlank t with
  | true => simp [Text.substance_eq_blank.mpr hblank]
  | false =>
    have hne : Text.substance t ≠ .blank := by
      rw [Ne, Text.substance_eq_blank, hblank]
      decide
    simp [hne]

theorem words_weighs : Weighs (words sub fs) (.joinAll (fs.map Form.substance)) := by
  refine (parts_weigh h).bind fun ts hts => weighs_pure ?_
  rw [Text.substance_intercalate rfl, hts, Substance.joinAll_present]

theorem joined_weighs {separator : String} (hsep : Text.substance separator = .solid) :
    Weighs (joined sub separator fs) (.linked (fs.map Form.substance)) := by
  refine (parts_weigh h).bind fun ts hts => weighs_pure ?_
  have hpresent : ∀ t ∈ ts, Text.substance t ≠ .blank := by
    intro t ht
    have hmem : Text.substance t ∈ Substance.present (fs.map Form.substance) :=
      hts ▸ List.mem_map_of_mem ht
    simpa using (List.mem_filter.mp hmem).2
  rw [Text.substance_intercalate_solid hsep hpresent, hts, Substance.linked, Substance.linked]
  simp only [Substance.present, List.filter_filter, Bool.and_self]

theorem concat_weighs : Weighs (concat sub fs) (.joinAll (fs.map Form.substance)) := by
  refine (weighsEach_mapM h).bind fun ts hts => weighs_pure ?_
  rw [Text.substance_join, hts]

end

/-! ## Constructs that print something of their own -/

section

variable (sub : Form → Rendering)

/-! ### By the number of their arguments -/

theorem first_solid {c : Construct} {rule : Form → List Form → Rendering}
    (hrule : ∀ f fs, Weighs (rule f fs) .solid) (args : List Form) :
    Weighs (match args with | f :: fs => rule f fs | [] => badCount c args) .solid := by
  split
  · exact hrule _ _
  · exact weighs_badCount _ _

theorem two_solid {c : Construct} {rule : Form → Form → Rendering}
    (hrule : ∀ f g, Weighs (rule f g) .solid) (args : List Form) :
    Weighs (match args with | [f, g] => rule f g | _ => badCount c args) .solid := by
  split
  · exact hrule _ _
  · exact weighs_badCount _ _

theorem three_solid {c : Construct} {rule : Form → Form → Form → Rendering}
    (hrule : ∀ f g h, Weighs (rule f g h) .solid) (args : List Form) :
    Weighs (match args with | [f, g, h] => rule f g h | _ => badCount c args) .solid := by
  split
  · exact hrule _ _ _
  · exact weighs_badCount _ _

/-! ### By what they print -/

theorem wrapped_solid (c : Construct) {opening closing : String}
    (h : Text.substance opening = .solid) (args : List Form) :
    Weighs (wrapped sub c opening closing args) .solid := by
  unfold wrapped
  split
  · exact weighs_bind fun _ => weighs_pure (by simp [h])
  · exact weighs_badCount _ _

theorem pair_solid {opening middle closing : String} (h : Text.substance middle = .solid)
    (f g : Form) : Weighs (pair sub opening middle closing f g) .solid :=
  weighs_bind fun _ => weighs_bind fun _ => weighs_pure (by simp [h])

theorem checkedAssignment_solid (target value : Form) :
    Weighs (checkedAssignment sub target value) .solid :=
  weighs_bind fun _ => weighs_bind fun _ => weighs_showing '=' (by simp) rfl

theorem setSlot_solid (target key value : Form) :
    Weighs (setSlot sub target key value) .solid :=
  weighs_bind fun _ => weighs_bind fun _ => weighs_bind fun _ => weighs_showing 'h' (by simp) rfl

theorem functionWith_solid {opening : String} (h : Text.substance opening = .solid)
    (params body : List Form) : Weighs (functionWith sub opening params body) .solid :=
  weighs_bind fun _ => weighs_bind fun _ => weighs_pure (by simp [h])

theorem command_solid {name : String} (h : Text.substance name = .solid) (words : String) :
    Text.substance (command name words) = .solid := by
  unfold command
  split
  · exact h
  · simp [h]

theorem flag_solid {name : String} {p : Predicate}
    (h : Construct.named? name = some (.predicate p)) : Text.substance (p.flag ++ " ") = .solid := by
  have hall : ∀ p ∈ Predicate.all, Text.substance p.flag = .solid := by decide +kernel
  simp [hall p (Construct.predicate_mem_of_named h)]

/-! ### The constructs -/

theorem conditional_solid (c : Construct) (judge : Form → Rendering) (args : List Form) :
    Weighs (conditional sub c judge args) .solid := by
  unfold conditional
  split
  · exact weighs_bind fun _ => weighs_bind fun _ => weighs_showing 'i' (by simp) rfl
  · exact weighs_bind fun _ => weighs_bind fun _ => weighs_bind fun _ =>
      weighs_showing 'i' (by simp) rfl
  · exact weighs_badCount _ _

theorem forEach_solid (args : List Form) : Weighs (forEach sub args) .solid := by
  unfold forEach
  split
  · exact weighs_bind fun _ => weighs_bind fun _ => weighs_bind fun _ =>
      weighs_showing 'f' (by simp) rfl
  · exact weighs_misuse _

theorem caseOf_solid (args : List Form) : Weighs (caseOf sub args) .solid := by
  unfold caseOf
  split
  · exact weighs_misuse _
  · split
    · exact weighs_misuse _
    · exact weighs_bind fun _ => weighs_bind fun _ => weighs_showing 'c' (by simp) rfl

theorem localVar_solid (args : List Form) : Weighs (localVar sub args) .solid := by
  unfold localVar
  split
  · exact weighs_bind fun _ => weighs_showing 'l' (by simp) rfl
  · exact weighs_bind fun _ => weighs_showing 'l' (by simp) rfl
  · exact weighs_badCount _ _

theorem returnFrom_solid (args : List Form) : Weighs (returnFrom sub args) .solid := by
  unfold returnFrom
  split
  · exact weighs_pure rfl
  · exact weighs_bind fun _ => weighs_showing 'r' (by simp) rfl
  · exact weighs_badCount _ _

theorem deref_solid (args : List Form) : Weighs (deref sub args) .solid := by
  unfold deref
  split
  · exact wrapped_solid sub _ rfl _
  · exact wrapped_solid sub _ rfl _

theorem function_solid (args : List Form) : Weighs (function sub args) .solid := by
  unfold function
  split
  · exact functionWith_solid sub (Text.solid_of_mem (c := 'f') (by simp) rfl) _ _
  · exact functionWith_solid sub rfl _ _
  · exact weighs_misuse _

theorem construct_solid {name : String} {c : Construct} (h : Construct.named? name = some c)
    (hown : c.manner = .own) (args : List Form) : Weighs (construct sub c args) .solid := by
  cases c with
  | ifElse | ifNot => exact conditional_solid sub _ _ args
  | whenTrue =>
    exact first_solid (fun _ _ => weighs_bind fun _ => weighs_bind fun _ =>
      weighs_showing 'i' (by simp) rfl) args
  | whileTrue =>
    exact first_solid (fun _ _ => weighs_bind fun _ => weighs_bind fun _ =>
      weighs_showing 'w' (by simp) rfl) args
  | newObject =>
    exact first_solid (fun _ _ => weighs_bind fun _ => weighs_bind fun _ =>
      weighs_showing 'n' (by simp) rfl) args
  | forEach => exact forEach_solid sub args
  | caseOf => exact caseOf_solid sub args
  | localVar => exact localVar_solid sub args
  | returnFrom => exact returnFrom_solid sub args
  | function => exact function_solid sub args
  | setVar => exact two_solid (checkedAssignment_solid sub) args
  | define | calculate | aliasFor | arrayGet => exact two_solid (pair_solid sub rfl) args
  | hashGet =>
    exact two_solid (fun _ _ => weighs_bind fun _ => weighs_bind fun _ =>
      weighs_showing '$' (by simp) rfl) args
  | arraySet =>
    exact three_solid (fun _ _ _ => (pair_solid sub rfl _ _).bind fun _ helement =>
      weighs_bind fun _ => weighs_pure (by simp [helement])) args
  | hashSet => exact three_solid (setSlot_solid sub) args
  | quoted | negate => exact wrapped_solid sub _ rfl args
  | predicate p => exact wrapped_solid sub _ (flag_solid h) args
  | deref => exact deref_solid sub args
  | println | print => exact weighs_bind fun _ => weighs_pure (command_solid rfl _)
  | group => exact weighs_bind fun _ => weighs_showing '\x7b' (by simp) rfl
  | concat | block | pipe | chainOr | chainAnd | apply | assign | hashMerge => cases hown

/-! ## Slots -/

theorem setSlots_weighs (target : Form) (entries : List (Form × Form)) :
    Weighs (setSlots sub target entries)
      (if Form.setsNothing [target, .map entries] then .blank else .solid) := by
  have hslots : WeighsEach (entries.mapM fun e => setSlot sub target e.1 e.2)
      (entries.map fun _ => .solid) :=
    weighsEach_mapM fun e _ => setSlot_solid sub target e.1 e.2
  refine hslots.bind fun ts hts => weighs_pure ?_
  rw [Text.substance_intercalate rfl, hts]
  cases entries with
  | nil => rfl
  | cons e entries =>
    rw [List.map_cons, Substance.joinAll_cons, Substance.solid_join]
    rfl

theorem assign_weighs (args : List Form) :
    Weighs (assign sub args) (if Form.setsNothing args then .blank else .solid) := by
  unfold assign
  split
  · exact setSlots_weighs sub _ _
  · next target value hvalue =>
    have hsets : Form.setsNothing [target, value] = false := by
      cases value with
      | map entries => exact absurd rfl (hvalue entries)
      | _ => rfl
    rw [hsets]
    exact checkedAssignment_solid sub target value
  · exact weighs_badCount _ _

theorem hashMerge_weighs (args : List Form) :
    Weighs (hashMerge sub args) (if Form.setsNothing args then .blank else .solid) := by
  unfold hashMerge
  split
  · exact setSlots_weighs sub _ _
  · exact weighs_misuse _
  · exact weighs_badCount _ _

end

/-! ## Whole trees -/

theorem construct_weighs {name : String} {c : Construct} (h : Construct.named? name = some c)
    {args : List Form} (hargs : ∀ f ∈ args, Weighs (emit .plain f) f.substance)
    (hspread : Weighs (emit .plain (.list (spread args))) (Form.list (spread args)).substance) :
    Weighs (construct (emit .plain) c args) (Form.list (.symbol name :: args)).substance := by
  rw [Form.substance, h]
  cases c with
  | concat => exact concat_weighs hargs
  | block => exact statements_weighs hargs
  | pipe | chainOr | chainAnd => exact joined_weighs hargs rfl
  | apply =>
    cases args with
    | nil => exact weighs_badCount _ _
    | cons f fs => exact hspread
  | assign => exact assign_weighs _ args
  | hashMerge => exact hashMerge_weighs _ args
  | _ => exact construct_solid _ h rfl args

theorem operation_solid (sub : Form → Rendering) (op : Operator) (args : List Form) :
    Weighs (operation sub op args) .solid := by
  refine weighs_bind fun bare => weighs_pure ?_
  unfold Operator.group
  split
  · exact Text.solid_of_mem (c := '(') (by simp) rfl
  · exact Text.solid_of_mem (c := '(') (by simp) rfl

theorem methodCall_solid (sub : Form → Rendering) (method : String) (args : List Form) :
    Weighs (methodCall sub method args) .solid := by
  cases args with
  | nil => exact weighs_misuse _
  | cons target rest =>
    exact weighs_bind fun _ => weighs_bind fun _ => weighs_showing '.' (by simp) rfl

theorem headed_weighs (name : String) {args : List Form}
    (hargs : ∀ f ∈ args, Weighs (emit .plain f) f.substance)
    (hname : Weighs (emit .plain (.symbol name)) (Form.symbol name).substance)
    (hspread : Weighs (emit .plain (.list (spread args))) (Form.list (spread args)).substance) :
    Weighs (headed (emit .plain) name args) (Form.list (.symbol name :: args)).substance := by
  unfold headed
  cases hc : Construct.named? name with
  | some c => exact construct_weighs hc hargs hspread
  | none =>
    rw [Form.substance, hc]
    cases Operator.named? name with
    | some op => exact operation_solid _ op args
    | none =>
      cases method? name with
      | some method => exact methodCall_solid _ method args
      | none =>
        have hall : ∀ f ∈ Form.symbol name :: args, Weighs (emit .plain f) f.substance := by
          intro f hf
          rcases List.mem_cons.mp hf with rfl | hf
          · exact hname
          · exact hargs f hf
        have hwords := words_weighs hall
        rwa [List.map_cons, Form.substance] at hwords

theorem list_weighs {items : List Form}
    (h : ∀ f : Form, f.size < (Form.list items).size → Weighs (emit .plain f) f.substance) :
    Weighs (layout .plain (emit .plain) (.list items)) (Form.list items).substance := by
  have hitems : ∀ f ∈ items, Weighs (emit .plain f) f.substance := by
    intro f hf
    have := Form.size_le_of_mem hf
    exact h f (by simp only [Form.size]; omega)
  cases items with
  | nil =>
    rw [Form.substance]
    exact weighs_pure rfl
  | cons head args =>
    cases head with
    | symbol name =>
      have hspread := sizeOfItems_spread_le args
      refine headed_weighs name (fun f hf => hitems f (List.mem_cons_of_mem _ hf))
        (hitems _ (by simp)) (h _ ?_)
      simp only [Form.size, Form.sizeOfItems]
      omega
    | map entries =>
      rw [Form.substance]
      exact weighs_pure rfl
    | _ =>
      rw [Form.substance]
      · exact words_weighs hitems
      all_goals simp

/-! ## Atoms -/

theorem charSubstance_of_isDigit {c : Char} (h : c.isDigit = true) :
    Text.charSubstance c = .solid := by
  rw [Text.charSubstance_eq_solid]
  constructor
  · have hc : 48 ≤ c.toNat ∧ c.toNat ≤ 57 := by
      simpa [Char.isDigit, UInt32.le_iff_toNat_le] using h
    cases hwhite : Text.isWhite c with
    | false => rfl
    | true =>
      simp only [Text.isWhite, Bool.or_eq_true, Bool.and_eq_true, decide_eq_true_eq,
        beq_iff_eq] at hwhite
      omega
  · rintro rfl
    exact absurd h (by decide)

theorem natText_solid (n : Nat) : Text.substance (toString n) = .solid := by
  obtain ⟨c, hc⟩ := List.exists_mem_of_ne_nil _ (Nat.toDigits_ne_nil (b := 10) (n := n))
  refine Text.solid_of_mem (c := c) (by simpa using hc) (charSubstance_of_isDigit ?_)
  exact Nat.isDigit_of_mem_toDigits (by decide) (by decide) hc

theorem intText_solid (n : Int64) : Text.substance (Form.intText n) = .solid := by
  rw [Form.intText, Int.toString_eq_repr, Int.repr_eq_if]
  split
  · exact natText_solid _
  · exact Text.solid_of_mem (c := '-') (by simp) rfl

/-- A decimal has a point. -/
theorem decimalText_solid (x : Binary64) : Text.substance (decimalText x) = .solid := by
  have hpoint : '.' ∈ (decimalOf x).positional := by
    unfold Decimal.positional
    split <;> simp
  refine Text.solid_of_mem (c := '.') ?_ rfl
  rw [decimalText, String.toList_ofList]
  split
  · exact List.mem_cons_of_mem _ hpoint
  · exact hpoint

theorem ratio_solid (numer denom : Int64) : Weighs (ratio numer denom) .solid := by
  unfold ratio
  split
  · exact weighs_misuse _
  · exact weighs_pure (decimalText_solid _)

/-- The text of a form, if it has one, has the substance of the form. -/
theorem emit_weighs (f : Form) : Weighs (emit .plain f) f.substance := by
  rw [emit_eq]
  cases f with
  -- by size and not by structure: the list that `apply` stands for is no part of it
  | list items => exact list_weighs fun g _ => emit_weighs g
  | vector items =>
    rw [Form.substance]
    exact weighs_bind fun _ => weighs_showing '(' (by simp) rfl
  | map entries =>
    rw [Form.substance]
    exact weighs_bind fun _ => weighs_showing '(' (by simp) rfl
  | int n =>
    rw [Form.substance]
    exact weighs_pure (intText_solid n)
  | ratio n d =>
    rw [Form.substance]
    exact ratio_solid n d
  | nil | str _ | keyword _ | symbol _ | splice =>
    rw [Form.substance]
    exact weighs_pure rfl
termination_by f.size

end Render

end ScriptTree

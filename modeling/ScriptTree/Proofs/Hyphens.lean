/-
  Where the hyphens of a text come from.

  An assignment refuses a target whose text holds a hyphen, and this is the only thing about a text
  that a rule of rendering without extension ever asks and that can make it fail.  So it has to be
  known which forms have a text with a hyphen, and this can be said without putting a text
  together: the rule prints one itself, or it shows a form whose text has one.

  A rule shows what it needs, with one exception: what goes into a slot as a name is spelled anew,
  without hyphens.  Everything else that a rule does to a text (to trim it, to quote it, to make it
  a line, to leave it out when it is blank) neither adds a hyphen nor takes one away.  Every rule
  gets one lemma, in which `Shows` says when its text has a hyphen, if there is a text;
  `hyphenated_iff` is the result.
-/
import Mathlib.Logic.Basic
import ScriptTree.Proofs.WellFormed

namespace ScriptTree

/-! ## Hyphens in texts -/

namespace Text

theorem ne_hyphen_of_isWhite {c : Char} (h : isWhite c = true) : c ≠ '-' := by
  rintro rfl
  exact absurd h (by decide)

theorem hyphen_mem_dropWhile {cs : List Char} : '-' ∈ cs.dropWhile isWhite ↔ '-' ∈ cs := by
  induction cs with
  | nil => rfl
  | cons c cs ih =>
    by_cases hc : isWhite c = true
    · rw [List.dropWhile_cons_of_pos hc, ih]
      simp [(ne_hyphen_of_isWhite hc).symm]
    · rw [List.dropWhile_cons_of_neg hc]

@[simp] theorem hyphen_mem_trim {s : String} : '-' ∈ (trim s).toList ↔ '-' ∈ s.toList := by
  simp [trim, trimChars, hyphen_mem_dropWhile]

@[simp] theorem hyphen_mem_asLine {s : String} : '-' ∈ (asLine s).toList ↔ '-' ∈ s.toList := by
  unfold asLine
  split
  · next h => rw [h]
  · split
    · rfl
    · simp

theorem hyphen_not_mem_of_isBlank {s : String} (h : isBlank s = true) : '-' ∉ s.toList := by
  intro hmem
  exact ne_hyphen_of_isWhite (List.all_eq_true.mp h _ hmem) rfl

@[simp] theorem hyphen_not_mem_slotName (s : String) : '-' ∉ (slotName s).toList := by
  rw [slotName, String.toList_ofList, List.mem_flatMap]
  rintro ⟨c, -, hc⟩
  unfold slotChar at hc
  split at hc
  · simp at hc
  · simp at hc
  · simp at hc
  · next hne _ _ => exact hne (List.mem_singleton.mp hc).symm

theorem hyphen_mem_intercalate {separator : String} (hsep : '-' ∉ separator.toList)
    {ts : List String} :
    '-' ∈ (separator.intercalate ts).toList ↔ ∃ t ∈ ts, '-' ∈ t.toList := by
  induction ts with
  | nil => simp
  | cons t ts ih =>
    cases ts with
    | nil => simp
    | cons u us =>
      rw [String.intercalate_cons_cons]
      rw [String.toList_append, String.toList_append, List.mem_append, List.mem_append, ih]
      simp [hsep]

/-- Texts in a row, with something before, between and after them. -/
theorem hyphen_mem_listed {opening separator closing : String}
    (h : '-' ∉ (opening ++ separator ++ closing).toList) {ts : List String} :
    '-' ∈ (opening ++ separator.intercalate ts ++ closing).toList ↔ ∃ t ∈ ts, '-' ∈ t.toList := by
  simp only [String.toList_append, List.mem_append, not_or] at h ⊢
  rw [hyphen_mem_intercalate h.1.2]
  simp [h.1.1, h.2]

@[simp] theorem hyphen_not_mem_toDigits (n : Nat) : '-' ∉ Nat.toDigits 10 n := fun h =>
  absurd (Nat.isDigit_of_mem_toDigits (by decide) (by decide) h) (by decide)

end Text

namespace Operator

@[simp] theorem hyphen_mem_operand (op : Operator) {s : String} :
    '-' ∈ (op.operand s).toList ↔ '-' ∈ s.toList := by
  unfold operand
  split
  · simp [Render.enquote]
  · rfl

@[simp] theorem hyphen_mem_group (op : Operator) {s : String} :
    '-' ∈ (op.group s).toList ↔ '-' ∈ s.toList := by
  unfold group
  split
  · simp
  · simp

@[simp] theorem hyphen_mem_between (op : Operator) {left right : String} :
    '-' ∈ (op.between left right).toList ↔
      '-' ∈ left.toList ∨ '-' ∈ op.shell.toList ∨ '-' ∈ right.toList := by
  simp [between]

/-- Folded operands show the operator as soon as there are two of them. -/
theorem hyphen_mem_fold (op : Operator) (left right : String) (rest : List String) :
    '-' ∈ (op.fold left (right :: rest)).toList ↔
      '-' ∈ op.shell.toList ∨ ∃ t ∈ left :: right :: rest, '-' ∈ t.toList := by
  induction rest generalizing left right with
  | nil => simp [fold, or_left_comm]
  | cons next rest ih =>
    rw [fold, ih]
    · simp only [List.mem_cons, exists_eq_or_imp, hyphen_mem_group, hyphen_mem_between]
      grind
    · simp

end Operator

/-! ## What a rule prints and shows -/

/-- The form has a text, and there is a hyphen in it. -/
def Form.Hyphenated (f : Form) : Prop :=
  ∃ s, Render.emit .plain f = .ok s ∧ '-' ∈ s.toList

namespace Construct

/-- The construct prints a hyphen itself. -/
def PrintsHyphen (c : Construct) (args : List Form) : Prop :=
  match c, args with
  | .print, _ => True
  | .hashGet, _ => True
  | .function, .symbol name :: _ => '-' ∈ name.toList
  | .predicate p, _ => '-' ∈ p.flag.toList
  | _, _ => False

/-- The forms whose text a construct prints as it stands. -/
def shown (c : Construct) (args : List Form) : List Form :=
  match c, args with
  -- names of slots are spelled anew
  | .hashGet, _ => []
  | .hashSet, [_, _, value] => [value]
  | .assign, [_, .map entries] => entries.map Prod.snd
  | .hashMerge, [_, .map entries] => entries.map Prod.snd
  | c, args => c.needs args

end Construct

namespace Form

/-- The form prints a hyphen itself, whatever it holds. -/
def PrintsHyphen : Form → Prop
  | .list (.symbol name :: args) =>
    match Construct.named? name with
    | some c => c.PrintsHyphen args
    | none =>
      match Operator.named? name with
      | some op => '-' ∈ op.shell.toList
      -- a method or a plain command
      | none => '-' ∈ name.toList
  | .list _ => False
  | .vector _ => False
  | .map _ => False
  | atom => ∃ s, Render.atom atom = .ok s ∧ '-' ∈ s.toList

/-- The forms whose text a form prints as it stands. -/
def shown : Form → List Form
  | .list (.symbol name :: args) =>
    match Construct.named? name with
    | some c => c.shown args
    | none => args
  | f => f.needs

end Form

namespace Render

/-! ## Rules and hyphens -/

/-- If the rule gives a text, then there is a hyphen in it iff `P`. -/
def Shows (x : Rendering) (P : Prop) : Prop :=
  ∀ s, x = .ok s → ('-' ∈ s.toList ↔ P)

/-- If the rule gives texts, then there is a hyphen in one of them iff `P`. -/
def ShowsAmong (x : Except Fault (List String)) (P : Prop) : Prop :=
  ∀ ts, x = .ok ts → ((∃ t ∈ ts, '-' ∈ t.toList) ↔ P)

section

variable {P Q : Prop}

theorem shows_pure {s : String} (h : '-' ∈ s.toList ↔ P) : Shows (pure s) P := by
  intro t ht
  rw [← pure_eq_ok.mp ht]
  exact h

theorem shows_misuse (cause : Misuse) : Shows (misuse cause) P :=
  fun s h => absurd h (misuse_ne_ok cause s)

theorem shows_badCount (c : Construct) (args : List Form) : Shows (badCount c args) P :=
  fun s h => absurd h (badCount_ne_ok c args s)

theorem Shows.bind {x : Rendering} {k : String → Rendering} (hx : Shows x P)
    (hk : ∀ s, ('-' ∈ s.toList ↔ P) → Shows (k s) Q) : Shows (x >>= k) Q := by
  intro t ht
  obtain ⟨s, hs, hks⟩ := bind_eq_ok.mp ht
  exact hk s (hx s hs) t hks

theorem ShowsAmong.bind {x : Except Fault (List String)} {k : List String → Rendering}
    (hx : ShowsAmong x P) (hk : ∀ ts, ((∃ t ∈ ts, '-' ∈ t.toList) ↔ P) → Shows (k ts) Q) :
    Shows (x >>= k) Q := by
  intro t ht
  obtain ⟨ts, hts, hkts⟩ := bind_eq_ok.mp ht
  exact hk ts (hx ts hts) t hkts

/-- What a traversal shows is shown for one of the elements. -/
theorem showsAmong_mapM {α : Type} {k : α → Rendering} {P : α → Prop}
    (hk : ∀ a, Shows (k a) (P a)) (l : List α) : ShowsAmong (l.mapM k) (∃ a ∈ l, P a) := by
  induction l with
  | nil =>
    intro ts hts
    obtain rfl : [] = ts := by simpa using hts
    simp
  | cons a l ih =>
    intro ts hts
    rw [List.mapM_cons] at hts
    obtain ⟨t, ht, us, hus, rfl⟩ : ∃ t, k a = .ok t ∧ ∃ us, l.mapM k = .ok us ∧ t :: us = ts := by
      simpa using hts
    simp only [List.mem_cons, exists_eq_or_imp, hk a t ht, ih us hus]

end

/-! ## Sequences -/

theorem shows_emit (f : Form) : Shows (emit .plain f) f.Hyphenated := by
  intro s hs
  simp [Form.Hyphenated, hs]

theorem not_hyphenated_splice : ¬Form.splice.Hyphenated := by
  rintro ⟨s, hs, hmem⟩
  rw [emit_eq] at hs
  obtain rfl := Except.ok.inj hs
  simp at hmem

/-- The marks of splices that statements and parts leave out have no hyphen. -/
theorem exists_filter_isSplice {fs : List Form} :
    (∃ f ∈ fs.filter fun f => !f.isSplice, f.Hyphenated) ↔ ∃ f ∈ fs, f.Hyphenated := by
  constructor
  · rintro ⟨f, hf, h⟩
    exact ⟨f, (List.mem_filter.mp hf).1, h⟩
  · rintro ⟨f, hf, h⟩
    refine ⟨f, List.mem_filter.mpr ⟨hf, ?_⟩, h⟩
    cases f with
    | splice => exact absurd h not_hyphenated_splice
    | _ => rfl

theorem statements_shows (fs : List Form) :
    Shows (statements (emit .plain) fs) (∃ f ∈ fs, f.Hyphenated) := by
  rw [statements_eq, ← exists_filter_isSplice]
  exact (showsAmong_mapM shows_emit _).bind fun ts hts => shows_pure (by simpa using hts)

theorem parts_shows (fs : List Form) :
    ShowsAmong (parts (emit .plain) fs) (∃ f ∈ fs, f.Hyphenated) := by
  rw [parts_eq, ← exists_filter_isSplice]
  intro us hus
  obtain ⟨ts, hts, rfl⟩ : ∃ ts, (fs.filter fun f => !f.isSplice).mapM (emit .plain) = .ok ts ∧
      ts.filter (fun s => !Text.isBlank s) = us := by simpa using hus
  rw [← showsAmong_mapM shows_emit _ ts hts]
  -- a blank text that is left out has no hyphen
  constructor
  · rintro ⟨t, ht, hmem⟩
    exact ⟨t, (List.mem_filter.mp ht).1, hmem⟩
  · rintro ⟨t, ht, hmem⟩
    refine ⟨t, List.mem_filter.mpr ⟨ht, ?_⟩, hmem⟩
    cases hblank : Text.isBlank t with
    | false => rfl
    | true => exact absurd hmem (Text.hyphen_not_mem_of_isBlank hblank)

theorem joined_shows {separator : String} (hsep : '-' ∉ separator.toList) (fs : List Form) :
    Shows (joined (emit .plain) separator fs) (∃ f ∈ fs, f.Hyphenated) :=
  (parts_shows fs).bind fun _ hts =>
    shows_pure ((Text.hyphen_mem_intercalate hsep).trans hts)

theorem words_shows (fs : List Form) :
    Shows (words (emit .plain) fs) (∃ f ∈ fs, f.Hyphenated) :=
  joined_shows (by simp) fs

theorem arguments_shows (fs : List Form) :
    Shows (arguments (emit .plain) fs) (∃ f ∈ fs, f.Hyphenated) := by
  refine (showsAmong_mapM shows_emit fs).bind fun ts hts => shows_pure ?_
  exact (Text.hyphen_mem_listed (by simp)).trans hts

theorem initialiser_shows (entries : List (Form × Form)) :
    Shows (initialiser (emit .plain) entries)
      (∃ f ∈ entries.flatMap fun e => [e.1, e.2], f.Hyphenated) := by
  have hslot : ∀ e : Form × Form, Shows (do
      let key ← emit .plain e.1
      let value ← emit .plain e.2
      return "[" ++ key ++ "]=" ++ value) (e.1.Hyphenated ∨ e.2.Hyphenated) := fun e =>
    (shows_emit e.1).bind fun _ hkey => (shows_emit e.2).bind fun _ hvalue =>
      shows_pure (by simp [hkey, hvalue])
  have hforms : (∃ e ∈ entries, e.1.Hyphenated ∨ e.2.Hyphenated) ↔
      ∃ f ∈ entries.flatMap fun e => [e.1, e.2], f.Hyphenated := by
    simp only [List.mem_flatMap]
    constructor
    · rintro ⟨e, he, h | h⟩
      · exact ⟨e.1, ⟨e, he, by simp⟩, h⟩
      · exact ⟨e.2, ⟨e, he, by simp⟩, h⟩
    · rintro ⟨f, ⟨e, he, hf⟩, h⟩
      simp only [List.mem_cons, List.not_mem_nil, or_false] at hf
      rcases hf with rfl | rfl
      · exact ⟨e, he, .inl h⟩
      · exact ⟨e, he, .inr h⟩
  rw [← hforms]
  exact (showsAmong_mapM hslot entries).bind fun ts hts =>
    shows_pure ((Text.hyphen_mem_listed (by simp)).trans hts)

theorem setSlot_shows (target key value : Form) :
    Shows (setSlot (emit .plain) target key value) value.Hyphenated :=
  (shows_emit target).bind fun _ _ => (shows_emit key).bind fun _ _ =>
    (shows_emit value).bind fun _ hvalue => shows_pure (by simp [hvalue])

theorem setSlots_shows (target : Form) (entries : List (Form × Form)) :
    Shows (setSlots (emit .plain) target entries) (∃ f ∈ entries.map Prod.snd, f.Hyphenated) := by
  have hslots := showsAmong_mapM (fun e : Form × Form => setSlot_shows target e.1 e.2) entries
  refine hslots.bind fun ts hts => shows_pure ?_
  rw [Text.hyphen_mem_intercalate (by simp), hts]
  simp only [List.mem_map, exists_exists_and_eq_and]

theorem parameterLines_shows (ps : List Form) (i : Nat) :
    Shows (parameterLines (emit .plain) i ps) (∃ f ∈ ps, f.Hyphenated) := by
  induction ps generalizing i with
  | nil => exact shows_pure (by simp)
  | cons p ps ih =>
    exact (shows_emit p).bind fun _ hp => (ih (i + 1)).bind fun _ hps =>
      shows_pure (by simp [hp, hps])

theorem functionWith_shows (opening : String) (params body : List Form) :
    Shows (functionWith (emit .plain) opening params body)
      ('-' ∈ opening.toList ∨ ∃ f ∈ params ++ body, f.Hyphenated) :=
  (parameterLines_shows params 1).bind fun _ hparams => (statements_shows body).bind fun _ hbody =>
    shows_pure (by simp [hparams, hbody, or_and_right, exists_or])

/-- With as many bodies as patterns no form is left over. -/
theorem clauses_shows {fs : List Form} (h : fs.length % 2 = 0) :
    Shows (clauses (emit .plain) fs) (∃ f ∈ fs, f.Hyphenated) := by
  fun_induction clauses (emit .plain) fs with
  | case1 p b rest ih =>
    rw [List.length_cons, List.length_cons] at h
    exact (shows_emit p).bind fun _ hp => (shows_emit b).bind fun _ hb =>
      (ih (by omega)).bind fun _ hrest => shows_pure (by simp [hp, hb, hrest])
  | case2 fs hfs =>
    cases fs with
    | nil => exact shows_pure (by simp)
    | cons p fs =>
      cases fs with
      | nil => simp at h
      | cons b rest => exact absurd rfl (hfs p b rest)

theorem variableName_shows (f : Form) :
    Shows (variableName (emit .plain) f) f.Hyphenated := by
  refine (shows_emit f).bind fun name hname => ?_
  split
  · exact fun s h => nomatch h
  · exact shows_pure hname

theorem checkedAssignment_shows (target value : Form) :
    Shows (checkedAssignment (emit .plain) target value)
      (target.Hyphenated ∨ value.Hyphenated) :=
  (variableName_shows target).bind fun _ htarget => (shows_emit value).bind fun _ hvalue =>
    shows_pure (by simp [htarget, hvalue])

/-- The brackets of a vector are no hyphens. -/
theorem loopValues_shows (f : Form) : Shows (loopValues (emit .plain) f) f.Hyphenated := by
  unfold loopValues
  split
  · next items =>
    intro s hs
    have hvector : emit .plain (.vector items) = .ok ("(" ++ s ++ ")") := by
      rw [emit_eq, layout, hs]
      rfl
    rw [← shows_emit _ _ hvector]
    simp
  · exact shows_emit f

/-! ## Operators, conditions and branches -/

theorem bareOperation_shows (op : Operator) (args : List Form) :
    Shows (bareOperation (emit .plain) op args)
      ('-' ∈ op.shell.toList ∨ ∃ f ∈ args, f.Hyphenated) := by
  unfold bareOperation
  split
  · next first second rest =>
    rw [List.mapM_cons]
    simp only [bind_assoc, pure_bind]
    refine (shows_emit first).bind fun left hleft => (shows_emit second).bind fun right hright =>
      (showsAmong_mapM shows_emit rest).bind fun others hothers => shows_pure ?_
    rw [List.map_cons, Operator.hyphen_mem_fold]
    simp [hleft, hright, hothers]
  · exact shows_misuse _

theorem operation_shows (op : Operator) (args : List Form) :
    Shows (operation (emit .plain) op args)
      ('-' ∈ op.shell.toList ∨ ∃ f ∈ args, f.Hyphenated) :=
  (bareOperation_shows op args).bind fun _ hbare => shows_pure (by simp [hbare])

/-- Nor is the outermost grouping, which a test loses in brackets. -/
theorem test_shows (f : Form) : Shows (test (emit .plain) f) f.Hyphenated := by
  unfold test
  split
  · next name args =>
    split
    · next op hop =>
      intro s hs
      have hgroup : emit .plain (.list (.symbol name :: args)) = .ok (op.group s) := by
        rw [emit_operation hop, operation, hs]
        rfl
      rw [← shows_emit _ _ hgroup]
      simp
    · exact shows_emit _
  · exact shows_emit f

theorem condition_shows (f : Form) : Shows (condition (emit .plain) f) f.Hyphenated := by
  unfold condition
  split
  · exact (test_shows f).bind fun _ htest => shows_pure (by simp [htest])
  · exact shows_emit f

theorem negatedCondition_shows (f : Form) :
    Shows (negatedCondition (emit .plain) f) f.Hyphenated := by
  unfold negatedCondition
  split
  · exact (shows_emit f).bind fun _ hf => shows_pure (by simp [hf])
  · exact (shows_emit f).bind fun _ hf => shows_pure (by simp [hf])

theorem branch_shows (f : Form) : Shows (branch (emit .plain) f) f.Hyphenated := by
  refine (shows_emit f).bind fun body hbody => ?_
  split
  · exact shows_pure (by simp [hbody])
  · exact shows_pure (by simp [hbody])

theorem conditional_shows (c : Construct) {judge : Form → Rendering}
    (hjudge : ∀ f, Shows (judge f) f.Hyphenated) (args : List Form) :
    Shows (conditional (emit .plain) c judge args) (∃ f ∈ args, f.Hyphenated) := by
  unfold conditional
  split
  · exact (hjudge _).bind fun _ htest => (branch_shows _).bind fun _ hyes =>
      shows_pure (by simp [htest, hyes])
  · exact (hjudge _).bind fun _ htest => (branch_shows _).bind fun _ hyes =>
      (branch_shows _).bind fun _ hno => shows_pure (by simp [htest, hyes, hno])
  · exact shows_badCount _ _

@[simp] theorem hyphen_mem_bodyOr {body : String} :
    '-' ∈ (bodyOr body).toList ↔ '-' ∈ body.toList := by
  unfold bodyOr
  split
  · next h =>
    rw [← Text.hyphen_mem_trim (s := body), h]
    simp
  · exact Text.hyphen_mem_trim

theorem whenTrue_shows (args : List Form) :
    Shows (whenTrue (emit .plain) args) (∃ f ∈ args, f.Hyphenated) := by
  cases args with
  | nil => exact shows_badCount _ _
  | cons test forms =>
    exact (statements_shows forms).bind fun _ hforms => (condition_shows test).bind fun _ htest =>
      shows_pure (by simp [hforms, htest])

theorem whileTrue_shows (args : List Form) :
    Shows (whileTrue (emit .plain) args) (∃ f ∈ args, f.Hyphenated) := by
  cases args with
  | nil => exact shows_badCount _ _
  | cons test forms =>
    exact (condition_shows test).bind fun _ htest => (statements_shows forms).bind fun _ hforms =>
      shows_pure (by simp [hforms, htest])

/-! ## Constructs -/

@[simp] theorem hyphen_mem_command {name words : String} :
    '-' ∈ (command name words).toList ↔ '-' ∈ name.toList ∨ '-' ∈ words.toList := by
  unfold command
  split
  · next h => simp [h]
  · simp

theorem wrapped_shows (c : Construct) (opening closing : String) (args : List Form) :
    Shows (wrapped (emit .plain) c opening closing args)
      ('-' ∈ opening.toList ∨ '-' ∈ closing.toList ∨ ∃ f ∈ args, f.Hyphenated) := by
  unfold wrapped
  split
  · exact (shows_emit _).bind fun _ hf => shows_pure (by simp [hf, or_comm])
  · exact shows_badCount _ _

theorem two_shows (c : Construct) {rule : Form → Form → Rendering}
    (hrule : ∀ f g, Shows (rule f g) (f.Hyphenated ∨ g.Hyphenated)) (args : List Form) :
    Shows (match args with | [f, g] => rule f g | _ => badCount c args)
      (∃ f ∈ args, f.Hyphenated) := by
  split
  · next f g => simpa using hrule f g
  · exact shows_badCount _ _

theorem pair_shows {opening middle closing : String}
    (h : '-' ∉ (opening ++ middle ++ closing).toList) (f g : Form) :
    Shows (pair (emit .plain) opening middle closing f g) (f.Hyphenated ∨ g.Hyphenated) := by
  simp only [String.toList_append, List.mem_append, not_or] at h
  exact (shows_emit f).bind fun _ hf => (shows_emit g).bind fun _ hg =>
    shows_pure (by simp [hf, hg, h])

theorem deref_shows (args : List Form) :
    Shows (deref (emit .plain) args) (∃ f ∈ args, f.Hyphenated) := by
  unfold deref
  split
  · next items => simpa using wrapped_shows .deref "$(" ")" [.list items]
  · simpa using wrapped_shows .deref "$\x7b" "\x7d" args

theorem returnFrom_shows (args : List Form) :
    Shows (returnFrom (emit .plain) args) (∃ f ∈ args, f.Hyphenated) := by
  unfold returnFrom
  split
  · exact shows_pure (by simp)
  · exact (shows_emit _).bind fun _ hf => shows_pure (by simp [hf])
  · exact shows_badCount _ _

theorem concat_shows (args : List Form) :
    Shows (concat (emit .plain) args) (∃ f ∈ args, f.Hyphenated) :=
  (showsAmong_mapM shows_emit args).bind fun _ hts => shows_pure (by simpa using hts)

theorem group_shows (args : List Form) :
    Shows (group (emit .plain) args) (∃ f ∈ args, f.Hyphenated) := by
  refine (parts_shows args).bind fun ts hts => shows_pure ?_
  rw [Text.hyphen_mem_listed (by simp), ← hts]
  simp

theorem newObject_shows (args : List Form) :
    Shows (newObject (emit .plain) args) (∃ f ∈ args, f.Hyphenated) := by
  cases args with
  | nil => exact shows_badCount _ _
  | cons className rest =>
    exact (shows_emit className).bind fun _ hclass => (arguments_shows rest).bind fun _ hrest =>
      shows_pure (by simp [hclass, hrest])

theorem methodCall_shows (method : String) (args : List Form) :
    Shows (methodCall (emit .plain) method args)
      ('-' ∈ method.toList ∨ ∃ f ∈ args, f.Hyphenated) := by
  cases args with
  | nil => exact shows_misuse _
  | cons target rest =>
    exact (shows_emit target).bind fun _ htarget => (arguments_shows rest).bind fun _ hrest =>
      shows_pure (by simp [htarget, hrest, or_left_comm])

theorem arraySet_shows (args : List Form) :
    Shows (arraySet (emit .plain) args) (∃ f ∈ args, f.Hyphenated) := by
  unfold arraySet
  split
  · exact (pair_shows (by simp) _ _).bind fun _ helement => (shows_emit _).bind fun _ hvalue =>
      shows_pure (by simp [helement, hvalue, or_assoc])
  · exact shows_badCount _ _

theorem localVar_shows (args : List Form) :
    Shows (localVar (emit .plain) args) (∃ f ∈ args, f.Hyphenated) := by
  unfold localVar
  split
  · exact (variableName_shows _).bind fun _ htarget => shows_pure (by simp [htarget])
  · exact (checkedAssignment_shows _ _).bind fun _ hpair => shows_pure (by simp [hpair])
  · exact shows_badCount _ _

/-! ### Constructs that show less than they need, or something of their own -/

/-- What a construct shows: a hyphen that it prints itself, or one in a text that it shows. -/
def Exhibits (c : Construct) (args : List Form) : Prop :=
  c.PrintsHyphen args ∨ ∃ f ∈ c.shown args, f.Hyphenated

theorem exhibits_of_args {c : Construct} {args : List Form} (hprints : ¬c.PrintsHyphen args)
    (hshown : c.shown args = args) {x : Rendering} (h : Shows x (∃ f ∈ args, f.Hyphenated)) :
    Shows x (Exhibits c args) := by
  rwa [Exhibits, hshown, or_iff_right hprints]

theorem hashGet_shows (args : List Form) :
    Shows (hashGet (emit .plain) args) (Exhibits .hashGet args) := by
  show Shows _ (True ∨ ∃ f ∈ [], Form.Hyphenated f)
  unfold hashGet
  split
  · exact (shows_emit _).bind fun _ _ => (shows_emit _).bind fun _ _ => shows_pure (by simp)
  · exact shows_badCount _ _

theorem hashSet_shows (args : List Form) :
    Shows (hashSet (emit .plain) args) (Exhibits .hashSet args) := by
  unfold hashSet
  split
  · next target key value =>
    show Shows _ (False ∨ ∃ f ∈ [value], f.Hyphenated)
    simpa using setSlot_shows target key value
  · exact shows_badCount _ _

theorem hashMerge_shows (args : List Form) :
    Shows (hashMerge (emit .plain) args) (Exhibits .hashMerge args) := by
  unfold hashMerge
  split
  · next target entries =>
    show Shows _ (False ∨ ∃ f ∈ entries.map Prod.snd, f.Hyphenated)
    rw [false_or]
    exact setSlots_shows target entries
  · exact shows_misuse _
  · exact shows_badCount _ _

theorem assign_shows (args : List Form) :
    Shows (assign (emit .plain) args) (Exhibits .assign args) := by
  unfold assign
  split
  · next target entries =>
    show Shows _ (False ∨ ∃ f ∈ entries.map Prod.snd, f.Hyphenated)
    rw [false_or]
    exact setSlots_shows target entries
  · next target value hvalue =>
    refine exhibits_of_args id ?_ ?_
    · cases value with
      | map entries => exact absurd rfl (hvalue entries)
      | _ => rfl
    · simpa using checkedAssignment_shows target value
  · exact shows_badCount _ _

theorem forEach_shows (args : List Form) :
    Shows (forEach (emit .plain) args) (Exhibits .forEach args) := by
  unfold forEach
  split
  · next item values body =>
    show Shows _ (False ∨ ∃ f ∈ [item, values] ++ body, f.Hyphenated)
    exact (loopValues_shows _).bind fun _ hvalues => (shows_emit _).bind fun _ hitem =>
      (statements_shows _).bind fun _ hbody => shows_pure (by simp [hvalues, hitem, hbody])
  · exact shows_misuse _

theorem caseOf_shows (args : List Form) :
    Shows (caseOf (emit .plain) args) (∃ f ∈ args, f.Hyphenated) := by
  cases args with
  | nil => exact shows_misuse _
  | cons subject forms =>
    rw [caseOf]
    split
    · exact shows_misuse _
    · next h =>
      exact (shows_emit subject).bind fun _ hsubject =>
        (clauses_shows (by omega)).bind fun _ hforms => shows_pure (by simp [hsubject, hforms])

theorem function_shows (args : List Form) :
    Shows (function (emit .plain) args) (Exhibits .function args) := by
  unfold function
  split
  · next name params body =>
    show Shows _ ('-' ∈ name.toList ∨ ∃ f ∈ params ++ body, f.Hyphenated)
    simpa using functionWith_shows ("function " ++ name ++ "() \x7b\n") params body
  · next params body =>
    show Shows _ (False ∨ ∃ f ∈ params ++ body, f.Hyphenated)
    simpa using functionWith_shows "function () \x7b\n" params body
  · exact shows_misuse _

theorem apply_shows (args : List Form) :
    Shows (apply (emit .plain) args) (Exhibits .apply args) := by
  cases args with
  | nil => exact shows_badCount _ _
  | cons f fs =>
    show Shows _ (False ∨ ∃ g ∈ [Form.list (spread (f :: fs))], g.Hyphenated)
    simpa [apply] using shows_emit (.list (spread (f :: fs)))

theorem construct_shows (c : Construct) (args : List Form) :
    Shows (construct (emit .plain) c args) (Exhibits c args) := by
  cases c with
  | hashGet => exact hashGet_shows args
  | hashSet => exact hashSet_shows args
  | hashMerge => exact hashMerge_shows args
  | assign => exact assign_shows args
  | forEach => exact forEach_shows args
  | function => exact function_shows args
  | apply => exact apply_shows args
  | print =>
    show Shows _ (True ∨ ∃ f ∈ args, f.Hyphenated)
    exact (words_shows args).bind fun _ _ => shows_pure (by simp)
  | predicate p =>
    show Shows _ ('-' ∈ p.flag.toList ∨ ∃ f ∈ args, f.Hyphenated)
    simpa [construct] using wrapped_shows (.predicate p) (p.flag ++ " ") "" args
  | ifElse => exact exhibits_of_args id rfl (conditional_shows _ condition_shows args)
  | ifNot => exact exhibits_of_args id rfl (conditional_shows _ negatedCondition_shows args)
  | whenTrue => exact exhibits_of_args id rfl (whenTrue_shows args)
  | whileTrue => exact exhibits_of_args id rfl (whileTrue_shows args)
  | caseOf => exact exhibits_of_args id rfl (caseOf_shows args)
  | localVar => exact exhibits_of_args id rfl (localVar_shows args)
  | setVar => exact exhibits_of_args id rfl (two_shows .setVar checkedAssignment_shows args)
  | define => exact exhibits_of_args id rfl (two_shows .define (pair_shows (by simp)) args)
  | calculate => exact exhibits_of_args id rfl (two_shows .calculate (pair_shows (by simp)) args)
  | aliasFor => exact exhibits_of_args id rfl (two_shows .aliasFor (pair_shows (by simp)) args)
  | arrayGet => exact exhibits_of_args id rfl (two_shows .arrayGet (pair_shows (by simp)) args)
  | arraySet => exact exhibits_of_args id rfl (arraySet_shows args)
  | newObject => exact exhibits_of_args id rfl (newObject_shows args)
  | concat => exact exhibits_of_args id rfl (concat_shows args)
  | returnFrom => exact exhibits_of_args id rfl (returnFrom_shows args)
  | deref => exact exhibits_of_args id rfl (deref_shows args)
  | quoted =>
    refine exhibits_of_args id rfl ?_
    simpa [construct] using wrapped_shows .quoted "\"" "\"" args
  | negate =>
    refine exhibits_of_args id rfl ?_
    simpa [construct] using wrapped_shows .negate "! " "" args
  | println =>
    refine exhibits_of_args id rfl ((words_shows args).bind fun _ hargs => shows_pure ?_)
    simp [hargs]
  | block => exact exhibits_of_args id rfl (statements_shows args)
  | group => exact exhibits_of_args id rfl (group_shows args)
  | pipe | chainOr | chainAnd => exact exhibits_of_args id rfl (joined_shows (by simp) args)

/-! ## One step -/

/-- A symbol at the head of a list shows itself. -/
theorem hyphenated_symbol {name : String} : (Form.symbol name).Hyphenated ↔ '-' ∈ name.toList := by
  have hname : emit .plain (.symbol name) = .ok name := by
    rw [emit_eq]
    rfl
  exact (shows_emit _ _ hname).symm

theorem hyphen_mem_method {name method : String} (h : method? name = some method) :
    '-' ∈ method.toList ↔ '-' ∈ name.toList := by
  unfold method? at h
  split at h
  · next c cs hname =>
    obtain rfl := Option.some.inj h
    rw [hname]
    simp
  · cases h

theorem headed_shows (name : String) (args : List Form) :
    Shows (headed (emit .plain) name args) ((Form.list (.symbol name :: args)).PrintsHyphen ∨
      ∃ f ∈ (Form.list (.symbol name :: args)).shown, f.Hyphenated) := by
  rw [headed, Form.PrintsHyphen, Form.shown]
  cases Construct.named? name with
  | some c => exact construct_shows c args
  | none =>
    cases Operator.named? name with
    | some op => exact operation_shows op args
    | none =>
      cases hmethod : method? name with
      | some method =>
        rw [← hyphen_mem_method hmethod]
        exact methodCall_shows method args
      | none => simpa [hyphenated_symbol] using words_shows (.symbol name :: args)

theorem list_shows (items : List Form) :
    Shows (layout .plain (emit .plain) (.list items)) ((Form.list items).PrintsHyphen ∨
      ∃ f ∈ (Form.list items).shown, f.Hyphenated) := by
  cases items with
  | nil => exact shows_pure (by simp [Form.PrintsHyphen, Form.shown, Form.needs])
  | cons head args =>
    cases head with
    | symbol name => exact headed_shows name args
    | map entries => exact shows_pure (by simp [Form.PrintsHyphen, Form.shown, Form.needs])
    | _ =>
      simp only [Form.PrintsHyphen, false_or]
      exact words_shows _

theorem layout_shows (f : Form) :
    Shows (layout .plain (emit .plain) f) (f.PrintsHyphen ∨ ∃ g ∈ f.shown, g.Hyphenated) := by
  cases f with
  | list items => exact list_shows items
  | vector items =>
    refine (words_shows items).bind fun _ hitems => shows_pure ?_
    simp [Form.PrintsHyphen, Form.shown, Form.needs, hitems]
  | map entries =>
    simp only [Form.PrintsHyphen, false_or]
    exact initialiser_shows entries
  | _ =>
    intro s hs
    simp only [layout] at hs
    simp [Form.PrintsHyphen, Form.shown, Form.needs, hs]

/-- A form with a text has a hyphen in it iff it prints one itself, or one of the forms that it
    shows has one. -/
theorem hyphenated_iff {f : Form} (h : Renders f) :
    f.Hyphenated ↔ f.PrintsHyphen ∨ ∃ g ∈ f.shown, g.Hyphenated := by
  obtain ⟨s, hs⟩ := h
  rw [← shows_emit f s hs]
  rw [emit_eq] at hs
  exact layout_shows f s hs

end Render

end ScriptTree

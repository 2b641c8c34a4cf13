/-
  Well-bracketed texts.

  The brackets of a text, with everything else left out, are `Nested` when they pair up properly:
  a bracketing is empty, or an opening bracket, a bracketing, the closing bracket of the same kind,
  and a bracketing.  A text is well bracketed when its brackets are nested and both kinds of quotes
  come in even numbers.

  The grammar says what is meant, and a stack decides it: `close` reads brackets against the
  closing brackets that are due.  `nested_iff` ties the two together, and what rendering needs is
  read off the stack: a nested word leaves any stack as it was, so it can be put anywhere into
  another one (`WellBracketed.insert`).
-/
import ScriptTree.Text.Blank
import ScriptTree.Text.Slot

namespace ScriptTree.Text

/-! ## Nested brackets -/

/-- The closing bracket that an opening one asks for. -/
def closer? : Char → Option Char
  | '(' => some ')'
  | '[' => some ']'
  | '\x7b' => some '\x7d'
  | _ => none

/-- The six brackets. -/
def isBracket (c : Char) : Bool :=
  ['(', ')', '[', ']', '\x7b', '\x7d'].contains c

/-- The brackets of a text, in order. -/
def brackets (s : String) : List Char :=
  s.toList.filter isBracket

/-- Brackets that pair up properly, each with one of its own kind. -/
inductive Nested : List Char → Prop where
  | nil : Nested []
  | pair {o c : Char} {inside rest : List Char} : closer? o = some c → Nested inside →
      Nested rest → Nested (o :: inside ++ c :: rest)

/-- Reads brackets with the closing ones that are `due`, the next one first, and gives those that
    are due afterwards; none when a closing bracket is not the one that was due. -/
def close (due : List Char) : List Char → Option (List Char)
  | [] => some due
  | c :: cs =>
    match closer? c, due with
    | some d, _ => close (d :: due) cs
    | none, d :: rest => if c = d then close rest cs else none
    | none, [] => none

theorem close_append (u v : List Char) : ∀ due : List Char,
    close due (u ++ v) = (close due u).bind fun due' => close due' v := by
  induction u with
  | nil => intro due; rfl
  | cons c u ih =>
    intro due
    simp only [List.cons_append, close]
    split
    · exact ih _
    · split
      · exact ih _
      · rfl
    · rfl

theorem closer_of_closer {o c : Char} (h : closer? o = some c) : closer? c = none := by
  unfold closer? at h
  split at h
  · obtain rfl := Option.some.inj h; rfl
  · obtain rfl := Option.some.inj h; rfl
  · obtain rfl := Option.some.inj h; rfl
  · exact absurd h (by simp)

/-- A nested word leaves what is due as it was. -/
theorem Nested.close_eq {w : List Char} (h : Nested w) : ∀ due : List Char,
    close due w = some due := by
  induction h with
  | nil => intro due; rfl
  | @pair o c inside rest hoc _ _ hinside hrest =>
    intro due
    have hc := closer_of_closer hoc
    have hstart : close due (o :: inside ++ c :: rest) = close (c :: due) (inside ++ c :: rest) := by
      simp [close, hoc]
    rw [hstart, close_append, hinside]
    simp [close, hc, hrest]

/-- Where a closing bracket is due, the word up to it is nested.  The induction is on the length of
    the word: an opening bracket splits it in two shorter ones. -/
theorem nested_of_close (n : Nat) : ∀ w : List Char, w.length ≤ n →
    (close [] w = some [] → Nested w) ∧
    ∀ d due, close (d :: due) w = some [] →
      ∃ inside rest, w = inside ++ d :: rest ∧ Nested inside ∧ close due rest = some [] := by
  induction n with
  | zero =>
    intro w hw
    obtain rfl : w = [] := List.length_eq_zero_iff.mp (by omega)
    exact ⟨fun _ => .nil, fun d due h => by simp [close] at h⟩
  | succ n ih =>
    intro w hw
    cases w with
    | nil => exact ⟨fun _ => .nil, fun d due h => by simp [close] at h⟩
    | cons c cs =>
      simp only [List.length_cons] at hw
      cases hc : closer? c with
      | some e =>
        -- what follows an opening bracket, whatever else is due
        have opened : ∀ due, close due (c :: cs) = some [] →
            ∃ inside rest, cs = inside ++ e :: rest ∧ Nested inside ∧ close due rest = some [] := by
          intro due h
          simp only [close, hc] at h
          exact (ih cs (by omega)).2 e due h
        constructor
        · intro h
          obtain ⟨inside, rest, rfl, hinside, hrest⟩ := opened [] h
          simp only [List.length_append, List.length_cons] at hw
          exact .pair hc hinside ((ih rest (by omega)).1 hrest)
        · intro d due h
          obtain ⟨inside, rest, rfl, hinside, hrest⟩ := opened (d :: due) h
          simp only [List.length_append, List.length_cons] at hw
          obtain ⟨inside', rest', rfl, hinside', hrest'⟩ := (ih rest (by omega)).2 d due hrest
          exact ⟨c :: inside ++ e :: inside', rest', by simp, .pair hc hinside hinside', hrest'⟩
      | none =>
        constructor
        · intro h
          simp [close, hc] at h
        · intro d due h
          simp only [close, hc] at h
          split at h
          · next hcd => exact ⟨[], cs, by simp [hcd], .nil, h⟩
          · exact absurd h (by simp)

/-- The grammar and the stack agree. -/
theorem nested_iff (w : List Char) : Nested w ↔ close [] w = some [] :=
  ⟨fun h => h.close_eq [], (nested_of_close w.length w (Nat.le_refl _)).1⟩

/-! ## Well-bracketed texts -/

/-- A text with nested brackets and an even number of quotes of either kind. -/
structure WellBracketed (s : String) : Prop where
  nested : Nested (brackets s)
  double : s.toList.count '"' % 2 = 0
  single : s.toList.count '\'' % 2 = 0

/-- What being well bracketed depends on: the brackets and the quotes. -/
def isMark (c : Char) : Bool :=
  ['(', ')', '[', ']', '\x7b', '\x7d', '"', '\''].contains c

/-- The brackets and quotes of a text, in order. -/
def marks (s : String) : List Char :=
  s.toList.filter isMark

theorem brackets_eq (s : String) : brackets s = (marks s).filter isBracket := by
  unfold brackets marks
  rw [List.filter_filter]
  congr 1
  funext c
  have hmark : isBracket c = true → isMark c = true := by
    simp only [isBracket, isMark, List.contains_iff_mem]
    exact fun h => List.mem_append_left ['"', '\''] h
  cases hc : isBracket c with
  | false => rfl
  | true => rw [hmark hc]; rfl

theorem count_eq_count_marks (s : String) {c : Char} (hc : isMark c = true) :
    s.toList.count c = (marks s).count c := by
  rw [marks, List.count_filter hc]

/-- Being well bracketed is decided by reading the marks alone. -/
theorem wellBracketed_iff (s : String) : WellBracketed s ↔
    close [] ((marks s).filter isBracket) = some [] ∧
      (marks s).count '"' % 2 = 0 ∧ (marks s).count '\'' % 2 = 0 := by
  rw [← brackets_eq, ← nested_iff, ← count_eq_count_marks s (by decide : isMark '"' = true),
    ← count_eq_count_marks s (by decide : isMark '\'' = true)]
  exact ⟨fun h => ⟨h.nested, h.double, h.single⟩, fun h => ⟨h.1, h.2.1, h.2.2⟩⟩

instance (s : String) : Decidable (WellBracketed s) :=
  decidable_of_iff _ (wellBracketed_iff s).symm

theorem WellBracketed.congr {s t : String} (h : marks s = marks t) (hs : WellBracketed s) :
    WellBracketed t := by
  rw [wellBracketed_iff] at hs ⊢
  rwa [← h]

theorem wellBracketed_of_unmarked {s : String} (h : ∀ c ∈ s.toList, isMark c = false) :
    WellBracketed s := by
  have hmarks : marks s = [] := List.filter_eq_nil_iff.mpr fun c hc => by simp [h c hc]
  rw [wellBracketed_iff, hmarks]
  decide

/-- A well-bracketed text can be put anywhere into another one. -/
theorem WellBracketed.insert {a b s : String} (hab : WellBracketed (a ++ b)) (hs : WellBracketed s) :
    WellBracketed (a ++ s ++ b) := by
  refine ⟨?_, ?_, ?_⟩
  · have hs' := hs.nested
    have hab' := hab.nested
    rw [nested_iff] at hab' ⊢
    simp only [brackets, String.toList_append, List.filter_append, close_append] at hab' ⊢
    -- the stack after the first half is the same with the inserted text behind it
    cases ha : close [] (a.toList.filter isBracket) with
    | none => simp [ha] at hab'
    | some due =>
      rw [ha] at hab'
      have hdue : close due (s.toList.filter isBracket) = some due := hs'.close_eq due
      simpa [hdue] using hab'
  · have h1 := hab.double
    have h2 := hs.double
    simp only [String.toList_append, List.count_append] at h1 ⊢
    omega
  · have h1 := hab.single
    have h2 := hs.single
    simp only [String.toList_append, List.count_append] at h1 ⊢
    omega

/-! ## What trimming and naming a slot do to the marks -/

theorem isMark_of_isWhite {c : Char} (h : isWhite c = true) : isMark c = false := by
  -- asked of the marks, which are few, and not of the white characters
  have black : ['(', ')', '[', ']', '\x7b', '\x7d', '"', '\''].all (fun d => !isWhite d) = true := by
    decide
  cases hc : isMark c with
  | false => rfl
  | true =>
    have hblack := List.all_eq_true.mp black c (List.contains_iff_mem.mp hc)
    simp [h] at hblack

theorem filter_dropWhile_isWhite (cs : List Char) :
    (cs.dropWhile isWhite).filter isMark = cs.filter isMark := by
  induction cs with
  | nil => rfl
  | cons c cs ih =>
    by_cases hc : isWhite c = true
    · rw [List.dropWhile_cons_of_pos hc, ih, List.filter_cons_of_neg (by simp [isMark_of_isWhite hc])]
    · rw [List.dropWhile_cons_of_neg hc]

theorem marks_trim (s : String) : marks (trim s) = marks s := by
  simp only [marks, trim, trimChars, String.toList_ofList, List.filter_reverse,
    filter_dropWhile_isWhite, List.reverse_reverse]

theorem filter_slotChar (c : Char) : (slotChar c).filter isMark = [c].filter isMark := by
  unfold slotChar
  split
  · decide
  · decide
  · decide
  · rfl

theorem marks_slotName (s : String) : marks (slotName s) = marks s := by
  have chars : ∀ cs : List Char, (cs.flatMap slotChar).filter isMark = cs.filter isMark := by
    intro cs
    induction cs with
    | nil => rfl
    | cons c cs ih =>
      rw [List.flatMap_cons, List.filter_append, ih, filter_slotChar, ← List.filter_append,
        List.singleton_append]
  simp only [marks, slotName, String.toList_ofList, chars]

example : WellBracketed "if [ \"a\" == \"$\x7bb[1]\x7d\" ]; then alias x='()';fi" := by decide +kernel
example : ¬ WellBracketed "([)]" ∧ ¬ WellBracketed "it's" := by decide +kernel

end ScriptTree.Text

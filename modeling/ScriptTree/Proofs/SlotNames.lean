/-
  Slots have names of their own.

  A slot is reached by two texts, the name of its array and the name of its key, and three things
  are made of them: the two names spelled with identifier characters, the command that echoes the
  slot, and the variable in which the shell keeps it.  None of the three mixes up two slots.

  The spelling is a prefix code.  A character other than `-`, `.` and `/` stands for itself, and
  the words for these three start with an underscore and differ in the character after it; so a
  name without underscores can be read back from left to right (`readSlotName_slotName`), however
  its separators follow each other.  The command has a space after each name, and no name holds
  one.  The variable has the length of the first name in front of both, so that it is known where
  the first ends, although both are full of underscores (`slotVariable_inj`).  The main statement
  is `slots_apart`.
-/
import ScriptTree.HashArray
import ScriptTree.Proofs.Atoms

namespace ScriptTree

/-! ## Names read back -/

namespace Text

/-- The text that a name spelled with identifier characters stands for. -/
def readSlotName : List Char → List Char
  | '_' :: '_' :: cs => '-' :: readSlotName cs
  | '_' :: 'D' :: 'O' :: 'T' :: '_' :: cs => '.' :: readSlotName cs
  | '_' :: 'S' :: 'L' :: 'A' :: 'S' :: 'H' :: '_' :: cs => '/' :: readSlotName cs
  | c :: cs => c :: readSlotName cs
  | [] => []

/-- Only an underscore starts a word for a separator. -/
theorem readSlotName_cons {c : Char} (hc : c ≠ '_') (cs : List Char) :
    readSlotName (c :: cs) = c :: readSlotName cs := by
  rw [readSlotName.eq_def]
  split
  · next heq => exact absurd (List.cons.inj heq).1 hc
  · next heq => exact absurd (List.cons.inj heq).1 hc
  · next heq => exact absurd (List.cons.inj heq).1 hc
  · next heq =>
    obtain ⟨rfl, rfl⟩ := List.cons.inj heq
    rfl
  · next heq => exact nomatch heq

/-- One character is read back, whatever stands behind it. -/
theorem readSlotName_slotChar {c : Char} (hc : c ≠ '_') (cs : List Char) :
    readSlotName (slotChar c ++ cs) = c :: readSlotName cs := by
  unfold slotChar
  split
  · rfl
  · rfl
  · rfl
  · exact readSlotName_cons hc cs

/-- A text without underscores is read back from its name. -/
theorem readSlotName_slotName {s : String} (hs : '_' ∉ s.toList) :
    readSlotName (slotName s).toList = s.toList := by
  rw [slotName, String.toList_ofList]
  generalize s.toList = cs at hs
  induction cs with
  | nil => rfl
  | cons c cs ih =>
    rw [List.mem_cons, not_or] at hs
    rw [List.flatMap_cons, readSlotName_slotChar (Ne.symm hs.1), ih hs.2]

theorem slotName_inj {s t : String} (hs : '_' ∉ s.toList) (ht : '_' ∉ t.toList) :
    slotName s = slotName t ↔ s = t := by
  constructor
  · intro h
    rw [← String.toList_inj, ← readSlotName_slotName hs, ← readSlotName_slotName ht, h]
  · rintro rfl
    rfl

/-- A name holds no space that the text does not hold. -/
theorem space_not_mem_slotName {s : String} (hs : ' ' ∉ s.toList) :
    ' ' ∉ (slotName s).toList := by
  rw [slotName, String.toList_ofList, List.mem_flatMap]
  rintro ⟨c, hc, hspace⟩
  unfold slotChar at hspace
  split at hspace
  · exact absurd hspace (by decide)
  · exact absurd hspace (by decide)
  · exact absurd hspace (by decide)
  · exact hs (List.mem_singleton.mp hspace ▸ hc)

/-- A text that ends at the first of its marks is known from what it is followed by. -/
theorem append_mark_inj {c : Char} {l l' r r' : List Char} (hl : c ∉ l) (hl' : c ∉ l') :
    l ++ c :: r = l' ++ c :: r' ↔ l = l' ∧ r = r' := by
  constructor
  · intro h
    induction l generalizing l' with
    | nil =>
      cases l' with
      | nil => exact ⟨rfl, (List.cons.inj h).2⟩
      | cons d ds => exact absurd List.mem_cons_self ((List.cons.inj h).1 ▸ hl')
    | cons b bs ih =>
      cases l' with
      | nil => exact absurd List.mem_cons_self ((List.cons.inj h).1 ▸ hl)
      | cons d ds =>
        obtain ⟨rfl, htail⟩ := List.cons.inj h
        rw [List.mem_cons, not_or] at hl hl'
        obtain ⟨rfl, rfl⟩ := ih hl.2 hl'.2 htail
        exact ⟨rfl, rfl⟩
  · rintro ⟨rfl, rfl⟩
    rfl

end Text

/-! ## Variables -/

namespace HashArray

/-- What a shell counts when it is asked for the length of a text. -/
inductive LengthUnit where
  | character
  | byte

/-- The length of a text. -/
def LengthUnit.measure : LengthUnit → String → Nat
  | .character, s => s.length
  | .byte, s => s.utf8ByteSize

namespace LengthUnit

theorem measure_append (unit : LengthUnit) (s t : String) :
    unit.measure (s ++ t) = unit.measure s + unit.measure t := by
  cases unit with
  | character => exact String.length_append s t
  | byte => exact String.utf8ByteSize_append

theorem eq_empty_of_measure (unit : LengthUnit) {s : String} (h : unit.measure s = 0) : s = "" := by
  cases unit with
  | character => exact String.length_eq_zero_iff.mp h
  | byte => exact String.utf8ByteSize_eq_zero_iff.mp h

/-- Two texts of one length in front of the same text are the same. -/
theorem append_inj_of_measure (unit : LengthUnit) {s t s' t' : String}
    (hlength : unit.measure s = unit.measure s') (h : s ++ t = s' ++ t') : s = s' ∧ t = t' := by
  have hchars : s.toList ++ t.toList = s'.toList ++ t'.toList := by
    rw [← String.toList_append, h, String.toList_append]
  -- one of the two continues the other, by a text of length zero
  have hcontinued : ∀ {u v : String} {l : List Char}, unit.measure u = unit.measure v →
      u.toList = v.toList ++ l → l = [] := by
    intro u v l hlength hl
    have hu : u = v ++ String.ofList l := by
      rw [← String.toList_inj, String.toList_append, String.toList_ofList, hl]
    rw [hu, measure_append] at hlength
    have hempty := unit.eq_empty_of_measure (s := String.ofList l) (by omega)
    rw [← String.toList_ofList (l := l), hempty]
    rfl
  rcases List.append_eq_append_iff.mp hchars with ⟨l, hs', ht⟩ | ⟨l, hs, ht'⟩
  · obtain rfl := hcontinued hlength.symm hs'
    rw [List.append_nil] at hs'
    exact ⟨String.toList_inj.mp hs'.symm, String.toList_inj.mp ht⟩
  · obtain rfl := hcontinued hlength hs
    rw [List.append_nil] at hs
    exact ⟨String.toList_inj.mp hs, String.toList_inj.mp ht'.symm⟩

end LengthUnit

/-- A word of the functions with the first two parameters put in. -/
def expand (unit : LengthUnit) (first second : String) : List Char → List Char
  | '$' :: '\x7b' :: '#' :: '1' :: '\x7d' :: cs =>
    (toString (unit.measure first)).toList ++ expand unit first second cs
  | '$' :: '\x7b' :: '1' :: '\x7d' :: cs => first.toList ++ expand unit first second cs
  | '$' :: '\x7b' :: '2' :: '\x7d' :: cs => second.toList ++ expand unit first second cs
  | c :: cs => c :: expand unit first second cs
  | [] => []

/-- The variable in which the functions keep a slot, given the two names. -/
def slotVariable (unit : LengthUnit) (array key : String) : String :=
  String.ofList (expand unit array key slotWord.toList)

theorem slotVariable_eq (unit : LengthUnit) (array key : String) :
    slotVariable unit array key =
      "hash_" ++ toString (unit.measure array) ++ "_" ++ array ++ "_" ++ key := by
  rw [← String.toList_inj, slotVariable, String.toList_ofList]
  simp [slotWord, expand]

theorem underscore_not_mem_toString (n : Nat) : '_' ∉ (toString n).toList := by
  intro h
  rw [Nat.toString_eq_ofList_toDigits, String.toList_ofList] at h
  exact absurd (Nat.isDigit_of_mem_toDigits (by decide) (by decide) h) (by decide)

/-- Two slots with different names are kept in different variables, whatever the names hold. -/
theorem slotVariable_inj (unit : LengthUnit) {array key array' key' : String} :
    slotVariable unit array key = slotVariable unit array' key' ↔
      array = array' ∧ key = key' := by
  constructor
  · intro h
    rw [slotVariable_eq, slotVariable_eq, ← String.toList_inj] at h
    simp only [String.append_assoc, String.toList_append] at h
    -- no digit is an underscore, so the length ends at the first one
    obtain ⟨hdigits, hnames⟩ := (Text.append_mark_inj (underscore_not_mem_toString _)
      (underscore_not_mem_toString _)).mp (List.append_cancel_left h)
    have hlength : unit.measure array = unit.measure array' := by
      rw [Nat.toString_eq_ofList_toDigits, Nat.toString_eq_ofList_toDigits, String.toList_ofList,
        String.toList_ofList] at hdigits
      rw [← Nat.ofDigitChars_ten_toDigits (n := unit.measure array), hdigits,
        Nat.ofDigitChars_ten_toDigits]
    have hpair : array ++ ("_" ++ key) = array' ++ ("_" ++ key') := by
      rw [← String.toList_inj, String.toList_append, String.toList_append, String.toList_append,
        String.toList_append]
      exact hnames
    obtain ⟨harray, hkey⟩ := unit.append_inj_of_measure hlength hpair
    exact ⟨harray, (String.append_right_inj "_").mp hkey⟩
  · rintro ⟨rfl, rfl⟩
    rfl

end HashArray

/-! ## Slots -/

namespace Render

/-- A string, a keyword or a symbol is rendered as its text. -/
theorem emit_text {f : Form} {text : String} (cx : Setting) (hf : f.text? = some text) :
    emit cx f = .ok text := by
  rw [emit_eq]
  unfold Form.text? at hf
  split at hf
  · exact congrArg Except.ok (Option.some.inj hf)
  · exact congrArg Except.ok (Option.some.inj hf)
  · exact congrArg Except.ok (Option.some.inj hf)
  · exact nomatch hf

/-- The command that echoes a slot. -/
theorem render_hashGet {f g : Form} {a k : String} (cx : Setting) (hf : f.text? = some a)
    (hg : g.text? = some k) : render cx [.call "get" [f, g]] =
      .ok ("$(hash_echo " ++ Text.slotName a ++ " " ++ Text.slotName k ++ " -n)") := by
  have hget : emit cx (.call "get" [f, g]) = getSlot (emit cx) f g := by
    rw [emit_eq]
    rfl
  rw [render, hget, getSlot, emit_text cx hf, emit_text cx hg]
  rfl

/-- Names without spaces can be told apart in the command. -/
theorem echo_inj {a k a' k' : String} (ha : ' ' ∉ a.toList) (hk : ' ' ∉ k.toList)
    (ha' : ' ' ∉ a'.toList) (hk' : ' ' ∉ k'.toList) :
    "$(hash_echo " ++ a ++ " " ++ k ++ " -n)" = "$(hash_echo " ++ a' ++ " " ++ k' ++ " -n)" ↔
      a = a' ∧ k = k' := by
  constructor
  · intro h
    rw [← String.toList_inj] at h
    simp only [String.append_assoc, String.toList_append] at h
    obtain ⟨harray, hrest⟩ := (Text.append_mark_inj ha ha').mp (List.append_cancel_left h)
    obtain ⟨hkey, -⟩ := (Text.append_mark_inj hk hk').mp hrest
    exact ⟨String.toList_inj.mp harray, String.toList_inj.mp hkey⟩
  · rintro ⟨rfl, rfl⟩
    rfl

/-- Two slots named by texts without underscores and spaces are the same exactly if the commands that
    echo them are, and exactly if the variables that keep them are, however the shell counts the
    length in their names. -/
theorem slots_apart (cx : Setting) (unit : HashArray.LengthUnit) (f g f' g' : Form)
    (a k a' k' : String) (hf : f.text? = some a) (hg : g.text? = some k)
    (hf' : f'.text? = some a') (hg' : g'.text? = some k')
    (hplain : ∀ s ∈ [a, k, a', k'], '_' ∉ s.toList ∧ ' ' ∉ s.toList) :
    (∃ text text', render cx [.call "get" [f, g]] = .ok text ∧
      render cx [.call "get" [f', g']] = .ok text' ∧ (text = text' ↔ a = a' ∧ k = k')) ∧
    (HashArray.slotVariable unit (Text.slotName a) (Text.slotName k) =
      HashArray.slotVariable unit (Text.slotName a') (Text.slotName k') ↔ a = a' ∧ k = k') := by
  have ha := hplain a (by simp)
  have hk := hplain k (by simp)
  have ha' := hplain a' (by simp)
  have hk' := hplain k' (by simp)
  constructor
  · refine ⟨_, _, render_hashGet cx hf hg, render_hashGet cx hf' hg', ?_⟩
    rw [echo_inj (Text.space_not_mem_slotName ha.2) (Text.space_not_mem_slotName hk.2)
      (Text.space_not_mem_slotName ha'.2) (Text.space_not_mem_slotName hk'.2),
      Text.slotName_inj ha.1 ha'.1, Text.slotName_inj hk.1 hk'.1]
  · rw [HashArray.slotVariable_inj, Text.slotName_inj ha.1 ha'.1, Text.slotName_inj hk.1 hk'.1]

/-- The array `a-` with the key `b`, and the array `a` with the key `-b`: joined by an underscore the
    names are the same, but neither the commands nor the variables are. -/
theorem slots_apart_overlapping :
    let name := fun a k => HashArray.slotVariable .byte (Text.slotName a) (Text.slotName k)
    Text.slotName "a-" ++ "_" ++ Text.slotName "b" = Text.slotName "a" ++ "_" ++ Text.slotName "-b" ∧
    (∃ text text', render Setting.plain [.call "get" [.symbol "a-", .keyword "b"]] = .ok text ∧
      render Setting.plain [.call "get" [.str "a", .keyword "-b"]] = .ok text' ∧ text ≠ text') ∧
    name "a-" "b" ≠ name "a" "-b" := by
  have hplain : ∀ s ∈ ["a-", "b", "a", "-b"], '_' ∉ s.toList ∧ ' ' ∉ s.toList := by decide
  have hdifferent : ¬("a-" = "a" ∧ "b" = "-b") := by decide
  obtain ⟨⟨text, text', hrender, hrender', htexts⟩, hvariables⟩ :=
    slots_apart Setting.plain .byte (.symbol "a-") (.keyword "b") (.str "a") (.keyword "-b")
      "a-" "b" "a" "-b" rfl rfl rfl rfl hplain
  refine ⟨by decide, ⟨text, text', hrender, hrender', ?_⟩, ?_⟩
  · exact fun h => hdifferent (htexts.mp h)
  · exact fun h => hdifferent (hvariables.mp h)

end Render

end ScriptTree

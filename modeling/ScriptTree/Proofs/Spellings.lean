/-
  The spelling of a form tells it from every other form.

  A spelling is one flat text, with spaces, commas and brackets between its parts, and a string may
  hold any of these.  It can be taken apart from left to right all the same:

  1. The first character shows what kind of form begins (`Shape.ofFirst`, `exists_first`), and it is
     never one that separates or closes.

  2. A string runs up to the first quote that no backslash hides.  Each of its characters is
     written as one piece that can be read back whatever comes behind (`unquoteChar_quoteChar`), so
     the string and the rest are known (`quoted_append_inj`).

  3. Nil, numbers, keywords and symbols are words: they hold no character that separates or closes,
     and such a character stands behind them (`word_append_inj`).  Words are told apart by their
     first character, by the slash of a ratio, and because no symbol is named like nil.

  4. In a collection the character behind an item says whether another one follows
     (`behindItem_inj`, `behindEntry_inj`).

  The induction (`spelling_append_inj`) is on the first of two forms that are spelled alike, each
  with any text behind it that ends a word; it gives that the forms are the same and the texts
  behind them too.  The main statement is `spelling_eq_iff`.
-/
import ScriptTree.Form.Spelling
import ScriptTree.Proofs.Atoms
import ScriptTree.Proofs.ReadBack
import ScriptTree.Proofs.SlotNames

namespace ScriptTree

namespace Text

/-! ## Quoted texts -/

/-- The number that hexadecimal digits stand for. -/
def hexNumber (ds : List Char) : Nat :=
  ds.foldl (fun n d => 16 * n + (Json.hexValue? d).getD 0) 0

theorem hexNumber_toDigits (n : Nat) : hexNumber (Nat.toDigits 16 n) = n := by
  induction n using Nat.strongRecOn with
  | ind n ih =>
    rcases Nat.lt_or_ge n 16 with hn | hn
    · rw [Nat.toDigits_of_lt_base hn]
      simp [hexNumber, Json.hexValue_digitChar n hn]
    · have hrest : hexNumber (Nat.toDigits 16 (n / 16)) = n / 16 := ih (n / 16) (by omega)
      have hlast := Json.hexValue_digitChar (n % 16) (Nat.mod_lt n (by decide))
      unfold hexNumber at hrest ⊢
      rw [Nat.toDigits_of_base_le (by decide) hn, List.foldl_append, hrest, List.foldl_cons,
        List.foldl_nil, hlast, Option.getD_some]
      omega

theorem brace_not_mem_toDigits (n : Nat) : '\x7d' ∉ Nat.toDigits 16 n := by
  induction n using Nat.strongRecOn with
  | ind n ih =>
    have hdigit (d : Nat) : '\x7d' ≠ Nat.digitChar d := (Nat.digitChar_ne '\x7d' (by decide)).symm
    rcases Nat.lt_or_ge n 16 with hn | hn
    · rw [Nat.toDigits_of_lt_base hn, List.mem_singleton]
      exact hdigit n
    · rw [Nat.toDigits_of_base_le (by decide) hn, List.mem_append, List.mem_singleton, not_or]
      exact ⟨ih (n / 16) (by omega), hdigit (n % 16)⟩

/-- The character that a letter behind a backslash stands for. -/
def escapedChar : Char → Char
  | '0' => '\x00'
  | 't' => '\t'
  | 'r' => '\r'
  | 'n' => '\n'
  | c => c

/-- The first character of what stands between quotes, and the rest. -/
def unquoteChar : List Char → Option (Char × List Char)
  | [] => none
  | '\\' :: 'u' :: '\x7b' :: cs =>
    some (Char.ofNat (hexNumber (cs.takeWhile (· != '\x7d'))), (cs.dropWhile (· != '\x7d')).tail)
  | '\\' :: e :: cs => some (escapedChar e, cs)
  | c :: cs => some (c, cs)

theorem unquoteChar_codeEscape (c : Char) (rest : List Char) :
    unquoteChar (codeEscape c ++ rest) = some (c, rest) := by
  -- the digits end at the brace
  have hdigits : ∀ d ∈ Nat.toDigits 16 c.toNat, (d != '\x7d') = true := fun d hd =>
    bne_iff_ne.mpr fun h => brace_not_mem_toDigits c.toNat (h ▸ hd)
  have htake : (Nat.toDigits 16 c.toNat ++ '\x7d' :: rest).takeWhile (· != '\x7d') =
      Nat.toDigits 16 c.toNat := by
    rw [List.takeWhile_append_of_pos hdigits]
    simp
  have hdrop : (Nat.toDigits 16 c.toNat ++ '\x7d' :: rest).dropWhile (· != '\x7d') =
      '\x7d' :: rest := by
    rw [List.dropWhile_append_of_pos hdigits]
    simp
  show unquoteChar ('\\' :: 'u' :: '\x7b' :: (Nat.toDigits 16 c.toNat ++ ['\x7d'] ++ rest)) = _
  rw [List.append_assoc, List.singleton_append, unquoteChar, htake, hdrop, hexNumber_toDigits,
    Char.ofNat_toNat]
  rfl

/-- Only a backslash starts an escape. -/
theorem unquoteChar_cons {c : Char} (hc : c ≠ '\\') (rest : List Char) :
    unquoteChar (c :: rest) = some (c, rest) := by
  rw [unquoteChar.eq_def]
  split
  · next heq => cases heq
  · next heq => exact absurd (List.cons.inj heq).1 hc
  · next heq => exact absurd (List.cons.inj heq).1 hc
  · next heq =>
    obtain ⟨rfl, rfl⟩ := List.cons.inj heq
    rfl

/-- Each character is read back, whatever comes behind. -/
theorem unquoteChar_quoteChar (c : Char) (rest : List Char) :
    unquoteChar (quoteChar c ++ rest) = some (c, rest) := by
  unfold quoteChar
  split
  case h_7 hback _ _ _ _ =>
    split
    · exact unquoteChar_codeEscape c rest
    · exact unquoteChar_cons hback rest
  all_goals rfl

theorem exists_quoteChar (c : Char) : ∃ d ds, quoteChar c = d :: ds ∧ d ≠ '"' := by
  unfold quoteChar
  split
  case h_7 hquote _ _ _ _ _ =>
    split
    · exact ⟨_, _, rfl, by decide⟩
    · exact ⟨c, [], rfl, hquote⟩
  all_goals exact ⟨_, _, rfl, by decide⟩

/-- What is quoted ends at the first quote that no backslash hides, and can be read up to there. -/
theorem quoted_append_inj {s s' r r' : List Char}
    (h : s.flatMap quoteChar ++ '"' :: r = s'.flatMap quoteChar ++ '"' :: r') :
    s = s' ∧ r = r' := by
  induction s generalizing s' with
  | nil =>
    cases s' with
    | nil => exact ⟨rfl, (List.cons.inj h).2⟩
    | cons c' cs' =>
      obtain ⟨d, ds, hd, hne⟩ := exists_quoteChar c'
      rw [List.flatMap_cons, hd] at h
      exact absurd (List.cons.inj h).1.symm hne
  | cons c cs ih =>
    cases s' with
    | nil =>
      obtain ⟨d, ds, hd, hne⟩ := exists_quoteChar c
      rw [List.flatMap_cons, hd] at h
      exact absurd (List.cons.inj h).1 hne
    | cons c' cs' =>
      rw [List.flatMap_cons, List.flatMap_cons, List.append_assoc, List.append_assoc] at h
      have hread := congrArg unquoteChar h
      rw [unquoteChar_quoteChar, unquoteChar_quoteChar] at hread
      obtain ⟨rfl, hrest⟩ := Prod.mk.inj (Option.some.inj hread)
      obtain ⟨rfl, rfl⟩ := ih hrest
      exact ⟨rfl, rfl⟩

/-! ## Ends of words -/

/-- The characters that separate forms or close a collection. -/
def wordEnds : List Char :=
  [' ', ',', ')', ']', '\x7d']

/-- Whether a character ends a word. -/
def endsWord (c : Char) : Bool :=
  wordEnds.contains c

theorem endsWord_eq_false {p : Char → Bool} (hp : (wordEnds.all fun c => !p c) = true) {c : Char}
    (hc : p c = true) : endsWord c = false := by
  refine Bool.eq_false_iff.mpr fun hends => ?_
  have hnot := List.all_eq_true.mp hp c (List.contains_iff_mem.mp hends)
  rw [hc] at hnot
  cases hnot

/-- A text that cannot continue the word in front of it. -/
def Ended (rest : List Char) : Prop :=
  ∀ c ∈ rest.head?, endsWord c = true

theorem ended_nil : Ended [] := by
  intro c hc
  cases hc

theorem ended_cons {c : Char} (hc : endsWord c = true) (rest : List Char) : Ended (c :: rest) := by
  intro d hd
  obtain rfl : c = d := by simpa using hd
  exact hc

theorem takeWhile_of_ended {w r : List Char} (hw : ∀ c ∈ w, endsWord c = false) (hr : Ended r) :
    (w ++ r).takeWhile (fun c => !endsWord c) = w := by
  rw [List.takeWhile_append_of_pos fun c hc => by rw [hw c hc]; rfl]
  cases r with
  | nil => simp
  | cons c cs => simp [hr c (by simp)]

theorem word_append_inj {w w' r r' : List Char} (hw : ∀ c ∈ w, endsWord c = false)
    (hw' : ∀ c ∈ w', endsWord c = false) (hr : Ended r) (hr' : Ended r')
    (h : w ++ r = w' ++ r') : w = w' ∧ r = r' := by
  have hword := congrArg (List.takeWhile fun c => !endsWord c) h
  rw [takeWhile_of_ended hw hr, takeWhile_of_ended hw' hr'] at hword
  subst hword
  exact ⟨rfl, List.append_cancel_left h⟩

end Text

namespace Form

open Text (endsWord endsWord_eq_false Ended ended_cons)

/-! ## Plain names -/

/-- A letter.  Beyond ASCII every character counts as one. -/
def isLetter (c : Char) : Bool :=
  c.isAlpha || 0x80 ≤ c.toNat

/-- What may stand in a plain name. -/
def isNameChar (c : Char) : Bool :=
  isLetter c || c.isDigit || c == '_' || c == '?' || c == '!'

/-- A letter, followed by letters, digits, `_`, `?` and `!`. -/
def plainName (name : String) : Bool :=
  match name.toList with
  | [] => false
  | c :: cs => isLetter c && cs.all isNameChar

/-- Whether the name of an atom, if it has one, is plain, and no symbol is named like nil. -/
def plainlyNamed : Form → Bool
  | .keyword name => plainName name
  | .symbol name => plainName name && name != "nil"
  | _ => true

/-- That this holds of all the atoms of a form. -/
def AllPlain (atoms : List Form) : Prop :=
  ∀ a ∈ atoms, a.plainlyNamed = true

theorem le_of_isAlpha {c : Char} (h : c.isAlpha = true) : 'A'.toNat ≤ c.toNat := by
  have hcase : (c.isUpper || c.isLower) = true := h
  rw [Bool.or_eq_true] at hcase
  rcases hcase with h | h
  · have hrange : 'A'.val ≤ c.val ∧ c.val ≤ 'Z'.val := of_decide_eq_true h
    exact UInt32.le_iff_toNat_le.mp hrange.1
  · have hrange : (decide ('a'.val ≤ c.val) && decide (c.val ≤ 'z'.val)) = true := h
    rw [Bool.and_eq_true, decide_eq_true_eq] at hrange
    exact Nat.le_trans (by decide) (UInt32.le_iff_toNat_le.mp hrange.1)

theorem not_isDigit_of_isLetter {c : Char} (h : isLetter c = true) : c.isDigit = false := by
  have hletter : 'A'.toNat ≤ c.toNat := by
    rw [isLetter, Bool.or_eq_true, decide_eq_true_eq] at h
    rcases h with h | h
    · exact le_of_isAlpha h
    · exact Nat.le_trans (by decide) h
  refine Bool.eq_false_iff.mpr fun hc => ?_
  have hdigit : c.toNat ≤ '9'.toNat := (Char.isDigit_iff_toNat.mp hc).2
  exact absurd (Nat.le_trans hletter hdigit) (by decide)

theorem plainName_chars {name : String} (h : plainName name = true) :
    ∃ c cs, name.toList = c :: cs ∧ isLetter c = true ∧
      ∀ d ∈ name.toList, endsWord d = false := by
  unfold plainName at h
  split at h
  · cases h
  · next c cs hname =>
    rw [Bool.and_eq_true, List.all_eq_true] at h
    refine ⟨c, cs, hname, h.1, fun d hd => endsWord_eq_false (p := isNameChar) (by decide) ?_⟩
    rcases List.mem_cons.mp (hname ▸ hd) with rfl | hd
    · simp [isNameChar, h.1]
    · exact h.2 d hd

theorem AllPlain.symbol {name : String} (h : AllPlain (Form.symbol name).atoms) :
    plainName name = true ∧ name ≠ "nil" := by
  have hname := h (.symbol name) (List.mem_singleton_self _)
  rw [plainlyNamed, Bool.and_eq_true, bne_iff_ne] at hname
  exact hname

/-! ## Integers -/

/-- Whether a character stands in an integer. -/
def isNumeric (c : Char) : Bool :=
  c == '-' || c.isDigit

theorem toList_intText (n : Int64) : (intText n).toList = Json.integerChars n.toInt := by
  rw [intText, Int.toString_eq_repr, Int.repr_eq_if, Json.integerChars]
  rcases Int.lt_or_le n.toInt 0 with h | h
  · rw [if_neg (by omega), if_pos h, String.toList_append, Nat.repr,
      show (-n.toInt).toNat = n.toInt.natAbs by omega]
    exact congrArg ('-' :: ·) String.toList_ofList
  · rw [if_pos h, if_neg (by omega), Nat.repr, String.toList_ofList,
      show n.toInt.toNat = n.toInt.natAbs by omega]

theorem isNumeric_of_mem_intText {n : Int64} {c : Char} (h : c ∈ (intText n).toList) :
    isNumeric c = true := by
  rw [toList_intText] at h
  simpa [isNumeric] using Json.mem_integerChars h

theorem exists_intText (n : Int64) :
    ∃ c cs, (intText n).toList = c :: cs ∧ isNumeric c = true := by
  cases h : (intText n).toList with
  | nil => exact absurd (toList_intText n ▸ h) (Json.integerChars_ne_nil _)
  | cons c cs => exact ⟨c, cs, rfl, isNumeric_of_mem_intText (n := n) (by simp [h])⟩

theorem endsWord_of_isNumeric {c : Char} (h : isNumeric c = true) : endsWord c = false :=
  endsWord_eq_false (by decide) h

theorem slash_not_mem_intText (n : Int64) : '/' ∉ (intText n).toList := fun h =>
  absurd (isNumeric_of_mem_intText h) (by decide)

theorem readNumber_intText (n : Int64) :
    Json.readNumber (intText n).toList = some (.number (.integer n.toInt), []) := by
  have hlow := n.le_toInt
  have hhigh := n.toInt_lt
  have hread := Json.readNumber_integerChars (n := n.toInt) ⟨by omega, by omega⟩ Json.endsNumber_nil
  rwa [List.append_nil, ← toList_intText] at hread

theorem intText_inj {n m : Int64} (h : (intText n).toList = (intText m).toList) : n = m := by
  have hread := readNumber_intText n
  rw [h, readNumber_intText m] at hread
  simp only [Option.some.injEq, Prod.mk.injEq, Json.number.injEq, Json.Number.integer.injEq,
    and_true] at hread
  exact (Int64.toInt_inj.mp hread).symm

/-! ## Shapes -/

/-- The kinds of forms that a first character tells apart. -/
inductive Shape where
  | name
  | number
  | keyword
  | text
  | mark
  | list
  | vector
  | map
  deriving DecidableEq

/-- The shape of a form. -/
def shape : Form → Shape
  | .nil => .name
  | .symbol _ => .name
  | .int _ => .number
  | .ratio _ _ => .number
  | .keyword _ => .keyword
  | .str _ => .text
  | .splice => .mark
  | .list _ => .list
  | .vector _ => .vector
  | .map _ => .map

/-- The shape that the first character of a spelling shows. -/
def Shape.ofFirst (c : Char) : Shape :=
  match c with
  | ':' => .keyword
  | '"' => .text
  | '~' => .mark
  | '(' => .list
  | '[' => .vector
  | '\x7b' => .map
  | c => if isNumeric c then .number else .name

theorem ofFirst_of_isNumeric {c : Char} (h : isNumeric c = true) : Shape.ofFirst c = .number := by
  unfold Shape.ofFirst
  split
  case h_7 => rw [if_pos h]
  all_goals exact absurd h (by decide)

theorem ofFirst_of_isLetter {c : Char} (h : isLetter c = true) : Shape.ofFirst c = .name := by
  unfold Shape.ofFirst
  split
  case h_7 =>
    have hminus : c ≠ '-' := fun heq => absurd (heq ▸ h) (by decide)
    simp [isNumeric, hminus, not_isDigit_of_isLetter h]
  all_goals exact absurd h (by decide)

theorem toList_list (items : List Form) (rest : List Char) :
    (Form.list items).spelling.toList ++ rest =
      '(' :: ((spellItems items).toList ++ ')' :: rest) := by
  show ("(" ++ spellItems items ++ ")").toList ++ rest = _
  simp

theorem toList_vector (items : List Form) (rest : List Char) :
    (Form.vector items).spelling.toList ++ rest =
      '[' :: ((spellItems items).toList ++ ']' :: rest) := by
  show ("[" ++ spellItems items ++ "]").toList ++ rest = _
  simp

theorem toList_map (entries : List (Form × Form)) (rest : List Char) :
    (Form.map entries).spelling.toList ++ rest =
      '\x7b' :: ((spellEntries entries).toList ++ '\x7d' :: rest) := by
  show ("\x7b" ++ spellEntries entries ++ "\x7d").toList ++ rest = _
  simp

theorem toList_str (s : String) (rest : List Char) :
    (Form.str s).spelling.toList ++ rest =
      '"' :: (s.toList.flatMap Text.quoteChar ++ '"' :: rest) := by
  show (Text.quote s).toList ++ rest = _
  simp [Text.quote]

theorem toList_ratio (n d : Int64) :
    (Form.ratio n d).spelling.toList = (intText n).toList ++ '/' :: (intText d).toList := by
  show (intText n ++ "/" ++ intText d).toList = _
  simp

theorem toList_keyword (name : String) :
    (Form.keyword name).spelling.toList = ':' :: name.toList := by
  show (":" ++ name).toList = _
  simp

/-- The first character of a spelling shows the shape of the form and ends no word. -/
theorem exists_first {f : Form} (hf : AllPlain f.atoms) (rest : List Char) :
    ∃ c cs, f.spelling.toList ++ rest = c :: cs ∧ Shape.ofFirst c = f.shape ∧
      endsWord c = false := by
  cases f with
  | nil => exact ⟨_, _, rfl, rfl, rfl⟩
  | int n =>
    obtain ⟨c, cs, hn, hc⟩ := exists_intText n
    refine ⟨c, cs ++ rest, ?_, ofFirst_of_isNumeric hc, endsWord_of_isNumeric hc⟩
    rw [spelling, hn, List.cons_append]
  | ratio n d =>
    obtain ⟨c, cs, hn, hc⟩ := exists_intText n
    refine ⟨c, cs ++ '/' :: (intText d).toList ++ rest, ?_, ofFirst_of_isNumeric hc,
      endsWord_of_isNumeric hc⟩
    rw [toList_ratio, hn, List.cons_append, List.cons_append]
  | str s => exact ⟨_, _, toList_str s rest, rfl, rfl⟩
  | keyword name => exact ⟨_, _, by rw [toList_keyword]; rfl, rfl, rfl⟩
  | symbol name =>
    obtain ⟨c, cs, hname, hc, hends⟩ := plainName_chars hf.symbol.1
    refine ⟨c, cs ++ rest, ?_, ofFirst_of_isLetter hc, hends c (by simp [hname])⟩
    rw [spelling, hname, List.cons_append]
  | list items => exact ⟨_, _, toList_list items rest, rfl, rfl⟩
  | vector items => exact ⟨_, _, toList_vector items rest, rfl, rfl⟩
  | map entries => exact ⟨_, _, toList_map entries rest, rfl, rfl⟩
  | splice => exact ⟨_, _, rfl, rfl, rfl⟩

theorem shape_eq {t u : Form} {r s : List Char} (ht : AllPlain t.atoms) (hu : AllPlain u.atoms)
    (h : t.spelling.toList ++ r = u.spelling.toList ++ s) : t.shape = u.shape := by
  obtain ⟨c, cs, htext, htshape, -⟩ := exists_first ht r
  obtain ⟨d, ds, hutext, hushape, -⟩ := exists_first hu s
  rw [htext, hutext] at h
  rw [← htshape, ← hushape, (List.cons.inj h).1]

/-- What separates or closes starts no form. -/
theorem cons_ne_spelling {g : Form} (hg : AllPlain g.atoms) {c : Char} (hc : endsWord c = true)
    (r s : List Char) : c :: r ≠ g.spelling.toList ++ s := by
  obtain ⟨d, ds, htext, -, hd⟩ := exists_first hg s
  intro h
  rw [htext] at h
  rw [(List.cons.inj h).1, hd] at hc
  cases hc

/-! ## Words -/

/-- Whether a form is spelled as one word. -/
def isWord (f : Form) : Bool :=
  f.shape == .name || f.shape == .number || f.shape == .keyword

theorem endsWord_of_mem_word {f : Form} (hf : AllPlain f.atoms) (hword : f.isWord = true) :
    ∀ c ∈ f.spelling.toList, endsWord c = false := by
  cases f with
  | nil =>
    intro c hc
    have hchars : c = 'n' ∨ c = 'i' ∨ c = 'l' := by simpa [spelling] using hc
    rcases hchars with rfl | rfl | rfl <;> rfl
  | int n => exact fun c hc => endsWord_of_isNumeric (isNumeric_of_mem_intText hc)
  | ratio n d =>
    intro c hc
    rw [toList_ratio, List.mem_append, List.mem_cons] at hc
    rcases hc with hc | rfl | hc
    · exact endsWord_of_isNumeric (isNumeric_of_mem_intText hc)
    · rfl
    · exact endsWord_of_isNumeric (isNumeric_of_mem_intText hc)
  | keyword name =>
    obtain ⟨-, -, -, -, hends⟩ :=
      plainName_chars (hf (.keyword name) (List.mem_singleton_self _))
    intro c hc
    rw [toList_keyword] at hc
    rcases List.mem_cons.mp hc with rfl | hc
    · rfl
    · exact hends c hc
  | symbol name =>
    obtain ⟨-, -, -, -, hends⟩ := plainName_chars hf.symbol.1
    exact hends
  | _ => cases hword

theorem word_inj {t u : Form} (ht : AllPlain t.atoms) (hu : AllPlain u.atoms)
    (hword : t.isWord = true) (hshape : t.shape = u.shape)
    (h : t.spelling.toList = u.spelling.toList) : t = u := by
  cases t with
  | nil =>
    cases u with
    | nil => rfl
    | symbol name => exact absurd (String.toList_inj.mp h).symm hu.symbol.2
    | _ => cases hshape
  | symbol name =>
    cases u with
    | nil => exact absurd (String.toList_inj.mp h) ht.symbol.2
    | symbol name' => exact congrArg Form.symbol (String.toList_inj.mp h)
    | _ => cases hshape
  | int n =>
    cases u with
    | int m => exact congrArg Form.int (intText_inj h)
    | ratio m d =>
      rw [toList_ratio] at h
      exact absurd (h ▸ by simp) (slash_not_mem_intText n)
    | _ => cases hshape
  | ratio n d =>
    cases u with
    | int m =>
      rw [toList_ratio] at h
      exact absurd (h ▸ by simp) (slash_not_mem_intText m)
    | ratio m e =>
      rw [toList_ratio, toList_ratio,
        Text.append_mark_inj (slash_not_mem_intText n) (slash_not_mem_intText m)] at h
      rw [intText_inj h.1, intText_inj h.2]
    | _ => cases hshape
  | keyword name =>
    cases u with
    | keyword name' =>
      rw [toList_keyword, toList_keyword] at h
      exact congrArg Form.keyword (String.toList_inj.mp (List.cons.inj h).2)
    | _ => cases hshape
  | _ => cases hword

theorem word_spelling_inj {t u : Form} {r s : List Char} (hword : t.isWord = true)
    (ht : AllPlain t.atoms) (hu : AllPlain u.atoms) (hr : Ended r) (hs : Ended s)
    (h : t.spelling.toList ++ r = u.spelling.toList ++ s) : t = u ∧ r = s := by
  have hshape := shape_eq ht hu h
  have huword : u.isWord = true := by rwa [isWord, ← hshape]
  obtain ⟨htext, hrest⟩ := Text.word_append_inj (endsWord_of_mem_word ht hword)
    (endsWord_of_mem_word hu huword) hr hs h
  exact ⟨word_inj ht hu hword hshape htext, hrest⟩

/-! ## Collections -/

/-- What stands behind the first item of a list or a vector. -/
def behindItem (fs : List Form) (close : Char) (rest : List Char) : List Char :=
  match fs with
  | [] => close :: rest
  | f :: fs => ' ' :: ((spellItems (f :: fs)).toList ++ close :: rest)

theorem spellItems_cons (f : Form) (fs : List Form) (close : Char) (rest : List Char) :
    (spellItems (f :: fs)).toList ++ close :: rest =
      f.spelling.toList ++ behindItem fs close rest := by
  cases fs with
  | nil => simp [spellItems, behindItem]
  | cons g gs => simp [spellItems, behindItem]

theorem ended_behindItem (fs : List Form) {close : Char} (hc : endsWord close = true)
    (rest : List Char) : Ended (behindItem fs close rest) := by
  cases fs with
  | nil => exact ended_cons hc _
  | cons f fs => exact ended_cons rfl _

/-- A space or the closing bracket behind the first item says whether there are more. -/
theorem behindItem_inj {fs gs : List Form} {close : Char} {r s : List Char} (hne : close ≠ ' ')
    (ih : (spellItems fs).toList ++ close :: r = (spellItems gs).toList ++ close :: s →
      fs = gs ∧ r = s) (h : behindItem fs close r = behindItem gs close s) : fs = gs ∧ r = s := by
  cases fs with
  | nil =>
    cases gs with
    | nil => exact ⟨rfl, (List.cons.inj h).2⟩
    | cons g gs => exact absurd (List.cons.inj h).1 hne
  | cons f fs =>
    cases gs with
    | nil => exact absurd (List.cons.inj h).1.symm hne
    | cons g gs => exact ih (List.cons.inj h).2

/-- What stands behind the first entry of a map. -/
def behindEntry (es : List (Form × Form)) (rest : List Char) : List Char :=
  match es with
  | [] => '\x7d' :: rest
  | e :: es => ',' :: ' ' :: ((spellEntries (e :: es)).toList ++ '\x7d' :: rest)

theorem spellEntries_cons (k v : Form) (es : List (Form × Form)) (rest : List Char) :
    (spellEntries ((k, v) :: es)).toList ++ '\x7d' :: rest =
      k.spelling.toList ++ ' ' :: (v.spelling.toList ++ behindEntry es rest) := by
  cases es with
  | nil => simp [spellEntries, behindEntry]
  | cons e es => simp [spellEntries, behindEntry]

theorem ended_behindEntry (es : List (Form × Form)) (rest : List Char) :
    Ended (behindEntry es rest) := by
  cases es with
  | nil => exact ended_cons rfl _
  | cons e es => exact ended_cons rfl _

/-- A comma or the closing brace behind the first entry says whether there are more. -/
theorem behindEntry_inj {es es' : List (Form × Form)} {r s : List Char}
    (ih : (spellEntries es).toList ++ '\x7d' :: r = (spellEntries es').toList ++ '\x7d' :: s →
      es = es' ∧ r = s) (h : behindEntry es r = behindEntry es' s) : es = es' ∧ r = s := by
  cases es with
  | nil =>
    cases es' with
    | nil => exact ⟨rfl, (List.cons.inj h).2⟩
    | cons e' es' => exact absurd (List.cons.inj h).1 (by decide)
  | cons e es =>
    cases es' with
    | nil => exact absurd (List.cons.inj h).1 (by decide)
    | cons e' es' => exact ih (List.cons.inj (List.cons.inj h).2).2

/-! ## The induction -/

mutual

/-- Forms that are spelled alike are the same, and so is what stands behind them. -/
theorem spelling_append_inj : ∀ (t u : Form) (r s : List Char), AllPlain t.atoms →
    AllPlain u.atoms → Ended r → Ended s → t.spelling.toList ++ r = u.spelling.toList ++ s →
    t = u ∧ r = s
  | .nil => fun _ _ _ => word_spelling_inj rfl
  | .int _ => fun _ _ _ => word_spelling_inj rfl
  | .ratio _ _ => fun _ _ _ => word_spelling_inj rfl
  | .keyword _ => fun _ _ _ => word_spelling_inj rfl
  | .symbol _ => fun _ _ _ => word_spelling_inj rfl
  | .str text => by
    intro u r s ht hu _ _ h
    have hshape := shape_eq ht hu h
    cases u with
    | str text' =>
      rw [toList_str, toList_str] at h
      obtain ⟨htext, hrest⟩ := Text.quoted_append_inj (List.cons.inj h).2
      exact ⟨congrArg Form.str (String.toList_inj.mp htext), hrest⟩
    | _ => cases hshape
  | .list items => by
    intro u r s ht hu _ _ h
    have hshape := shape_eq ht hu h
    cases u with
    | list items' =>
      rw [toList_list, toList_list] at h
      obtain ⟨hitems, hrest⟩ :=
        spellItems_append_inj items items' ')' r s ht hu rfl (by decide) (List.cons.inj h).2
      exact ⟨congrArg Form.list hitems, hrest⟩
    | _ => cases hshape
  | .vector items => by
    intro u r s ht hu _ _ h
    have hshape := shape_eq ht hu h
    cases u with
    | vector items' =>
      rw [toList_vector, toList_vector] at h
      obtain ⟨hitems, hrest⟩ :=
        spellItems_append_inj items items' ']' r s ht hu rfl (by decide) (List.cons.inj h).2
      exact ⟨congrArg Form.vector hitems, hrest⟩
    | _ => cases hshape
  | .map entries => by
    intro u r s ht hu _ _ h
    have hshape := shape_eq ht hu h
    cases u with
    | map entries' =>
      rw [toList_map, toList_map] at h
      obtain ⟨hentries, hrest⟩ :=
        spellEntries_append_inj entries entries' r s ht hu (List.cons.inj h).2
      exact ⟨congrArg Form.map hentries, hrest⟩
    | _ => cases hshape
  | .splice => by
    intro u r s ht hu _ _ h
    have hshape := shape_eq ht hu h
    cases u with
    | splice => exact ⟨rfl, List.append_cancel_left h⟩
    | _ => cases hshape

theorem spellItems_append_inj : ∀ (fs gs : List Form) (close : Char) (r s : List Char),
    AllPlain (atomsOfItems fs) → AllPlain (atomsOfItems gs) → endsWord close = true →
    close ≠ ' ' → (spellItems fs).toList ++ close :: r = (spellItems gs).toList ++ close :: s →
    fs = gs ∧ r = s
  | [], [] => fun _ _ _ _ _ _ _ h => ⟨rfl, (List.cons.inj h).2⟩
  | [], g :: gs => by
    intro close r s _ hg hc _ h
    rw [spellItems_cons] at h
    exact absurd h (cons_ne_spelling (List.forall_mem_append.mp hg).1 hc _ _)
  | f :: fs, [] => by
    intro close r s hf _ hc _ h
    rw [spellItems_cons] at h
    exact absurd h.symm (cons_ne_spelling (List.forall_mem_append.mp hf).1 hc _ _)
  | f :: fs, g :: gs => by
    intro close r s hf hg hc hne h
    obtain ⟨hf, hfs⟩ := List.forall_mem_append.mp hf
    obtain ⟨hg, hgs⟩ := List.forall_mem_append.mp hg
    rw [spellItems_cons, spellItems_cons] at h
    obtain ⟨rfl, hbehind⟩ := spelling_append_inj f g _ _ hf hg (ended_behindItem fs hc r)
      (ended_behindItem gs hc s) h
    obtain ⟨rfl, hrest⟩ := behindItem_inj hne
      (spellItems_append_inj fs gs close r s hfs hgs hc hne) hbehind
    exact ⟨rfl, hrest⟩

theorem spellEntries_append_inj : ∀ (es es' : List (Form × Form)) (r s : List Char),
    AllPlain (atomsOfEntries es) → AllPlain (atomsOfEntries es') →
    (spellEntries es).toList ++ '\x7d' :: r = (spellEntries es').toList ++ '\x7d' :: s →
    es = es' ∧ r = s
  | [], [] => fun _ _ _ _ h => ⟨rfl, (List.cons.inj h).2⟩
  | [], (k, v) :: es => by
    intro r s _ he h
    obtain ⟨hk, -⟩ := List.forall_mem_append.mp (List.forall_mem_append.mp he).1
    rw [spellEntries_cons] at h
    exact absurd h (cons_ne_spelling hk rfl _ _)
  | (k, v) :: es, [] => by
    intro r s he _ h
    obtain ⟨hk, -⟩ := List.forall_mem_append.mp (List.forall_mem_append.mp he).1
    rw [spellEntries_cons] at h
    exact absurd h.symm (cons_ne_spelling hk rfl _ _)
  | (k, v) :: es, (k', v') :: es' => by
    intro r s he he' h
    obtain ⟨hkv, hes⟩ := List.forall_mem_append.mp he
    obtain ⟨hkv', hes'⟩ := List.forall_mem_append.mp he'
    obtain ⟨hk, hv⟩ := List.forall_mem_append.mp hkv
    obtain ⟨hk', hv'⟩ := List.forall_mem_append.mp hkv'
    rw [spellEntries_cons, spellEntries_cons] at h
    -- a space stands behind the key whatever follows, so key and value are read one after the other
    obtain ⟨rfl, hvalue⟩ := spelling_append_inj k k' _ _ hk hk' (ended_cons rfl _)
      (ended_cons rfl _) h
    obtain ⟨rfl, hbehind⟩ := spelling_append_inj v v' _ _ hv hv' (ended_behindEntry es r)
      (ended_behindEntry es' s) (List.cons.inj hvalue).2
    obtain ⟨rfl, hrest⟩ := behindEntry_inj
      (spellEntries_append_inj es es' r s hes hes') hbehind
    exact ⟨rfl, hrest⟩

end

/-- Among forms whose keywords and symbols have plain names, and with no symbol named like nil, the
    spelling determines the form: every constructor, every string and the order of all entries. -/
theorem spelling_eq_iff {t u : Form} (ht : AllPlain t.atoms) (hu : AllPlain u.atoms) :
    t.spelling = u.spelling ↔ t = u := by
  constructor
  · intro h
    exact (spelling_append_inj t u [] [] ht hu Text.ended_nil Text.ended_nil (by rw [h])).1
  · rintro rfl
    rfl

/-- A string that holds the rest of an entry, and the entries themselves. -/
theorem spelling_eq_iff_entries :
    spelling (.map [(.keyword "a", .str "x\", :b \"y")]) ≠
      spelling (.map [(.keyword "a", .str "x"), (.keyword "b", .str "y")]) := by
  intro h
  have hsame := (spelling_eq_iff (List.all_eq_true.mp (by decide +kernel))
    (List.all_eq_true.mp (by decide +kernel))).mp h
  simp at hsame

-- without the condition on names there are forms that only their constructors tell apart
example : spelling (.symbol "nil") = spelling .nil ∧
    spelling (.list [.symbol "a b"]) = spelling (.list [.symbol "a", .symbol "b"]) := by
  decide +kernel

end Form

end ScriptTree

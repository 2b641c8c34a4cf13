/-
  Blank text: the Unicode property White_Space, and what it means for a text to be blank or
  trimmed.

  Every decision of this library that asks "is there anything here?" (whether a rendered part is
  dropped, whether a joined script counts) asks it through `isBlank`, and every text that is
  cleaned up at its ends is cleaned by `trim`.  Both are defined on the characters of a text, so
  that they can be reasoned about as lists.
-/
namespace ScriptTree.Text

/-- The characters with the Unicode property White_Space, by code point. -/
def isWhite (c : Char) : Bool :=
  let n := c.toNat
  (0x09 ≤ n && n ≤ 0x0d) || n == 0x20 || n == 0x85 || n == 0xa0 || n == 0x1680 ||
    (0x2000 ≤ n && n ≤ 0x200a) || n == 0x2028 || n == 0x2029 || n == 0x202f || n == 0x205f ||
    n == 0x3000

/-- A list of characters without the white characters at either end. -/
def trimChars (cs : List Char) : List Char :=
  ((cs.dropWhile isWhite).reverse.dropWhile isWhite).reverse

/-- A text without the white characters at either end. -/
def trim (s : String) : String :=
  String.ofList (trimChars s.toList)

/-- A text is blank when it holds white characters only; the empty text is blank. -/
def isBlank (s : String) : Bool :=
  s.toList.all isWhite

/-- Whether the last character of a text is a newline. -/
def endsLine (s : String) : Bool :=
  s.toList.getLast? == some '\n'

/-- A text as a line of its own: nothing stays nothing, and anything else ends in a newline,
    which is added only if it is missing. -/
def asLine (s : String) : String :=
  if s = "" then "" else if endsLine s then s else s ++ "\n"

/-- A text without the newlines at its end. -/
def dropFinalNewlines (s : String) : String :=
  String.ofList (s.toList.reverse.dropWhile (· == '\n')).reverse

/-! ## Trimming -/

/-- Trimming takes blank texts off both ends and nothing else. -/
theorem exists_trim (s : String) : ∃ before after,
    s = before ++ trim s ++ after ∧ isBlank before = true ∧ isBlank after = true := by
  -- the text behind its first white characters, and what trimming leaves of it, reversed
  let tail := s.toList.dropWhile isWhite
  have hfront : s.toList.takeWhile isWhite ++ tail = s.toList := List.takeWhile_append_dropWhile
  have hback : (tail.reverse.dropWhile isWhite).reverse ++ (tail.reverse.takeWhile isWhite).reverse
      = tail := by
    rw [← List.reverse_append, List.takeWhile_append_dropWhile, List.reverse_reverse]
  refine ⟨String.ofList (s.toList.takeWhile isWhite),
    String.ofList (tail.reverse.takeWhile isWhite).reverse, ?_, ?_, ?_⟩
  · rw [← String.toList_inj]
    simp only [trim, trimChars, String.toList_append, String.toList_ofList, List.append_assoc]
    rw [hback, hfront]
  · simp [isBlank, List.all_takeWhile]
  · simp only [isBlank, String.toList_ofList, List.all_reverse]
    exact List.all_takeWhile

/-- Nothing is left of a blank text, and of no other. -/
theorem trim_eq_empty_iff {s : String} : trim s = "" ↔ isBlank s = true := by
  constructor
  · intro h
    obtain ⟨before, after, hs, hbefore, hafter⟩ := exists_trim s
    rw [hs, h]
    simp only [isBlank, String.toList_append, List.all_append] at hbefore hafter ⊢
    rw [hbefore, hafter]
    rfl
  · intro h
    have hdropped : (s.toList ++ []).dropWhile isWhite = [].dropWhile isWhite :=
      List.dropWhile_append_of_pos (List.all_eq_true.mp h)
    have hwhite : s.toList.dropWhile isWhite = [] := by simpa using hdropped
    simp [trim, trimChars, hwhite]

theorem length_trim_le (s : String) : (trim s).length ≤ s.length := by
  obtain ⟨before, after, hs, -, -⟩ := exists_trim s
  have hlength := congrArg String.length hs
  simp only [String.length_append] at hlength
  omega

/-- A text that trimming leaves as long as it was is left as it was. -/
theorem trim_eq_self_of_length {s : String} (h : (trim s).length = s.length) : trim s = s := by
  obtain ⟨before, after, hs, -, -⟩ := exists_trim s
  have hlength := congrArg String.length hs
  simp only [String.length_append] at hlength
  have hbefore : before = "" := String.length_eq_zero_iff.mp (by omega)
  have hafter : after = "" := String.length_eq_zero_iff.mp (by omega)
  rw [hbefore, hafter] at hs
  simpa using hs.symm

/-- A trimmed text does not end in a newline. -/
theorem endsLine_trim (s : String) : endsLine (trim s) = false := by
  have hlast := List.head?_dropWhile_not isWhite (s.toList.dropWhile isWhite).reverse
  unfold endsLine trim trimChars
  rw [String.toList_ofList, List.getLast?_reverse]
  cases hc : ((s.toList.dropWhile isWhite).reverse.dropWhile isWhite).head? with
  | none => rfl
  | some c =>
    rw [hc] at hlast
    have hne : c ≠ '\n' := by
      rintro rfl
      exact absurd hlast (by decide)
    simpa using hne

/-! ## What the definitions say on small texts -/

example : trim " \t a b \n" = "a b" := by decide
example : isBlank "\u3000\n" = true ∧ isBlank "\u200b" = false := by decide
example : asLine "" = "" ∧ asLine "x" = "x\n" ∧ asLine "x\n" = "x\n" := by decide
example : dropFinalNewlines "x\n\n" = "x" := by decide

end ScriptTree.Text

/-
  The parameters of a function and the arguments they are bound to.

  A function starts with one line for each parameter, which assigns to it the argument at its
  position.  The position is printed behind a bare dollar sign, and the shell reads a bare dollar
  sign together with one digit.  So what counts is the first digit of the position.

  1. `reference?` is how the shell reads such a word.
  2. A position printed in decimal starts with a digit, and has no other iff it is less than ten
     (`exists_first_digit`).  Hence the word for a position refers to the argument at its first
     digit, and the other digits are text behind it (`reference?_position`).
  3. The lines of the parameters are counted from one (`parameterLines_eq_ok`), so the first nine
     parameters get their own arguments, and the others do not.
-/
import Mathlib.Data.List.Forall2
import ScriptTree.Proofs.Success

namespace ScriptTree

/-! ## How the shell reads a reference -/

/-- A reference to a positional argument at the start of a word, and the text behind it. -/
structure Reference where
  position : Nat
  rest : String
  deriving DecidableEq, Repr

/-- What the shell makes of a word that starts with a dollar sign.  In braces it takes all digits,
    and without braces one; whatever follows is text. -/
def reference? (word : String) : Option Reference :=
  match word.toList with
  | '$' :: '\x7b' :: cs =>
    match cs.span Char.isDigit with
    | (d :: ds, '\x7d' :: rest) => some ⟨Nat.ofDigitChars 10 (d :: ds) 0, String.ofList rest⟩
    | _ => none
  | '$' :: c :: rest =>
    if c.isDigit then some ⟨Nat.ofDigitChars 10 [c] 0, String.ofList rest⟩ else none
  | _ => none

example : reference? "$1" = some ⟨1, ""⟩ ∧ reference? "$10" = some ⟨1, "0"⟩ := by decide
example : reference? "$\x7b10\x7d" = some ⟨10, ""⟩ := by decide

/-! ## Positions in decimal -/

/-- A number in decimal starts with a digit, and has no other iff it is less than ten. -/
theorem exists_first_digit (n : Nat) : ∃ d ds, d < 10 ∧ Nat.toDigits 10 n = Nat.digitChar d :: ds ∧
    (ds = [] ↔ n < 10) := by
  induction n using Nat.strongRecOn with
  | ind n ih =>
    by_cases hn : n < 10
    · exact ⟨n, [], hn, Nat.toDigits_of_lt_base hn, by simp [hn]⟩
    · obtain ⟨d, ds, hd, hdigits, -⟩ := ih (n / 10) (by omega)
      refine ⟨d, ds ++ [Nat.digitChar (n % 10)], hd, ?_, by simp [hn]⟩
      rw [Nat.toDigits_of_base_le (by decide) (by omega), hdigits, List.cons_append]

theorem reference?_digit {word : String} {c : Char} {cs : List Char} (hc : c.isDigit = true)
    (hword : word.toList = '$' :: c :: cs) :
    reference? word = some ⟨Nat.ofDigitChars 10 [c] 0, String.ofList cs⟩ := by
  unfold reference?
  split
  · next ds hbrace =>
    obtain ⟨-, rfl, -⟩ : '$' = '$' ∧ c = '\x7b' ∧ cs = ds := by
      simpa using hword.symm.trans hbrace
    exact absurd hc (by decide)
  · next c' cs' _ hplain =>
    obtain ⟨-, rfl, rfl⟩ : '$' = '$' ∧ c = c' ∧ cs = cs' := by simpa using hword.symm.trans hplain
    rw [if_pos hc]
  · next hother => exact absurd hword (hother c cs)

/-- A bare dollar sign before a position refers to the argument at its first digit, with the other
    digits as text behind it. -/
theorem reference?_position (n : Nat) : ∃ d rest, reference? ("$" ++ toString n) = some ⟨d, rest⟩ ∧
    toString n = toString d ++ rest ∧ (rest = "" ↔ n < 10) := by
  obtain ⟨d, ds, hd, hdigits, hrest⟩ := exists_first_digit n
  have hfirst : Nat.toDigits 10 d = [Nat.digitChar d] := Nat.toDigits_of_lt_base hd
  have hvalue : Nat.ofDigitChars 10 [Nat.digitChar d] 0 = d := by
    rw [← hfirst, Nat.ofDigitChars_ten_toDigits]
  have hmem : Nat.digitChar d ∈ Nat.toDigits 10 d := by simp [hfirst]
  have hdigit := Nat.isDigit_of_mem_toDigits (by decide) (by decide) hmem
  have hword : ("$" ++ toString n).toList = '$' :: Nat.digitChar d :: ds := by
    simp [hdigits]
  refine ⟨d, String.ofList ds, ?_, ?_, ?_⟩
  · rw [reference?_digit hdigit hword, hvalue]
  · rw [Nat.toString_eq_ofList_toDigits, hdigits, Nat.toString_eq_ofList_toDigits, hfirst,
      ← String.ofList_append, List.singleton_append]
  · rw [← hrest]
    simp

/-- It refers to the argument at the position itself iff the position has one digit. -/
theorem reference?_position_eq_iff (n : Nat) :
    reference? ("$" ++ toString n) = some ⟨n, ""⟩ ↔ n < 10 := by
  obtain ⟨d, rest, href, htext, hrest⟩ := reference?_position n
  rw [href, Option.some.injEq, Reference.mk.injEq]
  constructor
  · rintro ⟨-, hempty⟩
    exact hrest.mp hempty
  · intro hn
    have hempty := hrest.mpr hn
    rw [hempty, String.append_empty] at htext
    have hdigits : Nat.toDigits 10 n = Nat.toDigits 10 d := by
      simpa [Nat.toString_eq_ofList_toDigits] using congrArg String.toList htext
    refine ⟨?_, hempty⟩
    rw [← Nat.ofDigitChars_ten_toDigits (n := d), ← hdigits, Nat.ofDigitChars_ten_toDigits]

/-! ## The lines of the parameters -/

namespace Render

/-- A line that assigns a word to a name. -/
def assignmentLine (line : String × String) : String :=
  line.1 ++ "=" ++ line.2 ++ "\n"

/-- The lines of parameters counted from `i`: each assigns to the text of a parameter a bare dollar
    sign and the position. -/
theorem parameterLines_eq_ok {sub : Form → Rendering} {params : List Form} {i : Nat}
    {text : String} (h : parameterLines sub i params = .ok text) :
    ∃ lines : List (String × String), text = String.join (lines.map assignmentLine) ∧
      List.Forall₂ (fun p line => sub p = .ok line.1) params lines ∧
      ∀ k line, lines[k]? = some line → line.2 = "$" ++ toString (i + k) := by
  induction params generalizing i text with
  | nil => exact ⟨[], (Except.ok.inj h).symm, .nil, by simp⟩
  | cons p params ih =>
    obtain ⟨name, hname, rest, hrest, rfl⟩ : ∃ name, sub p = .ok name ∧
        ∃ rest, parameterLines sub (i + 1) params = .ok rest ∧
          name ++ "=$" ++ toString i ++ "\n" ++ rest = text := by
      simpa only [parameterLines, bind_eq_ok, pure_eq_ok] using h
    obtain ⟨lines, rfl, hparams, hwords⟩ := ih hrest
    refine ⟨(name, "$" ++ toString i) :: lines, ?_, .cons hname hparams, ?_⟩
    · rw [show "=$" = "=" ++ "$" from rfl]
      simp only [assignmentLine, List.map_cons, String.join_cons, String.append_assoc]
    · intro k line hline
      cases k with
      | zero =>
        obtain rfl : (name, "$" ++ toString i) = line := by simpa using hline
        rfl
      | succ k =>
        rw [hwords k line (by simpa using hline), Nat.add_right_comm, Nat.add_assoc]

/-- A function, with a name or without. -/
def functionForm (name? : Option String) (params body : List Form) : Form :=
  .call "defn" (name?.toList.map .symbol ++ .vector params :: body)

theorem emit_function (cx : Setting) (name? : Option String) (params body : List Form) :
    emit cx (functionForm name? params body) =
      functionWith (emit cx) ("function " ++ name?.getD "" ++ "() \x7b\n") params body := by
  rw [emit_eq]
  cases name? with
  | none => rfl
  | some name => rfl

/-- A function renders as one line for each parameter and then its statements.  The word in the
    line of a parameter refers to the argument at the first digit of its position, with the other
    digits as text behind it.  So a parameter is bound to its own argument iff it is one of the
    first nine, and all of them are iff there are no more than nine. -/
theorem render_function_binds (cx : Setting) (name? : Option String) (params body : List Form)
    (text : String) (h : render cx [functionForm name? params body] = .ok text) :
    ∃ (lines : List (String × String)) (rest : String),
      text = "function " ++ name?.getD "" ++ "() \x7b\n" ++
        String.join (lines.map assignmentLine) ++ rest ++ "\x7d\n" ∧
      List.Forall₂ (fun p line => emit cx p = .ok line.1) params lines ∧
      statements (emit cx) body = .ok rest ∧
      (∀ k line, lines[k]? = some line → ∃ d digits,
        reference? line.2 = some ⟨d, digits⟩ ∧ toString (k + 1) = toString d ++ digits) ∧
      (∀ k line, lines[k]? = some line →
        (reference? line.2 = some ⟨k + 1, ""⟩ ↔ k + 1 ≤ 9)) ∧
      ((∀ k line, lines[k]? = some line → reference? line.2 = some ⟨k + 1, ""⟩) ↔
        params.length ≤ 9) := by
  rw [render, mapError_eq_ok, emit_function] at h
  obtain ⟨head, hhead, rest, hrest, rfl⟩ : ∃ head, parameterLines (emit cx) 1 params = .ok head ∧
      ∃ rest, statements (emit cx) body = .ok rest ∧
        "function " ++ name?.getD "" ++ "() \x7b\n" ++ head ++ rest ++ "\x7d\n" = text := by
    simpa only [functionWith, bind_eq_ok, pure_eq_ok] using h
  obtain ⟨lines, rfl, hparams, hwords⟩ := parameterLines_eq_ok hhead
  have hown : ∀ k line, lines[k]? = some line →
      (reference? line.2 = some ⟨k + 1, ""⟩ ↔ k + 1 ≤ 9) := by
    intro k line hline
    rw [hwords k line hline, Nat.add_comm, reference?_position_eq_iff, Nat.lt_succ_iff]
  refine ⟨lines, rest, rfl, hparams, hrest, ?_, hown, ?_⟩
  · intro k line hline
    obtain ⟨d, digits, href, htext, -⟩ := reference?_position (k + 1)
    exact ⟨d, digits, by rw [hwords k line hline, Nat.add_comm, href], htext⟩
  · rw [hparams.length_eq]
    constructor
    · intro hall
      -- were there ten lines, the tenth would be bound to its own argument
      by_contra hlong
      have hline : lines[9]? = some lines[9] := List.getElem?_eq_getElem (by omega)
      have := (hown 9 _ hline).mp (hall 9 _ hline)
      omega
    · intro hshort k line hline
      have hk : k < lines.length := (List.getElem?_eq_some_iff.mp hline).1
      exact (hown k line hline).mpr (by omega)

/-- With ten parameters the last one gets the first argument and a zero behind it. -/
theorem render_function_binds_ten :
    let params := ["a", "b", "c", "d", "e", "f", "g", "h", "i", "j"].map Form.symbol
    let opening := "function f() \x7b\n"
    let text := opening ++ "a=$1\nb=$2\nc=$3\nd=$4\ne=$5\nf=$6\ng=$7\nh=$8\ni=$9\nj=$10\n\x7d\n"
    render Setting.plain [functionForm (some "f") params []] = .ok text ∧
    reference? "$10" = some ⟨1, "0"⟩ ∧
    ∃ (lines : List (String × String)) (rest : String),
      text = opening ++ String.join (lines.map assignmentLine) ++ rest ++ "\x7d\n" ∧
      ¬∀ k line, lines[k]? = some line → reference? line.2 = some ⟨k + 1, ""⟩ := by
  intro params opening text
  have htext : render Setting.plain [functionForm (some "f") params []] = .ok text :=
    eq_ok_of_toOption (by decide +kernel)
  obtain ⟨lines, rest, hlines, -, -, -, -, hall⟩ :=
    render_function_binds Setting.plain (some "f") params [] text htext
  exact ⟨htext, by decide, lines, rest, hlines, fun h => absurd (hall.mp h) (by decide)⟩

end Render

end ScriptTree

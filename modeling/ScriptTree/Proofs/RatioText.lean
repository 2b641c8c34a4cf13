/-
  The text of a ratio is a faithful plain decimal.

  A ratio is divided in binary64 and the quotient is written in decimal digits, so the text is not
  the value of the ratio.  It is still as good as the value: for parts of at most 2^53 the number
  that the text is read as and the exact quotient are rounded to the same binary64 number.

  1. The decimal that a number is written as rounds to this number (`decimalOf_isNearest`).  A
     whole number is written in full; the search for the shortest decimal takes a candidate only if
     it rounds back (`roundsTo_of_candidate`), and if it finds none it writes the exact value.

  2. Plain notation is a sign, digits, a point and digits, never an exponent, and reads as the
     decimal it was made of (`exists_plain`).  `PlainDecimal` holds such a text in parts.

  3. Both parts of a ratio are numbers of the format as long as they are at most 2^53, so division
     gives the nearest number to the exact quotient (`ratioValue_isNearest`).  Hence both the text
     and the quotient have this number as their nearest, and there is no second one
     (`ratio_faithful`).
-/
import Mathlib.Data.Nat.Cast.Field
import ScriptTree.Proofs.Rounding
import ScriptTree.Render.Atom

namespace ScriptTree

open Binary64

namespace Decimal

/-! ## Decimals that round back -/

/-- The value of a decimal. -/
def value (d : Decimal) : ℚ :=
  d.coefficient * (10 : ℚ) ^ d.exponent

theorem value_eq_fraction (d : Decimal) : d.value = (d.fraction.1 : ℚ) / d.fraction.2 := by
  rw [fraction, scale_div, value]
  simp

/-- The test of a candidate is what it says: the candidate rounds to the number. -/
theorem isNearest_of_roundsTo {d : Decimal} {x : Binary64} (h : d.roundsTo x = true) :
    IsNearest (sign x.negative * d.value) x := by
  have hpos : 0 < d.fraction.2 := scale_pos (by norm_num) one_pos _ _
  have hround := round_isNearest x.negative d.fraction.1 hpos
  rw [roundsTo, beq_iff_eq] at h
  rwa [h, ← value_eq_fraction] at hround

/-- A candidate is taken only if it rounds back. -/
theorem roundsTo_of_candidate {tie : Tie} {x : Binary64} {n : Nat} {d : Decimal}
    (h : candidate tie x n = some d) : d.roundsTo x = true := by
  unfold candidate at h
  dsimp only at h
  split at h
  · cases h
  · rename_i hbelow _
    cases h
    exact hbelow
  · rename_i _ habove
    cases h
    exact habove
  · -- both round back, whichever is taken
    rename_i hbelow habove
    split at h
    · cases h
      exact hbelow
    · split at h
      · cases h
        exact habove
      · cases tie with
        | up =>
          cases h
          exact habove
        | even =>
          dsimp only at h
          split at h
          · cases h
            exact hbelow
          · cases h
            exact habove

/-- A power of two below one is a decimal, since ten is twice five. -/
theorem value_exact (x : Binary64) : sign x.negative * (exact x).value = x.value := by
  obtain ⟨negative, m, e⟩ := x
  cases e with
  | ofNat k =>
    show (sign negative : ℚ) * ((m * Nat.pow 2 k : Nat) * (10 : ℚ) ^ (0 : ℤ)) =
      sign negative * (m * (2 : ℚ) ^ (k : ℤ))
    rw [Nat.cast_mul, Nat.pow_eq, Nat.cast_pow, zpow_zero, mul_one, zpow_natCast, Nat.cast_two]
  | negSucc k =>
    show (sign negative : ℚ) * ((m * Nat.pow 5 (k + 1) : Nat) * (10 : ℚ) ^ Int.negSucc k) =
      sign negative * (m * (2 : ℚ) ^ Int.negSucc k)
    have hten : (10 : ℚ) ^ (k + 1) = 5 ^ (k + 1) * 2 ^ (k + 1) := by
      rw [← mul_pow]
      norm_num
    rw [zpow_negSucc, zpow_negSucc, hten, Nat.pow_eq]
    push_cast
    field_simp

theorem shortest_isNearest (tie : Tie) {x : Binary64} (hx : x.Canonical) :
    IsNearest (sign x.negative * (shortest tie x).value) x := by
  unfold shortest
  split
  · rename_i hzero
    have hvalue : x.value = 0 := by
      rw [isZero, beq_iff_eq] at hzero
      rw [Binary64.value, hzero]
      simp
    have htarget : sign x.negative * Decimal.value ⟨0, 0⟩ = x.value := by
      rw [hvalue]
      simp [Decimal.value]
    exact htarget ▸ hx.isNearest_value
  · cases hfound : (List.range 17).findSome? fun n => candidate tie x (n + 1) with
    | none =>
      rw [Option.getD_none, value_exact]
      exact hx.isNearest_value
    | some d =>
      obtain ⟨n, -, hn⟩ := List.exists_of_findSome?_eq_some hfound
      exact isNearest_of_roundsTo (roundsTo_of_candidate hn)

end Decimal

/-! ## Plain notation -/

/-- A number text without an exponent: perhaps a minus sign, digits, a point, digits. -/
structure PlainDecimal where
  negative : Bool
  whole : List Char
  places : List Char
  whole_ne_nil : whole ≠ []
  places_ne_nil : places ≠ []
  isDigit_whole : ∀ c ∈ whole, c.isDigit = true
  isDigit_places : ∀ c ∈ places, c.isDigit = true

namespace PlainDecimal

/-- The text itself. -/
def text (p : PlainDecimal) : String :=
  String.ofList ((if p.negative then ['-'] else []) ++ p.whole ++ '.' :: p.places)

/-- The number that the text is read as. -/
def value (p : PlainDecimal) : ℚ :=
  sign p.negative *
    (Nat.ofDigitChars 10 p.whole 0 + Nat.ofDigitChars 10 p.places 0 / (10 : ℚ) ^ p.places.length)

/-- Digits with a point in front of the last `k`. -/
def pointed (negative : Bool) (ds : List Char) (k : Nat) (hk : 0 < k) (hlength : k < ds.length)
    (hds : ∀ c ∈ ds, c.isDigit = true) : PlainDecimal where
  negative := negative
  whole := ds.take (ds.length - k)
  places := ds.drop (ds.length - k)
  whole_ne_nil := List.ne_nil_of_length_pos (by rw [List.length_take]; omega)
  places_ne_nil := List.ne_nil_of_length_pos (by rw [List.length_drop]; omega)
  isDigit_whole c hc := hds c (List.mem_of_mem_take hc)
  isDigit_places c hc := hds c (List.mem_of_mem_drop hc)

theorem value_pointed {negative : Bool} {ds : List Char} {k : Nat} (hk : 0 < k)
    (hlength : k < ds.length) (hds : ∀ c ∈ ds, c.isDigit = true) :
    (pointed negative ds k hk hlength hds).value =
      sign negative * (Nat.ofDigitChars 10 ds 0 / (10 : ℚ) ^ k) := by
  have hsplit : Nat.ofDigitChars 10 ds 0 =
      10 ^ k * Nat.ofDigitChars 10 (ds.take (ds.length - k)) 0 +
        Nat.ofDigitChars 10 (ds.drop (ds.length - k)) 0 := by
    conv_lhs => rw [← List.take_append_drop (ds.length - k) ds]
    rw [Nat.ofDigitChars_append, Nat.ofDigitChars_eq_ofDigitChars_zero, List.length_drop]
    congr 3
    omega
  have hplaces : (ds.drop (ds.length - k)).length = k := by
    rw [List.length_drop]
    omega
  dsimp only [value, pointed]
  rw [hplaces, hsplit]
  push_cast
  field_simp

end PlainDecimal

/-- Plain notation is a text of that form, with the value of the decimal. -/
theorem Decimal.exists_plain (negative : Bool) (d : Decimal) :
    ∃ p : PlainDecimal, p.negative = negative ∧ p.value = sign negative * d.value ∧
      p.text = String.ofList (if negative then '-' :: d.positional else d.positional) := by
  have hcoefficient : Nat.ofDigitChars 10 d.digits 0 = d.coefficient :=
    Nat.ofDigitChars_ten_toDigits
  have hdigits : ∀ c ∈ d.digits, c.isDigit = true := fun c hc =>
    Nat.isDigit_of_mem_toDigits (by norm_num) (by norm_num) hc
  have hzeros (k : Nat) : ∀ c ∈ List.replicate k '0', c.isDigit = true := fun c hc => by
    rw [List.eq_of_mem_replicate hc]
    rfl
  cases he : d.exponent with
  | ofNat k =>
    -- zeros up to the point, and one behind it
    have hlength : 1 < (d.digits ++ List.replicate k '0' ++ ['0']).length := by
      have : 0 < d.digits.length := List.length_pos_iff.mpr Nat.toDigits_ne_nil
      simp only [List.length_append, List.length_singleton]
      omega
    refine ⟨.pointed negative (d.digits ++ List.replicate k '0' ++ ['0']) 1 one_pos hlength ?_, rfl,
      ?_, ?_⟩
    · simp only [List.forall_mem_append]
      exact ⟨⟨hdigits, hzeros k⟩, hzeros 1⟩
    · have hvalue : Nat.ofDigitChars 10 (d.digits ++ List.replicate k '0' ++ ['0']) 0 =
          d.coefficient * 10 ^ k * 10 := by
        rw [Nat.ofDigitChars_append, Nat.ofDigitChars_append, hcoefficient,
          Nat.ofDigitChars_replicate_zero, Nat.ofDigitChars_cons, Nat.ofDigitChars_nil,
          Nat.sub_self]
        ring
      rw [PlainDecimal.value_pointed, hvalue, Decimal.value, he, Int.ofNat_eq_natCast, zpow_natCast]
      push_cast
      ring
    · have hwhole : (d.digits ++ List.replicate k '0' ++ ['0']).length - 1 =
          (d.digits ++ List.replicate k '0').length := by
        simp
      rw [PlainDecimal.text, positional, he]
      dsimp only [PlainDecimal.pointed]
      rw [hwhole, List.take_left, List.drop_left]
      cases negative <;> simp
  | negSucc k =>
    -- zeros in front, so that a digit stands before the point
    have hlength :
        k + 1 < (List.replicate (k + 1 + 1 - d.digits.length) '0' ++ d.digits).length := by
      rw [List.length_append, List.length_replicate]
      omega
    refine ⟨.pointed negative (List.replicate (k + 1 + 1 - d.digits.length) '0' ++ d.digits)
      (k + 1) k.succ_pos hlength ?_, rfl, ?_, ?_⟩
    · simp only [List.forall_mem_append]
      exact ⟨hzeros _, hdigits⟩
    · rw [PlainDecimal.value_pointed, Nat.ofDigitChars_append, Nat.ofDigitChars_replicate_zero,
        mul_zero, hcoefficient, Decimal.value, he, zpow_negSucc, div_eq_mul_inv]
    · rw [PlainDecimal.text, positional, he]
      cases negative <;> rfl

/-- The decimal that a number is written as rounds to the number. -/
theorem Render.decimalOf_isNearest {x : Binary64} (hx : x.Canonical) :
    IsNearest (sign x.negative * (Render.decimalOf x).value) x := by
  unfold decimalOf
  split
  · rename_i hwhole
    rw [isWhole, beq_iff_eq] at hwhole
    have htarget : sign x.negative * Decimal.value ⟨x.fraction.1 / x.fraction.2, 0⟩ = x.value := by
      have hpos : (x.fraction.2 : ℚ) ≠ 0 := by exact_mod_cast x.fraction_pos.ne'
      rw [Binary64.value_eq_fraction, Decimal.value,
        Nat.cast_div (Nat.dvd_of_mod_eq_zero hwhole) hpos, zpow_zero, mul_one]
    exact htarget ▸ hx.isNearest_value
  · exact Decimal.shortest_isNearest .up hx

namespace Render

/-- The quotient of parts that the format holds exactly is the exact quotient, rounded once. -/
theorem ratioValue_isNearest {n d : Int64} (hn : n.toInt.natAbs ≤ 2 ^ 53)
    (hd : d.toInt.natAbs ≤ 2 ^ 53) (h0 : d ≠ 0) :
    IsNearest (n.toInt / d.toInt) (ratioValue n d) := by
  have hdenom : (ofInt d.toInt).value ≠ 0 := by
    rw [value_ofInt hd]
    exact_mod_cast fun hzero => h0 (Int64.toInt_inj.mp hzero)
  have hquotient := div_isNearest (ofInt n.toInt) hdenom
  rwa [value_ofInt hn, value_ofInt hd] at hquotient

theorem abs_quotient_le {n d : Int64} (hn : n.toInt.natAbs ≤ 2 ^ 53) (h0 : d ≠ 0) :
    |(n.toInt / d.toInt : ℚ)| ≤ 2 ^ 53 := by
  have hdenom : (1 : ℚ) ≤ |(d.toInt : ℚ)| := by
    exact_mod_cast Int.one_le_abs fun hzero => h0 (Int64.toInt_inj.mp hzero)
  rw [abs_div]
  exact (div_le_self (abs_nonneg _) hdenom).trans (abs_cast_le hn)

theorem negative_ratioValue (n d : Int64) :
    (ratioValue n d).negative = true ↔ Xor (n < 0) (d < 0) := by
  have hsign : (ratioValue n d).negative = (decide (n < 0) != decide (d < 0)) := by
    rw [ratioValue, Binary64.div, negative_round, negative_ofInt, negative_ofInt]
    simp only [Int64.lt_iff_toInt_lt, Int64.toInt_zero]
  rw [hsign]
  by_cases hn : n < 0 <;> by_cases hd : d < 0 <;> simp [hn, hd]

/-- A ratio of parts up to `2 ^ 53` is written as a plain decimal, with a minus sign iff exactly one
    of the parts is negative.  The text and the exact quotient have the same nearest binary64
    number, which is in range, and no other one. -/
theorem ratio_faithful {n d : Int64} (hn : n.toInt.natAbs ≤ 2 ^ 53)
    (hd : d.toInt.natAbs ≤ 2 ^ 53) (h0 : d ≠ 0) :
    ∃ p : PlainDecimal, atom (.ratio n d) = .ok p.text ∧
      (p.negative = true ↔ Xor (n < 0) (d < 0)) ∧
      ∃ x : Binary64, x.isFinite = true ∧ IsNearest p.value x ∧ IsNearest (n.toInt / d.toInt) x ∧
        ∀ y, IsNearest p.value y ∨ IsNearest (n.toInt / d.toInt) y → y.value = x.value := by
  have hexact := ratioValue_isNearest hn hd h0
  obtain ⟨p, hnegative, hvalue, htext⟩ :=
    (decimalOf (ratioValue n d)).exists_plain (ratioValue n d).negative
  have hwritten := decimalOf_isNearest hexact.canonical
  rw [← hvalue] at hwritten
  refine ⟨p, ?_, ?_, ratioValue n d, hexact.isFinite ?_, hwritten, hexact, ?_⟩
  · rw [atom, ratio, if_neg h0, decimalText, htext]
  · rw [hnegative]
    exact negative_ratioValue n d
  · exact abs_quotient_le hn h0
  · rintro y (hy | hy)
    · exact hy.value_unique hwritten
    · exact hy.value_unique hexact

/-- The smallest quotient, with the sign of its denominator. -/
theorem ratio_faithful_smallest :
    ∃ p : PlainDecimal, p.text = "-0.00000000000000011102230246251565" ∧ p.negative = true ∧
      ∃ x : Binary64, IsNearest p.value x ∧ IsNearest (1 / -9007199254740992) x := by
  obtain ⟨p, htext, hnegative, x, -, hp, hquotient, -⟩ :=
    ratio_faithful (n := 1) (d := -9007199254740992) (by decide) (by decide) (by decide)
  have hshown : (atom (.ratio 1 (-9007199254740992))).toOption =
      some "-0.00000000000000011102230246251565" := by decide +kernel
  rw [htext] at hshown
  refine ⟨p, Option.some.inj hshown, hnegative.mpr (by decide), x, hp, ?_⟩
  rw [show (1 : Int64).toInt = 1 by decide,
    show (-9007199254740992 : Int64).toInt = -9007199254740992 by decide] at hquotient
  exact_mod_cast hquotient

end Render

end ScriptTree

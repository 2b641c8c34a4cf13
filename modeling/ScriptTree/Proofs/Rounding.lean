/-
  Rounding gives the nearest number, a half going to the even one.

  What rounding means is said over the fractions, without a word of how it is computed
  (`IsNearest`): no number of the format is nearer to the fraction, and if another one is equally
  near, the significand is even.  The exponent has no upper bound here, as while computing; that a
  result is in range is a fact of its own (`IsNearest.isFinite`).

  1. `floorLog2` is the logarithm (`floorLog2_bounds`), so a fraction divided by the chosen power
     of two has 53 bits in front of the point, or fewer at the least exponent (`scaled_bounds`).

  2. `roundDiv` is the nearest integer (`nearestInt_roundDiv`); a second integer at the same
     distance is a neighbour of it and odd (`NearestInt.odd_of_tie`).

  3. The crux (`OnGrid.lt_or_multiple`): near the fraction all numbers are multiples of the chosen
     power of two.  A number that is none is below the end of the grid, and that end is itself a
     multiple and nearer.  So the nearest multiple is the nearest number (`OnGrid.isNearest`), and
     there is no second one, since it would be an odd multiple (`OnGrid.value_unique`).

  4. Integers up to 2^53 are not moved, and a quotient is the nearest number to the exact one.
-/
import Mathlib.Algebra.Order.Field.Power
import Mathlib.Algebra.Order.Field.Rat
import Mathlib.Algebra.Ring.Int.Parity
import Mathlib.Tactic.FieldSimp
import Mathlib.Tactic.Linarith
import Mathlib.Tactic.NormNum
import Mathlib.Tactic.Positivity
import Mathlib.Tactic.Ring
import ScriptTree.Decimal.Binary64

namespace ScriptTree.Binary64

/-! ## Values, and what rounding means -/

/-- A sign as a factor. -/
def sign (negative : Bool) : ℤ :=
  if negative then -1 else 1

/-- The number as a fraction; both zeros are 0. -/
def value (x : Binary64) : ℚ :=
  sign x.negative * (x.significand * (2 : ℚ) ^ x.exponent)

/-- The numbers of the format, each in one form only. -/
structure Canonical (x : Binary64) : Prop where
  significand_lt : x.significand < 2 ^ 53
  le_exponent : -1074 ≤ x.exponent
  full : 2 ^ 52 ≤ x.significand ∨ x.exponent = -1074

/-- `x` is the fraction `t` rounded to the nearest number, a half going to the even one. -/
structure IsNearest (t : ℚ) (x : Binary64) : Prop where
  canonical : x.Canonical
  closest : ∀ y : Binary64, y.Canonical → |t - x.value| ≤ |t - y.value|
  even_of_tie : ∀ y : Binary64, y.Canonical → |t - y.value| = |t - x.value| → y.value ≠ x.value →
    Even x.significand

theorem sign_bne (a b : Bool) : (sign (a != b) : ℚ) = sign a / sign b := by
  cases a <;> cases b <;> norm_num [sign]

theorem sign_mul_natAbs (n : ℤ) : (sign (decide (n < 0)) : ℚ) * n.natAbs = n := by
  rcases lt_or_ge n 0 with h | h
  · rw [decide_eq_true h, ← Int.cast_natCast n.natAbs, Int.ofNat_natAbs_of_nonpos h.le]
    simp [sign]
  · rw [decide_eq_false (not_lt.mpr h), ← Int.cast_natCast n.natAbs, Int.natAbs_of_nonneg h]
    simp [sign]

theorem abs_sign (negative : Bool) : |(sign negative : ℚ)| = 1 := by
  cases negative <;> simp [sign]

theorem abs_value (x : Binary64) : |x.value| = x.significand * (2 : ℚ) ^ x.exponent := by
  rw [value, abs_mul, abs_sign, one_mul, abs_of_nonneg (by positivity)]

/-! ## Scaling and logarithms -/

theorem scale_pos {base den : Nat} (hbase : 0 < base) (hden : 0 < den) (num : Nat) (e : Int) :
    0 < (scale base num den e).2 := by
  cases e with
  | ofNat k => exact hden
  | negSucc k => exact Nat.mul_pos hden (Nat.pow_pos hbase)

theorem scale_div (base num den : Nat) (e : Int) :
    ((scale base num den e).1 : ℚ) / (scale base num den e).2 = num / den * (base : ℚ) ^ e := by
  cases e with
  | ofNat k =>
    show ((num * Nat.pow base k : Nat) : ℚ) / den = num / den * (base : ℚ) ^ (k : ℤ)
    rw [zpow_natCast, Nat.cast_mul, Nat.pow_eq, Nat.cast_pow]
    ring
  | negSucc k =>
    show (num : ℚ) / (den * Nat.pow base (k + 1) : Nat) = num / den * (base : ℚ) ^ (Int.negSucc k)
    rw [zpow_negSucc, Nat.cast_mul, Nat.pow_eq, Nat.cast_pow]
    ring

/-- One comparison settles a guess that is right or one too large. -/
theorem settle_bounds {base num den : Nat} (hbase : 1 < base) (hden : 0 < den) {guess : Int}
    (hlow : (base : ℚ) ^ (guess - 1) ≤ num / den) (hhigh : (num / den : ℚ) < base ^ (guess + 1)) :
    (base : ℚ) ^ settle base num den guess ≤ num / den ∧
      (num / den : ℚ) < base ^ (settle base num den guess + 1) := by
  have hpos : (0 : ℚ) < (scale base num den (-guess)).2 := by
    exact_mod_cast scale_pos (by omega) hden num (-guess)
  have hiff : (scale base num den (-guess)).2 ≤ (scale base num den (-guess)).1 ↔
      (base : ℚ) ^ guess ≤ num / den := by
    rw [← Nat.cast_le (α := ℚ), ← one_le_div hpos, scale_div, zpow_neg, ← div_eq_mul_inv,
      one_le_div (by positivity)]
  unfold settle
  by_cases h : (scale base num den (-guess)).2 ≤ (scale base num den (-guess)).1
  · rw [if_pos h]
    exact ⟨hiff.mp h, hhigh⟩
  · rw [if_neg h, sub_add_cancel]
    exact ⟨hlow, not_le.mp fun hle => h (hiff.mpr hle)⟩

theorem floorLog2_bounds {num den : Nat} (hnum : 0 < num) (hden : 0 < den) :
    (2 : ℚ) ^ floorLog2 num den ≤ num / den ∧
      (num / den : ℚ) < 2 ^ (floorLog2 num den + 1) := by
  have hnumPos : (0 : ℚ) < num := by exact_mod_cast hnum
  have hdenPos : (0 : ℚ) < den := by exact_mod_cast hden
  have hnumLow : (2 : ℚ) ^ (num.log2 : ℤ) ≤ num := by
    rw [zpow_natCast]; exact_mod_cast Nat.log2_self_le hnum.ne'
  have hnumHigh : (num : ℚ) < 2 ^ ((num.log2 : ℤ) + 1) := by
    rw [← Nat.cast_succ, zpow_natCast]; exact_mod_cast Nat.lt_log2_self
  have hdenLow : (2 : ℚ) ^ (den.log2 : ℤ) ≤ den := by
    rw [zpow_natCast]; exact_mod_cast Nat.log2_self_le hden.ne'
  have hdenHigh : (den : ℚ) < 2 ^ ((den.log2 : ℤ) + 1) := by
    rw [← Nat.cast_succ, zpow_natCast]; exact_mod_cast Nat.lt_log2_self
  refine settle_bounds (by decide) hden ?_ ?_
  · rw [le_div_iff₀ hdenPos]
    calc ((2 : Nat) : ℚ) ^ ((num.log2 : ℤ) - den.log2 - 1) * den
        ≤ 2 ^ ((num.log2 : ℤ) - den.log2 - 1) * 2 ^ ((den.log2 : ℤ) + 1) := by
          push_cast; gcongr
      _ = 2 ^ (num.log2 : ℤ) := by rw [← zpow_add₀ two_ne_zero]; congr 1; ring
      _ ≤ num := hnumLow
  · rw [div_lt_iff₀ hdenPos]
    calc (num : ℚ) < 2 ^ ((num.log2 : ℤ) + 1) := hnumHigh
      _ = 2 ^ ((num.log2 : ℤ) - den.log2 + 1) * 2 ^ (den.log2 : ℤ) := by
          rw [← zpow_add₀ two_ne_zero]; congr 1; ring
      _ ≤ ((2 : Nat) : ℚ) ^ ((num.log2 : ℤ) - den.log2 + 1) * den := by
          push_cast; gcongr

/-! ## Rounding to an integer -/

/-- `m` is the integer nearest to `t`, the even one at a half. -/
structure NearestInt (t : ℚ) (m : ℤ) : Prop where
  half : |t - m| ≤ 1 / 2
  even : |t - m| = 1 / 2 → Even m

theorem nearestInt_roundDiv (num : Nat) {den : Nat} (hden : 0 < den) :
    NearestInt (num / den) (roundDiv num den) := by
  have hpos : (0 : ℚ) < den := by exact_mod_cast hden
  have hsplit : (num / den : ℚ) = (num / den : Nat) + (num % den : Nat) / den := by
    have hnum : (den : ℚ) * (num / den : Nat) + (num % den : Nat) = num := by
      exact_mod_cast Nat.div_add_mod num den
    rw [← hnum]
    field_simp
  have hrest : (0 : ℚ) ≤ (num % den : Nat) / den := by positivity
  -- the part behind the point, compared with a half, decides between the two neighbours
  have hle : (num % den : Nat) / (den : ℚ) ≤ 1 / 2 ↔ 2 * (num % den) ≤ den := by
    rw [div_le_div_iff₀ hpos two_pos, ← Nat.cast_le (α := ℚ)]
    push_cast
    constructor <;> intro h <;> linarith
  have heq : (num % den : Nat) / (den : ℚ) = 1 / 2 ↔ 2 * (num % den) = den := by
    rw [div_eq_div_iff hpos.ne' two_ne_zero, ← Nat.cast_inj (R := ℚ)]
    push_cast
    constructor <;> intro h <;> linarith
  have hlt : (num % den : Nat) / (den : ℚ) < 1 := by
    rw [div_lt_one hpos]
    exact_mod_cast Nat.mod_lt num hden
  unfold roundDiv
  split
  · rename_i hdown
    have hdist : |(num / den : ℚ) - ((num / den : Nat) : ℤ)| = (num % den : Nat) / den := by
      rw [hsplit, Int.cast_natCast, add_sub_cancel_left, abs_of_nonneg hrest]
    refine ⟨?_, ?_⟩
    · rw [hdist, hle]
      omega
    · rw [hdist, heq]
      intro h
      exact (Int.even_coe_nat _).mpr (Nat.even_iff.mpr (by omega))
  · rename_i hup
    have hdist : |(num / den : ℚ) - ((num / den + 1 : Nat) : ℤ)| = 1 - (num % den : Nat) / den := by
      rw [hsplit, Int.cast_natCast, Nat.cast_succ, abs_of_nonpos (by linarith)]
      ring
    have hge : ¬ (num % den : Nat) / (den : ℚ) < 1 / 2 := by
      intro h
      have h1 := hle.mp h.le
      have h2 : 2 * (num % den) ≠ den := fun h' => h.ne (heq.mpr h')
      omega
    refine ⟨?_, ?_⟩
    · rw [hdist]
      linarith
    · rw [hdist]
      intro h
      have h2 := heq.mp (by linarith)
      exact (Int.even_coe_nat _).mpr (Nat.even_iff.mpr (by omega))

theorem NearestInt.signed {t : ℚ} {m : ℤ} (h : NearestInt t m) (negative : Bool) :
    NearestInt (sign negative * t) (sign negative * m) := by
  have hdist : |sign negative * t - ((sign negative * m : ℤ) : ℚ)| = |t - m| := by
    rw [Int.cast_mul, ← mul_sub, abs_mul, abs_sign, one_mul]
  exact ⟨hdist ▸ h.half, fun he => (h.even (hdist ▸ he)).mul_left _⟩

theorem one_le_abs_sub {m j : ℤ} (h : j ≠ m) : (1 : ℚ) ≤ |(j : ℚ) - m| := by
  exact_mod_cast Int.one_le_abs (sub_ne_zero.mpr h)

theorem abs_sub_le_distances (t : ℚ) (m j : ℤ) : |(j : ℚ) - m| ≤ |t - j| + |t - m| := by
  rw [abs_sub_comm t j]
  exact abs_sub_le _ _ _

theorem NearestInt.le {t : ℚ} {m : ℤ} (h : NearestInt t m) (j : ℤ) : |t - m| ≤ |t - j| := by
  by_cases hj : j = m
  · rw [hj]
  · have hgap := one_le_abs_sub hj
    have htriangle := abs_sub_le_distances t m j
    have hhalf := h.half
    linarith

theorem NearestInt.le_of_le {t : ℚ} {m j : ℤ} (h : NearestInt t m) (hj : t ≤ j) : m ≤ j := by
  have hle := h.le j
  rw [abs_sub_comm t j, abs_of_nonneg (by linarith : (0 : ℚ) ≤ j - t)] at hle
  have := neg_abs_le (t - m)
  have hcast : (m : ℚ) ≤ j := by linarith
  exact_mod_cast hcast

theorem NearestInt.ge_of_ge {t : ℚ} {m j : ℤ} (h : NearestInt t m) (hj : j ≤ t) : j ≤ m := by
  have hle := h.le j
  rw [abs_of_nonneg (by linarith : (0 : ℚ) ≤ t - j)] at hle
  have := le_abs_self (t - m)
  have hcast : (j : ℚ) ≤ m := by linarith
  exact_mod_cast hcast

/-- A second integer at the same distance is a neighbour, and odd. -/
theorem NearestInt.odd_of_tie {t : ℚ} {m j : ℤ} (h : NearestInt t m) (hj : j ≠ m)
    (htie : |t - j| = |t - m|) : Even m ∧ Odd j := by
  have hgap := one_le_abs_sub hj
  have htriangle := abs_sub_le_distances t m j
  have hhalf := h.half
  have hm : Even m := h.even (by linarith)
  have hone : |j - m| = 1 := by
    have : |(j : ℚ) - m| = 1 := by linarith
    exact_mod_cast this
  refine ⟨hm, ?_⟩
  rw [Int.even_iff] at hm
  rw [Int.odd_iff]
  rcases abs_cases (j - m) with ⟨h1, _⟩ | ⟨h1, _⟩ <;> omega

/-! ## Numbers on a grid -/

/-- A number whose exponent is at least `q` is a multiple of `2 ^ q`, and an odd multiple only with
    an odd significand. -/
theorem exists_multiple {y : Binary64} {q : ℤ} (h : q ≤ y.exponent) :
    ∃ j : ℤ, y.value = j * (2 : ℚ) ^ q ∧ (Odd j → Odd y.significand) := by
  obtain ⟨k, hk⟩ := Int.le.dest h
  have hpow : (2 : ℚ) ^ y.exponent = 2 ^ k * 2 ^ q := by
    rw [← hk, zpow_add₀ two_ne_zero, zpow_natCast, mul_comm]
  refine ⟨sign y.negative * (y.significand * 2 ^ k), ?_, ?_⟩
  · rw [value, hpow]
    push_cast
    ring
  · intro hodd
    exact (Int.odd_coe_nat _).mp (Int.odd_mul.mp (Int.odd_mul.mp hodd).2).1

theorem Canonical.abs_value_lt {y : Binary64} (hy : y.Canonical) {q : ℤ} (h : y.exponent < q) :
    |y.value| < 2 ^ 52 * (2 : ℚ) ^ q := by
  have hsig : (y.significand : ℚ) < 2 ^ 53 := by exact_mod_cast hy.significand_lt
  have hpow : (2 : ℚ) ^ y.exponent ≤ 2 ^ (q - 1) := zpow_le_zpow_right₀ one_le_two (by omega)
  calc |y.value| = y.significand * (2 : ℚ) ^ y.exponent := abs_value y
    _ < 2 ^ 53 * (2 : ℚ) ^ y.exponent := by gcongr
    _ ≤ 2 ^ 53 * (2 : ℚ) ^ (q - 1) := by gcongr
    _ = 2 ^ 52 * (2 : ℚ) ^ q := by rw [zpow_sub_one₀ two_ne_zero]; ring

/-- `x` is `t` rounded to a multiple of `2 ^ q`, where the numbers near `t` are such multiples. -/
structure OnGrid (t : ℚ) (q m : ℤ) (x : Binary64) : Prop where
  canonical : x.Canonical
  value_eq : x.value = m * (2 : ℚ) ^ q
  nearest : NearestInt (t / (2 : ℚ) ^ q) m
  even : Even m → Even x.significand
  fine : q = -1074 ∨ 2 ^ 52 * (2 : ℚ) ^ q ≤ |t|

namespace OnGrid

variable {t : ℚ} {q m : ℤ} {x : Binary64}

theorem distance (t : ℚ) (q j : ℤ) :
    |t - j * (2 : ℚ) ^ q| = |t / (2 : ℚ) ^ q - j| * (2 : ℚ) ^ q := by
  have hpos : (0 : ℚ) < 2 ^ q := by positivity
  rw [← abs_of_pos hpos, ← abs_mul, abs_of_pos hpos, sub_mul, div_mul_cancel₀ _ hpos.ne']

theorem le_multiple (h : OnGrid t q m x) (j : ℤ) : |t - x.value| ≤ |t - j * (2 : ℚ) ^ q| := by
  rw [h.value_eq, distance, distance]
  have := h.nearest.le j
  gcongr

/-- Another number is a multiple of the same power of two, or it is farther away: below the
    grid there are smaller numbers only, and the end of the grid is between them and `t`. -/
theorem lt_or_multiple (h : OnGrid t q m x) {y : Binary64} (hy : y.Canonical) :
    |t - x.value| < |t - y.value| ∨
      ∃ j : ℤ, y.value = j * (2 : ℚ) ^ q ∧ (Odd j → Odd y.significand) := by
  rcases lt_or_ge y.exponent q with hlt | hge
  · left
    have hy0 := hy.le_exponent
    have hend : 2 ^ 52 * (2 : ℚ) ^ q ≤ |t| := h.fine.resolve_left (by omega)
    have hvalue := hy.abs_value_lt hlt
    have haway := abs_sub_abs_le_abs_sub t y.value
    -- the multiple at the end of the grid, on the side of `t`
    obtain ⟨j, hj⟩ : ∃ j : ℤ, |t - j * (2 : ℚ) ^ q| = |t| - 2 ^ 52 * (2 : ℚ) ^ q := by
      rcases le_total 0 t with ht | ht
      · rw [abs_of_nonneg ht] at hend ⊢
        refine ⟨2 ^ 52, ?_⟩
        push_cast
        exact abs_of_nonneg (by linarith)
      · rw [abs_of_nonpos ht] at hend ⊢
        refine ⟨-2 ^ 52, ?_⟩
        push_cast
        rw [abs_of_nonpos (by linarith)]
        ring
    have hle := h.le_multiple j
    linarith
  · exact .inr (exists_multiple hge)

theorem tie (h : OnGrid t q m x) {j : ℤ} (hne : (j : ℚ) * (2 : ℚ) ^ q ≠ x.value)
    (htie : |t - j * (2 : ℚ) ^ q| = |t - x.value|) : Even m ∧ Odd j := by
  have hpos : (0 : ℚ) < 2 ^ q := by positivity
  rw [h.value_eq] at hne
  rw [h.value_eq, distance, distance] at htie
  exact h.nearest.odd_of_tie (fun hj => hne (by rw [hj])) (mul_right_cancel₀ hpos.ne' htie)

theorem isNearest (h : OnGrid t q m x) : IsNearest t x where
  canonical := h.canonical
  closest y hy := by
    rcases h.lt_or_multiple hy with hlt | ⟨j, hj, -⟩
    · exact hlt.le
    · rw [hj]
      exact h.le_multiple j
  even_of_tie y hy htie hne := by
    rcases h.lt_or_multiple hy with hlt | ⟨j, hj, -⟩
    · exact absurd htie hlt.ne'
    · rw [hj] at htie hne
      exact h.even (h.tie hne htie).1

/-- There is no second number to round to. -/
theorem value_unique (h : OnGrid t q m x) {y : Binary64} (hy : IsNearest t y) :
    y.value = x.value := by
  by_contra hne
  have htie := le_antisymm (hy.closest x h.canonical) (h.isNearest.closest y hy.canonical)
  rcases h.lt_or_multiple hy.canonical with hlt | ⟨j, hj, hodd⟩
  · exact hlt.ne' htie
  · have heven := hy.even_of_tie x h.canonical htie.symm (Ne.symm hne)
    rw [hj] at htie hne
    exact Nat.not_even_iff_odd.mpr (hodd (h.tie hne htie).2) heven

/-- A multiple is not moved. -/
theorem value_eq_self (h : OnGrid t q m x) {j : ℤ} (ht : t = j * (2 : ℚ) ^ q) : x.value = t := by
  have hle := h.le_multiple j
  rw [← ht, sub_self, abs_zero] at hle
  exact (sub_eq_zero.mp (abs_nonpos_iff.mp hle)).symm

end OnGrid

/-! ## Rounding a fraction -/

/-- The exponent that rounding chooses leaves room for 53 bits in front of the point, and uses all
    of them unless it is the least one. -/
theorem scaled_bounds {num den : Nat} (hnum : 0 < num) (hden : 0 < den) {q : ℤ}
    (hq : q = max (floorLog2 num den - 52) (-1074)) :
    (num / den : ℚ) * 2 ^ (-q) < 2 ^ 53 ∧ (q = -1074 ∨ 2 ^ 52 ≤ (num / den : ℚ) * 2 ^ (-q)) := by
  obtain ⟨hlow, hhigh⟩ := floorLog2_bounds hnum hden
  have hpos : (0 : ℚ) < 2 ^ (-q) := by positivity
  refine ⟨?_, ?_⟩
  · calc (num / den : ℚ) * 2 ^ (-q) < 2 ^ (floorLog2 num den + 1) * 2 ^ (-q) := by gcongr
      _ = 2 ^ (floorLog2 num den + 1 - q) := by rw [← zpow_add₀ two_ne_zero, sub_eq_add_neg]
      _ ≤ 2 ^ (53 : ℤ) := zpow_le_zpow_right₀ one_le_two (by omega)
      _ = 2 ^ 53 := by norm_num
  · rcases le_total (floorLog2 num den - 52) (-1074) with h | h
    · exact .inl (by omega)
    · right
      calc (2 ^ 52 : ℚ) = 2 ^ (floorLog2 num den - q) := by
            rw [show floorLog2 num den - q = 52 by omega]; norm_num
        _ = 2 ^ floorLog2 num den * 2 ^ (-q) := by rw [← zpow_add₀ two_ne_zero, sub_eq_add_neg]
        _ ≤ num / den * 2 ^ (-q) := by gcongr

/-- The number `m * 2 ^ q` for a significand of at most `2 ^ 53`, which carries. -/
def pack (negative : Bool) (m : Nat) (q : ℤ) : Binary64 :=
  if m = 2 ^ 53 then ⟨negative, 2 ^ 52, q + 1⟩ else ⟨negative, m, q⟩

section Pack

variable (negative : Bool) {m : Nat} {q : ℤ}

theorem pack_canonical (hq : -1074 ≤ q) (hmax : m ≤ 2 ^ 53) (hfull : 2 ^ 52 ≤ m ∨ q = -1074) :
    (pack negative m q).Canonical := by
  unfold pack
  split
  · exact ⟨show 2 ^ 52 < 2 ^ 53 by norm_num, show -1074 ≤ q + 1 by omega, .inl le_rfl⟩
  · exact ⟨show m < 2 ^ 53 by omega, hq, hfull⟩

theorem value_pack : (pack negative m q).value = (sign negative * m : ℤ) * (2 : ℚ) ^ q := by
  unfold pack
  split
  · rename_i hcarry
    rw [value, hcarry, zpow_add_one₀ two_ne_zero]
    push_cast
    ring
  · rw [value]
    push_cast
    ring

theorem even_pack (h : Even (sign negative * m)) : Even (pack negative m q).significand := by
  unfold pack
  split
  · exact ⟨2 ^ 51, by norm_num⟩
  · have hsign : ¬ Even (sign negative) := by cases negative <;> decide
    exact (Int.even_coe_nat m).mp ((Int.even_mul.mp h).resolve_left hsign)

end Pack

theorem round_eq_pack {negative : Bool} {num den m : Nat} {q : ℤ} (hnum : num ≠ 0)
    (hq : q = max (floorLog2 num den - 52) (-1074))
    (hm : m = roundDiv (scale 2 num den (-q)).1 (scale 2 num den (-q)).2) :
    round negative num den = pack negative m q := by
  rw [hm, hq, round, if_neg hnum]
  rfl

/-- The grid on which a fraction is rounded. -/
theorem round_onGrid (negative : Bool) (num : Nat) {den : Nat} (hden : 0 < den) :
    ∃ q m, OnGrid (sign negative * (num / den)) q m (round negative num den) := by
  by_cases hzero : num = 0
  · rw [round, if_pos hzero, hzero]
    refine ⟨-1074, 0, ⟨Nat.two_pow_pos 53, le_rfl, .inr rfl⟩, ?_, ⟨?_, ?_⟩, fun _ => Even.zero,
      .inl rfl⟩
    · simp [value]
    · simp
    · simp
  · generalize hq : max (floorLog2 num den - 52) (-1074) = q
    generalize hm : roundDiv (scale 2 num den (-q)).1 (scale 2 num den (-q)).2 = m
    rw [round_eq_pack hzero hq.symm hm.symm]
    obtain ⟨hhigh, hlow⟩ := scaled_bounds (Nat.pos_of_ne_zero hzero) hden hq.symm
    have hnearest : NearestInt (num / den * 2 ^ (-q)) m := by
      rw [← hm, ← Nat.cast_two, ← scale_div]
      exact nearestInt_roundDiv _ (scale_pos two_pos hden num (-q))
    have hmax : (m : ℤ) ≤ 2 ^ 53 := hnearest.le_of_le (by push_cast; exact hhigh.le)
    have hfull : (2 : ℤ) ^ 52 ≤ m ∨ q = -1074 :=
      hlow.symm.imp_left fun h => hnearest.ge_of_ge (by push_cast; exact h)
    refine ⟨q, sign negative * m, ?_, value_pack negative, ?_, even_pack negative, ?_⟩
    · exact pack_canonical negative (by omega) (by omega) (by omega)
    · rw [div_eq_mul_inv, mul_assoc, ← zpow_neg]
      exact hnearest.signed negative
    · refine hlow.imp_right fun h => ?_
      rw [abs_mul, abs_sign, one_mul, abs_of_nonneg (by positivity)]
      rwa [zpow_neg, ← div_eq_mul_inv, le_div_iff₀ (by positivity)] at h

/-- Rounding gives the nearest number. -/
theorem round_isNearest (negative : Bool) (num : Nat) {den : Nat} (hden : 0 < den) :
    IsNearest (sign negative * (num / den)) (round negative num den) := by
  obtain ⟨q, m, h⟩ := round_onGrid negative num hden
  exact h.isNearest

/-- A fraction is rounded to one number only. -/
theorem IsNearest.value_unique {t : ℚ} {x y : Binary64} (hx : IsNearest t x) (hy : IsNearest t y) :
    x.value = y.value := by
  obtain ⟨q, m, h⟩ := round_onGrid (decide (t.num < 0)) t.num.natAbs t.den_pos
  have ht : (sign (decide (t.num < 0)) : ℚ) * (t.num.natAbs / t.den) = t := by
    rw [← mul_div_assoc, sign_mul_natAbs, Rat.num_div_den]
  rw [ht] at h
  rw [h.value_unique hx, h.value_unique hy]

/-- A number of the format is not moved. -/
theorem Canonical.isNearest_value {x : Binary64} (hx : x.Canonical) : IsNearest x.value x where
  canonical := hx
  closest y _ := by
    rw [sub_self, abs_zero]
    exact abs_nonneg _
  even_of_tie y _ htie hne := by
    rw [sub_self, abs_zero, abs_eq_zero, sub_eq_zero] at htie
    exact absurd htie.symm hne

/-- What is rounded moves by no more than its distance from zero, so it stays in range. -/
theorem IsNearest.isFinite {t : ℚ} {x : Binary64} (h : IsNearest t x) (ht : |t| ≤ 2 ^ 53) :
    x.isFinite = true := by
  have hzero := h.closest ⟨false, 0, -1074⟩ ⟨Nat.two_pow_pos 53, le_rfl, .inr rfl⟩
  rw [show value ⟨false, 0, -1074⟩ = 0 by simp [value], sub_zero] at hzero
  have hvalue : |x.value| ≤ 2 ^ 54 := by
    have := abs_sub_abs_le_abs_sub x.value t
    rw [abs_sub_comm] at this
    linarith
  by_contra hlarge
  have hexp : 971 < x.exponent := by simpa [Binary64.isFinite] using hlarge
  have hfull : (2 : ℚ) ^ 52 ≤ x.significand := by
    exact_mod_cast h.canonical.full.resolve_right (by omega)
  have hpow : (2 : ℚ) ^ (3 : ℤ) ≤ 2 ^ x.exponent := zpow_le_zpow_right₀ one_le_two (by omega)
  have hprod : (2 : ℚ) ^ 52 * 2 ^ (3 : ℤ) ≤ x.significand * 2 ^ x.exponent := by gcongr
  rw [← abs_value] at hprod
  norm_num at hprod hvalue
  linarith

/-! ## Integers and quotients -/

theorem fraction_pos (x : Binary64) : 0 < x.fraction.2 :=
  scale_pos two_pos one_pos _ _

theorem value_eq_fraction (x : Binary64) :
    x.value = sign x.negative * ((x.fraction.1 : ℚ) / x.fraction.2) := by
  rw [fraction, scale_div, value]
  simp

theorem negative_round (negative : Bool) (num den : Nat) :
    (round negative num den).negative = negative := by
  unfold round
  dsimp only
  split
  · rfl
  · split <;> rfl

theorem abs_cast_le {n : ℤ} (h : n.natAbs ≤ 2 ^ 53) : |(n : ℚ)| ≤ 2 ^ 53 := by
  rw [← Int.cast_abs, Int.abs_eq_natAbs]
  exact_mod_cast h

/-- Integers up to `2 ^ 53` are numbers of the format. -/
theorem value_ofInt {n : ℤ} (h : n.natAbs ≤ 2 ^ 53) : (ofInt n).value = n := by
  obtain ⟨q, m, hgrid⟩ := round_onGrid (decide (n < 0)) n.natAbs one_pos
  rw [Nat.cast_one, div_one, sign_mul_natAbs] at hgrid
  suffices hmultiple : ∃ j : ℤ, (n : ℚ) = j * (2 : ℚ) ^ q by
    obtain ⟨j, hj⟩ := hmultiple
    exact hgrid.value_eq_self hj
  rcases le_or_gt q 0 with hq | hq
  · -- on a grid of fractions every integer lies
    obtain ⟨k, hk⟩ := Int.le.dest hq
    refine ⟨n * 2 ^ k, ?_⟩
    push_cast
    rw [mul_assoc, ← zpow_natCast, ← zpow_add₀ two_ne_zero, add_comm (k : ℤ) q, hk, zpow_zero,
      mul_one]
  · -- a coarser grid is taken for the last of them only
    have hle := abs_cast_le h
    have hpow : (2 : ℚ) ^ (1 : ℤ) ≤ 2 ^ q := zpow_le_zpow_right₀ one_le_two (by omega)
    have hge := hgrid.fine.resolve_left (by omega)
    have heq : |(n : ℚ)| = 2 ^ 52 * 2 ^ q := by
      refine le_antisymm ?_ hge
      rw [zpow_one] at hpow
      linarith
    rcases abs_choice (n : ℚ) with habs | habs
    · refine ⟨2 ^ 52, ?_⟩
      rw [← habs, heq]
      push_cast
      rfl
    · refine ⟨-2 ^ 52, ?_⟩
      rw [← neg_eq_iff_eq_neg.mpr habs, heq]
      push_cast
      ring

theorem negative_ofInt (n : ℤ) : (ofInt n).negative = decide (n < 0) :=
  negative_round _ _ _

/-- Division gives the nearest number to the exact quotient. -/
theorem div_isNearest (x : Binary64) {y : Binary64} (hy : y.value ≠ 0) :
    IsNearest (x.value / y.value) (x.div y) := by
  have hy1 : 0 < y.fraction.1 := by
    refine Nat.pos_of_ne_zero fun hzero => hy ?_
    rw [value_eq_fraction, hzero]
    simp
  have hround := round_isNearest (x.negative != y.negative) (x.fraction.1 * y.fraction.2)
    (Nat.mul_pos x.fraction_pos hy1)
  rw [value_eq_fraction x, value_eq_fraction y, mul_div_mul_comm, div_div_div_eq, ← sign_bne]
  rw [Nat.cast_mul, Nat.cast_mul] at hround
  exact hround

end ScriptTree.Binary64

import Mathlib.Algebra.Order.Field.Power
import Mathlib.Algebra.Order.Ring.Rat
import Mathlib.Data.List.DropRight
import Mathlib.Tactic.Linarith
import Mathlib.Tactic.NormNum
import Mathlib.Tactic.Positivity
import PatternHooks.Number.Shortest
import PatternHooks.Proofs.DigitText

/-!
The search for the shortest digits of a number always finds some. The power of ten that it starts
from is at most ten times too large, and there the grid of eighteen digits is finer than the numbers
of double precision are apart.
-/

namespace PatternHooks.ShortestDigits

open Binary64 DigitText Text

section Powers

theorem ten_zpow_eq (g : ℤ) : (10 : ℚ) ^ g = 10 ^ g.toNat / 10 ^ (-g).toNat := by
  rw [eq_div_iff (by positivity), ← zpow_natCast, ← zpow_natCast, ← zpow_add₀ (by norm_num)]
  congr 1
  omega

/-- A comparison with a power of ten, in whole numbers. -/
theorem mul_lt_mul_iff (a b : ℕ) (g : ℤ) :
    a * 10 ^ (-g).toNat < b * 10 ^ g.toNat ↔ (a : ℚ) < b * 10 ^ g := by
  rw [ten_zpow_eq, mul_div_assoc', lt_div_iff₀ (by positivity)]
  exact_mod_cast Iff.rfl

theorem mul_gt_mul_iff (a b : ℕ) (g : ℤ) :
    b * 10 ^ g.toNat < a * 10 ^ (-g).toNat ↔ (b : ℚ) * 10 ^ g < a := by
  rw [ten_zpow_eq, mul_div_assoc', div_lt_iff₀ (by positivity)]
  exact_mod_cast Iff.rfl

theorem scale_up (a : ℕ) (g : ℤ) :
    (if 0 ≤ g then a * Nat.pow 10 g.toNat else a) = a * 10 ^ g.toNat := by
  split
  · rfl
  · rw [Int.toNat_of_nonpos (by omega), pow_zero, mul_one]

theorem scale_down (a : ℕ) (g : ℤ) :
    (if 0 ≤ g then a else a * Nat.pow 10 (-g).toNat) = a * 10 ^ (-g).toNat := by
  split
  · rw [Int.toNat_of_nonpos (by omega), pow_zero, mul_one]
  · rfl

/-- Fifty-nine decimal digits are at most 196 bits, and 93 bits at most 28 digits. -/
theorem ten_zpow_le_two_zpow {a b : ℤ} (hup : 0 ≤ a → 196 * a ≤ 59 * b)
    (hdown : a < 0 → 93 * a ≤ 28 * b) : (10 : ℚ) ^ a ≤ 2 ^ b := by
  by_cases ha : 0 ≤ a
  · have hab := hup ha
    obtain ⟨a, rfl⟩ := Int.eq_ofNat_of_zero_le ha
    obtain ⟨b, rfl⟩ := Int.eq_ofNat_of_zero_le (show 0 ≤ b by omega)
    rw [zpow_natCast, zpow_natCast, ← pow_le_pow_iff_left₀ (by positivity) (by positivity)
      (show 59 ≠ 0 by decide)]
    calc ((10 : ℚ) ^ a) ^ 59 = (10 ^ 59) ^ a := pow_right_comm _ _ _
      _ ≤ (2 ^ 196) ^ a := by gcongr; norm_num
      _ = 2 ^ (196 * a) := (pow_mul _ _ _).symm
      _ ≤ 2 ^ (b * 59) := pow_le_pow_right₀ (by norm_num) (by omega)
      _ = (2 ^ b) ^ 59 := pow_mul _ _ _
  · have hab := hdown (not_le.mp ha)
    obtain ⟨a, rfl⟩ : ∃ n : ℕ, a = -n := ⟨(-a).toNat, by omega⟩
    have hone : (10 : ℚ) ^ (-a : ℤ) ≤ 1 := by
      exact zpow_le_one_of_nonpos₀ (by norm_num) (by omega)
    by_cases hb : 0 ≤ b
    · exact hone.trans (one_le_zpow₀ (by norm_num) hb)
    obtain ⟨b, rfl⟩ : ∃ n : ℕ, b = -n := ⟨(-b).toNat, by omega⟩
    rw [zpow_neg, zpow_neg, zpow_natCast, zpow_natCast,
      inv_le_inv₀ (by positivity) (by positivity),
      ← pow_le_pow_iff_left₀ (by positivity) (by positivity) (show 28 ≠ 0 by decide)]
    calc ((2 : ℚ) ^ b) ^ 28 = 2 ^ (b * 28) := (pow_mul _ _ _).symm
      _ ≤ 2 ^ (93 * a) := pow_le_pow_right₀ (by norm_num) (by omega)
      _ = (2 ^ 93) ^ a := pow_mul _ _ _
      _ ≤ (10 ^ 28) ^ a := by gcongr; norm_num
      _ = (10 ^ a) ^ 28 := pow_right_comm _ _ _

end Powers

section Magnitude
variable {num den : ℕ}

theorem magnitudeFrom_succ (num den fuel : ℕ) (k : ℤ) :
    magnitudeFrom num den (fuel + 1) k = if num * 10 ^ (-k).toNat < den * 10 ^ k.toNat then k
      else magnitudeFrom num den fuel (k + 1) := by
  by_cases hk : 0 ≤ k
  · have hdown : (-k).toNat = 0 := by omega
    simp [magnitudeFrom, hk, hdown]
  · have hup : k.toNat = 0 := by omega
    simp [magnitudeFrom, hk, hup]

theorem magnitudeFrom_le (fuel : ℕ) {k : ℤ} (h : den * (10 : ℚ) ^ (k - 1) ≤ num) :
    den * (10 : ℚ) ^ (magnitudeFrom num den fuel k - 1) ≤ num := by
  induction fuel generalizing k with
  | zero => exact h
  | succ fuel ih =>
    rw [magnitudeFrom_succ]
    split
    · exact h
    · rename_i hnot
      refine ih ?_
      rw [add_sub_cancel_right]
      exact not_lt.mp fun hlt => hnot ((mul_lt_mul_iff num den k).mpr hlt)

/-- The magnitude of a ratio is not too large, by the bits of its two numbers. -/
theorem magnitude_le (hnum : num ≠ 0) (hlog : num.log2 ≤ 2000) (hlog' : den.log2 ≤ 2000) :
    den * (10 : ℚ) ^ (magnitude num den - 1) ≤ num := by
  refine magnitudeFrom_le 8 ?_
  have hden : (den : ℚ) ≤ 2 ^ ((den.log2 : ℤ) + 1) := by
    exact_mod_cast (Nat.lt_log2_self (n := den)).le
  have hbits : (2 : ℚ) ^ (num.log2 : ℤ) ≤ num := by
    exact_mod_cast Nat.log2_self_le hnum
  have hpower : (10 : ℚ) ^ (((num.log2 : ℤ) - den.log2) * 30103 / 100000 - 2 - 1) ≤
      2 ^ ((num.log2 : ℤ) - den.log2 - 1) := by
    refine ten_zpow_le_two_zpow ?_ ?_
    all_goals omega
  calc den * (10 : ℚ) ^ (((num.log2 : ℤ) - den.log2) * 30103 / 100000 - 2 - 1)
      ≤ 2 ^ ((den.log2 : ℤ) + 1) * 2 ^ ((num.log2 : ℤ) - den.log2 - 1) := by gcongr
    _ = 2 ^ (num.log2 : ℤ) := by
      rw [← zpow_add₀ (by norm_num)]
      congr 1
      omega
    _ ≤ num := hbits

end Magnitude

section Grid
variable {c : Cell} {tie : Tie} {g : ℤ} {p : ℕ}

/-- Whatever lies strictly between the ends lies in the cell. -/
theorem holds_of_lt (hlow : (c.low : ℚ) < p * c.den * 10 ^ g)
    (hhigh : p * c.den * (10 : ℚ) ^ g < c.high) : c.holds p g = true := by
  have hup : (if 0 ≤ g then p * Nat.pow 10 g.toNat * c.den else p * c.den) =
      p * c.den * 10 ^ g.toNat := by
    rw [← scale_up, Nat.mul_right_comm]
  have hdown : (if 0 ≤ g then 1 else Nat.pow 10 (-g).toNat) = 10 ^ (-g).toNat := by
    rw [← one_mul (10 ^ (-g).toNat), ← scale_down, one_mul]
  have hlow' := (mul_lt_mul_iff c.low (p * c.den) g).mpr (by exact_mod_cast hlow)
  have hhigh' := (mul_gt_mul_iff c.high (p * c.den) g).mpr (by exact_mod_cast hhigh)
  simp only [Cell.holds, hup, hdown, hlow', hhigh', hlow'.le, hhigh'.le, decide_true,
    Bool.and_self, ite_self]

/-- A point that stands for the cell is not zero. -/
theorem onGrid?_ne_zero (h : c.onGrid? tie g = some p) : p ≠ 0 := by
  simp only [Cell.onGrid?, scale_up, scale_down] at h
  generalize c.value * 10 ^ (-g).toNat / (c.den * 10 ^ g.toNat) = q at h
  split at h
  · rename_i hq _
    have hne : q ≠ 0 := by simpa using (Bool.and_eq_true_iff.mp hq).2
    split at h
    all_goals
      obtain rfl := Option.some.inj h
      omega
  · rename_i hq _
    obtain rfl := Option.some.inj h
    simpa using (Bool.and_eq_true_iff.mp hq).2
  · obtain rfl := Option.some.inj h
    exact Nat.succ_ne_zero q
  · cases h

/-- A grid that is finer than the value is above the lower end has a point in the cell. -/
theorem exists_onGrid? (tie : Tie) (hden : 0 < c.den) (hpoint : c.den * (10 : ℚ) ^ g ≤ c.value)
    (hlow : c.low + c.den * (10 : ℚ) ^ g ≤ c.value) (hhigh : c.value < c.high) :
    ∃ p, c.onGrid? tie g = some p := by
  have hstep : 0 < c.den * 10 ^ g.toNat := by positivity
  obtain ⟨p, hp⟩ : ∃ p, p = c.value * 10 ^ (-g).toNat / (c.den * 10 ^ g.toNat) := ⟨_, rfl⟩
  have hle : p * c.den * (10 : ℚ) ^ g ≤ c.value := by
    refine not_lt.mp fun hlt => ?_
    have hlt' := (mul_lt_mul_iff c.value (p * c.den) g).mpr (by exact_mod_cast hlt)
    rw [hp, mul_assoc] at hlt'
    exact absurd (Nat.div_mul_le_self _ _) (not_le.mpr hlt')
  have hgt : (c.value : ℚ) < (p + 1) * c.den * 10 ^ g := by
    have hlt := Nat.lt_div_mul_add hstep (a := c.value * 10 ^ (-g).toNat)
    rw [← hp, ← Nat.succ_mul, ← mul_assoc] at hlt
    exact_mod_cast (mul_lt_mul_iff c.value ((p + 1) * c.den) g).mp hlt
  have hne : p ≠ 0 := by
    rintro rfl
    rw [Nat.cast_zero, zero_add, one_mul] at hgt
    linarith
  have hholds : c.holds p g = true := by
    refine holds_of_lt ?_ ?_
    · rw [add_mul, add_mul, one_mul] at hgt
      linarith
    · exact hle.trans_lt (by exact_mod_cast hhigh)
  have hpoint : (c.holds p g && p != 0) = true := by simp [hholds, hne]
  simp only [Cell.onGrid?, scale_up, scale_down, ← hp, hpoint]
  split
  · exact ⟨_, rfl⟩
  · exact ⟨_, rfl⟩
  · rename_i hfalse _
    cases hfalse
  · rename_i hfalse _
    cases hfalse

end Grid

/-- The bounds of double precision. -/
def Double : Binary64 → Prop
  | .finite _ m e => m < 2 ^ 53 ∧ -1074 ≤ e ∧ e ≤ 971
  | _ => True

section Search
variable {m : ℕ} {e : ℤ}

theorem ratio_one (e : ℤ) : ratio 1 e = (2 ^ e.toNat, 2 ^ (-e).toNat) := by
  by_cases he : 0 ≤ e
  · have hdown : (-e).toNat = 0 := by omega
    simp [ratio, he, hdown]
  · have hup : e.toNat = 0 := by omega
    simp [ratio, he, hup]

/-- The number is a quarter of a unit in its last place above the lower end of its cell, at
least. -/
theorem low_le (hm : m ≠ 0) : (cell m e).low + 2 ^ (e - 2).toNat ≤ (cell m e).value := by
  have hbelow : 1 ≤ if m = Nat.pow 2 52 ∧ -1074 < e then 1 else 2 := by split <;> omega
  simp only [cell, ratio_one]
  rw [← Nat.succ_mul]
  exact Nat.mul_le_mul_right _ (by omega)

theorem value_lt_high (m : ℕ) (e : ℤ) : (cell m e).value < (cell m e).high := by
  simp only [cell, ratio_one]
  have hpos : 0 < 2 ^ (e - 2).toNat := Nat.two_pow_pos _
  exact Nat.mul_lt_mul_of_pos_right (by omega) hpos

theorem magnitude_cell_le (hm : m ≠ 0) (hbits : m < 2 ^ 53) (hleast : -1074 ≤ e)
    (hmost : e ≤ 971) : (cell m e).den *
      (10 : ℚ) ^ (magnitude (cell m e).value (cell m e).den - 1) ≤ (cell m e).value := by
  have hvalue : (cell m e).value = 4 * m * 2 ^ (e - 2).toNat := by simp only [cell, ratio_one]
  have hden : (cell m e).den = 2 ^ (-(e - 2)).toNat := by simp only [cell, ratio_one]
  have hne : (cell m e).value ≠ 0 := by
    rw [hvalue]
    positivity
  have hlt : (cell m e).value < 2 ^ (55 + (e - 2).toNat) := by
    rw [hvalue, pow_add]
    exact Nat.mul_lt_mul_of_pos_right (by omega) (Nat.two_pow_pos _)
  refine magnitude_le hne ?_ ?_
  · have hlog := (Nat.log2_lt hne).mpr hlt
    omega
  · rw [hden, Nat.log2_two_pow]
    omega

/-- The grid of eighteen digits has a point in the cell. -/
theorem exists_last (tie : Tie) (hm : m ≠ 0) (hbits : m < 2 ^ 53) (hleast : -1074 ≤ e)
    (hmost : e ≤ 971) :
    ∃ p, (cell m e).onGrid? tie (magnitude (cell m e).value (cell m e).den - 18) = some p := by
  have hvalue : (cell m e).value = 4 * m * 2 ^ (e - 2).toNat := by simp only [cell, ratio_one]
  have hden : 0 < (cell m e).den := by
    simp only [cell, ratio_one]
    positivity
  have hlow : (((cell m e).low + 2 ^ (e - 2).toNat : ℕ) : ℚ) ≤ (cell m e).value :=
    Nat.cast_le.mpr (low_le hm)
  have hmagnitude := magnitude_cell_le hm hbits hleast hmost
  generalize magnitude (cell m e).value (cell m e).den = k at hmagnitude ⊢
  have hfine : (cell m e).den * (10 : ℚ) ^ (k - 18) ≤ 2 ^ (e - 2).toNat := by
    have hsplit : (10 : ℚ) ^ (k - 1) = 10 ^ (k - 18) * 10 ^ (17 : ℤ) := by
      rw [← zpow_add₀ (by norm_num)]
      congr 1
      omega
    have hfour : (4 * m : ℚ) ≤ 10 ^ (17 : ℤ) := by
      have hm' : (m : ℚ) ≤ 2 ^ 53 := by exact_mod_cast hbits.le
      calc (4 * m : ℚ) ≤ 4 * 2 ^ 53 := by gcongr
        _ ≤ 10 ^ (17 : ℤ) := by norm_num
    refine le_of_mul_le_mul_right ?_ (show (0 : ℚ) < 10 ^ (17 : ℤ) by positivity)
    calc (cell m e).den * (10 : ℚ) ^ (k - 18) * 10 ^ (17 : ℤ)
        = (cell m e).den * 10 ^ (k - 1) := by rw [mul_assoc, ← hsplit]
      _ ≤ (cell m e).value := hmagnitude
      _ = 4 * m * 2 ^ (e - 2).toNat := by rw [hvalue]; push_cast; rfl
      _ ≤ 10 ^ (17 : ℤ) * 2 ^ (e - 2).toNat := by gcongr
      _ = 2 ^ (e - 2).toNat * 10 ^ (17 : ℤ) := mul_comm _ _
  rw [Nat.cast_add, Nat.cast_pow, Nat.cast_ofNat] at hlow
  refine exists_onGrid? tie hden ?_ ?_ (by exact_mod_cast value_lt_high m e)
  · have hnonneg : (0 : ℚ) ≤ (cell m e).low := Nat.cast_nonneg _
    linarith
  · linarith

theorem search_digits {c : Cell} {tie : Tie} {k : ℤ} {fuel n : ℕ}
    (h : ∃ i < fuel, ∃ p, c.onGrid? tie (k - (n + i : ℕ)) = some p) :
    ∃ p ≠ 0, (c.search tie k fuel n).digits = (Nat.toDigits 10 p).rdropWhile (· == '0') := by
  induction fuel generalizing n with
  | zero =>
    obtain ⟨i, hi, _⟩ := h
    omega
  | succ fuel ih =>
    rw [Cell.search]
    split
    · rename_i p hp
      exact ⟨p, onGrid?_ne_zero hp, rfl⟩
    · rename_i hnone
      obtain ⟨i, hi, p, hp⟩ := h
      obtain ⟨i, rfl⟩ : ∃ j, i = j + 1 := by
        refine Nat.exists_eq_succ_of_ne_zero ?_
        rintro rfl
        rw [Nat.add_zero, hnone] at hp
        cases hp
      exact ih ⟨i, by omega, p, by rwa [Nat.add_right_comm n 1 i]⟩

end Search

/-- Digits of which the first is not zero. -/
def Leading (ds : List Char) : Prop :=
  ds ≠ [] ∧ ds.head? ≠ some '0' ∧ ∀ c ∈ ds, isDigit c = true

theorem leading_stripped {p : ℕ} (hp : p ≠ 0) :
    Leading ((Nat.toDigits 10 p).rdropWhile (· == '0')) := by
  have hhead := toDigits_head_ne_zero (Nat.pos_of_ne_zero hp)
  have hfront := List.rdropWhile_prefix (· == '0') (l := Nat.toDigits 10 p)
  have hne : (Nat.toDigits 10 p).rdropWhile (· == '0') ≠ [] := by
    intro hnil
    obtain ⟨d, ds, hds⟩ := List.exists_cons_of_ne_nil (Nat.toDigits_ne_nil (n := p) (b := 10))
    have hzero := List.rdropWhile_eq_nil_iff.mp hnil d (hds ▸ List.mem_cons_self)
    rw [hds, beq_iff_eq.mp hzero] at hhead
    exact hhead rfl
  refine ⟨hne, ?_, fun c hc => isDigit_of_mem_toDigits (hfront.mem hc)⟩
  obtain ⟨zeros, hzeros⟩ := hfront
  rwa [← hzeros, List.head?_append_of_ne_nil _ hne] at hhead

/-- The digits of a number of double precision, if it is not zero. -/
theorem leading_shortest (tie : Tie) {m : ℕ} {e : ℤ} (hm : m ≠ 0) (hbits : m < 2 ^ 53)
    (hleast : -1074 ≤ e) (hmost : e ≤ 971) : Leading (shortest tie m e).digits := by
  obtain ⟨p, hp⟩ := exists_last tie hm hbits hleast hmost
  obtain ⟨q, hq, hdigits⟩ := @search_digits _ _ _ 18 1 ⟨17, by decide, p, hp⟩
  rw [shortest, if_neg hm, hdigits]
  exact leading_stripped hq

end PatternHooks.ShortestDigits

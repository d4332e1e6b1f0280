import Mathlib.Algebra.Ring.Nat
import PatternHooks.Proofs.DigitText
import PatternHooks.Time.Timestamp

/-!
Instants as texts: the timestamp of an instant is read as that instant, in any year of the calendar,
to the nanosecond, and within a leap second.
-/

namespace PatternHooks.TimestampText

open DigitText Text Time Timestamp

theorem isBlank_of_isDigit {c : Char} (h : isDigit c = true) : isBlank c = false := by
  have hrange : 0x30 ≤ c.toNat ∧ c.toNat ≤ 0x39 := by
    simp only [isDigit, Bool.and_eq_true, decide_eq_true_eq] at h
    exact h
  rw [← Bool.not_eq_true, isBlank, Ranges.has_iff]
  rintro ⟨r, hr, hlow, hhigh⟩
  simp only [blankRanges, List.mem_cons, List.not_mem_nil, or_false] at hr
  rcases hr with rfl | rfl | rfl | rfl | rfl | rfl | rfl | rfl | rfl | rfl <;>
    simp only at hlow hhigh <;> omega

theorem dropBlanks_cons {c : Char} (h : isBlank c = false) (cs : List Char) :
    dropBlanks (c :: cs) = c :: cs := by
  simp [dropBlanks, h]

section Padded
variable {width n : Nat}

theorem isDigit_of_mem_padded {c : Char} (h : c ∈ padded width n) : isDigit c = true := by
  rcases List.mem_append.mp h with h | h
  · rw [(List.mem_replicate.mp h).2]
    decide
  · exact isDigit_of_mem_toDigits h

theorem valueFrom_padded : valueFrom 0 (padded width n) = n := by
  have hzeros : ∀ k, valueFrom 0 (List.replicate k '0') = 0 := by
    intro k
    induction k with
    | zero => rfl
    | succ k ih => exact ih
  rw [padded, valueFrom_append, hzeros, valueFrom_toDigits]

theorem padded_ne_nil : padded width n ≠ [] :=
  List.append_ne_nil_of_right_ne_nil _ Nat.toDigits_ne_nil

theorem length_padded (hwidth : 0 < width) (h : n < 10 ^ width) :
    (padded width n).length = width := by
  have hle : (Nat.toDigits 10 n).length ≤ width :=
    (Nat.length_toDigits_le_iff (by omega) hwidth).mpr h
  simp only [padded, List.length_append, List.length_replicate]
  omega

end Padded

/-- Digits up to the end of a number are read as its value. -/
theorem moreDigits_append {most n : Nat} {ds rest : List Char} (hds : ∀ c ∈ ds, isDigit c = true)
    (hlength : ds.length ≤ most) (hend : NoDigit rest ∨ ds.length = most)
    (hvalue : valueFrom n ds < Nat.pow 2 63) :
    moreDigits most n (ds ++ rest) = .ok (valueFrom n ds, rest) := by
  induction ds generalizing most n with
  | nil =>
    cases rest with
    | nil => cases most <;> rfl
    | cons c rest =>
      cases most with
      | zero => rfl
      | succ most =>
        have hc : isDigit c = false := by
          rcases hend with hend | hend
          · exact hend c rfl
          · exact absurd hend (by simp)
        simp [moreDigits, hc, valueFrom]
  | cons d ds ih =>
    obtain ⟨most, rfl⟩ : ∃ m, most = m + 1 := ⟨most - 1, by simp at hlength; omega⟩
    have hd : isDigit d = true := hds d List.mem_cons_self
    have hstep : ¬ Nat.pow 2 63 ≤ 10 * n + digitValue d :=
      Nat.not_le.mpr (Nat.lt_of_le_of_lt (le_valueFrom _ ds) hvalue)
    have hrest : moreDigits most (10 * n + digitValue d) (ds ++ rest) =
        .ok (valueFrom (10 * n + digitValue d) ds, rest) :=
      ih (fun c hc => hds c (List.mem_cons_of_mem d hc)) (by simpa using hlength)
        (by simpa using hend) hvalue
    simp only [List.cons_append, moreDigits, hd, Bool.not_true, Bool.false_eq_true, if_false, hstep,
      hrest]
    rfl

theorem number_append {most : Nat} {ds rest : List Char} (hne : ds ≠ [])
    (hds : ∀ c ∈ ds, isDigit c = true) (hlength : ds.length ≤ most)
    (hend : NoDigit rest ∨ ds.length = most) (hvalue : valueFrom 0 ds < Nat.pow 2 63) :
    number most (ds ++ rest) = .ok (valueFrom 0 ds, rest) := by
  obtain ⟨d, ds, rfl⟩ := List.exists_cons_of_ne_nil hne
  have hd : isDigit d = true := hds d List.mem_cons_self
  have hfirst : valueFrom 0 (d :: ds) = valueFrom (digitValue d) ds := by
    simp [valueFrom]
  rw [List.length_cons] at hlength hend
  rw [hfirst] at hvalue ⊢
  rw [List.cons_append, number, if_pos hd]
  refine moreDigits_append (fun c hc => hds c (List.mem_cons_of_mem d hc)) (by omega) ?_ hvalue
  rcases hend with hend | hend
  · exact .inl hend
  · exact .inr (by omega)

theorem number_padded {most width n : Nat} {rest : List Char}
    (hlength : (padded width n).length ≤ most)
    (hend : NoDigit rest ∨ (padded width n).length = most) (hvalue : n < Nat.pow 2 63) :
    number most (padded width n ++ rest) = .ok (n, rest) := by
  rw [number_append padded_ne_nil (fun c => isDigit_of_mem_padded) hlength hend
    (by rwa [valueFrom_padded]), valueFrom_padded]

theorem field_padded {low high n : Nat} (rest : List Char) (hlow : low ≤ n) (hhigh : n ≤ high)
    (h : n < 100) : field low high (padded 2 n ++ rest) = .ok (n, rest) := by
  obtain ⟨d, ds, hds⟩ : ∃ d ds, padded 2 n = d :: ds := List.exists_cons_of_ne_nil padded_ne_nil
  have hd : isDigit d = true := isDigit_of_mem_padded (hds ▸ List.mem_cons_self)
  have hblank : dropBlanks (padded 2 n ++ rest) = padded 2 n ++ rest := by
    rw [hds, List.cons_append, dropBlanks_cons (isBlank_of_isDigit hd)]
  have hlength : (padded 2 n).length = 2 := length_padded (by omega) (by omega)
  have hpow : Nat.pow 2 63 = 9223372036854775808 := rfl
  rw [field, hblank, number_padded (Nat.le_of_eq hlength) (.inr hlength) (by omega)]
  simp only [hlow, hhigh, and_self, if_true]

theorem mark_cons {sep : Char} (h : isBlank sep = false) (cs : List Char) :
    mark sep (sep :: cs) = .ok ((), cs) := by
  simp [mark, dropBlanks_cons h]

/-- A year with a sign, after its sign. -/
theorem number_padded_year {n : Nat} (h : n < Nat.pow 2 63) (rest : List Char) :
    number (padded 4 n ++ '-' :: rest).length (padded 4 n ++ '-' :: rest) =
      .ok (n, '-' :: rest) := by
  refine number_padded ?_ (.inl (noDigit_cons (by decide))) h
  rw [List.length_append]
  omega

theorem year_yearText {y : Int} (hlow : firstYear ≤ y) (hhigh : y ≤ lastYear) (rest : List Char) :
    year (yearText y ++ '-' :: rest) = .ok (y, '-' :: rest) := by
  have hfirst : firstYear = -262143 := rfl
  have hlast : lastYear = 262142 := rfl
  have hpow : Nat.pow 2 63 = 9223372036854775808 := rfl
  have hrange : -(Int.pow 2 31) ≤ y ∧ y < Int.pow 2 31 := by
    have hlimit : Int.pow 2 31 = 2147483648 := rfl
    omega
  by_cases hplain : 0 ≤ y ∧ y ≤ 9999
  · have hlength : (padded 4 y.toNat).length = 4 := length_padded (by omega) (by omega)
    have hnumber : number 4 (padded 4 y.toNat ++ '-' :: rest) = .ok (y.toNat, '-' :: rest) :=
      number_padded (Nat.le_of_eq hlength) (.inr hlength) (by omega)
    have hvalue : (y.toNat : Int) = y := by omega
    obtain ⟨d, ds, hds⟩ : ∃ d ds, padded 4 y.toNat = d :: ds :=
      List.exists_cons_of_ne_nil padded_ne_nil
    have hd : isDigit d = true := isDigit_of_mem_padded (hds ▸ List.mem_cons_self)
    have hminus : d ≠ '-' := by
      rintro rfl
      exact absurd hd (by decide)
    have hplus : d ≠ '+' := by
      rintro rfl
      exact absurd hd (by decide)
    rw [yearText, if_pos hplain]
    rw [hds, List.cons_append] at hnumber ⊢
    simp only [year, dropBlanks_cons (isBlank_of_isDigit hd), List.cons.injEq, hminus, hplus,
      false_and, imp_self, implies_true, hnumber, hvalue, hrange, and_self, if_true]
  · rw [yearText, if_neg hplain, List.cons_append]
    have hnumber := number_padded_year (n := y.natAbs) (by omega) rest
    by_cases hneg : y < 0
    · have hvalue : -(y.natAbs : Int) = y := by omega
      have hblank : isBlank '-' = false := by decide
      simp only [year, hneg, if_true, dropBlanks_cons hblank, hnumber, hvalue, hrange, and_self]
    · have hvalue : (y.natAbs : Int) = y := by omega
      have hblank : isBlank '+' = false := by decide
      simp only [year, hneg, if_false, dropBlanks_cons hblank, hnumber, hvalue, hrange, and_self,
        if_true, Bool.false_eq_true]

theorem fraction_fractionText {n : Nat} (h : n < 1000000000) :
    fraction (fractionText n ++ ['Z']) = .ok (n, ['Z']) := by
  have hend : NoDigit ['Z'] := noDigit_cons (by decide)
  have hdecimals : ∀ width m, 0 < width → width ≤ 9 → m < 10 ^ width →
      fraction ('.' :: padded width m ++ ['Z']) = .ok (m * 10 ^ (9 - width), ['Z']) := by
    intro width m hpos hle hm
    have hlength : (padded width m).length = width := length_padded hpos hm
    have hbound : m < Nat.pow 2 63 :=
      calc m < 10 ^ width := hm
        _ ≤ 10 ^ 9 := Nat.pow_le_pow_right (by omega) hle
        _ < Nat.pow 2 63 := by decide
    have hnumber : number 9 (padded width m ++ ['Z']) = .ok (m, ['Z']) :=
      number_padded (by omega) (.inl hend) hbound
    have hcount : (padded width m ++ ['Z']).length - ['Z'].length = width := by
      rw [List.length_append, hlength]
      simp
    rw [List.cons_append, fraction]
    simp only [hnumber, hcount]
    rfl
  unfold fractionText
  split
  · rename_i hzero
    rw [hzero]
    rfl
  · split
    · rename_i hmilli
      rw [hdecimals 3 (n / 1000000) (by omega) (by omega) (by omega)]
      have hn : n / 1000000 * 10 ^ (9 - 3) = n := by omega
      rw [hn]
    · split
      · rename_i hmicro
        rw [hdecimals 6 (n / 1000) (by omega) (by omega) (by omega)]
        have hn : n / 1000 * 10 ^ (9 - 6) = n := by omega
        rw [hn]
      · rw [hdecimals 9 n (by omega) (by omega) (by omega)]
        simp

/-- The seconds that are shown, and the decimals of them. -/
def shownSecond (c : Clock) : Nat := if 1000000000 ≤ c.nano then c.second + 1 else c.second

def shownNano (c : Clock) : Nat := if 1000000000 ≤ c.nano then c.nano - 1000000000 else c.nano

theorem text_eq (i : Instant) : Timestamp.text i =
    yearText i.date.year ++ '-' :: (padded 2 i.date.month ++ '-' :: (padded 2 i.date.day ++
      'T' :: (padded 2 i.clock.hour ++ ':' :: (padded 2 i.clock.minute ++
        ':' :: (padded 2 (shownSecond i.clock) ++
          (fractionText (shownNano i.clock) ++ ['Z'])))))) := by
  simp [Timestamp.text, dateText, clockText, shownSecond, shownNano]

theorem isClock_bounds (c : Clock) :
    c.hour < 24 ∧ c.minute < 60 ∧ c.second < 60 ∧ c.nano < 2000000000 ∧
      (c.nano < 1000000000 ∨ c.second = 59) := by
  have h := c.exists_time
  simp only [isClock, Bool.and_eq_true, Bool.or_eq_true, decide_eq_true_eq, beq_iff_eq] at h
  omega

theorem isDate_bounds (d : Date) :
    firstYear ≤ d.year ∧ d.year ≤ lastYear ∧ 1 ≤ d.month ∧ d.month ≤ 12 ∧ 1 ≤ d.day ∧
      d.day ≤ 31 := by
  have h := d.exists_day
  simp only [isDate, Bool.and_eq_true, decide_eq_true_eq] at h
  have hdays : daysIn d.year d.month ≤ 31 := by
    unfold daysIn
    split
    · split <;> omega
    · split <;> omega
  omega

/-- The sixtieth second is the leap second, and what is shown makes up the clock. -/
theorem assemble_shown (i : Instant) :
    assemble i.date.year i.date.month i.date.day i.clock.hour i.clock.minute (shownSecond i.clock)
      (shownNano i.clock) 0 = .ok i := by
  obtain ⟨_, _, hsecond, _, hleap⟩ := isClock_bounds i.clock
  have hclock : (if (shownSecond i.clock == 60) = true then
      Clock.of? i.clock.hour i.clock.minute 59 (shownNano i.clock + 1000000000)
      else Clock.of? i.clock.hour i.clock.minute (shownSecond i.clock) (shownNano i.clock)) =
        some i.clock := by
    by_cases hlong : 1000000000 ≤ i.clock.nano
    · have h59 : i.clock.second = 59 := by omega
      have hnano : i.clock.nano - 1000000000 + 1000000000 = i.clock.nano := by omega
      have hself := Clock.of?_self i.clock
      rw [h59] at hself
      simp [shownSecond, shownNano, hlong, h59, hnano, hself]
    · have hne : i.clock.second ≠ 60 := by omega
      simp [shownSecond, shownNano, hlong, hne]
  unfold assemble
  simp only [hclock, Date.of?_self, Instant.ofLocal?_zero]
  rfl

theorem ok_bind {α β : Type} (a : α) (k : α → Except TimeFault β) : (Except.ok a >>= k) = k a := rfl

/-- The timestamp of an instant is read as that instant. -/
theorem parse_timestamp (i : Instant) : Instant.parse i.timestamp = .ok i := by
  obtain ⟨hfirst, hlast, hmonth, hmonth', hday, hday'⟩ := isDate_bounds i.date
  obtain ⟨hhour, hminute, hsecond, hnano, hleap⟩ := isClock_bounds i.clock
  have hshown : shownSecond i.clock ≤ 60 := by
    unfold shownSecond
    split <;> omega
  have hdecimals : shownNano i.clock < 1000000000 := by
    unfold shownNano
    split <;> omega
  have hhyphen : isBlank '-' = false := by decide
  have hcolon : isBlank ':' = false := by decide
  have hletter : isBlank 'Z' = false := by decide
  rw [Instant.parse, Instant.timestamp, String.toList_ofList, text_eq, Timestamp.read]
  simp only [year_yearText hfirst hlast, mark_cons hhyphen, mark_cons hcolon,
    field_padded _ hmonth hmonth' (by omega), field_padded _ hday hday' (by omega),
    field_padded _ (Nat.zero_le i.clock.hour) (by omega : i.clock.hour ≤ 23) (by omega),
    field_padded _ (Nat.zero_le i.clock.minute) (by omega : i.clock.minute ≤ 59) (by omega),
    field_padded _ (Nat.zero_le (shownSecond i.clock)) hshown (by omega),
    fraction_fractionText hdecimals, dropBlanks_cons hletter, ok_bind, true_or, if_true, pure_bind]
  exact assemble_shown i

end PatternHooks.TimestampText

import Mathlib.Algebra.Ring.Nat
import PatternHooks.PatternId

/-!
Identifiers as texts: what is written for an identifier names it again.
-/

namespace PatternHooks.PatternIdText

open PatternId Text

theorem hexValue?_hexDigit {d : Nat} (hd : d < 16) : hexValue? (hexDigit d) = some d := by
  have h : ∀ d : Fin 16, hexValue? (hexDigit d) = some d.val := by decide
  exact h ⟨d, hd⟩

theorem utf8Size_hexDigit {d : Nat} (hd : d < 16) : (hexDigit d).utf8Size = 1 := by
  have h : ∀ d : Fin 16, (hexDigit d).utf8Size = 1 := by decide
  exact h ⟨d, hd⟩

theorem readHex_append (n : Nat) (cs ds : List Char) :
    readHex n (cs ++ ds) = (readHex n cs).bind fun m => readHex m ds := by
  induction cs generalizing n with
  | nil => rfl
  | cons c cs ih =>
    simp only [List.cons_append, readHex]
    cases hexValue? c with
    | none => rfl
    | some d => exact ih _

theorem readHex_hexDigits (k n : Nat) : readHex 0 (hexDigits n k) = some (n % 16 ^ k) := by
  induction k generalizing n with
  | zero => simp [hexDigits, readHex, Nat.mod_one]
  | succ k ih =>
    have hd : n % 16 < 16 := Nat.mod_lt n (by omega)
    rw [hexDigits, readHex_append, ih, Option.bind_some, readHex, hexValue?_hexDigit hd]
    have hmod : n % 16 ^ (k + 1) = n % 16 + 16 * (n / 16 % 16 ^ k) := by
      rw [Nat.pow_succ', Nat.mod_mul]
    simp only [readHex, hmod, Nat.add_comm]

theorem length_hexDigits (n k : Nat) : (hexDigits n k).length = k := by
  induction k generalizing n with
  | zero => rfl
  | succ k ih => rw [hexDigits, List.length_append, ih, List.length_singleton]

theorem size_hexDigits (n k : Nat) : size (hexDigits n k) = k := by
  induction k generalizing n with
  | zero => rfl
  | succ k ih =>
    have hd : n % 16 < 16 := Nat.mod_lt n (by omega)
    rw [hexDigits, size_append, ih, size_cons, size_nil, utf8Size_hexDigit hd]

theorem size_hyphenate (ns : List Nat) (cs : List Char) :
    size (hyphenate ns cs) = size cs + ns.length := by
  induction ns generalizing cs with
  | nil => rfl
  | cons n ns ih =>
    have hsplit : size (cs.take n) + size (cs.drop n) = size cs := by
      rw [← size_append, List.take_append_drop]
    have hhyphen : '-'.utf8Size = 1 := by decide
    rw [hyphenate, size_append, size_cons, ih, hhyphen, List.length_cons]
    omega

/-- Hyphens after groups that are there are found again. -/
theorem unhyphenate?_hyphenate (ns : List Nat) (cs : List Char) (h : ns.sum ≤ cs.length) :
    unhyphenate? ns (hyphenate ns cs) = some cs := by
  induction ns generalizing cs with
  | nil => rfl
  | cons n ns ih =>
    rw [List.sum_cons] at h
    have hlength : (cs.take n).length = n := List.length_take_of_le (by omega)
    have hdrop : (cs.take n ++ '-' :: hyphenate ns (cs.drop n)).drop n =
        '-' :: hyphenate ns (cs.drop n) := List.drop_left' hlength
    have htake : (cs.take n ++ '-' :: hyphenate ns (cs.drop n)).take n = cs.take n :=
      List.take_left' hlength
    have hrest : unhyphenate? ns (hyphenate ns (cs.drop n)) = some (cs.drop n) :=
      ih (cs.drop n) (by rw [List.length_drop]; omega)
    simp only [hyphenate, unhyphenate?, hdrop, htake, hrest, Option.map_some,
      List.take_append_drop]

/-- What is written for an identifier names it. -/
theorem parse_display (id : PatternId) : PatternId.parse id.display = .ok id := by
  have hdigits : ofDigits? (hexDigits id.bits.toNat 32) = some id := by
    have hbits : id.bits.toNat % 16 ^ 32 = id.bits.toNat := Nat.mod_eq_of_lt id.bits.isLt
    rw [ofDigits?, if_pos (length_hexDigits _ 32), readHex_hexDigits, hbits, Option.map_some,
      BitVec.ofNat_toNat, BitVec.setWidth_eq]
  have hgroups : ofGroups? id.text = some id := by
    have hsum : groups.sum ≤ (hexDigits id.bits.toNat 32).length := by
      rw [length_hexDigits]
      decide
    rw [ofGroups?, text, unhyphenate?_hyphenate _ _ hsum, Option.bind_some, hdigits]
  have hsize : size id.text = 36 := by
    rw [text, size_hyphenate, size_hexDigits]
    rfl
  have hmeant : groupsOf? id.text = some id.text := by
    simp only [groupsOf?, hsize]
  rw [PatternId.parse, display, String.toList_ofList, PatternId.read, hmeant]
  simp only [hgroups]

end PatternHooks.PatternIdText

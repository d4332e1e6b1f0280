import PatternHooks.Proofs.JsonSource
import PatternHooks.Proofs.ShortestDigits

/-!
What is printed for a value is JSON: it is the tokens of a source, with no blanks between them.
-/

namespace PatternHooks.PrintedJson

open Binary64 DigitText Json JsonText JsonSource ShortestDigits Text

theorem spells_charText {cs body : List Char} (c : Char) (h : Spells cs body) :
    Spells (c :: cs) (charText c ++ body) := by
  rw [charText]
  split_ifs with hquote hslash hb hf hn hr ht hcontrol
  · subst hquote
    exact .letter rfl h
  · subst hslash
    exact .letter rfl h
  · subst hb
    exact .letter rfl h
  · subst hf
    exact .letter rfl h
  · subst hn
    exact .letter rfl h
  · subst hr
    exact .letter rfl h
  · subst ht
    exact .letter rfl h
  · have hquads : ∀ n : Fin 0x20, (hexQuad n).length = 4 ∧
        hexadecimalValue? (hexQuad n) = some n.val := by decide
    exact .code (hquads ⟨c.toNat, hcontrol⟩ : Quad c.toNat (hexQuad c.toNat)) h
  · exact .plain hquote hslash hcontrol h

theorem spells_flatMap (cs : List Char) : Spells cs (cs.flatMap charText) := by
  induction cs with
  | nil => exact .nil
  | cons c cs ih => exact spells_charText c ih

/-- A text as it is printed. -/
def printedText (s : String) : TextLiteral :=
  ⟨s, s.toList.flatMap charText, spells_flatMap s.toList⟩

theorem text_printedText (s : String) : (printedText s).text = stringText s := rfl

theorem digits_toDigits (n : Nat) : Digits (Nat.toDigits 10 n) :=
  ⟨Nat.toDigits_ne_nil, fun _ => isDigit_of_mem_toDigits⟩

/-- A whole number as it is printed. -/
def printedWhole (n : Int) : NumberLiteral where
  sign := if n < 0 then ['-'] else []
  whole := Nat.toDigits 10 n.natAbs
  fraction := []
  power := []
  sign_cases := by split <;> simp
  whole_digits := digits_toDigits n.natAbs
  whole_leads := fun d ds => toDigits_ne_zero_cons d ds
  fraction_cases := .inl rfl
  power_cases := .inl rfl

theorem text_printedWhole (n : Int) : (printedWhole n).text = wholeText n := by
  rw [NumberLiteral.text, printedWhole, wholeText]
  split <;> simp

def signText (negative : Bool) : List Char := if negative then ['-'] else []

theorem signText_cases (negative : Bool) : signText negative = [] ∨ signText negative = ['-'] := by
  cases negative <;> simp [signText]

theorem toList_withSign (negative : Bool) (cs : List Char) :
    (withSign negative cs).toList = signText negative ++ cs := by
  cases negative <;> simp [withSign, signText]

/-- Digits as they are found for a number: no zero is in front, but for zero itself. -/
structure Found (d : Decimal) : Prop where
  digits : Digits d.digits
  zero : d.digits.head? = some '0' → d = ⟨['0'], 1⟩

theorem found_shortest (tie : Tie) {m : Nat} {e : Int} (hbits : m < 2 ^ 53) (hleast : -1074 ≤ e)
    (hmost : e ≤ 971) : Found (shortest tie m e) := by
  by_cases hm : m = 0
  · rw [shortest, if_pos hm]
    exact ⟨digits_of_all (by simp) rfl, fun _ => rfl⟩
  · obtain ⟨hne, hhead, hdigits⟩ := leading_shortest tie hm hbits hleast hmost
    exact ⟨⟨hne, hdigits⟩, fun h => absurd h hhead⟩

section Reals
variable {d : Decimal}

theorem digits_append {ds es : List Char} (hne : ds ++ es ≠ [])
    (hds : ∀ c ∈ ds, isDigit c = true) (hes : ∀ c ∈ es, isDigit c = true) : Digits (ds ++ es) :=
  ⟨hne, fun c hc => (List.mem_append.mp hc).elim (hds c) (hes c)⟩

theorem isDigit_of_mem_zeros {n : Nat} : ∀ c ∈ List.replicate n '0', isDigit c = true := by
  intro c hc
  rw [List.eq_of_mem_replicate hc]
  decide

theorem pointed_of_not_mem {cs : List Char} (h : ∀ c ∈ cs, isDigit c = true) :
    pointed cs = cs ++ ['.', '0'] := by
  have hpoint : ¬ cs.contains '.' = true := fun hmem => by
    cases h '.' (List.contains_iff_mem.mp hmem)
  rw [pointed, if_neg hpoint]

theorem pointed_of_mem {cs : List Char} (h : '.' ∈ cs) : pointed cs = cs := by
  rw [pointed, if_pos (List.contains_iff_mem.mpr h)]

/-- Below one, a zero stands before the point. -/
theorem exists_below_one (negative : Bool) (hd : Found d) (hpoint : d.point ≤ 0) :
    ∃ n : NumberLiteral, n.text = signText negative ++ pointed (positional d) := by
  have hcs : positional d = '0' :: '.' :: (List.replicate (-d.point).toNat '0' ++ d.digits) := by
    simp [positional, hpoint]
  have hfraction : Digits (List.replicate (-d.point).toNat '0' ++ d.digits) :=
    digits_append (by simp [hd.digits.1]) isDigit_of_mem_zeros hd.digits.2
  rw [hcs, pointed_of_mem (by simp)]
  exact ⟨⟨signText negative, ['0'], _, [], signText_cases negative, digits_of_all (by simp) rfl,
    by simp, .inr ⟨_, hfraction, rfl⟩, .inl rfl⟩, by simp [NumberLiteral.text]⟩

/-- A whole number gets its last zeros back, and one after the point. -/
theorem exists_whole (negative : Bool) (hd : Found d) (hpoint : ¬ d.point ≤ 0)
    (hlength : d.digits.length ≤ d.point.toNat) :
    ∃ n : NumberLiteral, n.text = signText negative ++ pointed (positional d) := by
  have hcs : positional d =
      d.digits ++ List.replicate (d.point.toNat - d.digits.length) '0' := by
    simp [positional, hpoint, hlength]
  have hwhole : Digits (d.digits ++ List.replicate (d.point.toNat - d.digits.length) '0') :=
    digits_append (by simp [hd.digits.1]) hd.digits.2 isDigit_of_mem_zeros
  have hleads : ∀ c cs, d.digits ++ List.replicate (d.point.toNat - d.digits.length) '0' ≠
      '0' :: c :: cs := by
    intro c cs heq
    have hhead : d.digits.head? = some '0' := by
      rw [← List.head?_append_of_ne_nil _ hd.digits.1, heq, List.head?_cons]
    rw [hd.zero hhead] at heq
    cases heq
  rw [hcs, pointed_of_not_mem hwhole.2]
  exact ⟨⟨signText negative, _, ['.', '0'], [], signText_cases negative, hwhole, hleads,
    .inr ⟨['0'], digits_of_all (by simp) rfl, rfl⟩, .inl rfl⟩, by simp [NumberLiteral.text]⟩

/-- The point stands among the digits. -/
theorem exists_mixed (negative : Bool) (hd : Found d) (hpoint : ¬ d.point ≤ 0)
    (hlength : ¬ d.digits.length ≤ d.point.toNat) :
    ∃ n : NumberLiteral, n.text = signText negative ++ pointed (positional d) := by
  have hcs : positional d =
      d.digits.take d.point.toNat ++ '.' :: d.digits.drop d.point.toNat := by
    simp [positional, hpoint, hlength]
  have hwhole : Digits (d.digits.take d.point.toNat) :=
    ⟨by simp [hd.digits.1]; omega, fun c hc => hd.digits.2 c (List.mem_of_mem_take hc)⟩
  have hfraction : Digits (d.digits.drop d.point.toNat) :=
    ⟨by simp; omega, fun c hc => hd.digits.2 c (List.mem_of_mem_drop hc)⟩
  have hleads : ∀ c cs, d.digits.take d.point.toNat ≠ '0' :: c :: cs := by
    intro c cs heq
    have hhead : d.digits.head? = some '0' := by
      rw [← List.take_append_drop d.point.toNat d.digits, heq]
      rfl
    rw [hd.zero hhead] at hlength
    exact hlength (by decide)
  rw [hcs, pointed_of_mem (by simp)]
  exact ⟨⟨signText negative, _, _, [], signText_cases negative, hwhole, hleads,
    .inr ⟨_, hfraction, rfl⟩, .inl rfl⟩, by simp [NumberLiteral.text]⟩

/-- With a point and no power of ten. -/
theorem exists_pointed (negative : Bool) (hd : Found d) :
    ∃ n : NumberLiteral, n.text = signText negative ++ pointed (positional d) := by
  by_cases hpoint : d.point ≤ 0
  · exact exists_below_one negative hd hpoint
  by_cases hlength : d.digits.length ≤ d.point.toNat
  · exact exists_whole negative hd hpoint hlength
  · exact exists_mixed negative hd hpoint hlength

/-- With one digit in front and a power of ten. -/
theorem exists_scientific (negative : Bool) (h : Digits d.digits) :
    ∃ n : NumberLiteral, n.text = signText negative ++ scientific d := by
  obtain ⟨hne, hdigits⟩ := h
  obtain ⟨c, cs, hds⟩ := List.exists_cons_of_ne_nil hne
  rw [hds] at hdigits
  have hlead : Digits [c] := ⟨by simp, by simpa using hdigits c List.mem_cons_self⟩
  have hpower : ∃ mark ∈ ['e', 'E'], ∃ sign ∈ [[], ['+'], ['-']], ∃ ds, Digits ds ∧
      'e' :: (if d.point - 1 < 0 then '-' else '+') :: Nat.toDigits 10 (d.point - 1).natAbs =
        mark :: (sign ++ ds) :=
    ⟨'e', by simp, [if d.point - 1 < 0 then '-' else '+'], by split <;> simp, _,
      digits_toDigits _, rfl⟩
  cases cs with
  | nil =>
    exact ⟨⟨signText negative, [c], [], _, signText_cases negative, hlead, by simp, .inl rfl,
      .inr hpower⟩, by simp [NumberLiteral.text, scientific, hds]⟩
  | cons b cs =>
    have hfraction : Digits (b :: cs) :=
      ⟨by simp, fun x hx => hdigits x (List.mem_cons_of_mem _ hx)⟩
    exact ⟨⟨signText negative, [c], _, _, signText_cases negative, hlead, by simp,
      .inr ⟨_, hfraction, rfl⟩, .inr hpower⟩, by simp [NumberLiteral.text, scientific, hds]⟩

theorem exists_scaled (negative : Bool) {m : Nat} {e : Int} (h : Double (.finite negative m e)) :
    ∃ n : NumberLiteral, n.text = (scaledText (.finite negative m e)).toList := by
  obtain ⟨hbits, hleast, hmost⟩ := h
  have hfound := found_shortest .even hbits hleast hmost
  simp only [scaledText]
  split
  · rw [toList_withSign]
    exact exists_pointed negative hfound
  · rw [toList_withSign]
    exact exists_scientific negative hfound.digits

end Reals

mutual

/-- The real numbers of a value are of double precision. -/
def Doubles : Json → Prop
  | .number (.real x) => Double x
  | .list items => ItemDoubles items
  | .object members => MemberDoubles members
  | _ => True

def ItemDoubles : List Json → Prop
  | [] => True
  | j :: items => Doubles j ∧ ItemDoubles items

def MemberDoubles : List (String × Json) → Prop
  | [] => True
  | (_, j) :: members => Doubles j ∧ MemberDoubles members

end

theorem exists_numeral {n : Numeral} (h : Doubles (.number n)) :
    ∃ v : Source, v.tokens.flatten = render (.number n) := by
  cases n with
  | whole n =>
    exact ⟨.number (printedWhole n),
      by simp [Source.tokens, text_printedWhole, render, numeralText]⟩
  | real x =>
    cases x with
    | finite negative m e =>
      obtain ⟨n, hn⟩ := exists_scaled negative h
      exact ⟨.number n, by simp [Source.tokens, hn, render, numeralText, isFinite]⟩
    | infinite negative => exact ⟨.null, rfl⟩
    | notANumber => exact ⟨.null, rfl⟩

mutual

/-- Whatever is printed is the tokens of a source. -/
theorem exists_source : ∀ j, Doubles j → ∃ v : Source, v.tokens.flatten = render j
  | .null, _ => ⟨.null, rfl⟩
  | .flag b, _ => ⟨.flag b, by simp [Source.tokens]⟩
  | .number _, h => exists_numeral h
  | .text s, _ => ⟨.text (printedText s), by simp [Source.tokens, text_printedText, render]⟩
  | .list items, h => by
    obtain ⟨vs, hvs, _⟩ := exists_items items h
    exact ⟨.list vs, by simp [Source.tokens, hvs, render]⟩
  | .object members, h => by
    obtain ⟨vs, hvs, _⟩ := exists_members members h
    exact ⟨.object vs, by simp [Source.tokens, hvs, render]⟩

theorem exists_items : ∀ items, ItemDoubles items → ∃ vs : List Source,
    (Source.itemTokens vs).flatten = renderItems items ∧
      (Source.moreItemTokens vs).flatten = renderMoreItems items
  | [], _ => ⟨[], rfl, rfl⟩
  | j :: items, h => by
    obtain ⟨v, hv⟩ := exists_source j h.1
    obtain ⟨vs, _, hvs⟩ := exists_items items h.2
    exact ⟨v :: vs, by simp [Source.itemTokens, hv, hvs, renderItems],
      by simp [Source.moreItemTokens, hv, hvs, renderMoreItems]⟩

theorem exists_members : ∀ members, MemberDoubles members →
    ∃ vs : List (TextLiteral × Source),
      (Source.memberTokens vs).flatten = renderMembers members ∧
        (Source.moreMemberTokens vs).flatten = renderMoreMembers members
  | [], _ => ⟨[], rfl, rfl⟩
  | (key, j) :: members, h => by
    obtain ⟨v, hv⟩ := exists_source j h.1
    obtain ⟨vs, _, hvs⟩ := exists_members members h.2
    exact ⟨(printedText key, v) :: vs,
      by simp [Source.memberTokens, text_printedText, hv, hvs, renderMembers],
      by simp [Source.moreMemberTokens, text_printedText, hv, hvs, renderMoreMembers]⟩

end

end PatternHooks.PrintedJson

import Mathlib.Data.List.Basic
import PatternHooks.Json.Reading
import PatternHooks.Proofs.DigitText

/-!
Values as texts: what is written for a value is read as that value and nothing else, whatever
follows it. Numbers are whole here and not below zero, as all numbers of the data model are.
-/

namespace PatternHooks.JsonText

open DigitText Json Text

mutual

/-- The reading of a value that is written well. -/
def readingOf : Json → Reading
  | .null => .null
  | .flag b => .flag b
  | .number n => .number (.ok n) none
  | .text s => .text (.ok s) none
  | .list items => .list (itemsOf items)
  | .object members => .object (membersOf members)

def itemsOf : List Json → Items
  | [] => .stop none
  | j :: items => .more (readingOf j) (itemsOf items)

def membersOf : List (String × Json) → Members
  | [] => .stop none
  | (key, j) :: members => .more (.text (.ok key) none) (readingOf j) (membersOf members)

end

theorem hexQuad_append {ds : List Char} {n : Nat} (h : Reading.hexQuad ds = .ok (n, []))
    (rest : List Char) : Reading.hexQuad (ds ++ rest) = .ok (n, rest) := by
  rcases ds with _ | ⟨a, _ | ⟨b, _ | ⟨c, _ | ⟨d, ds⟩⟩⟩⟩
  all_goals simp only [Reading.hexQuad] at h
  · split at h <;> simp at h
  · split at h <;> simp at h
  · split at h <;> simp at h
  · split at h <;> simp at h
  · simp only [List.cons_append, Reading.hexQuad]
    split at h
    · obtain ⟨rfl, rfl⟩ := Prod.mk.inj (Except.ok.inj h)
      rfl
    · simp at h

theorem hexQuad_hexQuad {n : Nat} (hn : n < 0x20) (rest : List Char) :
    Reading.hexQuad (Json.hexQuad n ++ rest) = .ok (n, rest) := by
  have h : ∀ n : Fin 0x20, Reading.hexQuad (Json.hexQuad n) = .ok (n.val, []) := by decide
  exact hexQuad_append (h ⟨n, hn⟩) rest

/-- A character stands for itself, or is escaped and understood. -/
theorem charText_cases (c : Char) :
    (charText c = [c] ∧ c ≠ '"' ∧ c ≠ '\\' ∧ ¬ c.toNat < 0x20) ∨
      ∃ escape, charText c = '\\' :: escape ∧ ∀ rest,
        Reading.unescape (escape ++ rest) = .ok (c, rest) ∧
          Reading.skipEscape (escape ++ rest) = .ok rest := by
  by_cases hquote : c = '"'
  · subst hquote
    exact .inr ⟨['"'], rfl, fun rest => ⟨rfl, rfl⟩⟩
  by_cases hslash : c = '\\'
  · subst hslash
    exact .inr ⟨['\\'], rfl, fun rest => ⟨rfl, rfl⟩⟩
  by_cases hb : c = '\x08'
  · subst hb
    exact .inr ⟨['b'], rfl, fun rest => ⟨rfl, rfl⟩⟩
  by_cases hf : c = '\x0c'
  · subst hf
    exact .inr ⟨['f'], rfl, fun rest => ⟨rfl, rfl⟩⟩
  by_cases hn : c = '\n'
  · subst hn
    exact .inr ⟨['n'], rfl, fun rest => ⟨rfl, rfl⟩⟩
  by_cases hr : c = '\r'
  · subst hr
    exact .inr ⟨['r'], rfl, fun rest => ⟨rfl, rfl⟩⟩
  by_cases ht : c = '\t'
  · subst ht
    exact .inr ⟨['t'], rfl, fun rest => ⟨rfl, rfl⟩⟩
  by_cases hcontrol : c.toNat < 0x20
  · refine .inr ⟨'u' :: Json.hexQuad c.toNat, ?_, fun rest => ?_⟩
    · simp [charText, hquote, hslash, hb, hf, hn, hr, ht, hcontrol]
    · have hquad := hexQuad_hexQuad hcontrol rest
      have hlow : ¬ (0xdc00 ≤ c.toNat ∧ c.toNat ≤ 0xdfff) := by omega
      have hhigh : ¬ (0xd800 ≤ c.toNat ∧ c.toNat ≤ 0xdbff) := by omega
      constructor
      · simp [Reading.unescape, hquad, hlow, hhigh, Char.ofNat_toNat]
      · simp [Reading.skipEscape, hquad, Except.map]
  · refine .inl ⟨?_, hquote, hslash, hcontrol⟩
    simp [charText, hquote, hslash, hb, hf, hn, hr, ht, hcontrol]

theorem characters_charText (fuel : Nat) (c : Char) (cs : List Char) :
    Reading.characters (fuel + 1) (charText c ++ cs) =
      (Reading.characters fuel cs).map fun r => (c :: r.1, r.2) := by
  rcases charText_cases c with ⟨htext, hquote, hslash, hcontrol⟩ | ⟨escape, htext, hescape⟩
  · simp [htext, Reading.characters, hquote, hslash, hcontrol]
  · simp [htext, Reading.characters, (hescape cs).1]

theorem skipCharacters_charText (fuel : Nat) (c : Char) (cs : List Char) :
    Reading.skipCharacters (fuel + 1) (charText c ++ cs) = Reading.skipCharacters fuel cs := by
  rcases charText_cases c with ⟨htext, hquote, hslash, hcontrol⟩ | ⟨escape, htext, hescape⟩
  · simp [htext, Reading.skipCharacters, hquote, hslash, hcontrol]
  · simp [htext, Reading.skipCharacters, (hescape cs).2]

theorem charText_ne_nil (c : Char) : charText c ≠ [] := by
  rcases charText_cases c with ⟨htext, _⟩ | ⟨escape, htext, _⟩ <;> simp [htext]

theorem characters_flatMap (cs rest : List Char) {fuel : Nat} (h : cs.length < fuel) :
    Reading.characters fuel (cs.flatMap charText ++ '"' :: rest) = .ok (cs, rest) ∧
      Reading.skipCharacters fuel (cs.flatMap charText ++ '"' :: rest) = .ok rest := by
  induction cs generalizing fuel with
  | nil =>
    obtain ⟨fuel, rfl⟩ : ∃ k, fuel = k + 1 := ⟨fuel - 1, by simp at h; omega⟩
    exact ⟨rfl, rfl⟩
  | cons c cs ih =>
    obtain ⟨fuel, rfl⟩ : ∃ k, fuel = k + 1 := ⟨fuel - 1, by simp at h; omega⟩
    have hfuel : cs.length < fuel := by simpa using h
    obtain ⟨hread, hskip⟩ := ih hfuel
    rw [List.flatMap_cons, List.append_assoc, characters_charText, skipCharacters_charText, hread,
      hskip]
    exact ⟨rfl, rfl⟩

theorem length_le_flatMap (cs : List Char) : cs.length ≤ (cs.flatMap charText).length := by
  induction cs with
  | nil => exact Nat.le_refl 0
  | cons c cs ih =>
    have hc : 0 < (charText c).length := List.length_pos_iff.mpr (charText_ne_nil c)
    rw [List.flatMap_cons, List.length_append, List.length_cons]
    omega

/-- A text is read up to its closing quotation mark. -/
theorem scanString_text (s : String) (rest : List Char) :
    Reading.scanString (s.toList.flatMap charText ++ '"' :: rest) = (.text (.ok s) none, rest) := by
  have hfuel : s.toList.length < (s.toList.flatMap charText ++ '"' :: rest).length + 1 := by
    have hlength := length_le_flatMap s.toList
    rw [List.length_append]
    omega
  obtain ⟨hread, hskip⟩ := characters_flatMap s.toList rest hfuel
  simp only [Reading.scanString, hread, hskip, Except.map, String.ofList_toList]

/-- Nothing follows that a number could go on with. -/
def Ends (rest : List Char) : Prop :=
  ∀ c ∈ rest.head?, isDigit c = false ∧ c ≠ '.' ∧ c ≠ 'e' ∧ c ≠ 'E'

theorem ends_nil : Ends [] := by
  simp [Ends]

theorem ends_cons {c : Char} (h : isDigit c = false ∧ c ≠ '.' ∧ c ≠ 'e' ∧ c ≠ 'E')
    (rest : List Char) : Ends (c :: rest) := by
  simpa [Ends] using h

theorem Ends.noDigit {rest : List Char} (h : Ends rest) : NoDigit rest := fun c hc => (h c hc).1

theorem decimalPart_none (x : Reading.Lexeme) {rest : List Char} (h : Ends rest) :
    Reading.decimalPart x rest = .ok (x, rest) := by
  cases rest with
  | nil => rfl
  | cons c rest =>
    obtain ⟨_, hpoint, he, he'⟩ := h c rfl
    simp [Reading.decimalPart, Reading.exponentPart, hpoint, he, he']

theorem addDigits_eq {n : Nat} {ds : List Char} (h : valueFrom n ds ≤ Reading.maxWhole) :
    Reading.addDigits n ds = (valueFrom n ds, []) := by
  induction ds generalizing n with
  | nil => rfl
  | cons d ds ih =>
    have hstep : 10 * n + digitValue d ≤ Reading.maxWhole :=
      Nat.le_trans (le_valueFrom _ ds) h
    rw [Reading.addDigits, if_pos hstep]
    exact ih h

theorem lexeme_toDigits (n : Nat) {rest : List Char} (h : Ends rest) :
    Reading.lexeme false (Nat.toDigits 10 n ++ rest) =
      .ok ({ negative := false, whole := Nat.toDigits 10 n }, rest) := by
  have hdigits : ∀ c ∈ Nat.toDigits 10 n, isDigit c = true := fun c => isDigit_of_mem_toDigits
  have htake := takeWhile_digits hdigits h.noDigit
  have hdrop := dropWhile_digits hdigits h.noDigit
  obtain ⟨d, ds, hds⟩ := List.exists_cons_of_ne_nil (Nat.toDigits_ne_nil (n := n) (b := 10))
  have hd : isDigit d = true := hdigits d (hds ▸ List.mem_cons_self)
  have hfront : Reading.digits1 (Nat.toDigits 10 n ++ rest) = .ok (Nat.toDigits 10 n, rest) := by
    rw [hds, List.cons_append] at htake hdrop ⊢
    simp only [Reading.digits1, hd, if_true, htake, hdrop]
  simp only [Reading.lexeme, hfront]
  split
  · rename_i d' ds' hzero
    exact absurd hzero (toDigits_ne_zero_cons d' ds')
  · exact decimalPart_none _ h

theorem scanNumber_toDigits {n : Nat} (hn : n ≤ Reading.maxWhole) {rest : List Char}
    (h : Ends rest) :
    Reading.scanNumber false (Nat.toDigits 10 n ++ rest) =
      (.number (.ok (.whole n)) none, rest) := by
  have hadd : Reading.addDigits 0 (Nat.toDigits 10 n) = (n, []) := by
    rw [addDigits_eq (by rwa [valueFrom_toDigits]), valueFrom_toDigits]
  simp [Reading.scanNumber, lexeme_toDigits n h, Reading.Lexeme.value, hadd]

/-- A text that is read as a value, whatever follows it. -/
structure Reads (cs : List Char) (r : Reading) : Prop where
  starts : ∃ c tail, cs = c :: tail ∧ Reading.isSpace c = false ∧ c ≠ ']'
  scan : ∀ fuel rest, Ends rest → 3 * cs.length ≤ fuel →
    Reading.scanValue fuel (cs ++ rest) = (r, rest)

theorem skipSpaces_cons {c : Char} (h : Reading.isSpace c = false) (cs : List Char) :
    Reading.skipSpaces (c :: cs) = c :: cs := by
  simp [Reading.skipSpaces, h]

theorem exists_fuel {k n fuel : Nat} (h : k ≤ n) (hn : n ≤ fuel) : ∃ more, fuel = more + k :=
  ⟨fuel - k, by omega⟩

theorem reads_null : Reads "null".toList .null where
  starts := ⟨'n', ['u', 'l', 'l'], rfl, rfl, by decide⟩
  scan fuel rest _ h := by
    obtain ⟨fuel, rfl⟩ := exists_fuel (k := 1) (by decide) h
    rfl

theorem reads_flag (b : Bool) : Reads (render (.flag b)) (.flag b) := by
  cases b with
  | true =>
    refine ⟨⟨'t', ['r', 'u', 'e'], rfl, rfl, by decide⟩, fun fuel rest _ h => ?_⟩
    obtain ⟨fuel, rfl⟩ := exists_fuel (k := 1) (by decide) h
    rfl
  | false =>
    refine ⟨⟨'f', ['a', 'l', 's', 'e'], rfl, rfl, by decide⟩, fun fuel rest _ h => ?_⟩
    obtain ⟨fuel, rfl⟩ := exists_fuel (k := 1) (by decide) h
    rfl

theorem isSpace_of_isDigit {c : Char} (h : isDigit c = true) : Reading.isSpace c = false := by
  have hne : ∀ d, isDigit d = false → c ≠ d := fun d hd heq => by simp [heq ▸ h] at hd
  simp [Reading.isSpace, hne ' ' (by decide), hne '\n' (by decide), hne '\t' (by decide),
    hne '\r' (by decide)]

theorem reads_nat {n : Nat} (hn : n ≤ Reading.maxWhole) :
    Reads (render (.nat n)) (readingOf (.nat n)) := by
  have htext : render (.nat n) = Nat.toDigits 10 n := by
    have hneg : ¬ (n : Int) < 0 := by omega
    simp [Json.nat, render, numeralText, wholeText, hneg]
  obtain ⟨d, ds, hds⟩ := List.exists_cons_of_ne_nil (Nat.toDigits_ne_nil (n := n) (b := 10))
  have hd : isDigit d = true := isDigit_of_mem_toDigits (hds ▸ List.mem_cons_self)
  have hne : ∀ c, isDigit c = false → d ≠ c := fun c hc heq => by simp [heq ▸ hd] at hc
  rw [htext]
  refine ⟨⟨d, ds, hds, isSpace_of_isDigit hd, hne ']' (by decide)⟩, fun fuel rest hrest h => ?_⟩
  obtain ⟨fuel, rfl⟩ := exists_fuel (k := 1) (by rw [hds, List.length_cons]; omega) h
  have hscan := scanNumber_toDigits hn hrest
  rw [hds, List.cons_append] at hscan ⊢
  simp only [Reading.scanValue, skipSpaces_cons (isSpace_of_isDigit hd), hd, hscan,
    hne 'n' (by decide), hne 't' (by decide), hne 'f' (by decide), hne '-' (by decide), if_false,
    if_true]
  rfl

theorem reads_text (s : String) : Reads (stringText s) (.text (.ok s) none) where
  starts := ⟨'"', s.toList.flatMap charText ++ ['"'], rfl, rfl, by decide⟩
  scan fuel rest _ h := by
    obtain ⟨fuel, rfl⟩ := exists_fuel (k := 1) (by simp [stringText]; omega) h
    have hscan := scanString_text s rest
    have htext : stringText s ++ rest = '"' :: (s.toList.flatMap charText ++ '"' :: rest) := by
      simp [stringText]
    rw [htext]
    exact hscan

section Items
variable {items : List Json}

theorem ends_renderMoreItems (items : List Json) (rest : List Char) :
    Ends (renderMoreItems items ++ rest) := by
  cases items with
  | nil => exact ends_cons (by decide) rest
  | cons j items => exact ends_cons (by decide) _

theorem scan_moreItems (h : ∀ j ∈ items, Reads (render j) (readingOf j)) (fuel : Nat)
    (hfuel : 3 * (renderMoreItems items).length ≤ fuel) (rest : List Char) :
    Reading.moreItems fuel (renderMoreItems items ++ rest) = (itemsOf items, rest) := by
  -- Each step of the scan takes a character at least, so three steps for each are enough.
  induction items generalizing fuel with
  | nil =>
    obtain ⟨fuel, rfl⟩ := exists_fuel (k := 1) (by decide) hfuel
    rfl
  | cons j items ih =>
    have hlength : (renderMoreItems (j :: items)).length =
        (render j).length + (renderMoreItems items).length + 1 := by
      simp [renderMoreItems]
    rw [hlength] at hfuel
    obtain ⟨fuel, rfl⟩ := exists_fuel (k := 2) (by omega) hfuel
    have hj := (h j List.mem_cons_self).scan fuel (renderMoreItems items ++ rest)
      (ends_renderMoreItems items rest) (by omega)
    have hitems := ih (fun i hi => h i (List.mem_cons_of_mem j hi)) fuel (by omega)
    have htext : renderMoreItems (j :: items) ++ rest =
        ',' :: (render j ++ (renderMoreItems items ++ rest)) := by
      simp [renderMoreItems]
    have hcomma : Reading.isSpace ',' = false := by decide
    rw [htext]
    simp [Reading.moreItems, skipSpaces_cons hcomma, Reading.item, hj, hitems, itemsOf]

theorem reads_list (h : ∀ j ∈ items, Reads (render j) (readingOf j)) :
    Reads (render (.list items)) (readingOf (.list items)) where
  starts := ⟨'[', renderItems items, rfl, rfl, by decide⟩
  scan fuel rest _ hfuel := by
    have hopen : Reading.isSpace '[' = false := by decide
    cases items with
    | nil =>
      obtain ⟨fuel, rfl⟩ := exists_fuel (k := 2) (by decide) hfuel
      rfl
    | cons j items =>
      have hlength : (render (.list (j :: items))).length =
          (render j).length + (renderMoreItems items).length + 1 := by
        simp [render, renderItems]
      rw [hlength] at hfuel
      obtain ⟨fuel, rfl⟩ := exists_fuel (k := 3) (by omega) hfuel
      obtain ⟨c, tail, hstart, hspace, hclose⟩ := (h j List.mem_cons_self).starts
      have hj := (h j List.mem_cons_self).scan fuel (renderMoreItems items ++ rest)
        (ends_renderMoreItems items rest) (by omega)
      have hitems := scan_moreItems (fun i hi => h i (List.mem_cons_of_mem j hi)) fuel
        (by omega) rest
      have htext : render (.list (j :: items)) ++ rest =
          '[' :: (render j ++ (renderMoreItems items ++ rest)) := by
        simp [render, renderItems]
      rw [htext]
      rw [hstart] at hj ⊢
      simp only [List.cons_append] at hj ⊢
      simp [Reading.scanValue, skipSpaces_cons hopen, Reading.firstItem, skipSpaces_cons hspace,
        hclose, Reading.item, hj, hitems, readingOf, itemsOf, isDigit]

end Items

section Members
variable {members : List (String × Json)}

theorem ends_renderMoreMembers (members : List (String × Json)) (rest : List Char) :
    Ends (renderMoreMembers members ++ rest) := by
  cases members with
  | nil => exact ends_cons (by decide) rest
  | cons m members => exact ends_cons (by decide) _

/-- What follows the key of a member, up to the end of the object. -/
theorem scan_member {j : Json} (hj : Reads (render j) (readingOf j)) (key : String) (fuel : Nat)
    (hfuel : 3 * ((render j).length + (renderMoreMembers members).length) + 1 ≤ fuel)
    (rest : List Char)
    (hmore : ∀ fuel, 3 * (renderMoreMembers members).length ≤ fuel →
      Reading.moreMembers fuel (renderMoreMembers members ++ rest) = (membersOf members, rest)) :
    Reading.member fuel (.text (.ok key) none)
        (':' :: (render j ++ (renderMoreMembers members ++ rest))) =
      (membersOf ((key, j) :: members), rest) := by
  obtain ⟨fuel, rfl⟩ := exists_fuel (k := 1) (by omega) hfuel
  have hcolon : Reading.isSpace ':' = false := by decide
  have hscan := hj.scan fuel (renderMoreMembers members ++ rest)
    (ends_renderMoreMembers members rest) (by omega)
  simp [Reading.member, skipSpaces_cons hcolon, hscan, hmore fuel (by omega), membersOf]

theorem scan_moreMembers (h : ∀ m ∈ members, Reads (render m.2) (readingOf m.2)) (fuel : Nat)
    (hfuel : 3 * (renderMoreMembers members).length ≤ fuel) (rest : List Char) :
    Reading.moreMembers fuel (renderMoreMembers members ++ rest) = (membersOf members, rest) := by
  induction members generalizing fuel with
  | nil =>
    obtain ⟨fuel, rfl⟩ := exists_fuel (k := 1) (by decide) hfuel
    rfl
  | cons m members ih =>
    obtain ⟨key, j⟩ := m
    have hlength : (render j).length + (renderMoreMembers members).length + 1 ≤
        (renderMoreMembers ((key, j) :: members)).length := by
      simp [renderMoreMembers]
      omega
    obtain ⟨fuel, rfl⟩ := exists_fuel (k := 1) (by omega) hfuel
    have hj : Reads (render j) (readingOf j) := h (key, j) List.mem_cons_self
    have hmember := scan_member hj key fuel (by omega) rest fun fuel hfuel =>
      ih (fun m hm => h m (List.mem_cons_of_mem _ hm)) fuel hfuel
    have hkey := scanString_text key (':' :: (render j ++ (renderMoreMembers members ++ rest)))
    have htext : renderMoreMembers ((key, j) :: members) ++ rest =
        ',' :: '"' :: (key.toList.flatMap charText ++
          '"' :: ':' :: (render j ++ (renderMoreMembers members ++ rest))) := by
      simp [renderMoreMembers, stringText]
    have hcomma : Reading.isSpace ',' = false := by decide
    have hquote : Reading.isSpace '"' = false := by decide
    rw [htext]
    simp [Reading.moreMembers, skipSpaces_cons hcomma, skipSpaces_cons hquote, hkey, hmember]

theorem reads_object (h : ∀ m ∈ members, Reads (render m.2) (readingOf m.2)) :
    Reads (render (.object members)) (readingOf (.object members)) where
  starts := ⟨'\x7b', renderMembers members, rfl, rfl, by decide⟩
  scan fuel rest _ hfuel := by
    have hopen : Reading.isSpace '\x7b' = false := by decide
    cases members with
    | nil =>
      obtain ⟨fuel, rfl⟩ := exists_fuel (k := 2) (by decide) hfuel
      rfl
    | cons m members =>
      obtain ⟨key, j⟩ := m
      have hlength : (render j).length + (renderMoreMembers members).length + 2 ≤
          (render (.object ((key, j) :: members))).length := by
        simp [render, renderMembers]
      obtain ⟨fuel, rfl⟩ := exists_fuel (k := 2) (by omega) hfuel
      have hj : Reads (render j) (readingOf j) := h (key, j) List.mem_cons_self
      have hmember := scan_member hj key fuel (by omega) rest fun fuel hfuel =>
        scan_moreMembers (fun m hm => h m (List.mem_cons_of_mem _ hm)) fuel hfuel rest
      have hkey := scanString_text key (':' :: (render j ++ (renderMoreMembers members ++ rest)))
      have htext : render (.object ((key, j) :: members)) ++ rest =
          '\x7b' :: '"' :: (key.toList.flatMap charText ++
            '"' :: ':' :: (render j ++ (renderMoreMembers members ++ rest))) := by
        simp [render, renderMembers, stringText]
      have hquote : Reading.isSpace '"' = false := by decide
      rw [htext]
      simp [Reading.scanValue, skipSpaces_cons hopen, Reading.firstMember, skipSpaces_cons hquote,
        hkey, hmember, readingOf, isDigit]

end Members

/-- A whole text is read as its value, with nothing after it. -/
theorem read_render {j : Json} (h : Reads (render j) (readingOf j)) :
    Document.read (String.ofList (render j)) = ⟨readingOf j, false⟩ := by
  have hscan := h.scan (Reading.fuelFor (render j)) [] ends_nil (by
    simp only [Reading.fuelFor]
    omega)
  rw [List.append_nil] at hscan
  simp only [Document.read, String.toList_ofList, hscan]
  rfl

end PatternHooks.JsonText

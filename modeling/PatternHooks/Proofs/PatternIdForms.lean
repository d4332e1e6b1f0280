import Mathlib.Data.Bool.AllAny
import Mathlib.Data.List.Induction
import PatternHooks.Proofs.LosslessFormats

/-!
The texts that name identifiers. Thirty-two hexadecimal digits, in letters of any case, stand for an
identifier; a text spells them bare, in five groups, in braces, or after the scheme name. These are
all texts that name one, and what they name depends on the digits alone, and not on the case of
their letters.
-/

namespace PatternHooks.PatternIdForms

open PatternId PatternIdText Text

def alphabet : List Char := "0123456789abcdef".toList

/-- Thirty-two hexadecimal digits, with letters in any case. -/
structure Digits (ds : List Char) : Prop where
  length : ds.length = 32
  hex : ∀ c ∈ ds, c.toLower ∈ alphabet

/-- The digits in five groups, between which hyphens stand. -/
def Grouped (ds cs : List Char) : Prop :=
  Digits ds ∧ ∃ g₁ g₂ g₃ g₄ g₅, ds = g₁ ++ g₂ ++ g₃ ++ g₄ ++ g₅ ∧
    [g₁, g₂, g₃, g₄, g₅].map List.length = [8, 4, 4, 4, 12] ∧
    cs = g₁ ++ '-' :: g₂ ++ '-' :: g₃ ++ '-' :: g₄ ++ '-' :: g₅

/-- The texts that spell some digits. -/
inductive Spells (ds : List Char) : List Char → Prop
  | bare (h : Digits ds) : Spells ds ds
  | grouped {cs : List Char} (h : Grouped ds cs) : Spells ds cs
  | braced {cs : List Char} (h : Grouped ds cs) : Spells ds ('\x7b' :: cs ++ ['\x7d'])
  | named {name cs : List Char} (hname : name.map Char.toLower = "urn:uuid:".toList)
      (h : Grouped ds cs) : Spells ds (name ++ cs)

theorem forall_ascii {P : Char → Prop} (h : ∀ n : Fin 128, P (Char.ofNat n)) {c : Char}
    (hc : c.toNat < 128) : P c := by
  have hn := h ⟨c.toNat, hc⟩
  rwa [Char.ofNat_toNat] at hn

theorem toNat_lt_of_toLower {c : Char} (h : c.toLower.toNat < 128) : c.toNat < 128 := by
  unfold Char.toLower at h
  split at h
  · rename_i hupper
    have hz : c.toNat ≤ 'Z'.toNat := hupper.2
    exact Nat.lt_of_le_of_lt hz (by decide)
  · exact h

theorem utf8Size_of_toLower {c : Char} (h : c.toLower.toNat < 128) : c.utf8Size = 1 :=
  forall_ascii (P := fun c => c.utf8Size = 1) (by decide) (toNat_lt_of_toLower h)

theorem toNat_lt_of_hexValue? {c : Char} {d : Nat} (h : hexValue? c = some d) : c.toNat < 128 := by
  have hbelow : ∀ {b : Char}, b.toNat < 128 → c ≤ b → c.toNat < 128 := fun hb hle =>
    Nat.lt_of_le_of_lt hle hb
  unfold hexValue? at h
  split at h
  · rename_i hdigit
    simp only [isDigit, Bool.and_eq_true, decide_eq_true_eq] at hdigit
    exact hbelow (by decide) hdigit.2
  split at h
  · rename_i hsmall
    exact hbelow (by decide) hsmall.2
  split at h
  · rename_i hcapital
    exact hbelow (by decide) hcapital.2
  · cases h

/-- The value of a digit is the same for letters of either case. -/
theorem hexValue?_eq_some_iff {c : Char} {d : Nat} :
    hexValue? c = some d ↔ d < 16 ∧ hexDigit d = c.toLower := by
  constructor
  · intro h
    have hall : ∀ d ∈ hexValue? c, d < 16 ∧ hexDigit d = c.toLower :=
      forall_ascii (P := fun c => ∀ d ∈ hexValue? c, d < 16 ∧ hexDigit d = c.toLower)
        (by decide +kernel) (toNat_lt_of_hexValue? h)
    exact hall d h
  · intro h
    obtain ⟨hd, hdigit⟩ := h
    have hascii : ∀ d : Fin 16, (hexDigit d).toNat < 128 := by decide
    have hlower : c.toLower.toNat < 128 := hdigit ▸ hascii ⟨d, hd⟩
    have hall : ∀ d : Fin 16, hexDigit d = c.toLower → hexValue? c = some d.val :=
      forall_ascii (P := fun c => ∀ d : Fin 16, hexDigit d = c.toLower → hexValue? c = some d.val)
        (by decide +kernel) (toNat_lt_of_toLower hlower)
    exact hall ⟨d, hd⟩ hdigit

theorem mem_alphabet_iff {c : Char} : c.toLower ∈ alphabet ↔ ∃ d, hexValue? c = some d := by
  have halphabet : alphabet = (List.range 16).map hexDigit := by decide
  simp only [halphabet, List.mem_map, List.mem_range, hexValue?_eq_some_iff]

theorem exists_readHex_iff {n : Nat} {ds : List Char} :
    (∃ m, readHex n ds = some m) ↔ ∀ c ∈ ds, c.toLower ∈ alphabet := by
  induction ds generalizing n with
  | nil => simp [readHex]
  | cons c ds ih =>
    rw [List.forall_mem_cons, mem_alphabet_iff]
    cases hc : hexValue? c with
    | none => simp [readHex, hc]
    | some d => simpa [readHex, hc] using ih

/-- The digits of the number that digits stand for are these digits, in small letters. -/
theorem hexDigits_of_readHex {ds : List Char} {n : Nat} (h : readHex 0 ds = some n) :
    n < 16 ^ ds.length ∧ hexDigits n ds.length = ds.map Char.toLower := by
  induction ds using List.reverseRecOn generalizing n with
  | nil =>
    cases h
    exact ⟨Nat.one_pos, rfl⟩
  | append_singleton ds c ih =>
    rw [readHex_append, Option.bind_eq_some_iff] at h
    obtain ⟨m, hm, hn⟩ := h
    obtain ⟨hlt, hdigits⟩ := ih hm
    cases hc : hexValue? c with
    | none => simp [readHex, hc] at hn
    | some d =>
      obtain ⟨hd, hdigit⟩ := hexValue?_eq_some_iff.mp hc
      obtain rfl : 16 * m + d = n := by simpa [readHex, hc] using hn
      have hhigh : (16 * m + d) / 16 = m := by omega
      have hlow : (16 * m + d) % 16 = d := by omega
      rw [List.length_append, List.length_singleton, hexDigits, hhigh, hlow, hdigits, hdigit,
        List.map_append, List.map_singleton, Nat.pow_succ]
      exact ⟨by omega, rfl⟩

theorem exists_ofDigits?_iff {ds : List Char} : (∃ id, ofDigits? ds = some id) ↔ Digits ds := by
  unfold ofDigits?
  constructor
  · intro h
    obtain ⟨id, hid⟩ := h
    split at hid
    · rename_i hlength
      obtain ⟨n, hn, _⟩ := Option.map_eq_some_iff.mp hid
      exact ⟨hlength, exists_readHex_iff.mp ⟨n, hn⟩⟩
    · cases hid
  · intro h
    obtain ⟨n, hn⟩ := exists_readHex_iff.mpr h.hex
    exact ⟨_, by rw [if_pos h.length, hn, Option.map_some]⟩

/-- The identifier for some digits is written with these digits, in small letters. -/
theorem text_of_ofDigits? {ds : List Char} {id : PatternId} (h : ofDigits? ds = some id) :
    id.text = hyphenate groups (ds.map Char.toLower) := by
  unfold ofDigits? at h
  split at h
  · rename_i hlength
    obtain ⟨n, hn, rfl⟩ := Option.map_eq_some_iff.mp h
    obtain ⟨hlt, hdigits⟩ := hexDigits_of_readHex hn
    rw [hlength] at hlt hdigits
    have hbits : (BitVec.ofNat 128 n).toNat = n := by
      rw [BitVec.toNat_ofNat]
      exact Nat.mod_eq_of_lt hlt
    rw [text, hbits, hdigits]
  · cases h

theorem size_eq_length {cs : List Char} (h : ∀ c ∈ cs, c.toLower.toNat < 128) :
    size cs = cs.length := by
  induction cs with
  | nil => rfl
  | cons c cs ih =>
    obtain ⟨hc, hrest⟩ := List.forall_mem_cons.mp h
    rw [size_cons, utf8Size_of_toLower hc, ih hrest, List.length_cons, Nat.add_comm]

theorem Digits.size_eq {ds : List Char} (h : Digits ds) : size ds = 32 := by
  have hascii : ∀ c ∈ alphabet, c.toNat < 128 := List.all_iff_forall_prop.mp (by decide)
  rw [size_eq_length fun c hc => hascii _ (h.hex c hc), h.length]

theorem hyphenate_append (ns : List Nat) (g cs : List Char) :
    hyphenate (g.length :: ns) (g ++ cs) = g ++ '-' :: hyphenate ns cs := by
  rw [hyphenate, List.take_left, List.drop_left]

theorem eq_hyphenate_of_unhyphenate? {ns : List Nat} {cs ds : List Char}
    (h : unhyphenate? ns cs = some ds) : cs = hyphenate ns ds := by
  induction ns generalizing cs ds with
  | nil => exact Option.some.inj h
  | cons n ns ih =>
    unfold unhyphenate? at h
    split at h
    · rename_i rest hrest
      obtain ⟨tail, htail, rfl⟩ := Option.map_eq_some_iff.mp h
      have hlength : (cs.take n).length = n := by
        refine List.length_take_of_le (Nat.le_of_lt ?_)
        refine Nat.lt_of_not_le fun hle => ?_
        rw [List.drop_eq_nil_of_le hle] at hrest
        cases hrest
      have hgroup := hyphenate_append ns (cs.take n) tail
      rw [hlength, ← ih htail, ← hrest, List.take_append_drop] at hgroup
      exact hgroup.symm
    · cases h

theorem exists_group (n : Nat) {cs : List Char} (h : n ≤ cs.length) :
    ∃ g rest, cs = g ++ rest ∧ g.length = n ∧ rest.length = cs.length - n :=
  ⟨cs.take n, cs.drop n, (List.take_append_drop n cs).symm, List.length_take_of_le h,
    List.length_drop⟩

theorem hyphenate_groups {g₁ g₂ g₃ g₄ : List Char} (g₅ : List Char) (h₁ : g₁.length = 8)
    (h₂ : g₂.length = 4) (h₃ : g₃.length = 4) (h₄ : g₄.length = 4) :
    hyphenate groups (g₁ ++ g₂ ++ g₃ ++ g₄ ++ g₅) =
      g₁ ++ '-' :: g₂ ++ '-' :: g₃ ++ '-' :: g₄ ++ '-' :: g₅ := by
  have hgroups : groups = [g₁.length, g₂.length, g₃.length, g₄.length] := by
    rw [h₁, h₂, h₃, h₄, groups]
  rw [hgroups]
  simp only [List.append_assoc, List.cons_append]
  rw [hyphenate_append, hyphenate_append, hyphenate_append, hyphenate_append, hyphenate]

theorem grouped_iff {ds cs : List Char} : Grouped ds cs ↔ Digits ds ∧ cs = hyphenate groups ds := by
  constructor
  · intro h
    obtain ⟨hds, g₁, g₂, g₃, g₄, g₅, rfl, hlengths, rfl⟩ := h
    simp only [List.map_cons, List.map_nil, List.cons.injEq, and_true] at hlengths
    obtain ⟨h₁, h₂, h₃, h₄, _⟩ := hlengths
    exact ⟨hds, (hyphenate_groups g₅ h₁ h₂ h₃ h₄).symm⟩
  · intro h
    obtain ⟨hds, rfl⟩ := h
    refine ⟨hds, ?_⟩
    have hlength := hds.length
    obtain ⟨g₁, r₁, rfl, h₁, hr₁⟩ := exists_group 8 (show 8 ≤ ds.length by omega)
    obtain ⟨g₂, r₂, rfl, h₂, hr₂⟩ := exists_group 4 (show 4 ≤ r₁.length by omega)
    obtain ⟨g₃, r₃, rfl, h₃, hr₃⟩ := exists_group 4 (show 4 ≤ r₂.length by omega)
    obtain ⟨g₄, g₅, rfl, h₄, hr₄⟩ := exists_group 4 (show 4 ≤ r₃.length by omega)
    have h₅ : g₅.length = 12 := by omega
    refine ⟨g₁, g₂, g₃, g₄, g₅, by simp only [List.append_assoc], ?_, ?_⟩
    · simp only [List.map_cons, List.map_nil, h₁, h₂, h₃, h₄, h₅]
    · rw [← hyphenate_groups g₅ h₁ h₂ h₃ h₄]
      simp only [List.append_assoc]

theorem ofGroups?_eq_some_iff {cs : List Char} {id : PatternId} :
    ofGroups? cs = some id ↔ ∃ ds, Grouped ds cs ∧ ofDigits? ds = some id := by
  rw [ofGroups?, Option.bind_eq_some_iff]
  constructor
  · intro h
    obtain ⟨ds, hds, hid⟩ := h
    have hdigits : Digits ds := exists_ofDigits?_iff.mp ⟨id, hid⟩
    exact ⟨ds, grouped_iff.mpr ⟨hdigits, eq_hyphenate_of_unhyphenate? hds⟩, hid⟩
  · intro h
    obtain ⟨ds, hgrouped, hid⟩ := h
    obtain ⟨hdigits, rfl⟩ := grouped_iff.mp hgrouped
    have hsum : groups.sum ≤ ds.length := by
      rw [hdigits.length]
      decide
    exact ⟨ds, unhyphenate?_hyphenate groups ds hsum, hid⟩

theorem Grouped.size_eq {ds cs : List Char} (h : Grouped ds cs) : size cs = 36 := by
  obtain ⟨hdigits, rfl⟩ := grouped_iff.mp h
  rw [size_hyphenate, hdigits.size_eq]
  rfl

theorem stripBraces?_eq_some_iff {cs inner : List Char} :
    stripBraces? cs = some inner ↔ cs = '\x7b' :: inner ++ ['\x7d'] := by
  constructor
  · intro h
    unfold stripBraces? at h
    split at h
    · rename_i rest
      split at h
      · rename_i hlast
        obtain ⟨init, rfl⟩ := List.getLast?_eq_some_iff.mp hlast
        rw [List.dropLast_concat, Option.some.injEq] at h
        rw [h, List.cons_append]
      · cases h
    · cases h
  · intro h
    subst h
    simp [stripBraces?]

theorem stripScheme?_eq_some_iff {cs inner : List Char} :
    stripScheme? cs = some inner ↔
      ∃ name, name.map Char.toLower = scheme ∧ cs = name ++ inner := by
  unfold stripScheme?
  constructor
  · intro h
    split at h
    · rename_i hname
      cases h
      exact ⟨cs.take scheme.length, hname, (List.take_append_drop scheme.length cs).symm⟩
    · cases h
  · intro h
    obtain ⟨name, hname, rfl⟩ := h
    have hlength : name.length = scheme.length := by rw [← hname, List.length_map]
    rw [List.take_left' hlength, List.drop_left' hlength, if_pos hname]

theorem size_of_scheme {name : List Char} (h : name.map Char.toLower = scheme) :
    size name = 9 := by
  have hascii : ∀ c ∈ scheme, c.toNat < 128 := List.all_iff_forall_prop.mp (by decide)
  have hlength : scheme.length = 9 := by decide
  have hname : ∀ c ∈ name, c.toLower.toNat < 128 := fun c hc =>
    hascii _ (h ▸ List.mem_map_of_mem hc)
  rw [size_eq_length hname, ← hlength, ← h, List.length_map]

/-- A text that spells some digits names the identifier for them. -/
theorem Spells.read_eq {ds cs : List Char} {id : PatternId} (h : Spells ds cs)
    (hid : ofDigits? ds = some id) : PatternId.read cs = .ok id := by
  have hmeant : ∀ {inner : List Char}, Grouped ds inner → groupsOf? cs = some inner →
      PatternId.read cs = .ok id := by
    intro inner hinner hcs
    have hgroups : ofGroups? inner = some id := ofGroups?_eq_some_iff.mpr ⟨ds, hinner, hid⟩
    simp only [PatternId.read, hcs, hgroups]
  cases h with
  | bare hds =>
    have hnone : groupsOf? ds = none := by
      simp only [groupsOf?, hds.size_eq]
    simp only [PatternId.read, hnone, hid]
  | grouped hcs =>
    refine hmeant hcs ?_
    simp only [groupsOf?, hcs.size_eq]
  | braced hinner =>
    refine hmeant hinner ?_
    have hsize : ∀ inner : List Char, size ('\x7b' :: inner ++ ['\x7d']) = size inner + 2 := by
      intro inner
      have hopen : '\x7b'.utf8Size = 1 := by decide
      have hclose : '\x7d'.utf8Size = 1 := by decide
      rw [size_append, size_cons, size_cons, size_nil, hopen, hclose]
      omega
    simp only [groupsOf?, hsize, hinner.size_eq]
    exact stripBraces?_eq_some_iff.mpr rfl
  | named hname hinner =>
    refine hmeant hinner ?_
    simp only [groupsOf?, size_append, size_of_scheme hname, hinner.size_eq]
    exact stripScheme?_eq_some_iff.mpr ⟨_, hname, rfl⟩

theorem exists_spells_of_groupsOf? {ds cs inner : List Char} (h : groupsOf? cs = some inner)
    (hinner : Grouped ds inner) : Spells ds cs := by
  unfold groupsOf? at h
  split at h
  · cases h
    exact .grouped hinner
  · rw [stripBraces?_eq_some_iff.mp h]
    exact .braced hinner
  · obtain ⟨name, hname, rfl⟩ := stripScheme?_eq_some_iff.mp h
    exact .named hname hinner
  · cases h

/-- A text that names an identifier spells the digits of it. -/
theorem exists_spells_of_read {cs : List Char} {id : PatternId} (h : PatternId.read cs = .ok id) :
    ∃ ds, Spells ds cs ∧ ofDigits? ds = some id := by
  unfold PatternId.read at h
  split at h
  · rename_i inner hmeant
    split at h
    · rename_i hgroups
      cases h
      obtain ⟨ds, hinner, hid⟩ := ofGroups?_eq_some_iff.mp hgroups
      exact ⟨ds, exists_spells_of_groupsOf? hmeant hinner, hid⟩
    · cases h
  · split at h
    · rename_i hdigits
      cases h
      exact ⟨cs, .bare (exists_ofDigits?_iff.mp ⟨id, hdigits⟩), hdigits⟩
    · cases h

theorem Digits.map_toLower {ds : List Char} (h : Digits ds) : Digits (ds.map Char.toLower) where
  length := by rw [List.length_map, h.length]
  hex c hc := by
    obtain ⟨d, hd, rfl⟩ := List.mem_map.mp hc
    have hlower : ∀ c ∈ alphabet, c.toLower ∈ alphabet :=
      List.all_iff_forall_prop.mp (by decide)
    exact hlower _ (h.hex d hd)

theorem grouped_display {ds : List Char} {id : PatternId} (h : ofDigits? ds = some id) :
    Grouped (ds.map Char.toLower) id.display.toList := by
  have hds : Digits ds := exists_ofDigits?_iff.mp ⟨id, h⟩
  rw [display, String.toList_ofList, text_of_ofDigits? h]
  exact grouped_iff.mpr ⟨hds.map_toLower, rfl⟩

theorem Spells.digits {ds cs : List Char} (h : Spells ds cs) : Digits ds := by
  cases h with
  | bare hds => exact hds
  | grouped hcs => exact hcs.1
  | braced hinner => exact hinner.1
  | named _ hinner => exact hinner.1

theorem hyphenate_groups_inj {ds ds' : List Char} (h : Digits ds) (h' : Digits ds')
    (heq : hyphenate groups ds = hyphenate groups ds') : ds = ds' := by
  have hback : ∀ {ds}, Digits ds → unhyphenate? groups (hyphenate groups ds) = some ds := by
    intro ds hds
    apply unhyphenate?_hyphenate
    rw [hds.length]
    decide
  have hds := hback h
  rw [heq, hback h'] at hds
  exact (Option.some.inj hds).symm

theorem eq_iff_of_ofDigits? {ds ds' : List Char} {id id' : PatternId} (h : ofDigits? ds = some id)
    (h' : ofDigits? ds' = some id') :
    id = id' ↔ ds.map Char.toLower = ds'.map Char.toLower := by
  have hds : Digits ds := exists_ofDigits?_iff.mp ⟨id, h⟩
  have hds' : Digits ds' := exists_ofDigits?_iff.mp ⟨id', h'⟩
  constructor
  · rintro rfl
    apply hyphenate_groups_inj hds.map_toLower hds'.map_toLower
    rw [← text_of_ofDigits? h, text_of_ofDigits? h']
  · intro hlower
    have hdisplay : id.display = id'.display := by
      rw [display, display, text_of_ofDigits? h, text_of_ofDigits? h', hlower]
    have hparse := parse_display id
    rw [hdisplay, parse_display id'] at hparse
    exact (Except.ok.inj hparse).symm

section Values
open Json

theorem checkText_eq_ok_iff {r : Json.Reading} {title : String}
    {normal : String → Except String String} {j : Json} : r.checkText title normal = .ok j ↔
      ∃ s skipped t, r = .text (.ok s) skipped ∧ normal s = .ok t ∧ j = .text t := by
  constructor
  · intro h
    unfold Json.Reading.checkText at h
    split at h
    · rename_i s skipped
      split at h
      · rename_i t ht
        cases h
        exact ⟨s, skipped, t, rfl, ht, rfl⟩
      · cases h
    · cases h
  · intro h
    obtain ⟨s, skipped, t, rfl, ht, rfl⟩ := h
    simp only [Json.Reading.checkText, ht]

/-- A value is checked as a text when it is a text that has a normal form. -/
theorem check_text_eq_ok_iff {d : Document} {title : String}
    {normal : String → Except String String} {j : Json} : d.check (.text title normal) = .ok j ↔
      d.trailing = false ∧
        ∃ s skipped t, d.root = .text (.ok s) skipped ∧ normal s = .ok t ∧ j = .text t := by
  rw [← checkText_eq_ok_iff, Document.check, Json.Reading.check]
  constructor
  · intro h
    split at h
    · cases h
    · rename_i hchecked
      split at h
      · cases h
      · rename_i htrailing
        cases h
        exact ⟨Bool.eq_false_iff.mpr htrailing, hchecked⟩
  · intro h
    obtain ⟨htrailing, hchecked⟩ := h
    simp [hchecked, htrailing]

theorem read_textFormat_eq_ok_iff {text s : String} : textFormat.read text = .ok s ↔
    (Document.read text).trailing = false ∧
      ∃ skipped, (Document.read text).root = .text (.ok s) skipped := by
  unfold Format.read
  constructor
  · intro h
    split at h
    · cases h
    · rename_i j hchecked
      obtain ⟨htrailing, t, skipped, _, hroot, hnormal, rfl⟩ := check_text_eq_ok_iff.mp hchecked
      cases hnormal
      cases h
      exact ⟨htrailing, skipped, hroot⟩
  · intro h
    obtain ⟨htrailing, skipped, hroot⟩ := h
    have hchecked : (Document.read text).check textFormat.schema = .ok (.text s) :=
      check_text_eq_ok_iff.mpr ⟨htrailing, s, skipped, s, hroot, rfl, rfl⟩
    rw [hchecked]
    rfl

theorem decode?_display (id : PatternId) :
    patternIdFormat.decode? (.text id.display) = some id := by
  simp [patternIdFormat, text?, parse_display, Except.toOption]

/-- The values read as identifiers are the texts that name one. -/
theorem read_patternIdFormat_eq_ok_iff {text : String} {id : PatternId} :
    patternIdFormat.read text = .ok id ↔
      ∃ s, textFormat.read text = .ok s ∧ PatternId.parse s = .ok id := by
  simp only [read_textFormat_eq_ok_iff]
  unfold Format.read
  constructor
  · intro h
    split at h
    · cases h
    · rename_i j hchecked
      obtain ⟨htrailing, s, skipped, t, hroot, hnormal, rfl⟩ := check_text_eq_ok_iff.mp hchecked
      refine ⟨s, ⟨htrailing, skipped, hroot⟩, ?_⟩
      cases hparse : PatternId.parse s with
      | error e => simp only [hparse, reduceCtorEq] at hnormal
      | ok named =>
        simp only [hparse, Except.ok.injEq] at hnormal
        simp only [← hnormal, decode?_display, Except.ok.injEq] at h
        rw [h]
  · intro h
    obtain ⟨s, ⟨htrailing, skipped, hroot⟩, hid⟩ := h
    have hchecked : (Document.read text).check patternIdFormat.schema =
        .ok (.text id.display) :=
      check_text_eq_ok_iff.mpr ⟨htrailing, s, skipped, id.display, hroot, by rw [hid], rfl⟩
    simp only [hchecked, decode?_display]

theorem read_write_textFormat_eq_ok_iff {s : String} {id : PatternId} :
    patternIdFormat.read (textFormat.write s) = .ok id ↔ PatternId.parse s = .ok id := by
  rw [read_patternIdFormat_eq_ok_iff, (LosslessFormats.faithful_text s).read_write]
  simp only [Except.ok.injEq, exists_eq_left']

end Values

/-- Texts that spell digits name identifiers, which are the same just when the digits are. -/
theorem exists_parse_of_spells {s s' : String} {ds ds' : List Char} (h : Spells ds s.toList)
    (h' : Spells ds' s'.toList) : ∃ id id', PatternId.parse s = .ok id ∧
      PatternId.parse s' = .ok id' ∧ (id = id' ↔ ds.map Char.toLower = ds'.map Char.toLower) := by
  obtain ⟨id, hid⟩ := exists_ofDigits?_iff.mpr h.digits
  obtain ⟨id', hid'⟩ := exists_ofDigits?_iff.mpr h'.digits
  exact ⟨id, id', h.read_eq hid, h'.read_eq hid', eq_iff_of_ofDigits? hid hid'⟩

theorem grouped_display_of_spells {s : String} {ds : List Char} {id : PatternId}
    (h : Spells ds s.toList) (hid : PatternId.parse s = .ok id) :
    Grouped (ds.map Char.toLower) id.display.toList := by
  obtain ⟨id', hdigits⟩ := exists_ofDigits?_iff.mpr h.digits
  have hparse : PatternId.parse s = .ok id' := h.read_eq hdigits
  rw [hid, Except.ok.injEq] at hparse
  exact grouped_display (hparse ▸ hdigits)

theorem exists_grouped_display (id : PatternId) :
    ∃ ds, (∀ c ∈ ds, c ∈ alphabet) ∧ Grouped ds id.display.toList := by
  obtain ⟨ds, hspells, hid⟩ := exists_spells_of_read (parse_display id)
  refine ⟨ds.map Char.toLower, ?_, grouped_display hid⟩
  intro c hc
  obtain ⟨d, hd, rfl⟩ := List.mem_map.mp hc
  exact hspells.digits.hex d hd

/-- The texts that name an identifier are those that spell thirty-two digits. Spellings of the same
digits, in letters of any case, name one identifier, and spellings of different digits name
different ones; it is written in groups of small digits, and that text names it again. A value is
read as an identifier just when it is a text that names this one, and any text can be written as a
value. -/
theorem spelled_digits_are_identifiers :
    (∀ s, (∃ id, PatternId.parse s = .ok id) ↔ ∃ ds, Spells ds s.toList) ∧
    (∀ s s' ds ds', Spells ds s.toList → Spells ds' s'.toList → ∃ id id',
      PatternId.parse s = .ok id ∧ PatternId.parse s' = .ok id' ∧
        (id = id' ↔ ds.map Char.toLower = ds'.map Char.toLower)) ∧
    (∀ s ds id, Spells ds s.toList → PatternId.parse s = .ok id →
      Grouped (ds.map Char.toLower) id.display.toList) ∧
    (∀ id : PatternId, ∃ ds, (∀ c ∈ ds, c ∈ alphabet) ∧ Grouped ds id.display.toList) ∧
    (∀ id : PatternId, PatternId.parse id.display = .ok id) ∧
    (∀ text id, Json.patternIdFormat.read text = .ok id ↔
      ∃ s, Json.textFormat.read text = .ok s ∧ PatternId.parse s = .ok id) ∧
    ∀ s id, Json.patternIdFormat.read (Json.textFormat.write s) = .ok id ↔
      PatternId.parse s = .ok id := by
  refine ⟨fun s => ⟨?_, ?_⟩, fun s s' ds ds' => exists_parse_of_spells,
    fun s ds id => grouped_display_of_spells, exists_grouped_display, parse_display,
    fun text id => read_patternIdFormat_eq_ok_iff, fun s id => read_write_textFormat_eq_ok_iff⟩
  · intro h
    obtain ⟨id, hid⟩ := h
    obtain ⟨ds, hds, _⟩ := exists_spells_of_read hid
    exact ⟨ds, hds⟩
  · intro h
    obtain ⟨ds, hds⟩ := h
    obtain ⟨id, _, hid, _⟩ := exists_parse_of_spells hds hds
    exact ⟨id, hid⟩

/-- Capital and small letters, in braces and after the scheme name, name one identifier. -/
theorem spelled_digits_are_identifiers_letter_case :
    ∃ id, PatternId.parse "\x7b67E55044-10B1-426F-9247-BB680E5FE0C8\x7d" = .ok id ∧
      PatternId.parse "URN:Uuid:67e55044-10b1-426f-9247-bb680e5fe0c8" = .ok id ∧
      Grouped "67e5504410b1426f9247bb680e5fe0c8".toList id.display.toList := by
  have hcapital : Spells "67E5504410B1426F9247BB680E5FE0C8".toList
      "\x7b67E55044-10B1-426F-9247-BB680E5FE0C8\x7d".toList :=
    .braced ⟨⟨by decide, List.all_iff_forall_prop.mp (by decide)⟩, "67E55044".toList,
      "10B1".toList, "426F".toList, "9247".toList, "BB680E5FE0C8".toList, by decide, by decide, rfl⟩
  have hname : "URN:Uuid:".toList.map Char.toLower = "urn:uuid:".toList := by decide
  have hsmall : Spells "67e5504410b1426f9247bb680e5fe0c8".toList
      "URN:Uuid:67e55044-10b1-426f-9247-bb680e5fe0c8".toList :=
    .named hname ⟨⟨by decide, List.all_iff_forall_prop.mp (by decide)⟩, "67e55044".toList,
      "10b1".toList, "426f".toList, "9247".toList, "bb680e5fe0c8".toList, by decide, by decide, rfl⟩
  obtain ⟨_, hsame, hdisplay, _⟩ := spelled_digits_are_identifiers
  obtain ⟨id, id', hid, hid', heq⟩ := hsame _ _ _ _ hcapital hsmall
  obtain rfl : id = id' := heq.mpr (by decide)
  exact ⟨id, hid, hid', hdisplay _ _ _ hsmall hid'⟩

end PatternHooks.PatternIdForms

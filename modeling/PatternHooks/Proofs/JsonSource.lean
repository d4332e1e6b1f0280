import Mathlib.Data.List.TakeWhile
import PatternHooks.Proofs.JsonText

/-!
JSON as anyone may write it: numbers in any notation, texts with any escapes, blanks between any two
tokens. What is written so is read as it is meant, whatever its size and depth, and those who skip
it meet no problem.
-/

namespace PatternHooks.JsonSource

open DigitText Json JsonText Text

/-- Four hexadecimal digits that stand for a number. -/
def Quad (n : Nat) (ds : List Char) : Prop := ds.length = 4 ∧ hexadecimalValue? ds = some n

/-- Ways to write characters between quotation marks: as they are, with an escape of one letter, by
a code of four digits, or by two codes for a character beyond sixteen bits. -/
inductive Spells : List Char → List Char → Prop
  | nil : Spells [] []
  | plain {c : Char} {cs body : List Char} (hquote : c ≠ '"') (hslash : c ≠ '\\')
      (hcontrol : ¬ c.toNat < 0x20) (h : Spells cs body) : Spells (c :: cs) (c :: body)
  | letter {c letter : Char} {cs body : List Char}
      (hletter : Reading.letterEscape? letter = some c) (h : Spells cs body) :
      Spells (c :: cs) ('\\' :: letter :: body)
  | code {c : Char} {ds cs body : List Char} (hds : Quad c.toNat ds) (h : Spells cs body) :
      Spells (c :: cs) ('\\' :: 'u' :: (ds ++ body))
  | pair {c : Char} {high low : Nat} {ds es cs body : List Char} (hds : Quad high ds)
      (hes : Quad low es) (hhigh : 0xd800 ≤ high ∧ high ≤ 0xdbff)
      (hlow : 0xdc00 ≤ low ∧ low ≤ 0xdfff)
      (hc : c.toNat = 0x10000 + (high - 0xd800) * 0x400 + (low - 0xdc00)) (h : Spells cs body) :
      Spells (c :: cs) ('\\' :: 'u' :: (ds ++ '\\' :: 'u' :: (es ++ body)))

/-- A text as it is written. -/
structure TextLiteral where
  value : String
  body : List Char
  spells : Spells value.toList body

def TextLiteral.text (t : TextLiteral) : List Char := '"' :: (t.body ++ ['"'])

section Escapes
variable {ds es rest : List Char} {n : Nat} {c : Char}

theorem Quad.hexQuad (h : Quad n ds) (rest : List Char) :
    Reading.hexQuad (ds ++ rest) = .ok (n, rest) := by
  refine hexQuad_append ?_ rest
  obtain ⟨hlength, hvalue⟩ := h
  obtain ⟨a, b, c, d, rfl⟩ := List.length_eq_four.mp hlength
  simp only [hexadecimalValue?, List.foldlM_cons, List.foldlM_nil, Option.bind_eq_bind,
    Option.bind_eq_some_iff, Option.map_eq_some_iff, Option.pure_def, Option.some.injEq] at hvalue
  obtain ⟨_, ⟨a', ha, rfl⟩, _, ⟨b', hb, rfl⟩, _, ⟨c', hc, rfl⟩, _, ⟨d', hd, rfl⟩, rfl⟩ := hvalue
  simp only [Reading.hexQuad, ha, hb, hc, hd, Except.ok.injEq, Prod.mk.injEq, and_true]
  omega

theorem unescape_letter {letter : Char} (h : Reading.letterEscape? letter = some c)
    (rest : List Char) : Reading.unescape (letter :: rest) = .ok (c, rest) ∧
      Reading.skipEscape (letter :: rest) = .ok rest := by
  have hu : letter ≠ 'u' := by
    rintro rfl
    simp [Reading.letterEscape?] at h
  simp [Reading.unescape, Reading.skipEscape, hu, h]

theorem skipEscape_quad (h : Quad n ds) (rest : List Char) :
    Reading.skipEscape ('u' :: (ds ++ rest)) = .ok rest := by
  simp [Reading.skipEscape, h.hexQuad, Except.map]

/-- The code of a character is not half of a pair. -/
theorem unescape_code (h : Quad c.toNat ds) (rest : List Char) :
    Reading.unescape ('u' :: (ds ++ rest)) = .ok (c, rest) := by
  have hvalid : c.toNat < 0xd800 ∨ 0xdfff < c.toNat ∧ c.toNat < 0x110000 := c.valid
  have hlow : ¬ (0xdc00 ≤ c.toNat ∧ c.toNat ≤ 0xdfff) := by omega
  have hhigh : ¬ (0xd800 ≤ c.toNat ∧ c.toNat ≤ 0xdbff) := by omega
  simp [Reading.unescape, h.hexQuad, hlow, hhigh, Char.ofNat_toNat]

theorem unescape_pair {high low : Nat} (hds : Quad high ds) (hes : Quad low es)
    (hhigh : 0xd800 ≤ high ∧ high ≤ 0xdbff) (hlow : 0xdc00 ≤ low ∧ low ≤ 0xdfff)
    (hc : c.toNat = 0x10000 + (high - 0xd800) * 0x400 + (low - 0xdc00)) (rest : List Char) :
    Reading.unescape ('u' :: (ds ++ '\\' :: 'u' :: (es ++ rest))) = .ok (c, rest) := by
  have hnot : ¬ (0xdc00 ≤ high ∧ high ≤ 0xdfff) := by omega
  have hhalf : Reading.lowHalf high ('\\' :: 'u' :: (es ++ rest)) = .ok (c, rest) := by
    simp [Reading.lowHalf, Reading.expect, hes.hexQuad, hlow, ← hc, Char.ofNat_toNat, bind,
      Except.bind, pure, Except.pure]
  simp [Reading.unescape, hds.hexQuad, hnot, hhigh, hhalf]

end Escapes

section Strings
variable {cs body : List Char}

theorem Spells.characters (h : Spells cs body) (rest : List Char) {fuel : Nat}
    (hfuel : body.length < fuel) :
    Reading.characters fuel (body ++ '"' :: rest) = .ok (cs, rest) := by
  induction h generalizing fuel with
  | nil =>
    obtain ⟨fuel, rfl⟩ := exists_fuel (k := 1) (by simp) hfuel
    rfl
  | plain hquote hslash hcontrol _ ih =>
    obtain ⟨fuel, rfl⟩ := exists_fuel (k := 1) (by simp) hfuel
    have hrest := @ih fuel (by simp at hfuel; omega)
    simp [Reading.characters, hquote, hslash, hcontrol, hrest, Except.map]
  | letter hletter _ ih =>
    obtain ⟨fuel, rfl⟩ := exists_fuel (k := 1) (by simp) hfuel
    have hrest := @ih fuel (by simp at hfuel; omega)
    simp [Reading.characters, (unescape_letter hletter _).1, hrest, Except.map]
  | code hds _ ih =>
    obtain ⟨fuel, rfl⟩ := exists_fuel (k := 1) (by simp) hfuel
    have hrest := @ih fuel (by simp at hfuel; omega)
    simp [Reading.characters, unescape_code hds, hrest, Except.map]
  | pair hds hes hhigh hlow hc _ ih =>
    obtain ⟨fuel, rfl⟩ := exists_fuel (k := 1) (by simp) hfuel
    have hrest := @ih fuel (by simp at hfuel; omega)
    simp [Reading.characters, unescape_pair hds hes hhigh hlow hc, hrest, Except.map]

theorem Spells.skipCharacters (h : Spells cs body) (rest : List Char) {fuel : Nat}
    (hfuel : body.length < fuel) :
    Reading.skipCharacters fuel (body ++ '"' :: rest) = .ok rest := by
  induction h generalizing fuel with
  | nil =>
    obtain ⟨fuel, rfl⟩ := exists_fuel (k := 1) (by simp) hfuel
    rfl
  | plain hquote hslash hcontrol _ ih =>
    obtain ⟨fuel, rfl⟩ := exists_fuel (k := 1) (by simp) hfuel
    have hrest := @ih fuel (by simp at hfuel; omega)
    simp [Reading.skipCharacters, hquote, hslash, hcontrol, hrest]
  | letter hletter _ ih =>
    obtain ⟨fuel, rfl⟩ := exists_fuel (k := 1) (by simp) hfuel
    have hrest := @ih fuel (by simp at hfuel; omega)
    simp [Reading.skipCharacters, (unescape_letter hletter _).2, hrest]
  | code hds _ ih =>
    obtain ⟨fuel, rfl⟩ := exists_fuel (k := 1) (by simp) hfuel
    have hrest := @ih fuel (by simp at hfuel; omega)
    simp [Reading.skipCharacters, skipEscape_quad hds, hrest]
  | pair hds hes _ _ _ _ ih =>
    -- Those who skip the text pass the two halves one after the other.
    obtain ⟨fuel, rfl⟩ := exists_fuel (k := 2) (by simp) hfuel
    have hrest := @ih fuel (by simp at hfuel; omega)
    simp [Reading.skipCharacters, skipEscape_quad hds, skipEscape_quad hes, hrest]

theorem TextLiteral.scanString (t : TextLiteral) (rest : List Char) :
    Reading.scanString (t.body ++ '"' :: rest) = (.text (.ok t.value) none, rest) := by
  have hfuel : t.body.length < (t.body ++ '"' :: rest).length + 1 := by
    rw [List.length_append]
    omega
  simp only [Reading.scanString, t.spells.characters rest hfuel,
    t.spells.skipCharacters rest hfuel, Except.map, String.ofList_toList]

theorem TextLiteral.reads (t : TextLiteral) : Reads t.text (.text (.ok t.value) none) where
  starts := ⟨'"', _, rfl, by decide, by decide⟩
  scan fuel rest _ h := by
    obtain ⟨fuel, rfl⟩ := exists_fuel (k := 1) (by simp [text]; omega) h
    have hscan := t.scanString rest
    rw [text, List.cons_append, List.append_assoc, List.singleton_append]
    exact hscan

end Strings

/-- At least one digit, and nothing else. -/
def Digits (ds : List Char) : Prop := ds ≠ [] ∧ ∀ c ∈ ds, isDigit c = true

/-- A number as it is written. A zero at its front stands alone; a point and a power of ten may
follow. -/
structure NumberLiteral where
  sign : List Char
  whole : List Char
  fraction : List Char
  power : List Char
  sign_cases : sign = [] ∨ sign = ['-']
  whole_digits : Digits whole
  whole_leads : ∀ d ds, whole ≠ '0' :: d :: ds
  fraction_cases : fraction = [] ∨ ∃ ds, Digits ds ∧ fraction = '.' :: ds
  power_cases : power = [] ∨ ∃ mark ∈ ['e', 'E'], ∃ sign ∈ [[], ['+'], ['-']], ∃ ds, Digits ds ∧
    power = mark :: (sign ++ ds)

def NumberLiteral.text (n : NumberLiteral) : List Char :=
  n.sign ++ (n.whole ++ (n.fraction ++ n.power))

section Numbers
variable {ds rest : List Char}

theorem digits_of_all (hne : ds ≠ []) (h : ds.all isDigit = true) : Digits ds :=
  ⟨hne, List.all_eq_true.mp h⟩

theorem Digits.exists_cons (h : Digits ds) : ∃ d es, ds = d :: es ∧ isDigit d = true := by
  obtain ⟨d, es, rfl⟩ := List.exists_cons_of_ne_nil h.1
  exact ⟨d, es, rfl, h.2 d List.mem_cons_self⟩

theorem Digits.digits1 (h : Digits ds) (hrest : NoDigit rest) :
    Reading.digits1 (ds ++ rest) = .ok (ds, rest) := by
  have htake := takeWhile_digits h.2 hrest
  have hdrop := dropWhile_digits h.2 hrest
  obtain ⟨d, es, rfl, hd⟩ := h.exists_cons
  rw [List.cons_append] at htake hdrop ⊢
  simp only [Reading.digits1, hd, if_true, htake, hdrop]

/-- A sign before digits tells which way a power goes. -/
theorem exponentPart_power {mark : Char} (hmark : mark ∈ ['e', 'E']) {sign : List Char}
    (hsign : sign ∈ [[], ['+'], ['-']]) (h : Digits ds) (hrest : NoDigit rest)
    (x : Reading.Lexeme) : Reading.exponentPart x (mark :: (sign ++ (ds ++ rest))) =
      .ok ({ x with exponent := some (sign == ['-'], ds) }, rest) := by
  have hmark : mark = 'e' ∨ mark = 'E' := by simpa using hmark
  have hdigits := h.digits1 hrest
  obtain ⟨d, es, rfl, hd⟩ := h.exists_cons
  have hne : ∀ c, isDigit c = false → d ≠ c := fun c hc heq => by simp [heq ▸ hd] at hc
  have hplus : d ≠ '+' := hne '+' (by decide)
  have hminus : d ≠ '-' := hne '-' (by decide)
  rcases hmark with rfl | rfl
  all_goals
    rcases List.mem_cons.mp hsign with rfl | hsign
    · simp_all [Reading.exponentPart]
    rcases List.mem_cons.mp hsign with rfl | hsign
    · simp_all [Reading.exponentPart]
    · obtain rfl := List.mem_singleton.mp hsign
      simp_all [Reading.exponentPart]

theorem exponentPart_none (x : Reading.Lexeme) (hrest : Ends rest) :
    Reading.exponentPart x rest = .ok (x, rest) := by
  cases rest with
  | nil => rfl
  | cons c rest =>
    obtain ⟨_, _, he, he'⟩ := hrest c rfl
    simp [Reading.exponentPart, he, he']

namespace NumberLiteral

variable (n : NumberLiteral)

/-- After the fraction no digit follows, and no point. -/
theorem power_starts (hrest : Ends rest) :
    ∀ c ∈ (n.power ++ rest).head?, isDigit c = false ∧ c ≠ '.' := by
  rcases n.power_cases with hpower | ⟨mark, hmark, _, _, _, _, hpower⟩
  · rw [hpower, List.nil_append]
    exact fun c hc => ⟨(hrest c hc).1, (hrest c hc).2.1⟩
  · have hmark : mark = 'e' ∨ mark = 'E' := by simpa using hmark
    rw [hpower]
    rcases hmark with rfl | rfl
    all_goals
      intro c hc
      obtain rfl := Option.some.inj hc
      decide

theorem exists_exponentPart (x : Reading.Lexeme) : ∃ y, ∀ rest, Ends rest →
    Reading.exponentPart x (n.power ++ rest) = .ok (y, rest) := by
  rcases n.power_cases with hpower | ⟨mark, hmark, sign, hsign, ds, hds, hpower⟩
  · refine ⟨x, fun rest hrest => ?_⟩
    rw [hpower, List.nil_append]
    exact exponentPart_none x hrest
  · refine ⟨{ x with exponent := some (sign == ['-'], ds) }, fun rest hrest => ?_⟩
    rw [hpower, List.cons_append, List.append_assoc]
    exact exponentPart_power hmark hsign hds hrest.noDigit x

theorem exists_decimalPart (x : Reading.Lexeme) : ∃ y, ∀ rest, Ends rest →
    Reading.decimalPart x (n.fraction ++ (n.power ++ rest)) = .ok (y, rest) := by
  rcases n.fraction_cases with hfraction | ⟨ds, hds, hfraction⟩
  · obtain ⟨y, hy⟩ := n.exists_exponentPart x
    refine ⟨y, fun rest hrest => ?_⟩
    have hstarts := n.power_starts hrest
    have hread := hy rest hrest
    rw [hfraction, List.nil_append]
    generalize n.power ++ rest = cs at hread hstarts ⊢
    cases cs with
    | nil => exact hread
    | cons c cs =>
      rw [← hread]
      simp [Reading.decimalPart, (hstarts c rfl).2]
  · obtain ⟨y, hy⟩ := n.exists_exponentPart { x with decimals := ds }
    refine ⟨y, fun rest hrest => ?_⟩
    have hdigits := hds.digits1 fun c hc => (n.power_starts hrest c hc).1
    rw [hfraction, List.cons_append]
    simp only [Reading.decimalPart, hdigits]
    exact hy rest hrest

theorem exists_lexeme (negative : Bool) : ∃ x, ∀ rest, Ends rest →
    Reading.lexeme negative (n.whole ++ (n.fraction ++ (n.power ++ rest))) = .ok (x, rest) := by
  obtain ⟨x, hx⟩ := n.exists_decimalPart { negative, whole := n.whole }
  refine ⟨x, fun rest hrest => ?_⟩
  have hstarts : NoDigit (n.fraction ++ (n.power ++ rest)) := by
    rcases n.fraction_cases with hfraction | ⟨ds, _, hfraction⟩
    · rw [hfraction]
      exact fun c hc => (n.power_starts hrest c hc).1
    · rw [hfraction]
      exact noDigit_cons (by decide)
  simp only [Reading.lexeme, n.whole_digits.digits1 hstarts]
  split
  · rename_i d ds hzero
    exact absurd hzero (n.whole_leads d ds)
  · exact hx rest hrest

theorem starts : ∃ c tail, n.text = c :: tail ∧ Reading.isSpace c = false ∧ c ≠ ']' := by
  obtain ⟨d, ds, hwhole, hd⟩ := n.whole_digits.exists_cons
  rcases n.sign_cases with hsign | hsign
  · refine ⟨d, _, by rw [text, hsign, hwhole]; rfl, isSpace_of_isDigit hd, ?_⟩
    rintro rfl
    simp [isDigit] at hd
  · exact ⟨'-', _, by rw [text, hsign]; rfl, by decide, by decide⟩

/-- A number is read up to its end, and passed without a problem, whatever its value. -/
theorem exists_scan : ∃ v, ∀ fuel rest, Ends rest →
    Reading.scanValue (fuel + 1) (n.text ++ rest) = (.number v none, rest) := by
  obtain ⟨d, ds, hwhole, hd⟩ := n.whole_digits.exists_cons
  rcases n.sign_cases with hsign | hsign
  · obtain ⟨x, hx⟩ := n.exists_lexeme false
    refine ⟨x.value, fun fuel rest hrest => ?_⟩
    have hlexeme := hx rest hrest
    have hne : ∀ c, isDigit c = false → d ≠ c := fun c hc heq => by simp [heq ▸ hd] at hc
    simp only [text, hsign, hwhole, List.nil_append, List.cons_append, List.append_assoc]
      at hlexeme ⊢
    simp only [Reading.scanValue, skipSpaces_cons (isSpace_of_isDigit hd), hd,
      Reading.scanNumber, hlexeme, hne 'n' (by decide), hne 't' (by decide), hne 'f' (by decide),
      hne '-' (by decide), if_false, if_true]
  · obtain ⟨x, hx⟩ := n.exists_lexeme true
    refine ⟨x.value, fun fuel rest hrest => ?_⟩
    have hspace : Reading.isSpace '-' = false := by decide
    simp [text, hsign, Reading.scanValue, skipSpaces_cons hspace, Reading.scanNumber,
      hx rest hrest]

/-- What is read of a number. -/
def reading : Reading := (Reading.scanValue 1 n.text).1

theorem exists_reading : ∃ v, n.reading = .number v none ∧ Reads n.text n.reading := by
  obtain ⟨v, hv⟩ := n.exists_scan
  have hreading : n.reading = .number v none := by
    have hscan := hv 0 [] ends_nil
    rw [List.append_nil] at hscan
    rw [reading, hscan]
  refine ⟨v, hreading, n.starts, fun fuel rest hrest hfuel => ?_⟩
  obtain ⟨c, tail, htext, _⟩ := n.starts
  obtain ⟨fuel, rfl⟩ := exists_fuel (k := 1) (by rw [htext, List.length_cons]; omega) hfuel
  rw [hreading]
  exact hv fuel rest hrest

end NumberLiteral

end Numbers

/-- A value as it is written, but for the blanks. -/
inductive Source where
  | null
  | flag (b : Bool)
  | number (n : NumberLiteral)
  | text (t : TextLiteral)
  | list (items : List Source)
  | object (members : List (TextLiteral × Source))

namespace Source

mutual

/-- The parts of a value between which blanks may stand. -/
def tokens : Source → List (List Char)
  | null => [render .null]
  | flag b => [render (.flag b)]
  | number n => [n.text]
  | text t => [t.text]
  | list items => ['['] :: itemTokens items
  | object members => ['\x7b'] :: memberTokens members

def itemTokens : List Source → List (List Char)
  | [] => [[']']]
  | v :: items => tokens v ++ moreItemTokens items

def moreItemTokens : List Source → List (List Char)
  | [] => [[']']]
  | v :: items => [','] :: (tokens v ++ moreItemTokens items)

def memberTokens : List (TextLiteral × Source) → List (List Char)
  | [] => [['\x7d']]
  | (key, v) :: members => key.text :: [':'] :: (tokens v ++ moreMemberTokens members)

def moreMemberTokens : List (TextLiteral × Source) → List (List Char)
  | [] => [['\x7d']]
  | (key, v) :: members => [','] :: key.text :: [':'] :: (tokens v ++ moreMemberTokens members)

end

mutual

/-- What is read of a value. -/
def reading : Source → Reading
  | null => .null
  | flag b => .flag b
  | number n => n.reading
  | text t => .text (.ok t.value) none
  | list items => .list (itemsReading items)
  | object members => .object (membersReading members)

def itemsReading : List Source → Items
  | [] => .stop none
  | v :: items => .more (reading v) (itemsReading items)

def membersReading : List (TextLiteral × Source) → Members
  | [] => .stop none
  | (key, v) :: members => .more (.text (.ok key.value) none) (reading v) (membersReading members)

end

end Source

/-- Nothing but the blanks of JSON. -/
def Blank (ws : List Char) : Prop := ∀ c ∈ ws, c = ' ' ∨ c = '\t' ∨ c = '\n' ∨ c = '\r'

/-- Tokens in order, with blanks before, between and after them. -/
inductive Spaced : List (List Char) → List Char → Prop
  | done {ws : List Char} (h : Blank ws) : Spaced [] ws
  | token {ws t cs : List Char} {ts : List (List Char)} (h : Blank ws) (hts : Spaced ts cs) :
      Spaced (t :: ts) (ws ++ (t ++ cs))

section Blanks
variable {ws cs t : List Char} {ts : List (List Char)} {c : Char}

theorem Blank.isSpace (h : Blank ws) : ∀ c ∈ ws, Reading.isSpace c = true := by
  intro c hc
  rcases h c hc with rfl | rfl | rfl | rfl <;> rfl

theorem Blank.skipSpaces (h : Blank ws) (hc : Reading.isSpace c = false) (cs : List Char) :
    Reading.skipSpaces (ws ++ c :: cs) = c :: cs := by
  rw [Reading.skipSpaces, List.dropWhile_append_of_pos h.isSpace]
  exact skipSpaces_cons hc cs

theorem Blank.skipSpaces_eq_nil (h : Blank ws) : Reading.skipSpaces ws = [] :=
  List.dropWhile_eq_nil_iff.mpr h.isSpace

/-- The blanks before a token are passed. -/
theorem Spaced.skip (h : Spaced ((c :: t) :: ts) cs) (hc : Reading.isSpace c = false) :
    ∃ rest, Reading.skipSpaces cs = c :: (t ++ rest) ∧ Spaced ts rest ∧
      (t ++ rest).length < cs.length := by
  cases h with
  | @token ws _ rest _ hws hrest =>
    refine ⟨rest, hws.skipSpaces hc _, hrest, ?_⟩
    simp only [List.length_append, List.length_cons]
    omega

theorem Spaced.skip_mark (h : Spaced ([c] :: ts) cs) (hc : Reading.isSpace c = false) :
    ∃ rest, Reading.skipSpaces cs = c :: rest ∧ Spaced ts rest ∧ rest.length < cs.length :=
  h.skip hc

theorem Spaced.unblanked {rest : List Char} (h : Spaced ts rest) (t : List Char) :
    Spaced (t :: ts) (t ++ rest) :=
  .token (fun _ hc => absurd hc List.not_mem_nil) h

theorem blank_takeWhile (cs : List Char) : Blank (cs.takeWhile Reading.isSpace) := by
  intro c hc
  have hspace := List.mem_takeWhile_imp hc
  simp only [Reading.isSpace, Bool.or_eq_true, beq_iff_eq] at hspace
  tauto

/-- Whether a text is the tokens with blanks among them, each token taken where it first may be. -/
def isSpaced : List (List Char) → List Char → Bool
  | [], cs => cs.all Reading.isSpace
  | t :: ts, cs =>
    match strip? t (Reading.skipSpaces cs) with
    | some rest => isSpaced ts rest
    | none => false

theorem spaced_of_isSpaced : ∀ {ts : List (List Char)} {cs : List Char}, isSpaced ts cs = true →
    Spaced ts cs
  | [], cs, h => by
    have hblank := blank_takeWhile cs
    rw [List.takeWhile_eq_self_iff.mpr (List.all_eq_true.mp h)] at hblank
    exact .done hblank
  | t :: ts, cs, h => by
    rw [isSpaced] at h
    split at h
    · rename_i rest hstrip
      have hcs : cs.takeWhile Reading.isSpace ++ (t ++ rest) = cs := by
        rw [← strip?_eq_some_iff.mp hstrip]
        exact List.takeWhile_append_dropWhile
      rw [← hcs]
      exact .token (blank_takeWhile cs) (spaced_of_isSpaced h)
    · cases h

end Blanks

/-- The end of the text, or a token that ends a value before it. -/
def Closes (ts : List (List Char)) : Prop :=
  ∀ t ∈ ts.head?, t = [','] ∨ t = [']'] ∨ t = ['\x7d']

theorem Closes.ends {ts : List (List Char)} {cs : List Char} (hts : Closes ts)
    (h : Spaced ts cs) : Ends cs := by
  have hblank : ∀ (c : Char) (ws rest : List Char), Blank (c :: ws) →
      Ends (c :: (ws ++ rest)) := by
    intro c ws rest hws
    rcases hws c List.mem_cons_self with rfl | rfl | rfl | rfl
    all_goals exact ends_cons (by decide) _
  cases h with
  | done hws =>
    cases cs with
    | nil => exact ends_nil
    | cons c ws =>
      have hends := hblank c ws [] hws
      rwa [List.append_nil] at hends
  | @token ws t rest _ hws _ =>
    cases ws with
    | cons c ws => exact hblank c ws rest hws
    | nil =>
      rcases hts t rfl with rfl | rfl | rfl
      all_goals exact ends_cons (by decide) rest

/-- What is read off the front of a text, when the tokens after it are left. -/
def Takes {α : Type} (read : α × List Char) (a : α) (ts : List (List Char)) (cs : List Char) :
    Prop :=
  ∃ rest, read = (a, rest) ∧ Spaced ts rest ∧ rest.length < cs.length

/-- A value is read off the front of a text that begins with its tokens. -/
def Scans (v : Source) : Prop :=
  ∀ ts cs fuel, Closes ts → Spaced (v.tokens ++ ts) cs → 3 * cs.length < fuel →
    Takes (Reading.scanValue fuel cs) v.reading ts cs

section Scan
variable {v : Source} {cs : List Char} {ts : List (List Char)}

theorem scanValue_congr {cs cs' : List Char}
    (h : Reading.skipSpaces cs = Reading.skipSpaces cs') (fuel : Nat) :
    Reading.scanValue fuel cs = Reading.scanValue fuel cs' := by
  cases fuel with
  | zero => rfl
  | succ fuel => simp only [Reading.scanValue, h]

/-- A value of one token. -/
theorem scans_of_reads {t : List Char} (htokens : v.tokens = [t]) (h : Reads t v.reading) :
    Scans v := by
  intro ts cs fuel hts hcs hfuel
  obtain ⟨c, tail, rfl, hspace, _⟩ := h.starts
  rw [htokens] at hcs
  obtain ⟨rest, hskip, hrest, hlength⟩ := hcs.skip hspace
  rw [List.length_append] at hlength
  refine ⟨rest, ?_, hrest, by omega⟩
  have hsame : Reading.skipSpaces cs = Reading.skipSpaces (c :: tail ++ rest) := by
    rw [hskip, List.cons_append, skipSpaces_cons hspace]
  rw [scanValue_congr hsame]
  exact h.scan fuel rest (hts.ends hrest) (by rw [List.length_cons]; omega)

theorem exists_first_token (v : Source) :
    ∃ c t ts, v.tokens = (c :: t) :: ts ∧ Reading.isSpace c = false ∧ c ≠ ']' := by
  cases v with
  | null => exact ⟨'n', _, _, rfl, by decide, by decide⟩
  | flag b =>
    cases b with
    | true => exact ⟨'t', _, _, rfl, by decide, by decide⟩
    | false => exact ⟨'f', _, _, rfl, by decide, by decide⟩
  | number n =>
    obtain ⟨c, t, htext, hspace, hclose⟩ := n.starts
    exact ⟨c, t, [], by rw [Source.tokens, htext], hspace, hclose⟩
  | text t => exact ⟨'"', _, _, rfl, by decide, by decide⟩
  | list items => exact ⟨'[', _, _, rfl, by decide, by decide⟩
  | object members => exact ⟨'\x7b', _, _, rfl, by decide, by decide⟩

theorem closes_moreItems (items : List Source) (ts : List (List Char)) :
    Closes (Source.moreItemTokens items ++ ts) := by
  cases items <;> simp [Closes, Source.moreItemTokens]

theorem closes_moreMembers (members : List (TextLiteral × Source)) (ts : List (List Char)) :
    Closes (Source.moreMemberTokens members ++ ts) := by
  rcases members with _ | ⟨⟨key, v⟩, members⟩ <;> simp [Closes, Source.moreMemberTokens]

/-- An item and those after it, if those are read. -/
theorem Scans.item (hv : Scans v) {items : List Source}
    (hmore : ∀ cs fuel, Spaced (Source.moreItemTokens items ++ ts) cs → 3 * cs.length ≤ fuel →
      Takes (Reading.moreItems fuel cs) (Source.itemsReading items) ts cs)
    (hcs : Spaced (v.tokens ++ (Source.moreItemTokens items ++ ts)) cs) (fuel : Nat)
    (hfuel : 3 * cs.length + 2 ≤ fuel) :
    Takes (Reading.item fuel cs) (Source.itemsReading (v :: items)) ts cs := by
  -- Each step of the scan takes a token or hands the text on, three times at most for each token.
  obtain ⟨fuel, rfl⟩ := exists_fuel (k := 1) (by omega) hfuel
  obtain ⟨rest, hscan, hrest, hlength⟩ := hv _ cs fuel (closes_moreItems items ts) hcs (by omega)
  obtain ⟨rest', hscan', hrest', hlength'⟩ := hmore rest fuel hrest (by omega)
  refine ⟨rest', ?_, hrest', by omega⟩
  simp only [Reading.item, hscan, hscan', Source.itemsReading]

theorem scan_moreItems {items : List Source} (h : ∀ v ∈ items, Scans v) (cs : List Char)
    (fuel : Nat) (hcs : Spaced (Source.moreItemTokens items ++ ts) cs)
    (hfuel : 3 * cs.length ≤ fuel) :
    Takes (Reading.moreItems fuel cs) (Source.itemsReading items) ts cs := by
  induction items generalizing cs fuel with
  | nil =>
    obtain ⟨rest, hskip, hrest, hlength⟩ := Spaced.skip_mark hcs (by decide)
    obtain ⟨fuel, rfl⟩ := exists_fuel (k := 1) (by omega) hfuel
    refine ⟨rest, ?_, hrest, hlength⟩
    simp [Reading.moreItems, hskip, Source.itemsReading]
  | cons v items ih =>
    obtain ⟨hv, hitems⟩ := List.forall_mem_cons.mp h
    rw [Source.moreItemTokens, List.cons_append, List.append_assoc] at hcs
    obtain ⟨inside, hskip, hinside, hlength⟩ := hcs.skip_mark (by decide)
    obtain ⟨fuel, rfl⟩ := exists_fuel (k := 1) (by omega) hfuel
    obtain ⟨rest, hscan, hrest, hlength'⟩ :=
      hv.item (ih hitems) hinside fuel (by omega)
    refine ⟨rest, ?_, hrest, by omega⟩
    simp [Reading.moreItems, hskip, hscan]

theorem scan_firstItem {items : List Source} (h : ∀ v ∈ items, Scans v) (cs : List Char)
    (fuel : Nat) (hcs : Spaced (Source.itemTokens items ++ ts) cs)
    (hfuel : 3 * cs.length + 3 ≤ fuel) :
    Takes (Reading.firstItem fuel cs) (Source.itemsReading items) ts cs := by
  obtain ⟨fuel, rfl⟩ := exists_fuel (k := 1) (by omega) hfuel
  cases items with
  | nil =>
    obtain ⟨rest, hskip, hrest, hlength⟩ := Spaced.skip_mark hcs (by decide)
    refine ⟨rest, ?_, hrest, hlength⟩
    simp [Reading.firstItem, hskip, Source.itemsReading]
  | cons v items =>
    obtain ⟨hv, hitems⟩ := List.forall_mem_cons.mp h
    obtain ⟨c, t, us, hfirst, hspace, hclose⟩ := exists_first_token v
    rw [Source.itemTokens, List.append_assoc, hfirst, List.cons_append] at hcs
    obtain ⟨inside, hskip, hinside, hlength⟩ := hcs.skip hspace
    -- The blanks before an item are passed to see that it is there.
    have hpassed := hinside.unblanked (c :: t)
    rw [← List.cons_append, ← hfirst] at hpassed
    have hfuel' : 3 * (c :: t ++ inside).length + 2 ≤ fuel := by
      rw [List.cons_append, List.length_cons]
      omega
    obtain ⟨rest, hscan, hrest, hlength'⟩ := hv.item (scan_moreItems hitems) hpassed fuel hfuel'
    rw [List.cons_append] at hscan hlength'
    refine ⟨rest, ?_, hrest, by rw [List.length_cons] at hlength'; omega⟩
    simp [Reading.firstItem, hskip, hclose, hscan]

theorem scans_list {items : List Source} (h : ∀ v ∈ items, Scans v) : Scans (.list items) := by
  intro ts cs fuel hts hcs hfuel
  rw [Source.tokens, List.cons_append] at hcs
  obtain ⟨inside, hskip, hinside, hlength⟩ := hcs.skip_mark (by decide)
  obtain ⟨fuel, rfl⟩ := exists_fuel (k := 1) (by omega) hfuel
  obtain ⟨rest, hscan, hrest, hlength'⟩ := scan_firstItem h inside fuel hinside (by omega)
  refine ⟨rest, ?_, hrest, by omega⟩
  simp [Reading.scanValue, hskip, hscan, Source.reading, isDigit]

/-- The key of a member is read, and what follows it is left. -/
theorem Spaced.skip_key {key : TextLiteral} (h : Spaced (key.text :: ts) cs) :
    ∃ inside rest, Reading.skipSpaces cs = '"' :: inside ∧
      Reading.scanString inside = (.text (.ok key.value) none, rest) ∧ Spaced ts rest ∧
      rest.length < cs.length := by
  obtain ⟨rest, hskip, hrest, hlength⟩ := Spaced.skip h (by decide)
  rw [List.length_append] at hlength
  refine ⟨_, rest, hskip, ?_, hrest, by omega⟩
  rw [List.append_assoc, List.singleton_append]
  exact key.scanString rest

/-- What follows the key of a member, if the members after it are read. -/
theorem Scans.member (hv : Scans v) (key : TextLiteral) {members : List (TextLiteral × Source)}
    (hmore : ∀ cs fuel, Spaced (Source.moreMemberTokens members ++ ts) cs →
      3 * cs.length ≤ fuel →
      Takes (Reading.moreMembers fuel cs) (Source.membersReading members) ts cs)
    (hcs : Spaced ([':'] :: (v.tokens ++ (Source.moreMemberTokens members ++ ts))) cs)
    (fuel : Nat) (hfuel : 3 * cs.length ≤ fuel) :
    Takes (Reading.member fuel (.text (.ok key.value) none) cs)
      (Source.membersReading ((key, v) :: members)) ts cs := by
  obtain ⟨inside, hskip, hinside, hlength⟩ := hcs.skip_mark (by decide)
  obtain ⟨fuel, rfl⟩ := exists_fuel (k := 1) (by omega) hfuel
  obtain ⟨rest, hscan, hrest, hlength'⟩ :=
    hv _ inside fuel (closes_moreMembers members ts) hinside (by omega)
  obtain ⟨rest', hscan', hrest', hlength''⟩ := hmore rest fuel hrest (by omega)
  refine ⟨rest', ?_, hrest', by omega⟩
  simp [Reading.member, hskip, hscan, hscan', Source.membersReading]

section Members
variable {members : List (TextLiteral × Source)}

theorem scan_moreMembers (h : ∀ m ∈ members, Scans m.2) (cs : List Char) (fuel : Nat)
    (hcs : Spaced (Source.moreMemberTokens members ++ ts) cs) (hfuel : 3 * cs.length ≤ fuel) :
    Takes (Reading.moreMembers fuel cs) (Source.membersReading members) ts cs := by
  induction members generalizing cs fuel with
  | nil =>
    obtain ⟨rest, hskip, hrest, hlength⟩ := Spaced.skip_mark hcs (by decide)
    obtain ⟨fuel, rfl⟩ := exists_fuel (k := 1) (by omega) hfuel
    refine ⟨rest, ?_, hrest, hlength⟩
    simp [Reading.moreMembers, hskip, Source.membersReading]
  | cons m members ih =>
    obtain ⟨key, v⟩ := m
    obtain ⟨hv, hmembers⟩ := List.forall_mem_cons.mp h
    simp only [Source.moreMemberTokens, List.cons_append, List.append_assoc] at hcs
    obtain ⟨inside, hskip, hinside, hlength⟩ := hcs.skip_mark (by decide)
    obtain ⟨body, after, hquote, hkey, hafter, hlength'⟩ := hinside.skip_key
    obtain ⟨fuel, rfl⟩ := exists_fuel (k := 1) (by omega) hfuel
    obtain ⟨rest, hscan, hrest, hlength''⟩ :=
      Scans.member hv key (ih hmembers) hafter fuel (by omega)
    refine ⟨rest, ?_, hrest, by omega⟩
    simp [Reading.moreMembers, hskip, hquote, hkey, hscan]

theorem scan_firstMember (h : ∀ m ∈ members, Scans m.2) (cs : List Char) (fuel : Nat)
    (hcs : Spaced (Source.memberTokens members ++ ts) cs) (hfuel : 3 * cs.length < fuel) :
    Takes (Reading.firstMember fuel cs) (Source.membersReading members) ts cs := by
  obtain ⟨fuel, rfl⟩ := exists_fuel (k := 1) (by omega) hfuel
  cases members with
  | nil =>
    obtain ⟨rest, hskip, hrest, hlength⟩ := Spaced.skip_mark hcs (by decide)
    refine ⟨rest, ?_, hrest, hlength⟩
    simp [Reading.firstMember, hskip, Source.membersReading]
  | cons m members =>
    obtain ⟨key, v⟩ := m
    obtain ⟨hv, hmembers⟩ := List.forall_mem_cons.mp h
    simp only [Source.memberTokens, List.cons_append, List.append_assoc] at hcs
    obtain ⟨body, after, hquote, hkey, hafter, hlength⟩ := hcs.skip_key
    obtain ⟨rest, hscan, hrest, hlength'⟩ :=
      Scans.member hv key (scan_moreMembers hmembers) hafter fuel (by omega)
    refine ⟨rest, ?_, hrest, by omega⟩
    simp [Reading.firstMember, hquote, hkey, hscan]

theorem scans_object (h : ∀ m ∈ members, Scans m.2) : Scans (.object members) := by
  intro ts cs fuel hts hcs hfuel
  rw [Source.tokens, List.cons_append] at hcs
  obtain ⟨inside, hskip, hinside, hlength⟩ := hcs.skip_mark (by decide)
  obtain ⟨fuel, rfl⟩ := exists_fuel (k := 1) (by omega) hfuel
  obtain ⟨rest, hscan, hrest, hlength'⟩ := scan_firstMember h inside fuel hinside (by omega)
  refine ⟨rest, ?_, hrest, by omega⟩
  simp [Reading.scanValue, hskip, hscan, Source.reading, isDigit]

end Members

end Scan

mutual

theorem scans : ∀ v, Scans v
  | .null => scans_of_reads rfl reads_null
  | .flag b => scans_of_reads rfl (reads_flag b)
  | .number n => scans_of_reads rfl n.exists_reading.choose_spec.2
  | .text t => scans_of_reads rfl t.reads
  | .list items => scans_list (scans_items items)
  | .object members => scans_object (scans_members members)

theorem scans_items : ∀ items : List Source, ∀ v ∈ items, Scans v
  | [] => fun _ hv => absurd hv List.not_mem_nil
  | v :: items => List.forall_mem_cons.mpr ⟨scans v, scans_items items⟩

theorem scans_members : ∀ members : List (TextLiteral × Source), ∀ m ∈ members, Scans m.2
  | [] => fun _ hm => absurd hm List.not_mem_nil
  | (_, v) :: members => List.forall_mem_cons.mpr ⟨scans v, scans_members members⟩

end

/-- A whole text is read as the value that is written in it, with nothing after it. -/
theorem read_source {v : Source} {text : String} (h : Spaced v.tokens text.toList) :
    Document.read text = ⟨v.reading, false⟩ := by
  have hcloses : Closes [] := fun _ ht => absurd ht (by simp)
  rw [← List.append_nil v.tokens] at h
  obtain ⟨rest, hscan, hrest, _⟩ := scans v [] text.toList (Reading.fuelFor text.toList) hcloses h
    (by simp only [Reading.fuelFor]; omega)
  cases hrest with
  | done hblank => simp [Document.read, hscan, hblank.skipSpaces_eq_nil]

mutual

/-- Whoever skips a value meets no problem in it. -/
theorem skip_reading : ∀ v : Source, v.reading.skip = none
  | .null => rfl
  | .flag _ => rfl
  | .number n => by
    obtain ⟨_, hreading, _⟩ := n.exists_reading
    rw [Source.reading, hreading, Reading.skip]
  | .text _ => rfl
  | .list items => skipItems_reading items
  | .object members => skipMembers_reading members

theorem skipItems_reading : ∀ items, Reading.skipItems (Source.itemsReading items) = none
  | [] => rfl
  | v :: items => by
    rw [Source.itemsReading, Reading.skipItems, skip_reading v]
    exact skipItems_reading items

theorem skipMembers_reading :
    ∀ members, Reading.skipMembers (Source.membersReading members) = none
  | [] => rfl
  | (_, v) :: members => by
    simp only [Source.membersReading, Reading.skipMembers, skip_reading v]
    exact skipMembers_reading members

end

end PatternHooks.JsonSource

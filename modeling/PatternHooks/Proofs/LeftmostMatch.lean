import Mathlib.Data.List.Forall2
import PatternHooks.Engine

/-!
What the engine finds when no hooks interfere. It works on byte offsets, cuts the subject there and
moves through a guarded state. The result is the match that a comparison of characters gives: the
source, in which a point stands for any character, at the leftmost place where the subject has it.
-/

namespace PatternHooks.LeftmostMatch

open Engine

/-- A character of the source accepts one of the subject. -/
def Admits (p c : Char) : Prop := p = '.' ∨ p = c

instance (p c : Char) : Decidable (Admits p c) := inferInstanceAs (Decidable (_ ∨ _))

/-- Between the offsets the subject has characters that those of the source accept one by one. -/
def MatchesAt (source subject : List Char) (start stop : ℕ) : Prop :=
  ∃ before xs behind, subject = before ++ xs ++ behind ∧ List.Forall₂ Admits source xs ∧
    start = Text.size before ∧ stop = start + Text.size xs

/-- The characters that a source accepts at the beginning of a text. -/
def accepted? : List Char → List Char → Option (List Char)
  | [], _ => some []
  | _ :: _, [] => none
  | p :: ps, c :: cs => if Admits p c then (accepted? ps cs).map (c :: ·) else none

theorem accepted?_eq_some_iff {ps cs xs : List Char} :
    accepted? ps cs = some xs ↔ List.Forall₂ Admits ps xs ∧ xs <+: cs := by
  induction ps generalizing cs xs with
  | nil =>
    rw [accepted?, Option.some_inj, List.forall₂_nil_left_iff]
    constructor
    · intro h
      exact ⟨h.symm, h ▸ List.nil_prefix⟩
    · intro h
      exact h.1.symm
  | cons p ps ih =>
    cases cs with
    | nil =>
      simp only [accepted?, reduceCtorEq, false_iff, List.prefix_nil, not_and]
      intro hforall hxs
      subst hxs
      cases hforall
    | cons c cs =>
      rw [accepted?, List.forall₂_cons_left_iff]
      split
      · rename_i hadmits
        simp only [Option.map_eq_some_iff, ih]
        constructor
        · intro h
          obtain ⟨ys, ⟨hforall, hprefix⟩, rfl⟩ := h
          exact ⟨⟨c, ys, hadmits, hforall, rfl⟩, List.cons_prefix_cons.mpr ⟨rfl, hprefix⟩⟩
        · intro h
          obtain ⟨⟨x, ys, _, hforall, rfl⟩, hprefix⟩ := h
          obtain ⟨rfl, htail⟩ := List.cons_prefix_cons.mp hprefix
          exact ⟨ys, ⟨hforall, htail⟩, rfl⟩
      · rename_i hadmits
        simp only [reduceCtorEq, false_iff]
        intro h
        obtain ⟨⟨x, ys, hx, _, rfl⟩, hprefix⟩ := h
        obtain ⟨rfl, _⟩ := List.cons_prefix_cons.mp hprefix
        exact hadmits hx

/-- A match starts at the end of `before` when the source accepts the beginning of what follows, and
then it ends in one place. -/
theorem matchesAt_size_iff (source before rest : List Char) (stop : ℕ) :
    MatchesAt source (before ++ rest) (Text.size before) stop ↔
      ∃ xs, accepted? source rest = some xs ∧ stop = Text.size before + Text.size xs := by
  constructor
  · intro h
    obtain ⟨as, xs, behind, hsplit, hforall, hstart, rfl⟩ := h
    rw [List.append_assoc] at hsplit
    obtain ⟨rfl, rfl⟩ := Text.append_inj_of_size hsplit hstart
    exact ⟨xs, accepted?_eq_some_iff.mpr ⟨hforall, xs.prefix_append behind⟩, rfl⟩
  · intro h
    obtain ⟨xs, hxs, rfl⟩ := h
    obtain ⟨hforall, behind, rfl⟩ := accepted?_eq_some_iff.mp hxs
    exact ⟨before, xs, behind, by rw [List.append_assoc], hforall, rfl, rfl⟩

theorem MatchesAt.isBoundary {source subject : List Char} {start stop : ℕ}
    (h : MatchesAt source subject start stop) : Text.isBoundary start subject = true := by
  obtain ⟨before, xs, behind, rfl, _, rfl, _⟩ := h
  exact (Text.isBoundary_iff _ _).mpr ⟨before, xs ++ behind, by rw [List.append_assoc], rfl⟩

/-- Two matches with one start are the same. -/
theorem MatchesAt.stop_unique {source subject : List Char} {start stop stop' : ℕ}
    (h : MatchesAt source subject start stop) (h' : MatchesAt source subject start stop') :
    stop = stop' := by
  obtain ⟨before, rest, rfl, rfl⟩ := (Text.isBoundary_iff _ _).mp h.isBoundary
  obtain ⟨xs, hxs, rfl⟩ := (matchesAt_size_iff source before rest stop).mp h
  obtain ⟨ys, hys, rfl⟩ := (matchesAt_size_iff source before rest stop').mp h'
  rw [Option.some_inj.mp (hxs.symm.trans hys)]

section Attempt
variable {a : Attempt} {s : MatchState} {before rest : List Char}

/-- The state of an attempt that may go to the end of its subject, when the part before its position
is `before` and the part after it is `rest`. -/
structure Stands (a : Attempt) (s : MatchState) (before rest : List Char) : Prop where
  split : a.subject.toList = before ++ rest
  stop : a.stop = Text.size a.subject.toList
  fits : a.stop ≤ maxOffset
  start : Text.isBoundary a.start before = true
  subject : s.subject = a.subject
  limit : s.limit = a.stop
  position : s.position = Text.size before
  slot : 0 < s.captures.length

theorem Stands.remaining (h : Stands a s before rest) : a.remaining s.position = rest := by
  rw [h.position, Attempt.remaining_eq h.split h.stop]

/-- The guard lets through the boundaries of the subject. -/
theorem Stands.checkOffset (h : Stands a s before rest) {n : ℕ}
    (hn : Text.isBoundary n a.subject.toList = true) : s.checkOffset n = .ok () := by
  rw [MatchState.checkOffset_eq_ok_iff, h.limit, h.stop, h.subject]
  exact ⟨Text.le_size_of_isBoundary hn, hn⟩

/-- A move over the next character is not refused. -/
theorem Stands.advance {c : Char} (h : Stands a s before (c :: rest)) :
    ∃ t, s.advance c.utf8Size = .ok t ∧ Stands a t (before ++ [c]) rest := by
  have hsplit : a.subject.toList = (before ++ [c]) ++ rest := by
    rw [h.split, List.append_assoc, List.singleton_append]
  have hnext : s.position + c.utf8Size = Text.size (before ++ [c]) := by
    rw [h.position, Text.size_append, Text.size_cons, Text.size_nil, Nat.add_zero]
  have hboundary : Text.isBoundary (Text.size (before ++ [c])) a.subject.toList = true :=
    (Text.isBoundary_iff _ _).mpr ⟨_, rest, hsplit, rfl⟩
  have hfits : min (s.position + c.utf8Size) maxOffset = Text.size (before ++ [c]) := by
    have hle := Text.le_size_of_isBoundary hboundary
    have hstop := h.stop
    have hmax := h.fits
    omega
  refine ⟨{ s with position := Text.size (before ++ [c]) }, ?_, ?_⟩
  · rw [MatchState.advance_eq_ok_iff, hfits]
    exact ⟨h.checkOffset hboundary, rfl⟩
  · obtain ⟨as, bs, hbefore, has⟩ := (Text.isBoundary_iff _ _).mp h.start
    exact {
      split := hsplit
      stop := h.stop
      fits := h.fits
      start := (Text.isBoundary_iff _ _).mpr
        ⟨as, bs ++ [c], by rw [hbefore, List.append_assoc], has⟩
      subject := h.subject
      limit := h.limit
      position := rfl
      slot := h.slot }

/-- A node for a character moves over the next one of the subject if that is accepted. -/
theorem Stands.move_admits {p c : Char} {n : Node} (h : Stands a s before (c :: rest))
    (hn : n.kind = kindOf p) (hc : Admits p c) :
    ∃ t, move a n s = .ok (.next t) ∧ Stands a t (before ++ [c]) rest := by
  obtain ⟨t, hadvance, ht⟩ := h.advance
  refine ⟨t, ?_, ht⟩
  rw [move, hn, h.remaining, kindOf]
  by_cases hp : p = '.'
  · rw [if_pos hp]
    simp only [hadvance, Except.map]
  · obtain rfl : p = c := hc.resolve_left hp
    rw [if_neg hp]
    simp only [String.toList_singleton, Text.strip?, if_true, Text.size_cons, Text.size_nil,
      Nat.add_zero, hadvance, Except.map]

theorem Stands.move_rejects {p : Char} {n : Node} (h : Stands a s before rest)
    (hn : n.kind = kindOf p) (hc : ∀ c cs, rest = c :: cs → ¬ Admits p c) :
    move a n s = .ok .failure := by
  rw [move, hn, h.remaining, kindOf]
  cases rest with
  | nil =>
    by_cases hp : p = '.'
    · rw [if_pos hp]
    · rw [if_neg hp]
      simp only [String.toList_singleton, Text.strip?]
  | cons c cs =>
    obtain ⟨hpoint, hne⟩ := not_or.mp (hc c cs rfl)
    rw [if_neg hpoint]
    simp only [String.toList_singleton, Text.strip?, if_neg hne]

/-- The last node takes the characters since the start for the match. -/
theorem Stands.move_finish {n : Node} (h : Stands a s before rest) (hn : n.kind = .finish) :
    ∃ t, move a n s = .ok (.success t) ∧ t.position = s.position := by
  have hposition : Text.isBoundary s.position a.subject.toList = true :=
    (Text.isBoundary_iff _ _).mpr ⟨before, rest, h.split, h.position.symm⟩
  have hstart : Text.isBoundary a.start a.subject.toList = true := by
    obtain ⟨as, bs, rfl, has⟩ := (Text.isBoundary_iff _ _).mp h.start
    exact (Text.isBoundary_iff _ _).mpr ⟨as, bs ++ rest, by rw [h.split, List.append_assoc], has⟩
  have hle : a.start ≤ s.position := by
    rw [h.position]
    exact Text.le_size_of_isBoundary h.start
  obtain ⟨t, hcapture, ht⟩ :
      ∃ t, s.setCapture 0 a.start s.position = .ok t ∧ t.position = s.position :=
    ⟨_, (MatchState.setCapture_eq_ok_iff s _ 0 a.start s.position).mpr
      ⟨h.slot, hle, h.checkOffset hstart, h.checkOffset hposition, rfl⟩, rfl⟩
  refine ⟨t, ?_, ht⟩
  rw [move, hn]
  simp only [hcapture, Except.map]

theorem stands_start {subject : String} (hsplit : subject.toList = before ++ rest)
    (hfits : subject.utf8ByteSize ≤ maxOffset) :
    Stands (.startingAt subject (Text.size before))
      (.start (.startingAt subject (Text.size before)) 1) before rest := by
  have hstart : min (Text.size before) (Text.size subject.toList) = Text.size before := by
    rw [hsplit, Text.size_append]
    omega
  exact {
    split := hsplit
    stop := rfl
    fits := by rwa [Attempt.startingAt, Text.size_toList]
    start := (Text.isBoundary_iff _ _).mpr ⟨before, [], (List.append_nil _).symm, hstart.symm⟩
    subject := rfl
    limit := rfl
    position := hstart
    slot := by rw [MatchState.length_captures_start]; exact Nat.one_pos }

end Attempt

/-- What a search over the starts from `n` on should find: the match with the first start, or
nothing if all matches start before. -/
def FirstFrom (source subject : List Char) (n : ℕ) : Option (ℕ × ℕ) → Prop
  | some (start, stop) => MatchesAt source subject start stop ∧
      ∀ start' stop', MatchesAt source subject start' stop' → n ≤ start' → start ≤ start'
  | none => ∀ start stop, MatchesAt source subject start stop → start < n

section First
variable {source subject before rest : List Char}

theorem firstFrom_here {xs : List Char} (hsplit : subject = before ++ rest)
    (hxs : accepted? source rest = some xs) :
    FirstFrom source subject (Text.size before)
      (some (Text.size before, Text.size before + Text.size xs)) := by
  subst hsplit
  exact ⟨(matchesAt_size_iff source before rest _).mpr ⟨xs, hxs, rfl⟩, fun _ _ _ hle => hle⟩

theorem MatchesAt.start_ne {start stop : ℕ} (h : MatchesAt source subject start stop)
    (hsplit : subject = before ++ rest) (hnone : accepted? source rest = none) :
    start ≠ Text.size before := by
  intro hstart
  subst hstart
  rw [hsplit, matchesAt_size_iff, hnone] at h
  obtain ⟨xs, hxs, _⟩ := h
  cases hxs

/-- No match starts after the end of the subject. -/
theorem firstFrom_end (hnone : accepted? source [] = none) :
    FirstFrom source subject (Text.size subject) none := by
  intro start stop hmatch
  have hle := Text.le_size_of_isBoundary hmatch.isBoundary
  have hne := hmatch.start_ne (List.append_nil subject).symm hnone
  omega

/-- A boundary where no match starts may be passed over. -/
theorem FirstFrom.of_next {cs : List Char} {c : Char} {found : Option (ℕ × ℕ)}
    (h : FirstFrom source subject (Text.size (before ++ [c])) found)
    (hsplit : subject = before ++ c :: cs) (hnone : accepted? source (c :: cs) = none) :
    FirstFrom source subject (Text.size before) found := by
  have hpass : ∀ start stop, MatchesAt source subject start stop → Text.size before ≤ start →
      Text.size (before ++ [c]) ≤ start := by
    intro start stop hmatch hle
    have hboundary := hmatch.isBoundary
    have hne := hmatch.start_ne hsplit hnone
    rw [hsplit] at hboundary
    simpa using Text.le_of_isBoundary_of_lt hboundary (by omega)
  cases found with
  | none =>
    intro start stop hmatch
    by_contra hle
    have hnext := hpass start stop hmatch (Nat.not_lt.mp hle)
    exact absurd (h start stop hmatch) (Nat.not_lt.mpr hnext)
  | some found =>
    obtain ⟨hmatch, hfirst⟩ := h
    exact ⟨hmatch, fun start' stop' hmatch' hle =>
      hfirst start' stop' hmatch' (hpass start' stop' hmatch' hle)⟩

/-- A search from the beginning finds the leftmost match. -/
theorem FirstFrom.eq_some_iff {found : Option (ℕ × ℕ)} (h : FirstFrom source subject 0 found)
    (start stop : ℕ) :
    found = some (start, stop) ↔ MatchesAt source subject start stop ∧
      ∀ start' stop', MatchesAt source subject start' stop' → start ≤ start' := by
  constructor
  · intro hfound
    subst hfound
    exact ⟨h.1, fun start' stop' hmatch' => h.2 start' stop' hmatch' (Nat.zero_le start')⟩
  · intro hleast
    obtain ⟨hmatch, hfirst⟩ := hleast
    cases found with
    | none => exact absurd (h start stop hmatch) (Nat.not_lt_zero start)
    | some found =>
      obtain ⟨start₀, stop₀⟩ := found
      obtain ⟨hmatch₀, hfirst₀⟩ := h
      have hle := hfirst start₀ stop₀ hmatch₀
      have hge := hfirst₀ start stop hmatch (Nat.zero_le start)
      obtain rfl : start₀ = start := by omega
      rw [hmatch₀.stop_unique hmatch]

theorem FirstFrom.eq_none_iff {found : Option (ℕ × ℕ)} (h : FirstFrom source subject 0 found) :
    found = none ↔ ∀ start stop, ¬ MatchesAt source subject start stop := by
  constructor
  · intro hfound start stop hmatch
    subst hfound
    exact absurd (h start stop hmatch) (Nat.not_lt_zero start)
  · intro hnot
    cases found with
    | none => rfl
    | some found => exact absurd h.1 (hnot found.1 found.2)

theorem matchesAt_nil (subject : List Char) : MatchesAt [] subject 0 0 :=
  ⟨[], [], subject, rfl, .nil, rfl, rfl⟩

/-- No character is left at the end, so only the empty source matches there. -/
theorem MatchesAt.source_eq_nil {stop : ℕ}
    (h : MatchesAt source subject (Text.size subject) stop) : source = [] := by
  cases source with
  | nil => rfl
  | cons p ps => exact absurd rfl (h.start_ne (List.append_nil subject).symm rfl)

end First

section Silent
variable {ω : Type}

/-- An attempt compares the nodes that are left with what is left of the subject. -/
theorem attempt_silent (p : Pattern) {a : Attempt} {before rest : List Char} (ps : List Char)
    (index offset : ℕ) {s : MatchState} (h : Stands a s before rest) (noted : List HookFailure)
    (w : ω) :
    attempt (.silent ω) p a (nodesFrom index offset ps) s noted w =
      ⟨.ok ((accepted? ps rest).map fun xs => Text.size before + Text.size xs), noted, w⟩ := by
  induction ps generalizing before rest index offset s with
  | nil =>
    obtain ⟨t, hmove, ht⟩ := h.move_finish (n := ⟨index, .finish, offset, none⟩) rfl
    simp only [nodesFrom, attempt, Strategy.silent, hmove, ht, h.position, accepted?,
      List.append_nil, Option.map_some, Text.size_nil, Nat.add_zero]
  | cons p' ps ih =>
    have hkind : (⟨index, kindOf p', offset, some (index + 1)⟩ : Node).kind = kindOf p' := rfl
    by_cases hc : ∃ c cs, rest = c :: cs ∧ Admits p' c
    · obtain ⟨c, cs, rfl, hadmits⟩ := hc
      obtain ⟨t, hmove, ht⟩ := h.move_admits hkind hadmits
      simp only [nodesFrom, attempt, Strategy.silent, hmove, accepted?, if_pos hadmits,
        List.append_nil, Option.map_map]
      refine (ih (index + 1) (offset + p'.utf8Size) ht).trans ?_
      congr 3
      funext xs
      simp [Nat.add_assoc]
    · have hrejects : ∀ c cs, rest = c :: cs → ¬ Admits p' c := fun c cs hrest hadmits =>
        hc ⟨c, cs, hrest, hadmits⟩
      have hnone : accepted? (p' :: ps) rest = none := by
        cases rest with
        | nil => rfl
        | cons c cs => rw [accepted?, if_neg (hrejects c cs rfl)]
      simp only [nodesFrom, attempt, Strategy.silent, h.move_rejects hkind hrejects, hnone,
        List.append_nil, Option.map_none]

theorem announce_silent (p : Pattern) (ns : List Node) (noted : List HookFailure) (w : ω) :
    announce (.silent ω) p ns noted w = ⟨.ok (), noted, w⟩ := by
  induction ns with
  | nil => rfl
  | cons n ns ih => simpa only [announce, Strategy.silent, List.append_nil] using ih

theorem compile_silent (p : Pattern) (noted : List HookFailure) (w : ω) :
    compile (.silent ω) p noted w = ⟨.ok ⟨p, nodesOf p.source⟩, noted, w⟩ := by
  have hannounce := announce_silent p (nodesOf p.source) noted w
  simp only [compile, Strategy.silent, List.append_nil] at hannounce ⊢
  rw [hannounce]

theorem search_cons_silent (p : Pattern) {subject : String} {before rest : List Char}
    (hsplit : subject.toList = before ++ rest) (hfits : subject.utf8ByteSize ≤ maxOffset)
    (starts : List ℕ) (noted : List HookFailure) (w : ω) :
    search (.silent ω) ⟨p, nodesOf p.source⟩ subject (Text.size before :: starts) noted w =
      match accepted? p.source.toList rest with
      | some xs => ⟨.ok (some (Text.size before, Text.size before + Text.size xs)), noted, w⟩
      | none => search (.silent ω) ⟨p, nodesOf p.source⟩ subject starts noted w := by
  have hattempt := attempt_silent p p.source.toList 0 0 (stands_start hsplit hfits) noted w
  rw [search, nodesOf, hattempt]
  cases accepted? p.source.toList rest <;> rfl

/-- A search over the boundaries from the end of `before` on finds the first match there. -/
theorem search_silent (p : Pattern) {subject : String} {before rest : List Char}
    (hsplit : subject.toList = before ++ rest) (hfits : subject.utf8ByteSize ≤ maxOffset)
    (noted : List HookFailure) (w : ω) :
    ∃ found, search (.silent ω) ⟨p, nodesOf p.source⟩ subject
        (Text.boundariesFrom (Text.size before) rest) noted w = ⟨.ok found, noted, w⟩ ∧
      FirstFrom p.source.toList subject.toList (Text.size before) found := by
  induction rest generalizing before with
  | nil =>
    rw [Text.boundariesFrom, search_cons_silent p hsplit hfits]
    cases haccepted : accepted? p.source.toList [] with
    | some xs => exact ⟨_, rfl, firstFrom_here hsplit haccepted⟩
    | none =>
      rw [List.append_nil] at hsplit
      rw [← hsplit]
      exact ⟨none, rfl, firstFrom_end haccepted⟩
  | cons c cs ih =>
    rw [Text.boundariesFrom, search_cons_silent p hsplit hfits]
    cases haccepted : accepted? p.source.toList (c :: cs) with
    | some xs => exact ⟨_, rfl, firstFrom_here hsplit haccepted⟩
    | none =>
      have hnext : Text.size before + c.utf8Size = Text.size (before ++ [c]) := by simp
      have hsplit' : subject.toList = (before ++ [c]) ++ cs := by
        rw [hsplit, List.append_assoc, List.singleton_append]
      obtain ⟨found, hsearch, hfound⟩ := ih hsplit'
      rw [← hnext] at hsearch
      exact ⟨found, hsearch, hfound.of_next hsplit haccepted⟩

/-- Without hooks the engine finds the leftmost match by characters. A pattern compiles, whatever
its flags, and its search of any subject, whose bytes a machine word can count, succeeds: with the
match that has the smallest start, or with nothing when there is no match. An empty source matches
at the start of every subject, and only it matches at the end. -/
theorem exec_finds_leftmost (p : Pattern) (subject : String) (noted : List HookFailure) (w : ω)
    (hfits : subject.utf8ByteSize ≤ maxOffset) :
    ∃ prog found, compile (.silent ω) p noted w = ⟨.ok prog, noted, w⟩ ∧
      exec (.silent ω) prog subject noted w = ⟨.ok found, noted, w⟩ ∧
      (∀ start stop, found = some (start, stop) ↔
        MatchesAt p.source.toList subject.toList start stop ∧
          ∀ start' stop', MatchesAt p.source.toList subject.toList start' stop' →
            start ≤ start') ∧
      (found = none ↔ ∀ start stop, ¬ MatchesAt p.source.toList subject.toList start stop) ∧
      (p.source = "" → found = some (0, 0)) ∧
      (∀ stop, found = some (subject.utf8ByteSize, stop) → p.source = "") := by
  obtain ⟨found, hsearch, hfound⟩ :=
    search_silent p (List.nil_append subject.toList).symm hfits noted w
  refine ⟨_, found, compile_silent p noted w, hsearch, hfound.eq_some_iff, hfound.eq_none_iff,
    fun hsource => ?_, fun stop hstop => ?_⟩
  · rw [hfound.eq_some_iff, hsource]
    exact ⟨matchesAt_nil _, fun start' _ _ => Nat.zero_le start'⟩
  · have hmatch := ((hfound.eq_some_iff _ _).mp hstop).1
    rw [← Text.size_toList] at hmatch
    exact String.toList_eq_nil_iff.mp hmatch.source_eq_nil

theorem exec_finds_leftmost_after_partial :
    "éaé€x".utf8ByteSize ≤ maxOffset ∧
      ∃ prog, compile (.silent Unit) ⟨⟨0⟩, "é.x", { extended := true }, ["a"], .epoch⟩ [] () =
          ⟨.ok prog, [], ()⟩ ∧
        exec (.silent Unit) prog "éaé€x" [] () = ⟨.ok (some (3, 9)), [], ()⟩ ∧
        MatchesAt "é.x".toList "éaé€x".toList 3 9 ∧
        ∀ start stop, MatchesAt "é.x".toList "éaé€x".toList start stop → 3 ≤ start := by
  have hfits : "éaé€x".utf8ByteSize ≤ maxOffset := by decide
  obtain ⟨prog, found, hcompile, hexec, hsome, _⟩ := exec_finds_leftmost
    ⟨⟨0⟩, "é.x", { extended := true }, ["a"], .epoch⟩ "éaé€x" [] () hfits
  have hprog : (⟨_, nodesOf "é.x"⟩ : Program) = prog :=
    Except.ok.inj (congrArg Run.result hcompile)
  subst hprog
  have hfound : Except.ok (some (3, 9)) = Except.ok found :=
    (congrArg Run.result hexec)
  obtain rfl := Except.ok.inj hfound
  obtain ⟨hmatch, hleast⟩ := (hsome 3 9).mp rfl
  exact ⟨hfits, _, hcompile, hexec, hmatch, hleast⟩

end Silent

end PatternHooks.LeftmostMatch

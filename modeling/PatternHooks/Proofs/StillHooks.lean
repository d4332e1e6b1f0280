import PatternHooks.Proofs.Steering

/-!
Hooks that leave the position where it is. The engine looks at a match state through its position
alone: the subject and the limit are those of the attempt, and it sets one capture and reads none.
Two states with the same position are therefore as good as each other to it, and so a search with
such hooks has the result that it has with none.
-/

namespace PatternHooks.StillHooks

open Engine Dispatch CallLog EngineCourse MatchStateBounds Steering Visits

variable {η σ ω : Type}

/-- The hooks leave the position where they find it. -/
def KeepsPosition (c : Invocation η σ) : Prop :=
  c.after.own.2.map (·.position) = c.before.own.2.map (·.position)

instance (c : Invocation η σ) : Decidable (KeepsPosition c) :=
  inferInstanceAs (Decidable (_ = _))

/-- States that differ at most in what their captures hold, in depth and in scratch data. -/
structure Abreast (s t : MatchState) : Prop where
  subject : s.subject = t.subject
  limit : s.limit = t.limit
  slots : s.captures.length = t.captures.length
  position : s.position = t.position

theorem Abreast.trans {s t u : MatchState} (h : Abreast s t) (h' : Abreast t u) : Abreast s u :=
  ⟨h.subject.trans h'.subject, h.limit.trans h'.limit, h.slots.trans h'.slots,
    h.position.trans h'.position⟩

theorem abreast_of_kept {a : Attempt} {groups : ℕ} {s t : MatchState} (hs : Kept a groups s)
    (ht : Kept a groups t) (hposition : s.position = t.position) : Abreast s t :=
  ⟨hs.subject.trans ht.subject.symm, hs.limit.trans ht.limit.symm, hs.slots.trans ht.slots.symm,
    hposition⟩

/-- Moves that take two states on alike. -/
inductive Alongside : Except EditFault Move → Except EditFault Move → Prop
  | refused (f : EditFault) : Alongside (.error f) (.error f)
  | failure : Alongside (.ok .failure) (.ok .failure)
  | success {s t : MatchState} (h : Abreast s t) : Alongside (.ok (.success s)) (.ok (.success t))
  | next {s t : MatchState} (h : Abreast s t) : Alongside (.ok (.next s)) (.ok (.next t))

section Move
variable {s t : MatchState}

theorem Abreast.checkOffset (h : Abreast s t) (n : ℕ) : s.checkOffset n = t.checkOffset n := by
  rw [MatchState.checkOffset, MatchState.checkOffset, h.subject, h.limit]

theorem Abreast.advance (h : Abreast s t) (n : ℕ) :
    Alongside ((s.advance n).map .next) ((t.advance n).map .next) := by
  rw [MatchState.advance, MatchState.advance, MatchState.setPosition, MatchState.setPosition,
    h.position, h.checkOffset]
  cases t.checkOffset (min (t.position + n) maxOffset) with
  | error f => exact .refused f
  | ok _ => exact .next ⟨h.subject, h.limit, h.slots, rfl⟩

theorem Abreast.setCapture (h : Abreast s t) (start : ℕ) :
    Alongside ((s.setCapture 0 start s.position).map .success)
      ((t.setCapture 0 start t.position).map .success) := by
  rw [MatchState.setCapture, MatchState.setCapture, h.position, h.slots, h.checkOffset,
    h.checkOffset]
  split
  · exact .refused _
  · split
    · exact .refused _
    · cases t.checkOffset start with
      | error f => exact .refused f
      | ok _ =>
        cases t.checkOffset t.position with
        | error f => exact .refused f
        | ok _ =>
          refine .success ⟨h.subject, h.limit, ?_, rfl⟩
          rw [List.length_set, List.length_set, h.slots]

/-- The engine moves on alike from states that are abreast. -/
theorem Abreast.move (h : Abreast s t) (a : Attempt) (n : Node) :
    Alongside (move a n s) (move a n t) := by
  rw [move_eq, move_eq, h.position]
  cases demand a n t.position with
  | nothing => exact .failure
  | advance k => exact h.advance k
  | capture =>
    have hcapture := h.setCapture a.start
    rw [h.position] at hcapture
    exact hcapture

end Move

/-- An edit of the engine keeps what edits of hooks keep. -/
theorem kept_next {a : Attempt} {groups : ℕ} {n : Node} {s t : MatchState} (h : Kept a groups s)
    (hmove : move a n s = .ok (.next t)) : Kept a groups t := by
  rw [move_eq] at hmove
  cases hdemand : demand a n s.position with
  | nothing => rw [hdemand] at hmove; cases hmove
  | advance k =>
    simp only [hdemand] at hmove
    cases hadvance : s.advance k with
    | error f => rw [hadvance] at hmove; cases hmove
    | ok u =>
      rw [hadvance] at hmove
      cases hmove
      exact (h.perform (d := .edit (.advance k)) hadvance).1
  | capture =>
    simp only [hdemand] at hmove
    cases hcapture : s.setCapture 0 a.start s.position with
    | error f => rw [hcapture] at hmove; cases hmove
    | ok u => rw [hcapture] at hmove; cases hmove

/-- A visit by still hooks leaves the position, and all that is kept. -/
theorem kept_visited {b : Behaviour η σ} (hsteers : Steers b) {fatal : Bool} {p : Pattern}
    {v : Visit} {w w' : World η σ} {calls : List (Call η (σ × MatchState))} {groups : ℕ}
    (hvisit : Visited b fatal p v w calls w') (h : Kept v.attempt groups v.arrived)
    (hstill : ∀ c ∈ v.invocations calls, KeepsPosition c) :
    Kept v.attempt groups v.left ∧ v.left.position = v.arrived.position := by
  constructor
  · obtain ⟨ds, hds⟩ := hsteers.visited hvisit
    rw [hds]
    exact List.foldlRecOn ds after h fun _ ht d _ => ht.after d
  · refine hvisit.keeps (P := fun t => t.position = v.arrived.position) ?_ rfl
    intro c hc _ hposition
    have hkeeps := Option.some.inj (List.forall_mem_map.mp hstill c hc)
    exact hkeeps.trans hposition

/-- A dispatch whose calls do not fail ends with a report, and so does a tolerant one. -/
theorem exists_report {b : Behaviour η σ} {fatal : Bool} {p : Pattern} {v : Visit}
    {w w' : World η σ} {calls : List (Call η (σ × MatchState))}
    (hvisit : Visited b fatal p v w calls w')
    (hwell : fatal = true → ∀ c ∈ v.invocations calls, c.result = .ok ()) :
    ∃ report, v.outcome = .ok report := by
  rcases Round.ends hvisit with ⟨report, houtcome, _⟩ |
    ⟨hfatal, _, earlier, last, _, _, _, _, hcalls, hbreaks, _⟩
  · exact ⟨report, houtcome⟩
  · have hlast : last ∈ calls := by
      rw [hcalls]
      exact List.mem_append_right earlier (List.mem_singleton_self last)
    have hok : last.result = .ok () := List.forall_mem_map.mp (hwell hfatal) last hlast
    cases hok.symm.trans hbreaks.failed

section Course
variable {b : Behaviour η σ} {fatal : Bool} {w w' : World η σ} {visits : List Visit}
  {is : List (Invocation η σ)}

/-- Without hooks an attempt takes the course that it takes with still ones. -/
theorem attempt_unmoved {p : Pattern} {a : Attempt} {ns : List Node} {s t : MatchState}
    {r : Except Fault (Option ℕ)} (h : Passage b fatal p a ns s w visits is r w')
    (hsteers : Steers b) (hstill : ∀ c ∈ is, KeepsPosition c)
    (hwell : fatal = true → ∀ c ∈ is, c.result = .ok ()) (hs : Kept a 1 s) (ht : Abreast s t)
    (noted : List HookFailure) (u : ω) :
    attempt (.silent ω) p a ns t noted u = ⟨r, noted, u⟩ := by
  -- `t` is the state of the run without hooks; hooks change `s` beside it, but not the position.
  induction h generalizing t noted with
  | spent s w => rfl
  | stops hvisit =>
    obtain ⟨report, houtcome⟩ := exists_report hvisit hwell
    cases houtcome
  | @ends n ns s left w w' report calls r hvisit hends =>
    obtain ⟨hleft, hposition⟩ := kept_visited hsteers hvisit hs hstill
    have hmoves := ((abreast_of_kept hleft hs hposition).trans ht).move a n
    simp only [attempt, Strategy.silent, List.append_nil]
    generalize move a n left = m at hends hmoves
    generalize move a n t = m' at hmoves
    cases hmoves with
    | refused f => cases hends; rfl
    | failure => cases hends; rfl
    | success habreast => cases hends; simp only [habreast.position]
    | next habreast => cases hends
  | @next n ns s left u' w w' w'' report calls visits is r hvisit hmove hrest ih =>
    obtain ⟨hstill₁, hstill₂⟩ := List.forall_mem_append.mp hstill
    obtain ⟨hleft, hposition⟩ := kept_visited hsteers hvisit hs hstill₁
    have hmoves := ((abreast_of_kept hleft hs hposition).trans ht).move a n
    have hnext : Kept a 1 u' := kept_next hleft hmove
    rw [hmove] at hmoves
    simp only [attempt, Strategy.silent, List.append_nil]
    generalize move a n t = m at hmoves
    cases hmoves with
    | next habreast =>
      exact ih hstill₂ (fun hfatal => (List.forall_mem_append.mp (hwell hfatal)).2) hnext habreast
        noted

theorem search_unmoved {prog : Program} {subject : String} {starts : List ℕ}
    {r : Except Fault (Option (ℕ × ℕ))}
    (h : Pursuit b fatal prog subject starts w visits is r w') (hsteers : Steers b)
    (hstill : ∀ c ∈ is, KeepsPosition c) (hwell : fatal = true → ∀ c ∈ is, c.result = .ok ())
    (noted : List HookFailure) (u : ω) :
    search (.silent ω) prog subject starts noted u = ⟨r, noted, u⟩ := by
  induction h with
  | spent w => rfl
  | stops hpassage =>
    have hattempt := attempt_unmoved hpassage hsteers hstill hwell (kept_start _ 1)
      ⟨rfl, rfl, rfl, rfl⟩ noted u
    simp only [search, hattempt]
  | finds hpassage =>
    have hattempt := attempt_unmoved hpassage hsteers hstill hwell (kept_start _ 1)
      ⟨rfl, rfl, rfl, rfl⟩ noted u
    simp only [search, hattempt]
  | next hpassage hrest ih =>
    obtain ⟨hstill₁, hstill₂⟩ := List.forall_mem_append.mp hstill
    have hattempt := attempt_unmoved hpassage hsteers hstill₁
      (fun hfatal => (List.forall_mem_append.mp (hwell hfatal)).1) (kept_start _ 1)
      ⟨rfl, rfl, rfl, rfl⟩ noted u
    simp only [search, hattempt]
    exact ih hstill₂ fun hfatal => (List.forall_mem_append.mp (hwell hfatal)).2

end Course

/-- Hooks that do not steer are transparent to matching. Any of them may set and clear captures, go
deeper, write to the scratch data and change the registry in the middle of a dispatch, and may fail
where failures are not fatal: if each call leaves the position where it finds it, the search has the
result that it has without hooks. -/
theorem still_hooks_keep_result (b : Behaviour η σ) (fatal : Bool) (prog : Program)
    (subject : String) (noted noted' : List HookFailure) (w : World η σ) (u : ω)
    (hsteers : Steers b) (hstill : ∀ c ∈ execCalls b fatal prog subject w, KeepsPosition c)
    (hwell : fatal = true → ∀ c ∈ execCalls b fatal prog subject w, c.result = .ok ()) :
    (exec (.ofHooks b fatal) prog subject noted w).result =
      (exec (.silent ω) prog subject noted' u).result := by
  obtain ⟨visits, is, r, w', hpursuit⟩ :=
    exists_pursuit b fatal prog subject (Text.boundaries subject.toList) w
  rw [hpursuit.execCalls_eq] at hstill hwell
  have hsilent := search_unmoved hpursuit hsteers hstill hwell noted' u
  rw [hpursuit.exec_eq noted, exec, hsilent]

/-- The first hook sets a capture and, in the middle of a dispatch, removes the second one, which
fails whenever it is called. -/
def restless : World HookObject Memory where
  registry := ((Registry.empty .reject).insert "second"
      ⟨1, .scripted none none (some [.edit .pushFrame, .fail "lost" []])⟩).insert "first"
    ⟨0, .scripted none none (some [.edit (.setCapture 0 0 2), .whenOp ["REG_ANY"]
      [.unregister "second"]])⟩
  own := {}

theorem still_hooks_keep_result_restless :
    Steers (HookObject.behaviour false 0) ∧
      (∀ c ∈ execCalls (HookObject.behaviour false 0) false
        ⟨⟨⟨0⟩, "b.", {}, ["first", "second", "third"], .epoch⟩, nodesOf "b."⟩ "ébé" restless,
          KeepsPosition c) ∧
      (exec (.ofHooks (HookObject.behaviour false 0) false)
        ⟨⟨⟨0⟩, "b.", {}, ["first", "second", "third"], .epoch⟩, nodesOf "b."⟩ "ébé" []
          restless).result = .ok (some (2, 5)) := by
  have hsteers := steers_behaviour false 0
  have hstill : ∀ c ∈ execCalls (HookObject.behaviour false 0) false
      ⟨⟨⟨0⟩, "b.", {}, ["first", "second", "third"], .epoch⟩, nodesOf "b."⟩ "ébé" restless,
        KeepsPosition c := by decide +kernel
  exact ⟨hsteers, hstill, still_hooks_keep_result (HookObject.behaviour false 0) false _ "ébé" []
    [] restless () hsteers hstill nofun⟩

end PatternHooks.StillHooks

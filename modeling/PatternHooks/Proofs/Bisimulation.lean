import Mathlib.Data.List.Forall2
import PatternHooks.Engine

/-!
Strategies that cannot be told apart. Two strategies over worlds of two kinds are bisimilar for a
pattern when every dispatch on it from related worlds returns the same and leaves related worlds.
Then the engine compiles and searches alike with both, and so does every sequence of tasks.
-/

namespace PatternHooks.Bisimulation

open Engine

variable {ω ω₁ ω₂ α : Type}

structure Bisimilar (R : ω₁ → ω₂ → Prop) (p : Pattern) (h₁ : Strategy ω₁) (h₂ : Strategy ω₂) :
    Prop where
  compileBegin : ∀ {w₁ w₂}, R w₁ w₂ →
    (h₁.compileBegin p w₁).1 = (h₂.compileBegin p w₂).1 ∧
      R (h₁.compileBegin p w₁).2 (h₂.compileBegin p w₂).2
  compileNode : ∀ {w₁ w₂} n, R w₁ w₂ →
    (h₁.compileNode p n w₁).1 = (h₂.compileNode p n w₂).1 ∧
      R (h₁.compileNode p n w₁).2 (h₂.compileNode p n w₂).2
  execNode : ∀ {w₁ w₂} n a s, R w₁ w₂ →
    (h₁.execNode p n a s w₁).1 = (h₂.execNode p n a s w₂).1 ∧
      (h₁.execNode p n a s w₁).2.1 = (h₂.execNode p n a s w₂).2.1 ∧
      R (h₁.execNode p n a s w₁).2.2 (h₂.execNode p n a s w₂).2.2

/-- Runs of the engine with the same result and the same noted failures, from which the worlds come
out related. -/
structure Alike (R : ω₁ → ω₂ → Prop) (r₁ : Run ω₁ α) (r₂ : Run ω₂ α) : Prop where
  result : r₁.result = r₂.result
  noted : r₁.noted = r₂.noted
  world : R r₁.world r₂.world

section Engine
variable {R : ω₁ → ω₂ → Prop} {p : Pattern} {h₁ : Strategy ω₁} {h₂ : Strategy ω₂}

theorem Bisimilar.announce (h : Bisimilar R p h₁ h₂) (ns : List Node) (noted : List HookFailure)
    {w₁ : ω₁} {w₂ : ω₂} (hw : R w₁ w₂) :
    Alike R (announce h₁ p ns noted w₁) (announce h₂ p ns noted w₂) := by
  induction ns generalizing noted w₁ w₂ with
  | nil => exact ⟨rfl, rfl, hw⟩
  | cons n ns ih =>
    obtain ⟨houtcome, hleft⟩ := h.compileNode n hw
    rcases hc₁ : h₁.compileNode p n w₁ with ⟨outcome₁, w₁'⟩
    rcases hc₂ : h₂.compileNode p n w₂ with ⟨outcome₂, w₂'⟩
    rw [hc₁, hc₂] at houtcome hleft
    obtain rfl : outcome₁ = outcome₂ := houtcome
    cases outcome₁ with
    | error e =>
      simp only [Engine.announce, hc₁, hc₂]
      exact ⟨rfl, rfl, hleft⟩
    | ok report =>
      simp only [Engine.announce, hc₁, hc₂]
      exact ih _ hleft

theorem Bisimilar.compile (h : Bisimilar R p h₁ h₂) (noted : List HookFailure) {w₁ : ω₁} {w₂ : ω₂}
    (hw : R w₁ w₂) : Alike R (compile h₁ p noted w₁) (compile h₂ p noted w₂) := by
  obtain ⟨houtcome, hleft⟩ := h.compileBegin hw
  rcases hc₁ : h₁.compileBegin p w₁ with ⟨outcome₁, w₁'⟩
  rcases hc₂ : h₂.compileBegin p w₂ with ⟨outcome₂, w₂'⟩
  rw [hc₁, hc₂] at houtcome hleft
  obtain rfl : outcome₁ = outcome₂ := houtcome
  cases outcome₁ with
  | error e =>
    simp only [Engine.compile, hc₁, hc₂]
    exact ⟨rfl, rfl, hleft⟩
  | ok report =>
    have hnodes := h.announce (nodesOf p.source) (noted ++ report.failures) hleft
    rcases ha₁ : Engine.announce h₁ p (nodesOf p.source) (noted ++ report.failures) w₁'
      with ⟨result₁, noted₁, w₁''⟩
    rcases ha₂ : Engine.announce h₂ p (nodesOf p.source) (noted ++ report.failures) w₂'
      with ⟨result₂, noted₂, w₂''⟩
    rw [ha₁, ha₂] at hnodes
    obtain ⟨hresult, hnoted, hworld⟩ := hnodes
    obtain rfl : result₁ = result₂ := hresult
    simp only [Engine.compile, hc₁, hc₂, ha₁, ha₂]
    cases result₁ <;> exact ⟨rfl, hnoted, hworld⟩

theorem Bisimilar.attempt (h : Bisimilar R p h₁ h₂) (a : Attempt) (ns : List Node) (s : MatchState)
    (noted : List HookFailure) {w₁ : ω₁} {w₂ : ω₂} (hw : R w₁ w₂) :
    Alike R (attempt h₁ p a ns s noted w₁) (attempt h₂ p a ns s noted w₂) := by
  induction ns generalizing s noted w₁ w₂ with
  | nil => exact ⟨rfl, rfl, hw⟩
  | cons n ns ih =>
    obtain ⟨houtcome, hstate, hleft⟩ := h.execNode n a s hw
    rcases hc₁ : h₁.execNode p n a s w₁ with ⟨outcome₁, t₁, w₁'⟩
    rcases hc₂ : h₂.execNode p n a s w₂ with ⟨outcome₂, t₂, w₂'⟩
    rw [hc₁, hc₂] at houtcome hstate hleft
    obtain rfl : outcome₁ = outcome₂ := houtcome
    obtain rfl : t₁ = t₂ := hstate
    cases outcome₁ with
    | error e =>
      simp only [Engine.attempt, hc₁, hc₂]
      exact ⟨rfl, rfl, hleft⟩
    | ok report =>
      rcases hmove : move a n t₁ with f | m
      · simp only [Engine.attempt, hc₁, hc₂, hmove]
        exact ⟨rfl, rfl, hleft⟩
      · simp only [Engine.attempt, hc₁, hc₂, hmove]
        cases m with
        | next u => exact ih u _ hleft
        | success u => exact ⟨rfl, rfl, hleft⟩
        | failure => exact ⟨rfl, rfl, hleft⟩

theorem Bisimilar.search (prog : Program) (h : Bisimilar R prog.pattern h₁ h₂) (subject : String)
    (starts : List ℕ) (noted : List HookFailure) {w₁ : ω₁} {w₂ : ω₂} (hw : R w₁ w₂) :
    Alike R (search h₁ prog subject starts noted w₁) (search h₂ prog subject starts noted w₂) := by
  induction starts generalizing noted w₁ w₂ with
  | nil => exact ⟨rfl, rfl, hw⟩
  | cons start starts ih =>
    have hattempt := h.attempt (.startingAt subject start) prog.nodes
      (.start (.startingAt subject start) 1) noted hw
    rcases ha₁ : Engine.attempt h₁ prog.pattern (.startingAt subject start) prog.nodes
      (.start (.startingAt subject start) 1) noted w₁ with ⟨result₁, noted₁, w₁'⟩
    rcases ha₂ : Engine.attempt h₂ prog.pattern (.startingAt subject start) prog.nodes
      (.start (.startingAt subject start) 1) noted w₂ with ⟨result₂, noted₂, w₂'⟩
    rw [ha₁, ha₂] at hattempt
    obtain ⟨hresult, hnoted, hworld⟩ := hattempt
    obtain rfl : result₁ = result₂ := hresult
    obtain rfl : noted₁ = noted₂ := hnoted
    simp only [Engine.search, ha₁, ha₂]
    cases result₁ with
    | error e => exact ⟨rfl, rfl, hworld⟩
    | ok found =>
      cases found with
      | none => exact ih _ hworld
      | some stop => exact ⟨rfl, rfl, hworld⟩

theorem Bisimilar.exec (prog : Program) (h : Bisimilar R prog.pattern h₁ h₂) (subject : String)
    (noted : List HookFailure) {w₁ : ω₁} {w₂ : ω₂} (hw : R w₁ w₂) :
    Alike R (exec h₁ prog subject noted w₁) (exec h₂ prog subject noted w₂) :=
  h.search prog subject _ noted hw

end Engine

/-- What a client asks of a strategy for one pattern: single dispatches, compilations, and searches
with nodes compiled for the pattern. An engine has noted some failures before. -/
inductive Task where
  | begin
  | node (n : Node)
  | visit (n : Node) (a : Attempt) (s : MatchState)
  | compile (noted : List HookFailure)
  | exec (nodes : List Node) (subject : String) (noted : List HookFailure)

inductive Answer where
  | dispatched (outcome : Except Fault Report)
  | visited (outcome : Except Fault Report) (s : MatchState)
  | compiled (result : Except Fault Program) (noted : List HookFailure)
  | searched (result : Except Fault (Option (ℕ × ℕ))) (noted : List HookFailure)

def perform (h : Strategy ω) (p : Pattern) (w : ω) : Task → Answer × ω
  | .begin =>
    let (outcome, w) := h.compileBegin p w
    (.dispatched outcome, w)
  | .node n =>
    let (outcome, w) := h.compileNode p n w
    (.dispatched outcome, w)
  | .visit n a s =>
    let (outcome, s, w) := h.execNode p n a s w
    (.visited outcome s, w)
  | .compile noted =>
    let r := compile h p noted w
    (.compiled r.result r.noted, r.world)
  | .exec nodes subject noted =>
    let r := exec h ⟨p, nodes⟩ subject noted w
    (.searched r.result r.noted, r.world)

/-- The answers to some tasks, one after another, with the world after each. -/
def performAll (h : Strategy ω) (p : Pattern) : List Task → ω → List (Answer × ω)
  | [], _ => []
  | t :: ts, w => perform h p w t :: performAll h p ts (perform h p w t).2

theorem map_eq_of_forall₂ {β₁ β₂ γ : Type} {P : β₁ → β₂ → Prop} {l₁ : List β₁} {l₂ : List β₂}
    (h : List.Forall₂ P l₁ l₂) {f : β₁ → γ} {g : β₂ → γ} (hfg : ∀ {x y}, P x y → f x = g y) :
    l₁.map f = l₂.map g := by
  induction h with
  | nil => rfl
  | cons hxy _ ih => rw [List.map_cons, List.map_cons, hfg hxy, ih]

theorem forall_mem_of_forall₂ {β₁ β₂ : Type} {P : β₁ → β₂ → Prop} {l₁ : List β₁} {l₂ : List β₂}
    (h : List.Forall₂ P l₁ l₂) {Q : β₁ → Prop} (hq : ∀ {x y}, P x y → Q x) : ∀ x ∈ l₁, Q x :=
  ((List.forall₂_and_left l₁ l₂).mp (h.imp fun _ _ hxy => ⟨hq hxy, hxy⟩)).1

section Tasks
variable {R : ω₁ → ω₂ → Prop} {p : Pattern} {h₁ : Strategy ω₁} {h₂ : Strategy ω₂} {w₁ : ω₁}
  {w₂ : ω₂}

theorem Bisimilar.perform (h : Bisimilar R p h₁ h₂) (hw : R w₁ w₂) (t : Task) :
    (perform h₁ p w₁ t).1 = (perform h₂ p w₂ t).1 ∧
      R (perform h₁ p w₁ t).2 (perform h₂ p w₂ t).2 := by
  cases t with
  | begin =>
    obtain ⟨houtcome, hleft⟩ := h.compileBegin hw
    exact ⟨congrArg Answer.dispatched houtcome, hleft⟩
  | node n =>
    obtain ⟨houtcome, hleft⟩ := h.compileNode n hw
    exact ⟨congrArg Answer.dispatched houtcome, hleft⟩
  | visit n a s =>
    obtain ⟨houtcome, hstate, hleft⟩ := h.execNode n a s hw
    exact ⟨congrArg₂ Answer.visited houtcome hstate, hleft⟩
  | compile noted =>
    obtain ⟨hresult, hnoted, hleft⟩ := h.compile noted hw
    exact ⟨congrArg₂ Answer.compiled hresult hnoted, hleft⟩
  | exec nodes subject noted =>
    obtain ⟨hresult, hnoted, hleft⟩ :=
      Bisimilar.exec ⟨p, nodes⟩ h subject noted hw
    exact ⟨congrArg₂ Answer.searched hresult hnoted, hleft⟩

/-- The tasks get the same answers, and after each of them the worlds are related. -/
theorem Bisimilar.performAll (h : Bisimilar R p h₁ h₂) (hw : R w₁ w₂) (ts : List Task) :
    List.Forall₂ (fun x y => x.1 = y.1 ∧ R x.2 y.2) (performAll h₁ p ts w₁)
      (performAll h₂ p ts w₂) := by
  induction ts generalizing w₁ w₂ with
  | nil => exact .nil
  | cons t ts ih =>
    have hfirst := h.perform hw t
    exact .cons hfirst (ih hfirst.2)

end Tasks

end PatternHooks.Bisimulation

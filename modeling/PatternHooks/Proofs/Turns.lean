import Mathlib.Data.Nat.Notation
import PatternHooks.Engine

/-!
The engine in turns. Engines that share a world are at work at the same time, and what each of them
does is cut into turns: a record is written, a key is looked up, or hooks are called. Between two
turns of one engine the world belongs to the others. The turns of one engine, if nobody comes
between them, are the run of that engine.
-/

namespace PatternHooks.Turns

open Engine

variable {η ρ σ τ ω α β : Type}

/-- Work at a shared world: it is done, or takes a turn. How it goes on after a turn depends on the
world that the turn has found. -/
inductive Work (ω α : Type) where
  | done (a : α)
  | turn (act : ω → ω) (next : ω → Work ω α)

namespace Work

def bind : Work ω α → (α → Work ω β) → Work ω β
  | done a, k => k a
  | turn act next, k => turn act fun w => (next w).bind k

/-- All turns, with nobody between them. -/
def run : Work ω α → ω → α × ω
  | done a, w => (a, w)
  | turn act next, w => (next w).run (act w)

/-- How many turns there are, with nobody between them. -/
def turns : Work ω α → ω → ℕ
  | done _, _ => 0
  | turn act next, w => (next w).turns (act w) + 1

theorem run_bind (x : Work ω α) (k : α → Work ω β) (w : ω) :
    (x.bind k).run w = (k (x.run w).1).run (x.run w).2 := by
  induction x generalizing w with
  | done a => rfl
  | turn act next ih => exact ih w (act w)

end Work

/-- A call of hooks that are lent something of the caller's own. -/
abbrev Lending (η σ τ : Type) := η → τ → World η σ → (Except Trouble Unit × τ) × World η σ

def plain (call : η → Effect η σ) : Lending η σ Unit := fun h _ w =>
  (((call h w).1, ()), (call h w).2)

def lent (call : η → Effect η (σ × MatchState)) : Lending η σ MatchState := fun h s w =>
  (((call h (w.lend s)).1, (call h (w.lend s)).2.settle.1), (call h (w.lend s)).2.settle.2)

def verdict : Except Trouble Unit → Verdict
  | .ok () => .fired
  | .error t => .failed t

/-- The turns for a key: it is looked up, and then the hooks that were found are called. -/
def consult (supports : η → Bool) (call : Lending η σ τ) (key : String) (t : τ) :
    Work (World η σ) (Verdict × τ) :=
  .turn id fun w =>
    match w.registry.lookup key with
    | none => .done (.missing, t)
    | some e =>
      if supports e.hooks then
        .turn (fun u => (call e.hooks t u).2)
          fun u => .done (verdict (call e.hooks t u).1.1, (call e.hooks t u).1.2)
      else .done (.unsupported, t)

def fireFrom (fatal : Bool) (phase : Phase) (p : Pattern) (supports : η → Bool)
    (call : Lending η σ τ) :
    List String → Report → τ → Work (World η σ) (Except Fault Report × τ)
  | [], report, t => .done (.ok report, t)
  | key :: keys, report, t =>
    (consult supports call key t).bind fun x =>
      match fatal, x.1 with
      | true, .failed trouble => .done (.error (Dispatch.fatalFault key phase trouble), x.2)
      | _, v =>
        .turn (fun w => Dispatch.chronicle phase p key w v) fun _ =>
          fireFrom fatal phase p supports call keys (Dispatch.note report key v) x.2

/-- A call on a world in which the caller's own part is `put` is a call that is lent this part. -/
structure Lends (put : τ → World η σ → World η ρ) (call : η → Effect η ρ)
    (call' : Lending η σ τ) : Prop where
  registry : ∀ t w, (put t w).registry = w.registry
  write : ∀ t w r, (put t w).write r = put t (w.write r)
  call : ∀ h t w, call h (put t w) = ((call' h t w).1.1, put (call' h t w).1.2 (call' h t w).2)

theorem lends_plain (call : η → Effect η σ) : Lends (fun _ w => w) call (plain call) :=
  ⟨fun _ _ => rfl, fun _ _ _ => rfl, fun _ _ _ => rfl⟩

theorem lends_lent (call : η → Effect η (σ × MatchState)) :
    Lends (fun s w => w.lend s) call (lent call) :=
  ⟨fun _ _ => rfl, fun _ _ _ => rfl, fun _ _ _ => rfl⟩

section Lends
variable {put : τ → World η σ → World η ρ} {call : η → Effect η ρ} {call' : Lending η σ τ}

theorem Lends.chronicle (h : Lends put call call') (phase : Phase) (p : Pattern) (key : String)
    (t : τ) (w : World η σ) (v : Verdict) :
    Dispatch.chronicle phase p key (put t w) v = put t (Dispatch.chronicle phase p key w v) := by
  cases v with
  | missing => exact h.write t w _
  | failed trouble => exact h.write t w _
  | _ => rfl

theorem Lends.consult_run (h : Lends put call call') (supports : η → Bool) (key : String) (t : τ)
    (w : World η σ) :
    Dispatch.consult supports call key (put t w) =
      (((consult supports call' key t).run w).1.1,
        put ((consult supports call' key t).run w).1.2
          ((consult supports call' key t).run w).2) := by
  rw [Dispatch.consult, h.registry, consult, Work.run]
  cases w.registry.lookup key with
  | none => rfl
  | some e =>
    cases hs : supports e.hooks with
    | false => simp only [hs, Bool.false_eq_true, if_false, Work.run, id]
    | true =>
      simp only [hs, if_true, Work.run, id, h.call]
      cases (call' e.hooks t w).1.1 <;> rfl

/-- The turns of a dispatch are the dispatch. -/
theorem Lends.fireFrom_run (h : Lends put call call') (fatal : Bool) (phase : Phase) (p : Pattern)
    (supports : η → Bool) (keys : List String) (report : Report) (t : τ) (w : World η σ) :
    Dispatch.fireFrom fatal phase p
        (keys.map fun key => (key, Dispatch.consult supports call key)) report (put t w) =
      (((fireFrom fatal phase p supports call' keys report t).run w).1.1,
        put ((fireFrom fatal phase p supports call' keys report t).run w).1.2
          ((fireFrom fatal phase p supports call' keys report t).run w).2) := by
  induction keys generalizing report t w with
  | nil => rfl
  | cons key keys ih =>
    have hvisit := h.consult_run supports key t w
    rcases hconsult : (consult supports call' key t).run w with ⟨⟨v, t'⟩, w'⟩
    rw [hconsult] at hvisit
    simp only [fireFrom, List.map_cons, Work.run_bind, hconsult]
    cases v with
    | failed trouble =>
      cases fatal with
      | false =>
        rw [Dispatch.fireFrom_cons phase p key _ report hvisit (.inl rfl), h.chronicle, ih]
        rfl
      | true => simp only [Dispatch.fireFrom, hvisit, if_true, Work.run]
    | _ =>
      rw [Dispatch.fireFrom_cons phase p key _ report hvisit (.inr fun _ hv => by cases hv),
        h.chronicle, ih]
      cases fatal <;> rfl

end Lends

/-- A strategy whose calls are made in turns. -/
structure Stepwise (ω : Type) where
  compileBegin : Pattern → Work ω (Except Fault Report)
  compileNode : Pattern → Node → Work ω (Except Fault Report)
  execNode : Pattern → Node → Attempt → MatchState → Work ω (Except Fault Report × MatchState)

/-- The turns of dispatches to registered hooks. -/
def Stepwise.ofHooks (b : Behaviour η σ) (fatal : Bool) : Stepwise (World η σ) where
  compileBegin p :=
    .turn (·.write (Dispatch.beginning p)) fun _ =>
      (fireFrom fatal .compileBegin p (b.supports · .compileBegin) (plain (b.onCompileBegin · p))
        p.hookKeys { phase := .compileBegin } ()).bind fun x => .done x.1
  compileNode p n :=
    .turn (·.write (Dispatch.compiling p n)) fun _ =>
      (fireFrom fatal .compileNode p (b.supports · .compileNode) (plain (b.onCompileNode · p n))
        p.hookKeys { phase := .compileNode } ()).bind fun x => .done x.1
  execNode p n a s :=
    .turn (·.write (Dispatch.visiting p n s)) fun _ =>
      fireFrom fatal .execNode p (b.supports · .execNode) (lent (b.onExecNode · p n a)) p.hookKeys
        { phase := .execNode } s

/-- The turns are the calls of the strategy. -/
structure Performs (h : Stepwise ω) (s : Strategy ω) : Prop where
  compileBegin : ∀ p w, (h.compileBegin p).run w = s.compileBegin p w
  compileNode : ∀ p n w, (h.compileNode p n).run w = s.compileNode p n w
  execNode : ∀ p n a t w, (h.execNode p n a t).run w =
    (((s.execNode p n a t w).1, (s.execNode p n a t w).2.1), (s.execNode p n a t w).2.2)

theorem performs_ofHooks (b : Behaviour η σ) (fatal : Bool) :
    Performs (.ofHooks b fatal) (.ofHooks b fatal) where
  compileBegin p w := by
    have hfire := (lends_plain (b.onCompileBegin · p)).fireFrom_run fatal .compileBegin p
      (b.supports · .compileBegin) p.hookKeys { phase := .compileBegin } ()
      (w.write (Dispatch.beginning p))
    simp only [Stepwise.ofHooks, Work.run, Work.run_bind]
    exact hfire.symm
  compileNode p n w := by
    have hfire := (lends_plain (b.onCompileNode · p n)).fireFrom_run fatal .compileNode p
      (b.supports · .compileNode) p.hookKeys { phase := .compileNode } ()
      (w.write (Dispatch.compiling p n))
    simp only [Stepwise.ofHooks, Work.run, Work.run_bind]
    exact hfire.symm
  execNode p n a t w := by
    have hfire := (lends_lent (b.onExecNode · p n a)).fireFrom_run fatal .execNode p
      (b.supports · .execNode) p.hookKeys { phase := .execNode } t
      (w.write (Dispatch.visiting p n t))
    simp only [Stepwise.ofHooks, Strategy.ofHooks, Dispatch.execNode, Dispatch.fire, Work.run,
      hfire, World.settle_lend]

/-- What an engine has in the end, and the failures that it has noted. -/
abbrev Outcome (α : Type) := Except Fault α × List HookFailure

def announce (h : Stepwise ω) (p : Pattern) : List Node → List HookFailure → Work ω (Outcome Unit)
  | [], noted => .done (.ok (), noted)
  | n :: ns, noted =>
    (h.compileNode p n).bind fun x =>
      match x with
      | .error e => .done (.error e, noted)
      | .ok report => announce h p ns (noted ++ report.failures)

def compile (h : Stepwise ω) (p : Pattern) (noted : List HookFailure) : Work ω (Outcome Program) :=
  (h.compileBegin p).bind fun x =>
    match x with
    | .error e => .done (.error e, noted)
    | .ok report =>
      (announce h p (nodesOf p.source) (noted ++ report.failures)).bind fun y =>
        .done (y.1.map fun _ => ⟨p, nodesOf p.source⟩, y.2)

def attempt (h : Stepwise ω) (p : Pattern) (a : Attempt) :
    List Node → MatchState → List HookFailure → Work ω (Outcome (Option ℕ))
  | [], _, noted => .done (.ok none, noted)
  | n :: ns, s, noted =>
    (h.execNode p n a s).bind fun x =>
      match x with
      | (.error e, _) => .done (.error e, noted)
      | (.ok report, t) =>
        match move a n t with
        | .error f => .done (.error f.toFault, noted ++ report.failures)
        | .ok .failure => .done (.ok none, noted ++ report.failures)
        | .ok (.success u) => .done (.ok (some u.position), noted ++ report.failures)
        | .ok (.next u) => attempt h p a ns u (noted ++ report.failures)

def search (h : Stepwise ω) (prog : Program) (subject : String) :
    List ℕ → List HookFailure → Work ω (Outcome (Option (ℕ × ℕ)))
  | [], noted => .done (.ok none, noted)
  | start :: starts, noted =>
    (attempt h prog.pattern (.startingAt subject start) prog.nodes
      (.start (.startingAt subject start) 1) noted).bind fun x =>
        match x with
        | (.error e, noted) => .done (.error e, noted)
        | (.ok (some stop), noted) => .done (.ok (some (start, stop)), noted)
        | (.ok none, noted) => search h prog subject starts noted

def exec (h : Stepwise ω) (prog : Program) (subject : String) (noted : List HookFailure) :
    Work ω (Outcome (Option (ℕ × ℕ))) :=
  search h prog subject (Text.boundaries subject.toList) noted

section Performs
variable {h : Stepwise ω} {s : Strategy ω}

theorem Performs.announce_run (hs : Performs h s) (p : Pattern) (ns : List Node)
    (noted : List HookFailure) (w : ω) :
    (announce h p ns noted).run w = (((Engine.announce s p ns noted w).result,
      (Engine.announce s p ns noted w).noted), (Engine.announce s p ns noted w).world) := by
  induction ns generalizing noted w with
  | nil => rfl
  | cons n ns ih =>
    simp only [announce, Engine.announce, Work.run_bind, hs.compileNode]
    rcases s.compileNode p n w with ⟨_ | report, w'⟩
    · rfl
    · exact ih _ w'

theorem Performs.compile_run (hs : Performs h s) (p : Pattern) (noted : List HookFailure) (w : ω) :
    (compile h p noted).run w = (((Engine.compile s p noted w).result,
      (Engine.compile s p noted w).noted), (Engine.compile s p noted w).world) := by
  simp only [compile, Engine.compile, Work.run_bind, hs.compileBegin]
  rcases s.compileBegin p w with ⟨_ | report, w'⟩
  · rfl
  · simp only [Work.run_bind, hs.announce_run]
    rcases Engine.announce s p (nodesOf p.source) (noted ++ report.failures) w' with
      ⟨_ | ⟨⟩, noted', w''⟩ <;> rfl

theorem Performs.attempt_run (hs : Performs h s) (p : Pattern) (a : Attempt) (ns : List Node)
    (t : MatchState) (noted : List HookFailure) (w : ω) :
    (attempt h p a ns t noted).run w = (((Engine.attempt s p a ns t noted w).result,
      (Engine.attempt s p a ns t noted w).noted), (Engine.attempt s p a ns t noted w).world) := by
  induction ns generalizing t noted w with
  | nil => rfl
  | cons n ns ih =>
    simp only [attempt, Engine.attempt, Work.run_bind, hs.execNode]
    rcases s.execNode p n a t w with ⟨_ | report, t', w'⟩
    · rfl
    · rcases hmove : move a n t' with f | m
      · simp only [hmove, Work.run]
      · cases m with
        | next u =>
          simp only [hmove]
          exact ih u _ w'
        | _ => simp only [hmove, Work.run]

theorem Performs.search_run (hs : Performs h s) (prog : Program) (subject : String)
    (starts : List ℕ) (noted : List HookFailure) (w : ω) :
    (search h prog subject starts noted).run w =
      (((Engine.search s prog subject starts noted w).result,
        (Engine.search s prog subject starts noted w).noted),
      (Engine.search s prog subject starts noted w).world) := by
  induction starts generalizing noted w with
  | nil => rfl
  | cons start starts ih =>
    simp only [search, Engine.search, Work.run_bind, hs.attempt_run]
    rcases Engine.attempt s prog.pattern (.startingAt subject start) prog.nodes
      (.start (.startingAt subject start) 1) noted w with ⟨_ | _ | stop, noted', w'⟩
    · rfl
    · exact ih noted' w'
    · rfl

end Performs

end PatternHooks.Turns

import PatternHooks.Pattern
import PatternHooks.Node
import PatternHooks.Phase
import PatternHooks.World

/-!
Dispatch: calling the hooks of a pattern at one phase. The keys are visited in order, and each is
looked up when its turn comes, for the hooks called before may have changed the registry. A failing
hook ends the dispatch when failures are fatal, and is reported otherwise.
-/

namespace PatternHooks

/-- What hooks do: the phases they handle, and what each call does to the world. The match state is
lent to them for the visit of a node. -/
structure Behaviour (η σ : Type) where
  supports : η → Phase → Bool
  onCompileBegin : η → Pattern → Effect η σ
  onCompileNode : η → Pattern → Node → Effect η σ
  onExecNode : η → Pattern → Node → Attempt → Effect η (σ × MatchState)

/-- What became of one key of a dispatch. -/
inductive Verdict where
  | missing
  | unsupported
  | fired
  | failed (t : Trouble)
  deriving DecidableEq

namespace Dispatch

variable {η σ : Type}

/-- Looks a key up and calls its hooks, if they handle the phase. -/
def consult (supports : η → Bool) (call : η → Effect η σ) (key : String) (w : World η σ) :
    Verdict × World η σ :=
  match w.registry.lookup key with
  | none => (.missing, w)
  | some entry =>
    if supports entry.hooks then
      match call entry.hooks w with
      | (.ok (), w) => (.fired, w)
      | (.error t, w) => (.failed t, w)
    else (.unsupported, w)

def noHooks (phase : Phase) (key : String) : Record :=
  Reporter.dispatcher.record .debug "No hooks registered for key"
    [("key", .text key), ("phase", .text phase.name)]

def hookFailed (phase : Phase) (p : Pattern) (f : HookFailure) : Record :=
  Reporter.dispatcher.record .warn "Hook failed, continuing"
    [("key", .text f.key), ("phase", .text phase.name), ("pattern_id", .text p.id.display),
      ("error", .text f.message)]

def fatalFault (key : String) (phase : Phase) (t : Trouble) : Fault :=
  .causedBy .hookFailed
    ("Hook '" ++ key ++ "' failed during " ++ phase.name ++ ": " ++ t.render) t

/-- What a visit of a key does to the world, and what becomes of the key. -/
abbrev Visit (η σ : Type) := World η σ → Verdict × World η σ

/-- The report with one more key. -/
def note (report : Report) (key : String) : Verdict → Report
  | .missing => report.addMissing key
  | .unsupported => report
  | .fired => report.addFired key
  | .failed t => report.addFailure key t.render

/-- The world once the dispatcher has recorded what became of a key, unless that ends the dispatch.
-/
def chronicle (phase : Phase) (p : Pattern) (key : String) (w : World η σ) : Verdict → World η σ
  | .missing => w.write (noHooks phase key)
  | .unsupported => w
  | .fired => w
  | .failed t => w.write (hookFailed phase p ⟨key, t.render⟩)

/-- Visits keys in order, adding to the report of those before them. -/
def fireFrom (fatal : Bool) (phase : Phase) (p : Pattern) :
    List (String × Visit η σ) → Report → World η σ → Except Fault Report × World η σ
  | [], report, w => (.ok report, w)
  | (key, visit) :: visits, report, w =>
    match visit w with
    | (.failed t, w) =>
      if fatal then (.error (fatalFault key phase t), w)
      else
        fireFrom fatal phase p visits (note report key (.failed t))
          (chronicle phase p key w (.failed t))
    | (v, w) => fireFrom fatal phase p visits (note report key v) (chronicle phase p key w v)

/-- Visits all keys of the pattern. -/
def fire (fatal : Bool) (phase : Phase) (p : Pattern) (supports : η → Phase → Bool)
    (call : η → Effect η σ) (w : World η σ) : Except Fault Report × World η σ :=
  fireFrom fatal phase p (p.hookKeys.map fun key => (key, consult (supports · phase) call key))
    { phase } w

/-- A dispatch goes on after any visit, unless the hooks have failed and failures are fatal. -/
theorem fireFrom_cons {fatal : Bool} {visit : Visit η σ} {w w' : World η σ} {v : Verdict}
    (phase : Phase) (p : Pattern) (key : String) (visits : List (String × Visit η σ))
    (report : Report) (hvisit : visit w = (v, w'))
    (hgoes : fatal = false ∨ ∀ t, v ≠ .failed t) :
    fireFrom fatal phase p ((key, visit) :: visits) report w =
      fireFrom fatal phase p visits (note report key v) (chronicle phase p key w' v) := by
  cases v with
  | failed t =>
    rcases hgoes with rfl | hne
    · simp [fireFrom, hvisit]
    · exact absurd rfl (hne t)
  | _ => simp [fireFrom, hvisit]

def beginning (p : Pattern) : Record :=
  Reporter.dispatcher.record .debug "Dispatching compile_begin"
    [("pattern_id", .text p.id.display), ("pattern", .text p.display),
      ("keys", .count p.hookKeys.length)]

def compiling (p : Pattern) (n : Node) : Record :=
  Reporter.dispatcher.record .trace "Dispatching compile_node"
    [("pattern_id", .text p.id.display), ("node", .count n.index), ("op", .name n.op)]

def visiting (p : Pattern) (n : Node) (s : MatchState) : Record :=
  Reporter.dispatcher.record .trace "Dispatching exec_node"
    [("pattern_id", .text p.id.display), ("node", .count n.index), ("op", .name n.op),
      ("position", .count s.position)]

/-- Tells the hooks of a pattern that its compilation begins. -/
def compileBegin (b : Behaviour η σ) (fatal : Bool) (p : Pattern) (w : World η σ) :
    Except Fault Report × World η σ :=
  fire fatal .compileBegin p b.supports (b.onCompileBegin · p) (w.write (beginning p))

/-- Tells the hooks of a pattern that a node has been compiled. -/
def compileNode (b : Behaviour η σ) (fatal : Bool) (p : Pattern) (n : Node) (w : World η σ) :
    Except Fault Report × World η σ :=
  fire fatal .compileNode p b.supports (b.onCompileNode · p n) (w.write (compiling p n))

/-- Lends the match state to the hooks of a pattern for the visit of a node. -/
def execNode (b : Behaviour η σ) (fatal : Bool) (p : Pattern) (n : Node) (a : Attempt)
    (s : MatchState) (w : World η σ) : Except Fault Report × MatchState × World η σ :=
  let (result, w) :=
    fire fatal .execNode p b.supports (b.onExecNode · p n a) ((w.write (visiting p n s)).lend s)
  (result, w.settle)

end Dispatch

/-- The calls that a pipeline makes at its extension points, over a world of any kind. -/
structure Strategy (ω : Type) where
  compileBegin : Pattern → ω → Except Fault Report × ω
  compileNode : Pattern → Node → ω → Except Fault Report × ω
  execNode : Pattern → Node → Attempt → MatchState → ω → Except Fault Report × MatchState × ω

namespace Strategy

/-- Calls nothing. -/
def silent (ω : Type) : Strategy ω where
  compileBegin _ w := (.ok { phase := .compileBegin }, w)
  compileNode _ _ w := (.ok { phase := .compileNode }, w)
  execNode _ _ _ s w := (.ok { phase := .execNode }, s, w)

/-- Dispatches to registered hooks. -/
def ofHooks {η σ : Type} (b : Behaviour η σ) (fatal : Bool) : Strategy (World η σ) where
  compileBegin := Dispatch.compileBegin b fatal
  compileNode := Dispatch.compileNode b fatal
  execNode := Dispatch.execNode b fatal

end Strategy

end PatternHooks

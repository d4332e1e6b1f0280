import PatternHooks.Engine
import PatternHooks.Hooks.Script
import PatternHooks.Host

/-!
Sessions: a host at work, with named hooks, scopes, patterns, match states and compiled programs,
and an engine that compiles and runs them.
-/

namespace PatternHooks

/-- Values by name. Setting a name again replaces its value. -/
abbrev Named (α : Type) := List (String × α)

def Named.set {α : Type} (names : Named α) (name : String) (value : α) : Named α :=
  (name, value) :: names.filter (·.1 != name)

def Named.get? {α : Type} (names : Named α) (name : String) : Option α := names.lookup name

/-- The ways to reach hooks: as the host does, not at all, or with failures fatal or not. -/
inductive Route where
  | host
  | silent
  | strict
  | lenient
  deriving DecidableEq

structure Session where
  world : World HookObject Memory
  fatal : Bool
  scopes : Named Scope := []
  patterns : Named Pattern := []
  states : Named (Attempt × MatchState) := []
  programs : Named Program := []
  route : Route := .host
  noted : List HookFailure := []

namespace Session

/-- How deep dispatches may be nested. -/
def depth : Nat := 2000

def start (settings : HookSettings) : Session where
  world := Host.initial settings {}
  fatal := settings.fatalErrors

def behaviour (s : Session) : Behaviour HookObject Memory := HookObject.behaviour s.fatal depth

def strategy (s : Session) : Route → Strategy (World HookObject Memory)
  | .host => .ofHooks s.behaviour s.fatal
  | .silent => .silent _
  | .strict => .ofHooks s.behaviour true
  | .lenient => .ofHooks s.behaviour false

def setWorld (s : Session) (w : World HookObject Memory) : Session := { s with world := w }

def memory (s : Session) : Memory := s.world.own

def setMemory (s : Session) (m : Memory) : Session := s.setWorld { s.world with own := m }

/-- Takes the records and sights since they were last taken. -/
def collect (s : Session) : List Record × List Sight × Session :=
  (s.world.journal, s.memory.sights,
    { s with world := { s.world with journal := [], own := { s.memory with sights := [] } } })

/-- A new hook, without a name. -/
def create (s : Session) (body : HookBody) : HookObject × Session :=
  let (n, m) := s.memory.give
  (⟨n, body⟩, s.setMemory m)

/-- A new hook under a name. -/
def define (s : Session) (name : String) (body : HookBody) : HookObject × Session :=
  let (object, s) := s.create body
  (object, s.setMemory { s.memory with named := Named.set s.memory.named name object })

def hook? (s : Session) (name : String) : Option HookObject := Named.get? s.memory.named name

def supported (object : HookObject) : List Phase := Phase.all.filter object.supports

def events (s : Session) (object : HookObject) : List String := s.memory.eventsOf object.id

def clearEvents (s : Session) (object : HookObject) : Session :=
  s.setMemory (s.memory.setEvents object.id [])

/-- Which of the calls a scripted hook has. -/
def describe (object : HookObject) : String :=
  let has (phase : Phase) := if object.supports phase then "true" else "false"
  "FnHooks \x7b compile_begin: " ++ has .compileBegin ++ ", compile_node: " ++ has .compileNode ++
    ", exec_node: " ++ has .execNode ++ " \x7d"

/-- Calls a hook directly, whether or not it handles the phase. -/
def call (s : Session) (object : HookObject) (phase : Phase) (p : Pattern) (n : Node)
    (state : Attempt × MatchState) : Except Trouble Unit × MatchState × Session :=
  match phase with
  | .compileBegin =>
    let (result, w) := s.behaviour.onCompileBegin object p s.world
    (result, state.2, s.setWorld w)
  | .compileNode =>
    let (result, w) := s.behaviour.onCompileNode object p n s.world
    (result, state.2, s.setWorld w)
  | .execNode =>
    let (result, w) := s.behaviour.onExecNode object p n state.1 (s.world.lend state.2)
    let (state, w) := w.settle
    (result, state, s.setWorld w)

def register (s : Session) (key : String) (object : HookObject) : Except Fault Unit × Session :=
  match s.world.register key object with
  | (.ok (), w) => (.ok (), s.setWorld w)
  | (.error e, w) => (.error e.toFault, s.setWorld w)

/-- Registers scripts for the beginning of compilation and for visits of nodes. -/
def registerScripts (s : Session) (key : String) (onBegin onVisit : Option Script) :
    Except Fault Unit × Session :=
  let (object, s) := s.create (.scripted onBegin none onVisit)
  s.register key object

def unregister (s : Session) (key : String) : Option (Entry HookObject) × Session :=
  let (removed, w) := s.world.unregister key
  (removed, s.setWorld w)

def clear (s : Session) : Nat × Session :=
  let (n, w) := s.world.clear
  (n, s.setWorld w)

def shutdown (s : Session) : Nat × Session :=
  let (n, w) := Host.shutdown s.world
  (n, s.setWorld w)

def setScope (s : Session) (name : String) (scope : Scope) : Session :=
  { s with scopes := s.scopes.set name scope }

/-- Makes a pattern with the given keys. -/
def makePattern (s : Session) (name source : String) (flags : PatternFlags) (keys : List String) :
    Pattern × Session :=
  let (n, m) := s.memory.give
  let p : Pattern := ⟨Script.identifier n, source, flags, keys, .epoch⟩
  (p, { s.setMemory m with patterns := s.patterns.set name p })

/-- Makes a pattern that dispatches to the keys of a scope. -/
def beginPattern (s : Session) (name source : String) (flags : PatternFlags) (scope : Scope) :
    Pattern × Session :=
  let (n, m) := s.memory.give
  let p := scope.pattern (Script.identifier n) .epoch source flags
  (p, { s.setMemory m with patterns := s.patterns.set name p })

/-- Makes a match state; the end of the attempt may be given. -/
def makeState (s : Session) (name subject : String) (start groups : Nat) (stop? : Option Nat) :
    Attempt × Session :=
  let whole := Attempt.startingAt subject start
  let a := match stop? with
    | some stop => { whole with stop }
    | none => whole
  (a, { s with states := s.states.set name (a, .start a groups) })

def setState (s : Session) (name : String) (a : Attempt) (state : MatchState) : Session :=
  { s with states := s.states.set name (a, state) }

def editState (s : Session) (name : String) (state : Attempt × MatchState)
    (e : MatchState.Edit) : Except Fault Unit × Session :=
  match state.2.edit e with
  | .ok after => (.ok (), s.setState name state.1 after)
  | .error f => (.error f.toFault, s)

def compileBegin (s : Session) (route : Route) (p : Pattern) : Except Fault Report × Session :=
  let (result, w) := (s.strategy route).compileBegin p s.world
  (result, s.setWorld w)

def compileNode (s : Session) (route : Route) (p : Pattern) (n : Node) :
    Except Fault Report × Session :=
  let (result, w) := (s.strategy route).compileNode p n s.world
  (result, s.setWorld w)

def execNode (s : Session) (route : Route) (p : Pattern) (n : Node) (name : String)
    (state : Attempt × MatchState) : Except Fault Report × Session :=
  let (result, after, w) := (s.strategy route).execNode p n state.1 state.2 s.world
  (result, (s.setWorld w).setState name state.1 after)

/-- A new engine, which has noted nothing. -/
def setEngine (s : Session) (route : Route) : Session := { s with route, noted := [] }

def compile (s : Session) (name : String) (p : Pattern) : Except Fault Program × Session :=
  let run := Engine.compile (s.strategy s.route) p s.noted s.world
  let s := { s with world := run.world, noted := run.noted }
  match run.result with
  | .ok program => (.ok program, { s with programs := s.programs.set name program })
  | .error f => (.error f, s)

def exec (s : Session) (program : Program) (subject : String) :
    Except Fault (Option (Nat × Nat)) × Session :=
  let run := Engine.exec (s.strategy s.route) program subject s.noted s.world
  (run.result, { s with world := run.world, noted := run.noted })

end Session

end PatternHooks

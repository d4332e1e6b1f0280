import PatternHooks.Hooks.Bundled

/-!
Scripted hooks: lists of actions that look at the match, steer it, change the registry and dispatch
further. The first action that fails ends its script.
-/

namespace PatternHooks

inductive Action where
  | emit (value : Json)
  | look
  | fail (message : String) (contexts : List String)
  | skip (text : String)
  | whenOp (ops : List String) (body : List Action)
  | once (mark : String) (body : List Action)
  | within (context : String) (body : List Action)
  | attempt (body : List Action)
  | register (key hook : String)
  | unregister (key : String)
  | clear
  | keys
  | dispatch (keys : List String)
  | edit (e : MatchState.Edit)
  deriving Inhabited

abbrev Script := List Action

/-- The kinds of hooks. A silent hook handles phases and does nothing. -/
inductive HookBody where
  | recording (phases : List Phase)
  | tracing (label : String)
  | silent (phases : List Phase)
  | scripted (onBegin onNode onVisit : Option Script)

/-- Hooks with an identity of their own, by which those with the same body are told apart. -/
structure HookObject where
  id : Nat
  body : HookBody

def HookObject.supports (o : HookObject) (phase : Phase) : Bool :=
  match o.body with
  | .recording phases => phases.contains phase
  | .tracing _ => true
  | .silent phases => phases.contains phase
  | .scripted onBegin onNode onVisit =>
    match phase with
    | .compileBegin => onBegin.isSome
    | .compileNode => onNode.isSome
    | .execNode => onVisit.isSome

/-- What a scripted hook shows to those who watch it. -/
inductive Sight where
  | value (j : Json)
  | flag (b : Bool)
  | count (n : Nat)
  | keys (ks : List String)
  | report (r : Report)
  | scene (p : Pattern) (o : Occasion) (s : Option MatchState)

/-- What the hooks remember: the events of each recording hook, the marks of what is done only once,
the sights, the hooks that have a name, and how many identities were given out. -/
structure Memory where
  events : List (Nat × List String) := []
  marks : List String := []
  sights : List Sight := []
  named : List (String × HookObject) := []
  given : Nat := 0

namespace Memory

def eventsOf (m : Memory) (id : Nat) : List String := (m.events.lookup id).getD []

def setEvents (m : Memory) (id : Nat) (es : List String) : Memory :=
  { m with events := (id, es) :: m.events.filter (·.1 != id) }

def addEvent (m : Memory) (id : Nat) (e : String) : Memory :=
  m.setEvents id (m.eventsOf id ++ [e])

def addSight (m : Memory) (s : Sight) : Memory := { m with sights := m.sights ++ [s] }

def give (m : Memory) : Nat × Memory := (m.given, { m with given := m.given + 1 })

/-- The name of a hook, the first in order if it has several. -/
def nameOf (m : Memory) (o : HookObject) : Option String :=
  ((m.named.filter (·.2.id == o.id)).map (·.1)).foldl
    (fun best name => match best with
      | some b => some (if name < b then name else b)
      | none => some name) none

end Memory

/-- The memory of the hooks, and the match state if one is lent. -/
abbrev Stage := Memory × Option MatchState

namespace Script

abbrev Run := Effect HookObject Stage

/-- A dispatch that an action may start. -/
abbrev Redispatch := Pattern → World HookObject Stage → Except Fault Report × World HookObject Stage

def remember (w : World HookObject Stage) (f : Memory → Memory) : World HookObject Stage :=
  { w with own := (f w.own.1, w.own.2) }

def reveal (w : World HookObject Stage) (s : Sight) : World HookObject Stage :=
  remember w (·.addSight s)

/-- Edits the match state, if one is lent. -/
def editState (e : MatchState.Edit) : Run := fun w =>
  match w.own.2 with
  | none => (.ok (), w)
  | some s => match s.edit e with
    | .ok s => (.ok (), { w with own := (w.own.1, some s) })
    | .error f => (.error f.toFault.toTrouble, w)

/-- Passes a text that comes next in the subject. -/
def skipText (a : Option Attempt) (text : String) : Run := fun w =>
  match a, w.own.2 with
  | some a, some s =>
    match Text.strip? text.toList (a.remaining s.position) with
    | some _ => editState (.advance (Text.size text.toList)) w
    | none => (.ok (), w)
  | _, _ => (.ok (), w)

/-- A random identifier for the pattern that gets the given identity. -/
def identifier (n : Nat) : PatternId := .random (BitVec.ofNat 128 n)

/-- Dispatches the occasion to other keys. -/
def dispatchTo (again : Redispatch) (p : Pattern) (keys : List String) : Run := fun w =>
  let (n, m) := w.own.1.give
  let w := remember w fun _ => m
  match again { p with id := identifier n, hookKeys := keys } w with
  | (.error f, w) => (.error f.toTrouble, w)
  | (.ok report, w) => (.ok (), reveal w (.report report))

mutual

def runAction (again : Redispatch) (p : Pattern) (o : Occasion) : Action → Run
  | .emit value, w => (.ok (), reveal w (.value value))
  | .look, w => (.ok (), reveal w (.scene p o w.own.2))
  | .fail message contexts, w =>
    (.error (contexts.foldl (fun t context => t.within context) ⟨message, []⟩), w)
  | .skip text, w => skipText o.attempt? text w
  | .whenOp ops body, w =>
    match o.node? with
    | some n => if ops.contains n.op then runAll again p o body w else (.ok (), w)
    | none => (.ok (), w)
  | .once mark body, w =>
    if w.own.1.marks.contains mark then (.ok (), w)
    else runAll again p o body (remember w fun m => { m with marks := mark :: m.marks })
  | .within context body, w =>
    match runAll again p o body w with
    | (.error t, w) => (.error (t.within context), w)
    | (.ok (), w) => (.ok (), w)
  | .attempt body, w =>
    match runAll again p o body w with
    | (.error t, w) => (.ok (), reveal w (.value (.text t.render)))
    | (.ok (), w) => (.ok (), w)
  | .register key hook, w =>
    match w.own.1.named.lookup hook with
    | none => (.ok (), w)
    | some object => match w.register key object with
      | (.error e, w) => (.error e.toFault.toTrouble, w)
      | (.ok (), w) => (.ok (), w)
  | .unregister key, w =>
    match w.unregister key with
    | (removed, w) => (.ok (), reveal w (.flag removed.isSome))
  | .clear, w =>
    match w.clear with
    | (n, w) => (.ok (), reveal w (.count n))
  | .keys, w => (.ok (), reveal w (.keys w.registry.keys))
  | .dispatch keys, w => dispatchTo again p keys w
  | .edit e, w => editState e w

def runAll (again : Redispatch) (p : Pattern) (o : Occasion) : List Action → Run
  | [], w => (.ok (), w)
  | a :: as, w =>
    match runAction again p o a w with
    | (.error t, w) => (.error t, w)
    | (.ok (), w) => runAll again p o as w

end

end Script

namespace HookObject

/-- The script of a hook for an occasion. -/
def scriptFor : Option Script → Option Script → Option Script → Occasion → Option Script
  | onBegin, _, _, .begin => onBegin
  | _, onNode, _, .node _ => onNode
  | _, _, onVisit, .visit .. => onVisit

/-- What a hook does on an occasion. -/
def act (again : Script.Redispatch) (object : HookObject) (p : Pattern) (o : Occasion) :
    Script.Run := fun w =>
  match object.body with
  | .recording _ => (.ok (), Script.remember w (·.addEvent object.id (Bundled.event o)))
  | .tracing label => (.ok (), w.write (Bundled.record label p w.own.2 o))
  | .silent _ => (.ok (), w)
  | .scripted onBegin onNode onVisit =>
    match scriptFor onBegin onNode onVisit o with
    | some script => Script.runAll again p o script w
    | none => (.ok (), w)

end HookObject

namespace World

/-- Sets the stage for an occasion, with the match state if one is lent. -/
def enter {η σ : Type} (w : World η σ) (s : Option MatchState) :
    World η (σ × Option MatchState) :=
  ⟨w.registry, w.journal, (w.own, s)⟩

def leave {η σ : Type} (w : World η (σ × Option MatchState)) : World η σ :=
  ⟨w.registry, w.journal, w.own.1⟩

end World

namespace HookObject

/-- A call in a phase without a match state. -/
def callPlain (run : Script.Run) : Effect HookObject Memory := fun w =>
  match run (w.enter none) with
  | (result, w) => (result, w.leave)

/-- A call that is lent the match state. -/
def callLent (run : Script.Run) : Effect HookObject (Memory × MatchState) := fun w =>
  let (s, inner) := w.settle
  match run (inner.enter (some s)) with
  | (result, after) => (result, after.leave.lend (after.own.2.getD s))

/-- The behaviour of all hooks, given how an occasion is dispatched again. -/
def behaviourWith (again : Occasion → Script.Redispatch) : Behaviour HookObject Memory where
  supports := supports
  onCompileBegin object p := callPlain (object.act (again .begin) p .begin)
  onCompileNode object p n := callPlain (object.act (again (.node n)) p (.node n))
  onExecNode object p n a := callLent (object.act (again (.visit n a)) p (.visit n a))

/-- Dispatches an occasion to other keys in the middle of a call. -/
def redispatch (b : Behaviour HookObject Memory) (fatal : Bool) (o : Occasion) :
    Script.Redispatch := fun p w =>
  match o, w.own.2 with
  | .begin, s =>
    match Dispatch.compileBegin b fatal p w.leave with
    | (result, inner) => (result, inner.enter s)
  | .node n, s =>
    match Dispatch.compileNode b fatal p n w.leave with
    | (result, inner) => (result, inner.enter s)
  | .visit n a, some s =>
    match Dispatch.execNode b fatal p n a s w.leave with
    | (result, s, inner) => (result, inner.enter (some s))
  | .visit .., none => (.ok { phase := .execNode }, w)

def tooDeep : Fault := ⟨.internal, "hooks dispatch to one another without end", []⟩

/-- The behaviour of all hooks, whose dispatches are nested at most so deep. -/
def behaviour (fatal : Bool) : Nat → Behaviour HookObject Memory
  | 0 => behaviourWith fun _ _ w => (.error tooDeep, w)
  | depth + 1 => behaviourWith (redispatch (behaviour fatal depth) fatal)

end HookObject

end PatternHooks

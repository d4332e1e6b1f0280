/-!
Phases: the points at which a pipeline calls its hooks.
-/

namespace PatternHooks

inductive Phase where
  /-- Once for each pattern, before it is compiled. -/
  | compileBegin
  /-- Once for each node, in program order. -/
  | compileNode
  /-- At each visit of a node. -/
  | execNode
  deriving DecidableEq

namespace Phase

def all : List Phase := [.compileBegin, .compileNode, .execNode]

def name : Phase → String
  | compileBegin => "compile_begin"
  | compileNode => "compile_node"
  | execNode => "exec_node"

def isCompilePhase : Phase → Bool
  | compileBegin => true
  | compileNode => true
  | execNode => false

end Phase

/-- A failure that a dispatch went on after. -/
structure HookFailure where
  key : String
  message : String
  deriving DecidableEq

/-- The outcome of a dispatch: the keys whose hook ran well, those without an entry, and the
failures, each in the order of the pattern's keys. -/
structure Report where
  phase : Phase
  fired : List String := []
  missing : List String := []
  failures : List HookFailure := []
  deriving DecidableEq

namespace Report

def firedCount (r : Report) : Nat := r.fired.length

def isClean (r : Report) : Bool := r.failures.isEmpty

def addFired (r : Report) (key : String) : Report := { r with fired := r.fired ++ [key] }

def addMissing (r : Report) (key : String) : Report := { r with missing := r.missing ++ [key] }

def addFailure (r : Report) (key message : String) : Report :=
  { r with failures := r.failures ++ [⟨key, message⟩] }

end Report

end PatternHooks

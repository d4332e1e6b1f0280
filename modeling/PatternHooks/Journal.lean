/-!
The journal: what happened, as records of a level, a target, a message and named data.
-/

namespace PatternHooks

inductive Level where
  | trace
  | debug
  | info
  | warn
  | error
  deriving DecidableEq

namespace Level

/-- Weightier levels have larger ranks. -/
def rank : Level → Nat
  | trace => 0
  | debug => 1
  | info => 2
  | warn => 3
  | error => 4

def label : Level → String
  | trace => "TRACE"
  | debug => "DEBUG"
  | info => "INFO"
  | warn => "WARN"
  | error => "ERROR"

end Level

/-- A datum of a record. A name is shown between quotation marks, a text without them. -/
inductive Datum where
  | text (s : String)
  | name (s : String)
  | count (n : Nat)
  | flag (b : Bool)
  deriving DecidableEq

structure Record where
  level : Level
  target : String
  message : String
  data : List (String × Datum)
  deriving DecidableEq

/-- The parts of the program that keep a journal. -/
inductive Reporter where
  | settings
  | logging
  | host
  | registry
  | dispatcher
  | bundled
  deriving DecidableEq

def Reporter.target : Reporter → String
  | settings => "rehook_core::config"
  | logging => "rehook_core::logging"
  | host => "rehook_hooks::manager"
  | registry => "rehook_hooks::hooks::registry"
  | dispatcher => "rehook_hooks::hooks::dispatcher"
  | bundled => "rehook_hooks::builtin"

def Reporter.record (r : Reporter) (level : Level) (message : String)
    (data : List (String × Datum)) : Record :=
  ⟨level, r.target, message, data⟩

end PatternHooks

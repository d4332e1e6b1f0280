import PatternHooks.PatternId
import PatternHooks.Time.Instant

/-!
Patterns: a source text with its modifiers, and the hook keys that were enabled when its compilation
began. Later dispatches go to these keys.
-/

namespace PatternHooks

structure PatternFlags where
  caseInsensitive : Bool := false
  multiLine : Bool := false
  singleLine : Bool := false
  extended : Bool := false
  deriving DecidableEq

/-- The letters of the flags that are set, in the order m, s, i, x. -/
def PatternFlags.modifiers (f : PatternFlags) : String :=
  (if f.multiLine then "m" else "") ++ (if f.singleLine then "s" else "") ++
    (if f.caseInsensitive then "i" else "") ++ (if f.extended then "x" else "")

structure Pattern where
  id : PatternId
  source : String
  flags : PatternFlags
  hookKeys : List String
  compiledAt : Time.Instant
  deriving DecidableEq

namespace Pattern

def display (p : Pattern) : String := "/" ++ p.source ++ "/" ++ p.flags.modifiers

def hasHooks (p : Pattern) : Bool := !p.hookKeys.isEmpty

end Pattern

end PatternHooks

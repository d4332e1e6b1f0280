import PatternHooks.Dispatch

/-!
Hooks that come with the library: one that records events, and one that keeps the journal.
-/

namespace PatternHooks

/-- What a hook is called for. -/
inductive Occasion where
  | begin
  | node (n : Node)
  | visit (n : Node) (a : Attempt)

namespace Occasion

def phase : Occasion → Phase
  | begin => .compileBegin
  | node _ => .compileNode
  | visit .. => .execNode

def node? : Occasion → Option Node
  | begin => none
  | node n => some n
  | visit n _ => some n

def attempt? : Occasion → Option Attempt
  | visit _ a => some a
  | _ => none

end Occasion

namespace Bundled

/-- The event that a recording hook keeps. -/
def event : Occasion → String
  | .begin => "begin"
  | .node n => "comp:" ++ n.op
  | .visit n _ => "exec:" ++ n.op

/-- The record that a tracing hook writes; a visit shows where the match state stands. -/
def record (label : String) (p : Pattern) (s : Option MatchState) : Occasion → Record
  | .begin =>
    Reporter.bundled.record .debug "Compiling pattern"
      [("prefix", .text label), ("pattern", .text p.display)]
  | .node n =>
    Reporter.bundled.record .debug "Compiled node"
      [("prefix", .text label), ("pattern_id", .text p.id.display), ("node", .count n.index),
        ("op", .name n.op), ("offset", .count n.offset)]
  | .visit n _ =>
    Reporter.bundled.record .debug "Visiting node"
      ([("prefix", .text label), ("pattern_id", .text p.id.display), ("node", .count n.index),
        ("op", .name n.op)] ++
        match s with
        | some s => [("position", .count s.position), ("depth", .count s.depth)]
        | none => [])

end Bundled

end PatternHooks

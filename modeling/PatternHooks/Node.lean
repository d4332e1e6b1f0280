/-!
Nodes of a compiled pattern: an operation, where it stands in the program and in the source, and the
node that follows.
-/

namespace PatternHooks

inductive NodeKind where
  | exact (text : String)
  | branch
  | star
  | plus
  | curly (least : UInt32) (most : Option UInt32)
  | opening (group : UInt32)
  | closing (group : UInt32)
  | lineStart
  | lineEnd
  | anyChar
  | anyOf
  | nothing
  | succeed
  | finish
  | other (code : UInt8)
  deriving DecidableEq

/-- The name of the operation. -/
def NodeKind.op : NodeKind → String
  | exact _ => "EXACT"
  | branch => "BRANCH"
  | star => "STAR"
  | plus => "PLUS"
  | curly .. => "CURLY"
  | opening _ => "OPEN"
  | closing _ => "CLOSE"
  | lineStart => "BOL"
  | lineEnd => "EOL"
  | anyChar => "REG_ANY"
  | anyOf => "ANYOF"
  | nothing => "NOTHING"
  | succeed => "SUCCEED"
  | finish => "END"
  | other _ => "OTHER"

/-- `offset` is the byte of the source that the node comes from. -/
structure Node where
  index : Nat
  kind : NodeKind
  offset : Nat
  next : Option Nat := none
  deriving DecidableEq

def Node.op (n : Node) : String := n.kind.op

end PatternHooks

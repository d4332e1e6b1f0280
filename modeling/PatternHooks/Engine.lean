import PatternHooks.Dispatch

/-!
A small engine for patterns of literal characters, in which a point stands for any one character.
It compiles each character to a node, matches by trying every boundary of the subject in turn, and
calls hooks where any engine would. The failures that a dispatch went on after are noted.
-/

namespace PatternHooks

structure Program where
  pattern : Pattern
  nodes : List Node

namespace Engine

variable {ω : Type}

/-- The result of a run, with the failures noted on the way and the world it leaves. -/
structure Run (ω α : Type) where
  result : Except Fault α
  noted : List HookFailure
  world : ω

/-- A point matches any character, any other character itself. -/
def kindOf (c : Char) : NodeKind := if c = '.' then .anyChar else .exact (String.singleton c)

/-- The nodes of a source text, the first of which has the given index and offset. -/
def nodesFrom (index offset : Nat) : List Char → List Node
  | [] => [⟨index, .finish, offset, none⟩]
  | c :: cs =>
    ⟨index, kindOf c, offset, some (index + 1)⟩ ::
      nodesFrom (index + 1) (offset + c.utf8Size) cs

def nodesOf (source : String) : List Node := nodesFrom 0 0 source.toList

/-- Calls hooks for each node in turn, until a call fails. -/
def announce (s : Strategy ω) (p : Pattern) : List Node → List HookFailure → ω → Run ω Unit
  | [], noted, w => ⟨.ok (), noted, w⟩
  | n :: ns, noted, w =>
    match s.compileNode p n w with
    | (.error e, w) => ⟨.error e, noted, w⟩
    | (.ok report, w) => announce s p ns (noted ++ report.failures) w

/-- Compiles a pattern. The nodes depend on nothing but its source. -/
def compile (s : Strategy ω) (p : Pattern) (noted : List HookFailure) (w : ω) : Run ω Program :=
  match s.compileBegin p w with
  | (.error e, w) => ⟨.error e, noted, w⟩
  | (.ok report, w) =>
    match announce s p (nodesOf p.source) (noted ++ report.failures) w with
    | ⟨.error e, noted, w⟩ => ⟨.error e, noted, w⟩
    | ⟨.ok (), noted, w⟩ => ⟨.ok ⟨p, nodesOf p.source⟩, noted, w⟩

/-- What a node does to the state of an attempt: it goes on, or the attempt succeeds or fails. -/
inductive Move where
  | next (s : MatchState)
  | success (s : MatchState)
  | failure

/-- The move of a node, after its hooks were called. -/
def move (a : Attempt) (n : Node) (s : MatchState) : Except EditFault Move :=
  let rest := a.remaining s.position
  match n.kind with
  | .exact text =>
    match Text.strip? text.toList rest with
    | none => .ok .failure
    | some _ => (s.advance (Text.size text.toList)).map .next
  | .anyChar =>
    match rest with
    | [] => .ok .failure
    | c :: _ => (s.advance c.utf8Size).map .next
  | .finish => (s.setCapture 0 a.start s.position).map .success
  | _ => .ok .failure

/-- Runs the nodes of a program from the position of the state; the offset where the match ends, if
there is one. -/
def attempt (h : Strategy ω) (p : Pattern) (a : Attempt) :
    List Node → MatchState → List HookFailure → ω → Run ω (Option Nat)
  | [], _, noted, w => ⟨.ok none, noted, w⟩
  | n :: ns, s, noted, w =>
    match h.execNode p n a s w with
    | (.error e, _, w) => ⟨.error e, noted, w⟩
    | (.ok report, s, w) =>
      let noted := noted ++ report.failures
      match move a n s with
      | .error e => ⟨.error e.toFault, noted, w⟩
      | .ok .failure => ⟨.ok none, noted, w⟩
      | .ok (.success s) => ⟨.ok (some s.position), noted, w⟩
      | .ok (.next s) => attempt h p a ns s noted w

/-- Tries starts in turn until one gives a match. -/
def search (h : Strategy ω) (prog : Program) (subject : String) :
    List Nat → List HookFailure → ω → Run ω (Option (Nat × Nat))
  | [], noted, w => ⟨.ok none, noted, w⟩
  | start :: starts, noted, w =>
    let a := Attempt.startingAt subject start
    match attempt h prog.pattern a prog.nodes (.start a 1) noted w with
    | ⟨.error e, noted, w⟩ => ⟨.error e, noted, w⟩
    | ⟨.ok (some stop), noted, w⟩ => ⟨.ok (some (start, stop)), noted, w⟩
    | ⟨.ok none, noted, w⟩ => search h prog subject starts noted w

/-- The first match of a program in a subject. -/
def exec (h : Strategy ω) (prog : Program) (subject : String) (noted : List HookFailure) (w : ω) :
    Run ω (Option (Nat × Nat)) :=
  search h prog subject (Text.boundaries subject.toList) noted w

end Engine

end PatternHooks

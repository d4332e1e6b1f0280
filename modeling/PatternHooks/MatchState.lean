import PatternHooks.Fault
import PatternHooks.Json.Value
import PatternHooks.Text.Bytes

/-!
The state of one attempt at a match. Hooks may edit it while it is lent to them; each edit is
checked first, so none can leave an offset past the limit, inside a character, or a capture upside
down. All offsets count bytes.
-/

namespace PatternHooks

/-- Where an attempt starts in its subject, and the offset it may not pass. -/
structure Attempt where
  subject : String
  start : Nat
  stop : Nat

namespace Attempt

/-- An attempt over the rest of the subject; a start past the end is the end. -/
def startingAt (subject : String) (start : Nat) : Attempt :=
  let size := Text.size subject.toList
  ⟨subject, min start size, size⟩

/-- The part of the subject from an offset to the end of the attempt; nothing if it cannot be cut
there. -/
def remaining (a : Attempt) (offset : Nat) : List Char :=
  (Text.between? (min offset a.stop) a.stop a.subject.toList).getD []

/-- From a boundary on, all of the subject is left to an attempt that may go to its end. -/
theorem remaining_eq {a : Attempt} {before rest : List Char} (h : a.subject.toList = before ++ rest)
    (hstop : a.stop = Text.size a.subject.toList) : a.remaining (Text.size before) = rest := by
  have hmin : min (Text.size before) a.stop = Text.size before := by simp [hstop, h]
  rw [remaining, hmin, hstop, h, Text.between?_append, Option.getD_some]

end Attempt

/-- A captured range of bytes. -/
structure Capture where
  start : Nat
  stop : Nat
  deriving DecidableEq

/-- Why an edit is refused. -/
inductive EditFault where
  | pastEnd (offset limit : Nat)
  | insideCharacter (offset : Nat)
  | noGroup (group groups : Nat)
  | inverted (start stop : Nat)
  deriving DecidableEq

namespace EditFault

def message : EditFault → String
  | pastEnd offset limit =>
    "offset " ++ toString offset ++ " is past the subject end " ++ toString limit
  | insideCharacter offset => "offset " ++ toString offset ++ " is inside a multi-byte character"
  | noGroup group groups =>
    "capture group " ++ toString group ++ " does not exist (" ++ toString groups ++ " groups)"
  | inverted start stop =>
    "capture range " ++ toString start ++ ".." ++ toString stop ++ " is inverted"

def toFault (f : EditFault) : Fault := ⟨.validation, f.message, []⟩

end EditFault

/-- The largest offset a machine word holds. -/
def maxOffset : Nat := Nat.pow 2 64 - 1

structure MatchState where
  subject : String
  position : Nat
  limit : Nat
  captures : List (Option Capture)
  depth : Nat := 0
  scratch : List (String × Json) := []

namespace MatchState

/-- The state at the beginning of an attempt with the given number of capture groups. -/
def start (a : Attempt) (groups : Nat) : MatchState where
  subject := a.subject
  position := a.start
  limit := a.stop
  captures := List.replicate groups none

/-- Refuses an offset past the limit or inside a character. -/
def checkOffset (s : MatchState) (offset : Nat) : Except EditFault Unit :=
  if s.limit < offset then .error (.pastEnd offset s.limit)
  else if Text.isBoundary offset s.subject.toList then .ok ()
  else .error (.insideCharacter offset)

def setPosition (s : MatchState) (offset : Nat) : Except EditFault MatchState :=
  match s.checkOffset offset with
  | .ok () => .ok { s with position := offset }
  | .error e => .error e

/-- Moves on by `n` bytes; a sum beyond the largest offset is that offset. -/
def advance (s : MatchState) (n : Nat) : Except EditFault MatchState :=
  s.setPosition (min (s.position + n) maxOffset)

/-- The range of a group, if it is set. -/
def capture (s : MatchState) (group : Nat) : Option Capture := s.captures[group]?.join

def setCapture (s : MatchState) (group start stop : Nat) : Except EditFault MatchState :=
  if s.captures.length ≤ group then .error (.noGroup group s.captures.length)
  else if stop < start then .error (.inverted start stop)
  else match s.checkOffset start with
    | .error e => .error e
    | .ok () => match s.checkOffset stop with
      | .error e => .error e
      | .ok () => .ok { s with captures := s.captures.set group (some ⟨start, stop⟩) }

/-- An unknown group is ignored. -/
def clearCapture (s : MatchState) (group : Nat) : MatchState :=
  { s with captures := s.captures.set group none }

def pushFrame (s : MatchState) : MatchState := { s with depth := s.depth + 1 }

def popFrame (s : MatchState) : MatchState := { s with depth := s.depth - 1 }

def scratchErase (s : MatchState) (key : String) : MatchState :=
  { s with scratch := s.scratch.filter (·.1 != key) }

def scratchInsert (s : MatchState) (key : String) (value : Json) : MatchState :=
  { s with scratch := (s.scratchErase key).scratch ++ [(key, value)] }

/-- Counts a key up in a machine word; what is no count counts as zero. -/
def scratchIncrement (s : MatchState) (key : String) : MatchState :=
  let n := ((s.scratch.lookup key).bind Json.nat?).getD 0
  s.scratchInsert key (.nat (if n < Nat.pow 2 64 then (n + 1) % Nat.pow 2 64 else 1))

/-- The edits that a hook can make. -/
inductive Edit where
  | setPosition (offset : Nat)
  | advance (n : Nat)
  | setCapture (group start stop : Nat)
  | clearCapture (group : Nat)
  | pushFrame
  | popFrame
  | scratchInsert (key : String) (value : Json)
  | scratchErase (key : String)
  | scratchIncrement (key : String)

def edit (s : MatchState) : Edit → Except EditFault MatchState
  | .setPosition offset => s.setPosition offset
  | .advance n => s.advance n
  | .setCapture group start stop => s.setCapture group start stop
  | .clearCapture group => .ok (s.clearCapture group)
  | .pushFrame => .ok s.pushFrame
  | .popFrame => .ok s.popFrame
  | .scratchInsert key value => .ok (s.scratchInsert key value)
  | .scratchErase key => .ok (s.scratchErase key)
  | .scratchIncrement key => .ok (s.scratchIncrement key)

theorem checkOffset_eq_ok_iff (s : MatchState) (offset : Nat) :
    s.checkOffset offset = .ok () ↔
      offset ≤ s.limit ∧ Text.isBoundary offset s.subject.toList = true := by
  unfold checkOffset
  split
  · simp; omega
  · split <;> simp_all

theorem setPosition_eq_ok_iff (s t : MatchState) (offset : Nat) :
    s.setPosition offset = .ok t ↔
      s.checkOffset offset = .ok () ∧ t = { s with position := offset } := by
  unfold setPosition
  cases s.checkOffset offset <;> simp [eq_comm]

theorem advance_eq_ok_iff (s t : MatchState) (n : Nat) :
    s.advance n = .ok t ↔
      s.checkOffset (min (s.position + n) maxOffset) = .ok () ∧
        t = { s with position := min (s.position + n) maxOffset } :=
  s.setPosition_eq_ok_iff t _

theorem setCapture_eq_ok_iff (s t : MatchState) (group start stop : Nat) :
    s.setCapture group start stop = .ok t ↔
      group < s.captures.length ∧ start ≤ stop ∧ s.checkOffset start = .ok () ∧
        s.checkOffset stop = .ok () ∧
        t = { s with captures := s.captures.set group (some ⟨start, stop⟩) } := by
  unfold setCapture
  split
  · rename_i hgroup
    simp [Nat.not_lt.mpr hgroup]
  · rename_i hgroup
    split
    · rename_i hrange
      simp [Nat.not_le.mpr hrange]
    · rename_i hrange
      cases s.checkOffset start <;> cases s.checkOffset stop <;>
        simp [Nat.not_le.mp hgroup, Nat.not_lt.mp hrange, eq_comm]

@[simp] theorem length_captures_start (a : Attempt) (groups : Nat) :
    (start a groups).captures.length = groups := by
  simp [start]

end MatchState

end PatternHooks

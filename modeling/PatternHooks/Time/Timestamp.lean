import PatternHooks.Text.Blank
import PatternHooks.Text.Digits
import PatternHooks.Time.Instant

/-!
Timestamps: the written form of instants. They are read leniently, with blanks between the parts,
short fields and any offset from longitude zero, and written in one form, at longitude zero, with
the fewest groups of three decimals that are exact.
-/

namespace PatternHooks.Time

/-- Why a text is no timestamp. -/
inductive TimeFault where
  | invalid
  | premature
  | outOfRange
  | trailing
  | impossible
  deriving DecidableEq

def TimeFault.message : TimeFault → String
  | .invalid => "input contains invalid characters"
  | .premature => "premature end of input"
  | .outOfRange => "input is out of range"
  | .trailing => "trailing input"
  | .impossible => "no possible date and time matching input"

namespace Timestamp

abbrev Step (α : Type) := Except TimeFault (α × List Char)

open Text (isDigit digitValue)

/-- Reads further digits, at most `most` of them, after those whose value is `n`. A value beyond
63 bits is refused. -/
def moreDigits (most : Nat) (n : Nat) : List Char → Step Nat
  | [] => .ok (n, [])
  | c :: cs =>
    match most with
    | 0 => .ok (n, c :: cs)
    | most + 1 =>
      if !isDigit c then .ok (n, c :: cs)
      else if Nat.pow 2 63 ≤ 10 * n + digitValue c then .error .outOfRange
      else moreDigits most (10 * n + digitValue c) cs

/-- Reads a number of one to `most` digits. -/
def number (most : Nat) : List Char → Step Nat
  | [] => .error .premature
  | c :: cs => if isDigit c then moreDigits (most - 1) (digitValue c) cs else .error .invalid

/-- Reads a number of one or two digits that lies in a range. -/
def field (low high : Nat) (cs : List Char) : Step Nat :=
  match number 2 (Text.dropBlanks cs) with
  | .error e => .error e
  | .ok (n, rest) => if low ≤ n ∧ n ≤ high then .ok (n, rest) else .error .outOfRange

/-- Reads a year: up to four digits, or any number of them after a sign. -/
def year (cs : List Char) : Step Int :=
  let signed (negative : Bool) (cs : List Char) : Step Int :=
    match number cs.length cs with
    | .error e => .error e
    | .ok (n, rest) => .ok (if negative then -(n : Int) else n, rest)
  let read : Step Int := match Text.dropBlanks cs with
    | '-' :: cs => signed true cs
    | '+' :: cs => signed false cs
    | cs => match number 4 cs with
      | .error e => .error e
      | .ok (n, rest) => .ok (n, rest)
  match read with
  | .error e => .error e
  | .ok (y, rest) =>
    if -(Int.pow 2 31) ≤ y ∧ y < Int.pow 2 31 then .ok (y, rest) else .error .outOfRange

/-- Passes a separator and the blanks before it. -/
def mark (sep : Char) (cs : List Char) : Step Unit :=
  match Text.dropBlanks cs with
  | [] => .error .premature
  | c :: cs => if c = sep then .ok ((), cs) else .error .invalid

/-- Reads the decimals of a second, in nanoseconds; those beyond the ninth are dropped. -/
def fraction : List Char → Step Nat
  | '.' :: cs =>
    match number 9 cs with
    | .error e => .error e
    | .ok (n, rest) => .ok (n * Nat.pow 10 (9 - (cs.length - rest.length)), rest.dropWhile isDigit)
  | cs => .ok (0, cs)

/-- The next two bytes, which are no digits unless they are characters of their own. -/
def pair : List Char → Step (Char × Char)
  | a :: b :: cs => .ok ((a, b), cs)
  | [a] => if 1 < a.utf8Size then .error .invalid else .error .premature
  | [] => .error .premature

/-- Reads hours and minutes ahead of longitude zero, after the sign. -/
def aheadMinutes (cs : List Char) : Except TimeFault (Nat × List Char) := do
  let ((a, b), cs) ← pair cs
  if !(isDigit a && isDigit b) then throw .invalid
  let cs := cs.dropWhile fun c => c == ':' || Text.isBlank c
  let ((m, n), cs) ← pair cs
  if !(isDigit m && isDigit n) then throw .invalid
  if '6' ≤ m then throw .outOfRange
  return ((digitValue a * 10 + digitValue b) * 60 + digitValue m * 10 + digitValue n, cs)

/-- Reads the offset from longitude zero, in minutes. -/
def zone (cs : List Char) : Step Int :=
  match cs with
  | [] => .error .premature
  | c :: rest =>
    if (cs.take 3).map Char.toLower = ['u', 't', 'c'] then .ok (0, cs.drop 3)
    else if c = 'Z' ∨ c = 'z' then .ok (0, rest)
    else if c = '+' then (aheadMinutes rest).map fun (n, cs) => ((n : Int), cs)
    else if c = '-' ∨ c = '\u2212' then (aheadMinutes rest).map fun (n, cs) => (-(n : Int), cs)
    else .error .invalid

/-- The instant of the fields that were read; the sixtieth second is the leap second. -/
def assemble (y : Int) (mo d h mi s n : Nat) (ahead : Int) : Except TimeFault Instant :=
  let leap := s == 60
  let clock? :=
    if leap then Clock.of? h mi 59 (n + 1000000000) else Clock.of? h mi s n
  match Date.of? y mo d, clock? with
  | some date, some clock =>
    if -1440 < ahead ∧ ahead < 1440 then
      match Instant.ofLocal? date clock ahead with
      | some i => .ok i
      | none => .error .impossible
    else .error .outOfRange
  | _, _ => .error .outOfRange

def read (cs : List Char) : Except TimeFault Instant := do
  let (y, cs) ← year cs
  let (_, cs) ← mark '-' cs
  let (mo, cs) ← field 1 12 cs
  let (_, cs) ← mark '-' cs
  let (d, cs) ← field 1 31 cs
  let cs ← match cs with
    | c :: cs => if c = 'T' ∨ c = 't' ∨ c = ' ' then pure cs else throw .invalid
    | [] => throw .premature
  let (h, cs) ← field 0 23 cs
  let (_, cs) ← mark ':' cs
  let (mi, cs) ← field 0 59 cs
  let (_, cs) ← mark ':' cs
  let (s, cs) ← field 0 60 cs
  let (n, cs) ← fraction cs
  let (ahead, cs) ← zone (Text.dropBlanks cs)
  if Text.dropBlanks cs = [] then assemble y mo d h mi s n ahead else throw .trailing

/-- At least `width` digits. -/
def padded (width n : Nat) : List Char :=
  let ds := Nat.toDigits 10 n
  List.replicate (width - ds.length) '0' ++ ds

/-- Years of more or fewer than four digits have a sign. -/
def yearText (y : Int) : List Char :=
  if 0 ≤ y ∧ y ≤ 9999 then padded 4 y.toNat
  else (if y < 0 then '-' else '+') :: padded 4 y.natAbs

def fractionText (n : Nat) : List Char :=
  if n = 0 then []
  else if n % 1000000 = 0 then '.' :: padded 3 (n / 1000000)
  else if n % 1000 = 0 then '.' :: padded 6 (n / 1000)
  else '.' :: padded 9 n

def dateText (d : Date) : List Char :=
  yearText d.year ++ '-' :: padded 2 d.month ++ '-' :: padded 2 d.day

def clockText (c : Clock) : List Char :=
  let leap := 1000000000 ≤ c.nano
  padded 2 c.hour ++ ':' :: padded 2 c.minute ++
    ':' :: padded 2 (if leap then c.second + 1 else c.second) ++
    fractionText (if leap then c.nano - 1000000000 else c.nano)

def text (i : Instant) : List Char := dateText i.date ++ 'T' :: clockText i.clock ++ ['Z']

end Timestamp

/-- The instant of a timestamp. -/
def Instant.parse (s : String) : Except TimeFault Instant := Timestamp.read s.toList

/-- The timestamp of an instant. -/
def Instant.timestamp (i : Instant) : String := String.ofList (Timestamp.text i)

/-- The instant for a reader. -/
def Instant.display (i : Instant) : String :=
  String.ofList (Timestamp.dateText i.date ++ ' ' :: Timestamp.clockText i.clock) ++ " UTC"

end PatternHooks.Time

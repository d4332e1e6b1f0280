import PatternHooks.Text.Digits
import PatternHooks.Time.Instant

/-!
Dates and times as TOML writes them. Each has one written form: a date and a time are joined by `T`,
the zone at longitude zero is `Z`, and a fraction of a second has no needless digits.
-/

namespace PatternHooks.Toml.Moment

open Text (isDigit digitValue decimalValue)

abbrev Step := Option (List Char × List Char)

/-- Two digits whose value is in range. -/
def field (low high : Nat) : List Char → Step
  | a :: b :: rest =>
    let n := 10 * digitValue a + digitValue b
    if isDigit a && isDigit b && low ≤ n && n ≤ high then some ([a, b], rest) else none
  | _ => none

/-- A day of the calendar. -/
def date (cs : List Char) : Step := do
  let year := cs.take 4
  if year.length ≠ 4 ∨ year.all isDigit = false then none
  let '-' :: cs := cs.drop 4 | none
  let (month, cs) ← field 1 12 cs
  let '-' :: cs := cs | none
  let (day, cs) ← field 1 31 cs
  let _ ← Time.Date.of? (decimalValue year) (decimalValue month) (decimalValue day)
  return (year ++ '-' :: month ++ '-' :: day, cs)

/-- Keeps nine digits at most and drops the zeros at the end, save the first digit. -/
def shortened (ds : List Char) : List Char :=
  match ((ds.take 9).reverse.dropWhile (· == '0')).reverse with
  | [] => ['0']
  | ds => ds

/-- The seconds of a time, if it has them, with their fraction. -/
def seconds : List Char → Step
  | ':' :: cs => do
    let (s, cs) ← field 0 60 cs
    match cs with
    | '.' :: cs =>
      let ds := cs.takeWhile isDigit
      if ds.isEmpty then none
      else return (':' :: s ++ '.' :: shortened ds, cs.dropWhile isDigit)
    | cs => return (':' :: s, cs)
  | cs => some ([], cs)

def clock (cs : List Char) : Step := do
  let (h, cs) ← field 0 23 cs
  let ':' :: cs := cs | none
  let (m, cs) ← field 0 59 cs
  let (s, cs) ← seconds cs
  return (h ++ ':' :: m ++ s, cs)

/-- The zone of a time, if it has one. No zone lies at minus zero. -/
def zone : List Char → Step
  | [] => some ([], [])
  | c :: cs =>
    if c = 'Z' ∨ c = 'z' then some (['Z'], cs)
    else if c = '+' ∨ c = '-' then do
      let (h, cs) ← field 0 23 cs
      let ':' :: cs := cs | none
      let (m, cs) ← field 0 59 cs
      let sign := if decimalValue (h ++ m) = 0 then '+' else c
      return (sign :: h ++ ':' :: m, cs)
    else some ([], c :: cs)

def whole : List Char × List Char → Option (List Char)
  | (cs, []) => some cs
  | _ => none

/-- Whether a character may stand between a date and a time. -/
def joins (c : Char) : Bool := c == 'T' || c == 't' || c == ' '

/-- The written form of a date, a time, or both with or without a zone. -/
def read? (cs : List Char) : Option (List Char) :=
  match date cs with
  | none => (clock cs).bind whole
  | some (d, []) => some d
  | some (d, c :: cs) => do
    if !joins c then none
    let (t, cs) ← clock cs
    let z ← (zone cs).bind whole
    return d ++ 'T' :: t ++ z

end PatternHooks.Toml.Moment

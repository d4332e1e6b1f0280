import PatternHooks.Number.Spelled
import PatternHooks.Toml.Moment
import PatternHooks.Toml.Value

/-!
Values without quotation marks or brackets: flags, numbers, dates and times.
-/

namespace PatternHooks.Toml.Word

open Text (isDigit hexValue? hexadecimalValue? decimalValue)

/-- Whether a character can be in a word. -/
def isLetter (c : Char) : Bool :=
  c.isAlphanum || c == '_' || c == '+' || c == '-' || c == '.' || c == ':'

/-- Digits with single underscores between them, which are dropped. -/
def ungroup (digit : Char → Bool) : List Char → Option (List Char)
  | [] => none
  | [c] => if digit c then some [c] else none
  | c :: '_' :: d :: cs =>
    if digit c then (ungroup digit (d :: cs)).map (c :: ·) else none
  | c :: d :: cs => if digit c then (ungroup digit (d :: cs)).map (c :: ·) else none

/-- Decimal digits that do not begin with a needless zero. -/
def decimal? (cs : List Char) : Option (List Char) :=
  match ungroup isDigit cs with
  | some ('0' :: _ :: _) => none
  | ds => ds

def inRange? (n : Int) : Option Value := if fitsInt64 n then some (.integer n) else none

/-- The number that digits in a base that is a power of two stand for. -/
def inBase? (base : Nat) (cs : List Char) : Option Value := do
  let ds ← ungroup (fun c => (hexValue? c).any (· < base)) cs
  let n := ds.foldl (fun n c => base * n + (hexValue? c).getD 0) 0
  inRange? n

def integer? (cs : List Char) : Option Value :=
  match cs with
  | '0' :: 'x' :: ds => inBase? 16 ds
  | '0' :: 'o' :: ds => inBase? 8 ds
  | '0' :: 'b' :: ds => inBase? 2 ds
  | cs => do
    let (negative, cs) := unsign cs
    let ds ← decimal? cs
    inRange? (signed negative (decimalValue ds))

/-- The power of ten that ends a number; nothing stands for none. -/
def power? : List Char → Option Int
  | [] => some 0
  | _ :: cs => do
    let (negative, cs) := unsign cs
    let ds ← ungroup isDigit cs
    return signed negative (decimalValue ds)

def isMark (c : Char) : Bool := c == 'e' || c == 'E'

/-- A number with digits on both sides of its point, or a power of ten, or both. A number too large
for double precision is refused. -/
def real? (cs : List Char) : Option Value := do
  let (negative, cs) := unsign cs
  if cs = "inf".toList then return .real (.infinite negative)
  if cs = "nan".toList then return .real .notANumber
  let whole ← decimal? (cs.takeWhile fun c => c != '.' && !isMark c)
  let rest := cs.dropWhile fun c => c != '.' && !isMark c
  let (decimals, rest) ← match rest with
    | '.' :: rest =>
      (ungroup isDigit (rest.takeWhile (!isMark ·))).map (·, rest.dropWhile (!isMark ·))
    | [] => none
    | rest => some ([], rest)
  let power ← power? rest
  let x := Binary64.ofParts negative whole decimals power
  if x.isFinite then return .real x
  none

def value? (cs : List Char) : Option Value :=
  if cs = "true".toList then some (.flag true)
  else if cs = "false".toList then some (.flag false)
  else (integer? cs).or ((real? cs).or ((Moment.read? cs).map fun m => .text (String.ofList m)))

/-- Reads a word; a date takes the time that follows it after a space along. -/
def read (cs : List Char) : Option (Value × List Char) := do
  let word := cs.takeWhile isLetter
  let rest := cs.dropWhile isLetter
  match rest with
  | ' ' :: c :: more =>
    if isDigit c && (Moment.date word).any (·.2.isEmpty) then
      let time := (c :: more).takeWhile isLetter
      return (← value? (word ++ ' ' :: time), (c :: more).dropWhile isLetter)
  | _ => pure ()
  return (← value? word, rest)

end PatternHooks.Toml.Word

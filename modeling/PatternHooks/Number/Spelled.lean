import PatternHooks.Number.Binary64
import PatternHooks.Text.Digits

/-!
Numbers spelled as a whole text: whole numbers of 64 bits, and numbers of double precision with or
without a point and a power of ten.
-/

namespace PatternHooks

open Text (isDigit decimalValue)

/-- Takes a sign off the front, and tells whether it is a minus. -/
def unsign : List Char → Bool × List Char
  | '-' :: cs => (true, cs)
  | '+' :: cs => (false, cs)
  | cs => (false, cs)

/-- At least one digit, and nothing else. -/
def isNumeral (cs : List Char) : Bool := !cs.isEmpty && cs.all isDigit

def signed (negative : Bool) (n : Nat) : Int := if negative then -(n : Int) else n

/-- The whole numbers of 64 bits. -/
def fitsInt64 (n : Int) : Bool := -(Int.pow 2 63) ≤ n && n < Int.pow 2 63

/-- Reads a whole number in range; zeros may lead. -/
def spelledInteger? (cs : List Char) : Option Int :=
  let (negative, ds) := unsign cs
  let n := signed negative (decimalValue ds)
  if isNumeral ds && fitsInt64 n then some n else none

namespace Binary64

/-- The number with the given digits before and after its point. -/
def ofParts (negative : Bool) (whole decimals : List Char) (power : Int) : Binary64 :=
  ofDecimal negative (decimalValue (whole ++ decimals)) (power - decimals.length)

/-- The power of ten that ends a number: nothing, or a mark and a signed numeral. -/
def spelledPower? : List Char → Option Int
  | [] => some 0
  | c :: cs =>
    let (negative, ds) := unsign cs
    if (c = 'e' ∨ c = 'E') ∧ isNumeral ds = true then some (signed negative (decimalValue ds))
    else none

def infinityNames : List (List Char) := ["inf".toList, "infinity".toList]

/-- Reads a number. Digits are needed on one side of the point at least; infinity and what is not a
number go by name, in any case. A number too large is infinite. -/
def spelled? (cs : List Char) : Option Binary64 :=
  let (negative, cs) := unsign cs
  let name := cs.map Char.toLower
  if infinityNames.contains name then some (.infinite negative)
  else if name = "nan".toList then some .notANumber
  else
    let whole := cs.takeWhile isDigit
    let (decimals, rest) := match cs.dropWhile isDigit with
      | '.' :: cs => (cs.takeWhile isDigit, cs.dropWhile isDigit)
      | cs => ([], cs)
    if whole.isEmpty && decimals.isEmpty then none
    else (spelledPower? rest).map (ofParts negative whole decimals)

end Binary64

end PatternHooks

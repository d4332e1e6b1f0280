import PatternHooks.Number.Binary64

/-!
The fewest decimal digits that read back as a number of double precision, and the layouts in which
they are written.
-/

namespace PatternHooks

/-- The value `0.d₁d₂… * 10 ^ point`, for the digits `d₁d₂…`. -/
structure Decimal where
  digits : List Char
  point : Int

namespace Binary64

/-- Which of two points a value half way between them is written as. -/
inductive Tie where
  | upward
  | even
  deriving DecidableEq

/-- The ratios that round to a number: everything between two ends, which belong to it when the
significand is even. All values are over the same denominator. -/
structure Cell where
  low : Nat
  value : Nat
  high : Nat
  den : Nat
  closed : Bool

def cell (m : Nat) (e : Int) : Cell :=
  let below := if m = Nat.pow 2 52 ∧ -1074 < e then 1 else 2
  let r := ratio 1 (e - 2)
  ⟨(4 * m - below) * r.1, 4 * m * r.1, (4 * m + 2) * r.1, r.2, m % 2 == 0⟩

/-- Whether the point `p * 10 ^ g` lies in the cell. -/
def Cell.holds (c : Cell) (p : Nat) (g : Int) : Bool :=
  let up := if 0 ≤ g then p * Nat.pow 10 g.toNat * c.den else p * c.den
  let down := if 0 ≤ g then 1 else Nat.pow 10 (-g).toNat
  if c.closed then c.low * down ≤ up && up ≤ c.high * down
  else c.low * down < up && up < c.high * down

/-- Whether the value, the part `r / den` above the point `p`, is nearer to that point than to the
next. -/
def Tie.keeps (tie : Tie) (p r den : Nat) : Bool :=
  2 * r < den || 2 * r == den && tie == .even && p % 2 == 0

/-- The point of the grid `10 ^ g` that stands for the cell, if one of the two around the value lies
in it; of two the nearer. -/
def Cell.onGrid? (c : Cell) (tie : Tie) (g : Int) : Option Nat :=
  let num := if 0 ≤ g then c.value else c.value * Nat.pow 10 (-g).toNat
  let den := if 0 ≤ g then c.den * Nat.pow 10 g.toNat else c.den
  let p := num / den
  let r := num % den
  match c.holds p g && p != 0, c.holds (p + 1) g with
  | true, true => some (if tie.keeps p r den then p else p + 1)
  | true, false => some p
  | false, true => some (p + 1)
  | false, false => none

/-- The least `k` with `num / den < 10 ^ k`, sought upward from `k`. -/
def magnitudeFrom (num den : Nat) : Nat → Int → Int
  | 0, k => k
  | fuel + 1, k =>
    let less := if 0 ≤ k then num < den * Nat.pow 10 k.toNat else num * Nat.pow 10 (-k).toNat < den
    if less then k else magnitudeFrom num den fuel (k + 1)

def magnitude (num den : Nat) : Int :=
  let guess := (num.log2 : Int) - den.log2
  magnitudeFrom num den 8 (guess * 30103 / 100000 - 2)

/-- The digits of the first grid that has a point in the cell, from one digit upward. -/
def Cell.search (c : Cell) (tie : Tie) (k : Int) : Nat → Nat → Decimal
  | 0, _ => ⟨[], 0⟩
  | fuel + 1, n =>
    match c.onGrid? tie (k - n) with
    | some p =>
      let ds := Nat.toDigits 10 p
      ⟨(ds.reverse.dropWhile (· == '0')).reverse, k - n + ds.length⟩
    | none => c.search tie k fuel (n + 1)

/-- The shortest digits of `m * 2 ^ e`. -/
def shortest (tie : Tie) (m : Nat) (e : Int) : Decimal :=
  if m = 0 then ⟨['0'], 1⟩
  else
    let c := cell m e
    c.search tie (magnitude c.value c.den) 18 1

/-- The digits with a point among them and no exponent. -/
def positional (d : Decimal) : List Char :=
  let n := d.digits.length
  if d.point ≤ 0 then
    ['0', '.'] ++ List.replicate (-d.point).toNat '0' ++ d.digits
  else if n ≤ d.point.toNat then
    d.digits ++ List.replicate (d.point.toNat - n) '0'
  else
    d.digits.take d.point.toNat ++ '.' :: d.digits.drop d.point.toNat

/-- One digit, the point and the others if there are any, and the power of ten. -/
def scientific (d : Decimal) : List Char :=
  let power := d.point - 1
  let lead := match d.digits with
    | [] => []
    | c :: [] => [c]
    | c :: cs => c :: '.' :: cs
  lead ++ ['e', if power < 0 then '-' else '+'] ++ Nat.toDigits 10 power.natAbs

def withSign (negative : Bool) (cs : List Char) : String :=
  String.ofList (if negative then '-' :: cs else cs)

/-- A whole number gets no point. -/
def plain : Binary64 → String
  | .finite s m e => withSign s (positional (shortest .upward m e))
  | .infinite s => withSign s "inf".toList
  | .notANumber => "NaN"

def pointed (cs : List Char) : List Char := if cs.contains '.' then cs else cs ++ ['.', '0']

/-- A whole number gets a point and a zero. -/
def decimal : Binary64 → String
  | .finite s m e => withSign s (pointed (positional (shortest .upward m e)))
  | x => x.plain

/-- A number from a hundred thousandth up to sixteen places is written with a point, any other with
a power of ten. -/
def scaledText : Binary64 → String
  | .finite s m e =>
    let d := shortest .even m e
    if -5 < d.point ∧ d.point ≤ 16 then withSign s (pointed (positional d))
    else withSign s (scientific d)
  | x => x.plain

end Binary64

end PatternHooks

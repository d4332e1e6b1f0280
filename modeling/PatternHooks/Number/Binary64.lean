/-!
Numbers of double precision, in exact integer arithmetic. A finite number is a significand times a
power of two; rounding goes to the nearest of them, and from half way to the even significand.
-/

namespace PatternHooks

/-- A finite number is `significand * 2 ^ exponent`, with a significand below `2 ^ 53` and an
exponent of at least -1074; the significand is at least `2 ^ 52` or the exponent is least. -/
inductive Binary64 where
  | finite (negative : Bool) (significand : Nat) (exponent : Int)
  | infinite (negative : Bool)
  | notANumber
  deriving DecidableEq

namespace Binary64

def zero (negative : Bool) : Binary64 := .finite negative 0 (-1074)

def isZero : Binary64 → Bool
  | .finite _ m _ => m == 0
  | _ => false

def isFinite : Binary64 → Bool
  | .finite .. => true
  | _ => false

def negate : Binary64 → Binary64
  | .finite s m e => .finite (!s) m e
  | .infinite s => .infinite (!s)
  | .notANumber => .notANumber

/-- The ratio `num / den` times `2 ^ (-e)` as a ratio. -/
def scaled (num den : Nat) (e : Int) : Nat × Nat :=
  if 0 ≤ e then (num, den * Nat.pow 2 e.toNat) else (num * Nat.pow 2 (-e).toNat, den)

/-- The quotient rounded to the nearest integer, from half way to the even one. -/
def roundQuotient (num den : Nat) : Nat :=
  let q := num / den
  let r := num % den
  if 2 * r < den then q
  else if den < 2 * r then q + 1
  else q + q % 2

/-- The largest `k` with `2 ^ k ≤ num / den`, for a ratio that is not zero. -/
def floorLog (num den : Nat) : Int :=
  let k : Int := (num.log2 : Int) - den.log2
  let r := scaled num den k
  if r.1 < r.2 then k - 1 else k

/-- The number nearest to `num / den`. -/
def ofRatio (negative : Bool) (num den : Nat) : Binary64 :=
  if num = 0 then zero negative
  else
    let e := max (floorLog num den - 52) (-1074)
    let r := scaled num den e
    let m := roundQuotient r.1 r.2
    let (m, e) := if m = Nat.pow 2 53 then (Nat.pow 2 52, e + 1) else (m, e)
    if 971 < e then .infinite negative else .finite negative m e

/-- The number nearest to `digits * 10 ^ exponent`. Far outside the range the power is not
formed. -/
def ofDecimal (negative : Bool) (digits : Nat) (exponent : Int) : Binary64 :=
  let width : Int := (Nat.toDigits 10 digits).length
  if digits = 0 then zero negative
  else if 310 < width + exponent then .infinite negative
  else if width + exponent < -330 then zero negative
  else if 0 ≤ exponent then ofRatio negative (digits * Nat.pow 10 exponent.toNat) 1
  else ofRatio negative digits (Nat.pow 10 (-exponent).toNat)

/-- A positive significand and exponent as a ratio. -/
def ratio (m : Nat) (e : Int) : Nat × Nat :=
  if 0 ≤ e then (m * Nat.pow 2 e.toNat, 1) else (m, Nat.pow 2 (-e).toNat)

/-- The product of two finite numbers, rounded; nothing else is multiplied here. -/
def mul : Binary64 → Binary64 → Binary64
  | .finite s m e, .finite t n f =>
    let r := ratio (m * n) (e + f)
    ofRatio (s != t) r.1 r.2
  | x, _ => x

/-- The quotient of two finite numbers, rounded, for a divisor that is not zero. -/
def div : Binary64 → Binary64 → Binary64
  | .finite s m e, .finite t n f =>
    let r := ratio m (e - f)
    ofRatio (s != t) r.1 (r.2 * n)
  | x, _ => x

example : ofDecimal false 1 (-1) = .finite false 0x1999999999999a (-56) := by decide +kernel

example : ofDecimal true 0 5 = zero true := by decide +kernel

example : ofDecimal false 17976931348623159 292 = .infinite false := by decide +kernel

end Binary64

end PatternHooks

import PatternHooks.Json.Value
import PatternHooks.Text.Bytes
import PatternHooks.Text.Digits

/-!
What a text says, as far as it can be read. A reading is a value that may break off or go wrong
somewhere; whoever looks at it meets the first problem in the order of the text, and problems inside
what nobody looks at are judged more mildly.
-/

namespace PatternHooks.Json

/-- What can be wrong with a text: it holds what it must not, or it ends too early. -/
inductive Problem where
  | malformed
  | cutShort
  deriving DecidableEq

mutual

/-- A number or text has a value for those who use it, and perhaps a problem for those who skip it.
A `misspelt` reading starts like a word and is none; a `broken` one does not start like a value. -/
inductive Reading where
  | null
  | flag (b : Bool)
  | number (value : Except Problem Numeral) (skipped : Option Problem)
  | text (value : Except Problem String) (skipped : Option Problem)
  | list (items : Items)
  | object (members : Members)
  | misspelt (p : Problem)
  | broken (p : Problem)

/-- Items in order, up to the end of the list or to where it goes wrong. -/
inductive Items where
  | stop (p : Option Problem)
  | more (r : Reading) (rest : Items)

/-- Members in order, up to the end of the object or to where it goes wrong. -/
inductive Members where
  | stop (p : Option Problem)
  | more (key value : Reading) (rest : Members)

end

/-- The reading of a whole text, and whether anything but blanks follows it. -/
structure Document where
  root : Reading
  trailing : Bool

namespace Reading

open Text (isDigit digitValue hexValue? decimalValue)

def isSpace (c : Char) : Bool := c == ' ' || c == '\n' || c == '\t' || c == '\r'

def skipSpaces (cs : List Char) : List Char := cs.dropWhile isSpace

/-- Passes the rest of a word. -/
def word : List Char → List Char → Except Problem (List Char)
  | [], cs => .ok cs
  | _ :: _, [] => .error .cutShort
  | p :: ps, c :: cs => if p = c then word ps cs else .error .malformed

/-- A number as it is written. -/
structure Lexeme where
  negative : Bool
  whole : List Char
  decimals : List Char := []
  exponent : Option (Bool × List Char) := none

/-- The digits at the front, at least one. -/
def digits1 (cs : List Char) : Except Problem (List Char × List Char) :=
  match cs with
  | [] => .error .cutShort
  | c :: _ => if isDigit c then .ok (cs.takeWhile isDigit, cs.dropWhile isDigit)
    else .error .malformed

/-- The power of ten, if there is one. -/
def exponentPart (x : Lexeme) (cs : List Char) : Except Problem (Lexeme × List Char) :=
  match cs with
  | c :: cs =>
    if c = 'e' ∨ c = 'E' then
      let (down, cs) := match cs with
        | '+' :: cs => (false, cs)
        | '-' :: cs => (true, cs)
        | cs => (false, cs)
      match digits1 cs with
      | .ok (ds, rest) => .ok ({ x with exponent := some (down, ds) }, rest)
      | .error p => .error p
    else .ok (x, c :: cs)
  | [] => .ok (x, [])

/-- The decimals, if there are any, and what may follow them. -/
def decimalPart (x : Lexeme) (cs : List Char) : Except Problem (Lexeme × List Char) :=
  match cs with
  | '.' :: cs =>
    match digits1 cs with
    | .ok (ds, rest) => exponentPart { x with decimals := ds } rest
    | .error p => .error p
  | cs => exponentPart x cs

/-- A number at the front of a text, after its sign. A zero is not followed by digits. -/
def lexeme (negative : Bool) (cs : List Char) : Except Problem (Lexeme × List Char) :=
  match digits1 cs with
  | .error p => .error p
  | .ok (ds, rest) =>
    match ds with
    | '0' :: _ :: _ => .error .malformed
    | _ => decimalPart { negative, whole := ds } rest

/-- The largest whole number kept exactly, and the largest below zero. -/
def maxWhole : Nat := Nat.pow 2 64 - 1

def maxBelow : Nat := Nat.pow 2 63

/-- Adds digits to a significand while it stays in range; the digits left over follow. -/
def addDigits (n : Nat) : List Char → Nat × List Char
  | [] => (n, [])
  | c :: cs =>
    if 10 * n + digitValue c ≤ maxWhole then addDigits (10 * n + digitValue c) cs else (n, c :: cs)

/-- The number `n * 10 ^ e` as two rounded steps for each factor of `10 ^ 308`, unless it is too
large. -/
def scale (x : Binary64) (e : Int) : Nat → Option Binary64
  | 0 => some x
  | fuel + 1 =>
    if e.natAbs ≤ 308 then
      let power := Binary64.ofDecimal false 1 (e.natAbs : Int)
      if 0 ≤ e then
        let y := x.mul power
        if y.isFinite then some y else none
      else some (x.div power)
    else if x.isZero then some x
    else if 0 ≤ e then none
    else scale (x.div (Binary64.ofDecimal false 1 308)) (e + 308) fuel

def maxExponent : Nat := Nat.pow 2 31 - 1

/-- The value of a number. It is whole if it is written so and in range; a zero below zero is not.
A number too large for double precision is malformed. -/
def Lexeme.value (x : Lexeme) : Except Problem Numeral :=
  let (n, beyond) := addDigits 0 x.whole
  if beyond.isEmpty && x.decimals.isEmpty && x.exponent.isNone &&
      (!x.negative || n != 0 && n ≤ maxBelow) then
    .ok (.whole (if x.negative then -(n : Int) else n))
  else
    let (n, dropped) := addDigits n x.decimals
    let e : Int := beyond.length - (x.decimals.length - dropped.length : Nat)
    let signed (v : Binary64) : Numeral := .real (if x.negative then v.negate else v)
    let finish (e : Int) : Except Problem Numeral :=
      match scale (Binary64.ofDecimal false n 0) e 8 with
      | some v => .ok (signed v)
      | none => .error .malformed
    match x.exponent with
    | none => finish e
    | some (down, ds) =>
      let k := decimalValue ds
      if maxExponent < k then
        if n = 0 ∨ down = true then .ok (signed (.zero false)) else .error .malformed
      else finish (if down then e - k else e + k)

/-- Reads a number. For those who skip it, one that is cut short is malformed. -/
def scanNumber (negative : Bool) (cs : List Char) : Reading × List Char :=
  match lexeme negative cs with
  | .ok (x, rest) => (.number x.value none, rest)
  | .error p => (.number (.error p) (some .malformed), [])

/-- Four hexadecimal digits; a text of fewer than four bytes is cut short. -/
def hexQuad (cs : List Char) : Except Problem (Nat × List Char) :=
  match cs with
  | a :: b :: c :: d :: rest =>
    match hexValue? a, hexValue? b, hexValue? c, hexValue? d with
    | some a, some b, some c, some d => .ok (((a * 16 + b) * 16 + c) * 16 + d, rest)
    | _, _, _, _ => .error .malformed
  | cs => if Text.size cs < 4 then .error .cutShort else .error .malformed

/-- Passes one character. -/
def expect (c : Char) : List Char → Except Problem (List Char)
  | [] => .error .cutShort
  | d :: cs => if d = c then .ok cs else .error .malformed

/-- The second half of a character beyond sixteen bits. -/
def lowHalf (high : Nat) (cs : List Char) : Except Problem (Char × List Char) := do
  let cs ← expect '\\' cs
  let cs ← expect 'u' cs
  let (low, cs) ← hexQuad cs
  if 0xdc00 ≤ low ∧ low ≤ 0xdfff then
    return (Char.ofNat (0x10000 + (high - 0xd800) * 0x400 + (low - 0xdc00)), cs)
  else throw .malformed

/-- The characters with an escape of one letter. -/
def letterEscape? : Char → Option Char
  | '"' => some '"'
  | '\\' => some '\\'
  | '/' => some '/'
  | 'b' => some '\x08'
  | 'f' => some '\x0c'
  | 'n' => some '\n'
  | 'r' => some '\r'
  | 't' => some '\t'
  | _ => none

/-- The character of an escape, after its backslash. -/
def unescape (cs : List Char) : Except Problem (Char × List Char) :=
  match cs with
  | [] => .error .cutShort
  | c :: cs =>
    if c = 'u' then
      match hexQuad cs with
      | .error p => .error p
      | .ok (n, rest) =>
        if 0xdc00 ≤ n ∧ n ≤ 0xdfff then .error .malformed
        else if 0xd800 ≤ n ∧ n ≤ 0xdbff then lowHalf n rest
        else .ok (Char.ofNat n, rest)
    else match letterEscape? c with
      | some d => .ok (d, cs)
      | none => .error .malformed

/-- Passes an escape, whose digits need not make a character. -/
def skipEscape (cs : List Char) : Except Problem (List Char) :=
  match cs with
  | [] => .error .cutShort
  | c :: cs =>
    if c = 'u' then (hexQuad cs).map (·.2)
    else if (letterEscape? c).isSome then .ok cs
    else .error .malformed

/-- The characters up to the closing quotation mark. -/
def characters : Nat → List Char → Except Problem (List Char × List Char)
  | 0, _ => .error .cutShort
  | _ + 1, [] => .error .cutShort
  | fuel + 1, c :: cs =>
    if c = '"' then .ok ([], cs)
    else if c = '\\' then
      match unescape cs with
      | .error p => .error p
      | .ok (d, cs) => (characters fuel cs).map fun r => (d :: r.1, r.2)
    else if c.toNat < 0x20 then .error .malformed
    else (characters fuel cs).map fun r => (c :: r.1, r.2)

/-- Passes everything up to the closing quotation mark. -/
def skipCharacters : Nat → List Char → Except Problem (List Char)
  | 0, _ => .error .cutShort
  | _ + 1, [] => .error .cutShort
  | fuel + 1, c :: cs =>
    if c = '"' then .ok cs
    else if c = '\\' then
      match skipEscape cs with
      | .error p => .error p
      | .ok cs => skipCharacters fuel cs
    else if c.toNat < 0x20 then .error .malformed
    else skipCharacters fuel cs

/-- Reads a text after its opening quotation mark. -/
def scanString (cs : List Char) : Reading × List Char :=
  let value := (characters (cs.length + 1) cs).map fun r => String.ofList r.1
  match skipCharacters (cs.length + 1) cs with
  | .ok rest => (.text value none, rest)
  | .error p => (.text value (some p), [])

/-- A key that is not there or is no text. -/
def noKey (p : Problem) : Reading := .text (.error p) (some p)

def literal (r : Reading) (ps cs : List Char) : Reading × List Char :=
  match word ps cs with
  | .ok rest => (r, rest)
  | .error p => (.misspelt p, [])

mutual

/-- Reads a value; the rest of the text means nothing after a problem. -/
def scanValue : Nat → List Char → Reading × List Char
  | 0, _ => (.broken .malformed, [])
  | fuel + 1, cs =>
    match skipSpaces cs with
    | [] => (.broken .cutShort, [])
    | c :: cs =>
      if c = 'n' then literal .null "ull".toList cs
      else if c = 't' then literal (.flag true) "rue".toList cs
      else if c = 'f' then literal (.flag false) "alse".toList cs
      else if c = '-' then scanNumber true cs
      else if isDigit c then scanNumber false (c :: cs)
      else if c = '"' then scanString cs
      else if c = '[' then
        let (items, rest) := firstItem fuel cs
        (.list items, rest)
      else if c = '\x7b' then
        let (members, rest) := firstMember fuel cs
        (.object members, rest)
      else (.broken .malformed, [])

def firstItem : Nat → List Char → Items × List Char
  | 0, _ => (.stop (some .malformed), [])
  | fuel + 1, cs =>
    match skipSpaces cs with
    | [] => (.stop (some .cutShort), [])
    | c :: cs => if c = ']' then (.stop none, cs) else item fuel (c :: cs)

def item : Nat → List Char → Items × List Char
  | 0, _ => (.stop (some .malformed), [])
  | fuel + 1, cs =>
    let (r, rest) := scanValue fuel cs
    let (items, rest) := moreItems fuel rest
    (.more r items, rest)

def moreItems : Nat → List Char → Items × List Char
  | 0, _ => (.stop (some .malformed), [])
  | fuel + 1, cs =>
    match skipSpaces cs with
    | [] => (.stop (some .cutShort), [])
    | c :: cs =>
      if c = ']' then (.stop none, cs)
      else if c = ',' then item fuel cs
      else (.stop (some .malformed), [])

def firstMember : Nat → List Char → Members × List Char
  | 0, _ => (.stop (some .malformed), [])
  | fuel + 1, cs =>
    match skipSpaces cs with
    | [] => (.stop (some .cutShort), [])
    | c :: cs =>
      if c = '\x7d' then (.stop none, cs)
      else if c = '"' then
        let (key, rest) := scanString cs
        member fuel key rest
      else (.more (noKey .malformed) (.broken .malformed) (.stop (some .malformed)), [])

/-- Reads what follows a key. -/
def member : Nat → Reading → List Char → Members × List Char
  | 0, _, _ => (.stop (some .malformed), [])
  | fuel + 1, key, cs =>
    match skipSpaces cs with
    | [] => (.more key (.broken .cutShort) (.stop (some .cutShort)), [])
    | c :: cs =>
      if c = ':' then
        let (r, rest) := scanValue fuel cs
        let (members, rest) := moreMembers fuel rest
        (.more key r members, rest)
      else (.more key (.broken .malformed) (.stop (some .malformed)), [])

def moreMembers : Nat → List Char → Members × List Char
  | 0, _ => (.stop (some .malformed), [])
  | fuel + 1, cs =>
    match skipSpaces cs with
    | [] => (.stop (some .cutShort), [])
    | c :: cs =>
      if c = '\x7d' then (.stop none, cs)
      else if c = ',' then
        match skipSpaces cs with
        | [] => (.more (noKey .cutShort) (.broken .cutShort) (.stop (some .cutShort)), [])
        | c :: cs =>
          if c = '"' then
            let (key, rest) := scanString cs
            member fuel key rest
          else (.more (noKey .malformed) (.broken .malformed) (.stop (some .malformed)), [])
      else (.stop (some .malformed), [])

end

/-- Each step of reading takes a character or ends, so this many steps are enough. -/
def fuelFor (cs : List Char) : Nat := 3 * cs.length + 3

mutual

/-- The first problem that even those who skip a value meet. -/
def skip : Reading → Option Problem
  | .null => none
  | .flag _ => none
  | .number _ skipped => skipped
  | .text _ skipped => skipped
  | .list items => skipItems items
  | .object members => skipMembers members
  | .misspelt p => some p
  | .broken p => some p

def skipItems : Items → Option Problem
  | .stop p => p
  | .more r rest => match skip r with
    | some p => some p
    | none => skipItems rest

def skipMembers : Members → Option Problem
  | .stop p => p
  | .more key r rest => match key with
    | .text _ (some p) => some p
    | .text _ none => match skip r with
      | some p => some p
      | none => skipMembers rest
    | _ => some .malformed

end

end Reading

def Document.read (s : String) : Document :=
  let cs := s.toList
  let (root, rest) := Reading.scanValue (Reading.fuelFor cs) cs
  ⟨root, !(Reading.skipSpaces rest).isEmpty⟩

end PatternHooks.Json

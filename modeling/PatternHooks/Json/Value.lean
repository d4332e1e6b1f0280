import PatternHooks.Number.Shortest

/-!
Structured values: nothing, flags, numbers, texts, lists and objects whose members keep their order,
and the text that each is written as.
-/

namespace PatternHooks

inductive Numeral where
  | whole (n : Int)
  | real (x : Binary64)
  deriving DecidableEq

inductive Json where
  | null
  | flag (b : Bool)
  | number (n : Numeral)
  | text (s : String)
  | list (items : List Json)
  | object (members : List (String × Json))
  deriving Inhabited

namespace Json

def nat (n : Nat) : Json := .number (.whole n)

/-- The value of a member, if the object has it. -/
def member? (key : String) : Json → Option Json
  | .object ms => ms.lookup key
  | _ => none

def nat? : Json → Option Nat
  | .number (.whole n) => if 0 ≤ n then some n.toNat else none
  | _ => none

def text? : Json → Option String
  | .text s => some s
  | _ => none

def flag? : Json → Option Bool
  | .flag b => some b
  | _ => none

/-- The values of a list, if `f` reads all of them. -/
def listOf? {α : Type} (f : Json → Option α) : Json → Option (List α)
  | .list items => items.mapM f
  | _ => none

def texts (ss : List String) : Json := .list (ss.map .text)

/-- Four hexadecimal digits. -/
def hexQuad (n : Nat) : List Char :=
  let ds := Nat.toDigits 16 n
  List.replicate (4 - ds.length) '0' ++ ds

/-- A character between quotation marks. Control characters are escaped, by a letter if there is
one; so are quotation marks and backslashes. -/
def charText (c : Char) : List Char :=
  if c = '"' then ['\\', '"']
  else if c = '\\' then ['\\', '\\']
  else if c = '\x08' then ['\\', 'b']
  else if c = '\x0c' then ['\\', 'f']
  else if c = '\n' then ['\\', 'n']
  else if c = '\r' then ['\\', 'r']
  else if c = '\t' then ['\\', 't']
  else if c.toNat < 0x20 then '\\' :: 'u' :: hexQuad c.toNat
  else [c]

def stringText (s : String) : List Char := '"' :: s.toList.flatMap charText ++ ['"']

def wholeText (n : Int) : List Char :=
  if n < 0 then '-' :: Nat.toDigits 10 n.natAbs else Nat.toDigits 10 n.natAbs

/-- A number that is not finite has no written form and becomes nothing. -/
def numeralText : Numeral → List Char
  | .whole n => wholeText n
  | .real x => if x.isFinite then x.scaledText.toList else "null".toList

mutual

/-- The written form, without blanks. -/
def render : Json → List Char
  | .null => "null".toList
  | .flag b => if b then "true".toList else "false".toList
  | .number n => numeralText n
  | .text s => stringText s
  | .list items => '[' :: renderItems items
  | .object members => '\x7b' :: renderMembers members

/-- The items of a list up to its end. -/
def renderItems : List Json → List Char
  | [] => [']']
  | j :: items => render j ++ renderMoreItems items

def renderMoreItems : List Json → List Char
  | [] => [']']
  | j :: items => ',' :: render j ++ renderMoreItems items

/-- The members of an object up to its end. -/
def renderMembers : List (String × Json) → List Char
  | [] => ['\x7d']
  | (k, j) :: members => stringText k ++ ':' :: render j ++ renderMoreMembers members

def renderMoreMembers : List (String × Json) → List Char
  | [] => ['\x7d']
  | (k, j) :: members => ',' :: stringText k ++ ':' :: render j ++ renderMoreMembers members

end

end Json

end PatternHooks

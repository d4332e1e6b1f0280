import PatternHooks.Text.Bytes
import PatternHooks.Text.Digits

/-!
Identifiers of patterns: 128 bits, written as 32 hexadecimal digits in five groups. A text names an
identifier when it is the digits alone, the groups with hyphens, the groups in braces, or the groups
after a scheme name; the case of letters does not matter.
-/

namespace PatternHooks

structure PatternId where
  bits : BitVec 128
  deriving DecidableEq

/-- Why a text names no identifier. -/
inductive IdFault where
  | strayCharacter (c : Char) (offset : Nat)
  | length (found : Nat)
  | groupCount (found : Nat)
  | groupLength (group expected found : Nat)
  deriving DecidableEq

def IdFault.message : IdFault → String
  | .strayCharacter c offset =>
    "invalid character: found \x60" ++ String.singleton c ++ "\x60 at " ++ toString offset
  | .length found => "invalid length: found " ++ toString found
  | .groupCount found => "invalid group count: expected 5, found " ++ toString found
  | .groupLength group expected found =>
    "invalid group length in group " ++ toString group ++ ": expected " ++ toString expected ++
      ", found " ++ toString found

namespace PatternId

open Text (hexValue?)

def hexDigit (n : Nat) : Char :=
  if n < 10 then Char.ofNat ('0'.toNat + n) else Char.ofNat ('a'.toNat + (n - 10))

/-- Hexadecimal digits read most significant first, after those already read. -/
def readHex (n : Nat) : List Char → Option Nat
  | [] => some n
  | c :: cs => match hexValue? c with
    | some d => readHex (16 * n + d) cs
    | none => none

/-- The last `k` hexadecimal digits of a number, most significant first. -/
def hexDigits (n : Nat) : Nat → List Char
  | 0 => []
  | k + 1 => hexDigits (n / 16) k ++ [hexDigit (n % 16)]

/-- Inserts a hyphen after each group but the last. -/
def hyphenate : List Nat → List Char → List Char
  | [], cs => cs
  | n :: ns, cs => cs.take n ++ '-' :: hyphenate ns (cs.drop n)

/-- The lengths of the groups before the last one, whose length is twelve. -/
def groups : List Nat := [8, 4, 4, 4]

def text (id : PatternId) : List Char := hyphenate groups (hexDigits id.bits.toNat 32)

def display (id : PatternId) : String := String.ofList id.text

def version (id : PatternId) : Nat := (id.bits >>> 76 &&& 0xf#128).toNat

/-- A random identifier: the version field is four and the variant field is two. -/
def random (entropy : BitVec 128) : PatternId :=
  ⟨entropy &&& ~~~(0xf#128 <<< 76 ||| 0x3#128 <<< 62) ||| 0x4#128 <<< 76 ||| 0x2#128 <<< 62⟩

/-- The digits alone. -/
def ofDigits? (cs : List Char) : Option PatternId :=
  if cs.length = 32 then (readHex 0 cs).map fun n => ⟨BitVec.ofNat 128 n⟩ else none

/-- Removes the hyphen after each group but the last. -/
def unhyphenate? : List Nat → List Char → Option (List Char)
  | [], cs => some cs
  | n :: ns, cs =>
    match cs.drop n with
    | '-' :: rest => (unhyphenate? ns rest).map (cs.take n ++ ·)
    | _ => none

def ofGroups? (cs : List Char) : Option PatternId := (unhyphenate? groups cs).bind ofDigits?

def scheme : List Char := "urn:uuid:".toList

/-- Removes the scheme name, in any case. -/
def stripScheme? (cs : List Char) : Option (List Char) :=
  if (cs.take scheme.length).map Char.toLower = scheme then some (cs.drop scheme.length) else none

/-- Removes a pair of braces. -/
def stripBraces? : List Char → Option (List Char)
  | '\x7b' :: cs => match cs.getLast? with
    | some '\x7d' => some cs.dropLast
    | _ => none
  | _ => none

/-- How a text that names no identifier was meant: as the bare groups, or as anything at all. -/
inductive Reading where
  | groups
  | anything

/-- The first character that is neither a digit nor a hyphen, with its byte offset. -/
def stray? (offset : Nat) : List Char → Option (Char × Nat)
  | [] => none
  | c :: cs =>
    if (hexValue? c).isSome ∨ c = '-' then stray? (offset + c.utf8Size) cs else some (c, offset)

/-- The byte offsets of the hyphens. -/
def hyphens (offset : Nat) : List Char → List Nat
  | [] => []
  | c :: cs =>
    if c = '-' then offset :: hyphens (offset + c.utf8Size) cs
    else hyphens (offset + c.utf8Size) cs

/-- The first group that does not end where it should, among those that end with a hyphen. -/
def shortGroup? (group start : Nat) : List Nat → List Nat → Option IdFault
  | n :: ns, p :: ps =>
    if p = start + n then shortGroup? (group + 1) (start + n + 1) ns ps
    else some (.groupLength group n (p - start))
  | _, _ => none

/-- The body of a text, the byte offset of the body, and whether nothing shows how it was meant. -/
def body (r : Reading) (cs : List Char) : List Char × Nat × Bool :=
  match r with
  | .groups => (cs, 0, false)
  | .anything =>
    match stripBraces? cs with
    | some inner => (inner, 1, false)
    | none => match stripScheme? cs with
      | some inner => (inner, scheme.length, false)
      | none => (cs, 0, true)

/-- What is wrong with a text that names no identifier. -/
def explain (r : Reading) (cs : List Char) : IdFault :=
  let total := Text.size cs
  if total = 0 ∨ 45 < total then .length total
  else
    let (inner, offset, unknown) := body r cs
    match stray? offset inner with
    | some (c, i) => .strayCharacter c i
    | none =>
      let hs := hyphens 0 inner
      if unknown ∧ hs = [] then .length total
      else if hs.length ≠ 4 then .groupCount (hs.length + 1)
      else (shortGroup? 0 0 groups hs).getD (.groupLength 4 12 (total - 24))

/-- The bare groups of a text: it is of their length, or they stand in braces or after the scheme
name. -/
def groupsOf? (cs : List Char) : Option (List Char) :=
  match Text.size cs with
  | 36 => some cs
  | 38 => stripBraces? cs
  | 45 => stripScheme? cs
  | _ => none

def read (cs : List Char) : Except IdFault PatternId :=
  match groupsOf? cs with
  | some inner => match ofGroups? inner with
    | some id => .ok id
    | none => .error (explain .groups inner)
  | none => match ofDigits? cs with
    | some id => .ok id
    | none => .error (explain .anything cs)

def parse (s : String) : Except IdFault PatternId := read s.toList

end PatternId

end PatternHooks

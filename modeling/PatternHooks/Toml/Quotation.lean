import PatternHooks.Text.Digits

/-!
Texts between quotation marks: on one line or on several, with escapes or without.
-/

namespace PatternHooks.Toml.Quotation

open Text (hexadecimalValue?)

def isBlank (c : Char) : Bool := c == ' ' || c == '\t'

/-- Passes a line break. -/
def lineBreak? : List Char → Option (List Char)
  | '\n' :: cs => some cs
  | '\r' :: '\n' :: cs => some cs
  | _ => none

/-- Whether a character may stand on a line of text or in a comment. -/
def isPlain (c : Char) : Bool := c == '\t' || 0x20 ≤ c.toNat && c.toNat != 0x7f

/-- The characters with an escape of one letter. -/
def letterEscape? : Char → Option Char
  | '"' => some '"'
  | '\\' => some '\\'
  | 'b' => some '\x08'
  | 'e' => some '\x1b'
  | 'f' => some '\x0c'
  | 'n' => some '\n'
  | 'r' => some '\r'
  | 't' => some '\t'
  | _ => none

/-- How many digits follow the letter of an escape by code point. -/
def digitCount? : Char → Option Nat
  | 'x' => some 2
  | 'u' => some 4
  | 'U' => some 8
  | _ => none

/-- The character of a code point. -/
def scalar? (n : Nat) : Option Char := if n.isValidChar then some (Char.ofNat n) else none

/-- The character of an escape, after its backslash. -/
def unescape : List Char → Option (Char × List Char)
  | [] => none
  | c :: cs =>
    match letterEscape? c, digitCount? c with
    | some d, _ => some (d, cs)
    | none, some k => do
      let ds := cs.take k
      if ds.length ≠ k then none
      let d ← (hexadecimalValue? ds).bind scalar?
      return (d, cs.drop k)
    | none, none => none

/-- Passes blanks up to a line break, and then every blank and line break, if the line holds nothing
else. -/
def fold? (cs : List Char) : Option (List Char) :=
  let cs := cs.dropWhile isBlank
  if (lineBreak? cs).isSome then some (go cs.length cs) else none
where
  go : Nat → List Char → List Char
    | 0, cs => cs
    | fuel + 1, cs =>
      let cs := cs.dropWhile isBlank
      match lineBreak? cs with
      | some cs => go fuel cs
      | none => cs

/-- How a text is quoted: its mark, whether it may have several lines, whether it has escapes. -/
structure Style where
  mark : Char
  long : Bool
  escapes : Bool

/-- The marks at the front of a text. -/
def marks (mark : Char) (cs : List Char) : Nat := (cs.takeWhile (· == mark)).length

/-- Reads up to the closing mark. A long text is closed by three marks and may end in two more. -/
def body (style : Style) : Nat → List Char → Option (List Char × List Char)
  | 0, _ => none
  | _ + 1, [] => none
  | fuel + 1, c :: cs =>
    let add (d : Char) (rest : List Char) := (body style fuel rest).map fun r => (d :: r.1, r.2)
    if c = style.mark then
      if !style.long then some ([], cs)
      else
        let n := marks style.mark (c :: cs)
        if n < 3 then add c cs
        else
          let extra := min (n - 3) 2
          some (List.replicate extra c, (c :: cs).drop (extra + 3))
    else if c = '\\' && style.escapes then
      match (if style.long then fold? cs else none), unescape cs with
      | some rest, _ => body style fuel rest
      | none, some (d, rest) => add d rest
      | none, none => none
    else if isPlain c then add c cs
    else if style.long then
      match c, cs with
      | '\n', cs => add c cs
      | '\r', '\n' :: cs => (add '\n' cs).map fun r => ('\r' :: r.1, r.2)
      | _, _ => none
    else none

/-- Reads a text after its opening mark or marks; a long one may begin with a line break that does
not belong to it. -/
def text (style : Style) (cs : List Char) : Option (String × List Char) :=
  let cs := if style.long then (lineBreak? cs).getD cs else cs
  (body style (cs.length + 1) cs).map fun r => (String.ofList r.1, r.2)

def hasEscapes (mark : Char) : Bool := mark == '"'

/-- Reads a text on one line, after its mark. -/
def short (mark : Char) : List Char → Option (String × List Char) :=
  text ⟨mark, false, hasEscapes mark⟩

/-- Reads a text of either length, after its first mark. -/
def either (mark : Char) (cs : List Char) : Option (String × List Char) :=
  if marks mark cs < 2 then short mark cs
  else text ⟨mark, true, hasEscapes mark⟩ (cs.drop 2)

end PatternHooks.Toml.Quotation

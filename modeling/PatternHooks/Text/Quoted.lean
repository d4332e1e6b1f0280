import PatternHooks.Text.Printable

/-!
Texts made visible inside a message. Quotes, backslashes and line breaks get a backslash, and what
cannot be seen is written by its code point.
-/

namespace PatternHooks.Text

/-- Lower-case digits in the given base, at most sixteen. -/
def digits (base n : Nat) : List Char := Nat.toDigits base n

/-- Which characters get a backslash beyond those that always do. -/
structure Escaping where
  quote : Bool
  apostrophe : Bool
  extender : Bool

def codePoint (c : Char) : List Char := ['\\', 'u', '\x7b'] ++ digits 16 c.toNat ++ ['\x7d']

def escapeChar (e : Escaping) (c : Char) : List Char :=
  if c.toNat = 0 then ['\\', '0']
  else if c = '\t' then ['\\', 't']
  else if c = '\r' then ['\\', 'r']
  else if c = '\n' then ['\\', 'n']
  else if c = '\\' then ['\\', '\\']
  else if c = '"' && e.quote || c = '\'' && e.apostrophe then ['\\', c]
  else if e.extender && isExtender c || !isPrintable c then codePoint c
  else [c]

/-- The text between quotation marks. -/
def quoted (s : String) : String :=
  String.ofList ('"' :: s.toList.flatMap (escapeChar ⟨true, false, true⟩) ++ ['"'])

/-- The text between grave accents, as it stands. -/
def ticked (s : String) : String := "\x60" ++ s ++ "\x60"

/-- The text without quotation marks, ready for either kind. A mark that extends a character is
written by its code point only where it comes first, for there it has nothing to extend. -/
def escaped (s : String) : String :=
  match s.toList with
  | [] => ""
  | c :: cs =>
    String.ofList
      (escapeChar ⟨true, true, true⟩ c ++ cs.flatMap (escapeChar ⟨true, true, false⟩))

end PatternHooks.Text

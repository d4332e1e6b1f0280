import PatternHooks.Toml.Quotation
import PatternHooks.Toml.Table
import PatternHooks.Toml.Word

/-!
TOML documents: the text of a configuration as a table, or nothing if it is not well formed.
-/

namespace PatternHooks.Toml

namespace Grammar

open Quotation (isBlank isPlain lineBreak?)

def skipBlanks (cs : List Char) : List Char := cs.dropWhile isBlank

/-- Passes a comment up to the end of its line. -/
def skipComment : List Char → List Char
  | '#' :: cs => cs.dropWhile isPlain
  | cs => cs

/-- Passes the end of a line: blanks, perhaps a comment, and a line break or the end of the text. -/
def endLine (cs : List Char) : Option (List Char) :=
  match skipComment (skipBlanks cs) with
  | [] => some []
  | cs => lineBreak? cs

/-- Passes blanks, comments and line breaks. -/
def skipLines : Nat → List Char → List Char
  | 0, cs => cs
  | fuel + 1, cs =>
    let cs := skipComment (skipBlanks cs)
    match lineBreak? cs with
    | some cs => skipLines fuel cs
    | none => cs

def skipSpace (cs : List Char) : List Char := skipLines (cs.length + 1) cs

def isKeyLetter (c : Char) : Bool := c.isAlphanum || c == '_' || c == '-'

/-- One name of a key, bare or on one line between quotation marks. -/
def name : List Char → Option (String × List Char)
  | [] => none
  | c :: cs =>
    if c = '"' ∨ c = '\'' then Quotation.short c cs
    else if isKeyLetter c then
      some (String.ofList ((c :: cs).takeWhile isKeyLetter), (c :: cs).dropWhile isKeyLetter)
    else none

/-- How many names a key may have. -/
def maxNames : Nat := 80

/-- A key of so many names at most, with dots between them, and the blanks after it. -/
def key : Nat → List Char → Option (Key × List Char)
  | 0, _ => none
  | most + 1, cs => do
    let (n, cs) ← name (skipBlanks cs)
    match skipBlanks cs with
    | '.' :: cs =>
      let (k, cs) ← key most cs
      return ({ k with parents := n :: k.parents }, cs)
    | cs => return (⟨[], n⟩, cs)

/-- How deep lists and tables may be nested within a value. -/
def maxDepth : Nat := 80

mutual

def value : Nat → Nat → List Char → Option (Value × List Char)
  | 0, _, _ => none
  | fuel + 1, depth, cs =>
    match cs with
    | [] => none
    | c :: cs =>
      if c = '"' ∨ c = '\'' then (Quotation.either c cs).map fun r => (.text r.1, r.2)
      else if c = '[' then
        if maxDepth ≤ depth then none
        else (items fuel (depth + 1) (skipSpace cs)).map fun r => (.list r.1, r.2)
      else if c = '\x7b' then
        if maxDepth ≤ depth then none
        else do
          let (ps, cs) ← pairs fuel (depth + 1) (skipSpace cs)
          return (← ofPairs? ps, cs)
      else Word.read (c :: cs)
termination_by structural fuel => fuel

/-- The items of a list up to its end; a comma may follow the last one. -/
def items : Nat → Nat → List Char → Option (List Value × List Char)
  | 0, _, _ => none
  | fuel + 1, depth, cs =>
    match cs with
    | ']' :: cs => some ([], cs)
    | cs => do
      let (v, cs) ← value fuel depth cs
      match skipSpace cs with
      | ']' :: cs => return ([v], cs)
      | ',' :: cs =>
        let (vs, cs) ← items fuel depth (skipSpace cs)
        return (v :: vs, cs)
      | _ => none
termination_by structural fuel => fuel

/-- The pairs of a table up to its end; a comma may follow the last one. -/
def pairs : Nat → Nat → List Char → Option (List (Key × Value) × List Char)
  | 0, _, _ => none
  | fuel + 1, depth, cs =>
    match cs with
    | '\x7d' :: cs => some ([], cs)
    | cs => do
      let (p, cs) ← pair fuel depth skipSpace cs
      match skipSpace cs with
      | '\x7d' :: cs => return ([p], cs)
      | ',' :: cs =>
        let (ps, cs) ← pairs fuel depth (skipSpace cs)
        return (p :: ps, cs)
      | _ => none
termination_by structural fuel => fuel

/-- A key, an equals sign and a value, with what is passed on either side of the sign. -/
def pair : Nat → Nat → (List Char → List Char) → List Char →
    Option ((Key × Value) × List Char)
  | 0, _, _, _ => none
  | fuel + 1, depth, pass, cs => do
    let (k, cs) ← key maxNames cs
    let '=' :: cs := pass cs | none
    let (v, cs) ← value fuel depth (pass cs)
    return ((k, v), cs)
termination_by structural fuel => fuel

end

/-- The key of a header and its closing brackets. -/
def header (brackets : List Char) (cs : List Char) : Option (Key × List Char) := do
  let (k, cs) ← key maxNames cs
  if brackets.isPrefixOf cs then some (k, cs.drop brackets.length) else none

/-- One line that is not empty, without its end. -/
def line (fuel : Nat) : List Char → Option (Line × List Char)
  | '[' :: '[' :: cs => (header [']', ']'] cs).map fun r => (.row r.1, r.2)
  | '[' :: cs => (header [']'] cs).map fun r => (.header r.1, r.2)
  | cs => (pair fuel 0 skipBlanks cs).map fun r => (.pair r.1.1 r.1.2, r.2)

def lines : Nat → List Char → Option (List Line)
  | 0, _ => none
  | fuel + 1, cs =>
    match skipSpace cs with
    | [] => some []
    | c :: cs => do
      let (l, rest) ← line fuel (c :: cs)
      let ls ← lines fuel (← endLine rest)
      return l :: ls

/-- Each value and each list takes a character, so this many steps are enough. -/
def fuelFor (cs : List Char) : Nat := 4 * cs.length + 4

/-- Drops the mark of byte order that may come first. -/
def dropMark : List Char → List Char
  | '\ufeff' :: cs => cs
  | cs => cs

end Grammar

/-- The members of the table that a text stands for, if it is a document. -/
def read? (text : String) : Option (List (String × Value)) :=
  let cs := Grammar.dropMark text.toList
  (Grammar.lines (Grammar.fuelFor cs) cs).bind ofLines?

end PatternHooks.Toml

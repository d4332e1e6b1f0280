import PatternHooks.Journal
import PatternHooks.Number.Spelled
import PatternHooks.Text.Blank
import PatternHooks.Text.Split
import PatternHooks.Text.WordCharacters

/-!
Filters of the journal. A filter is a list of directives; each sets the least level that is shown of
the targets that begin with some text, and of several that concern a record the longest decides.
-/

namespace PatternHooks.Journal

/-- The least level that is shown; none if nothing is. -/
abbrev Threshold := Option Level

namespace Threshold

def passes (t : Threshold) (level : Level) : Bool := t.any (·.rank ≤ level.rank)

/-- The threshold of a number, from nothing to everything. -/
def ofNumber? : Nat → Option Threshold
  | 0 => some none
  | 1 => some (some .error)
  | 2 => some (some .warn)
  | 3 => some (some .info)
  | 4 => some (some .debug)
  | 5 => some (some .trace)
  | _ => none

def names : List (String × Threshold) :=
  [("off", none), ("error", some .error), ("warn", some .warn), ("info", some .info),
    ("debug", some .debug), ("trace", some .trace)]

/-- A threshold is spelled by its number or by its name in any case. -/
def spelled? (cs : List Char) : Option Threshold :=
  let digits := match cs with
    | '+' :: ds => ds
    | cs => cs
  if isNumeral digits then ofNumber? (Text.decimalValue digits)
  else names.lookup (String.ofList (cs.map Char.toLower))

end Threshold

structure Directive where
  target : List Char
  threshold : Threshold
  deriving DecidableEq

namespace Directive

def concerns (d : Directive) (target : String) : Bool := d.target.isPrefixOf target.toList

/-- A directive begins with a letter, a numeral or one of three marks. -/
def begins (c : Char) : Bool := c == '-' || c == ':' || c == '_' || Text.isWordCharacter c

/-- Reads a directive: a target and its threshold, or one of the two. What is no threshold is a
target of which everything is shown. Blanks may come first, as part of a target, but not where an
equals sign follows. -/
def read? (cs : List Char) : Option Directive :=
  let word := Text.dropBlanks cs
  if !word.head?.any begins || word.contains '[' then none
  else match word.dropWhile (· != '=') with
    | '=' :: level =>
      let target := word.takeWhile (· != '=')
      if word.length < cs.length then none
      else if level.isEmpty then some ⟨target, some .trace⟩
      else (Threshold.spelled? level).map (⟨target, ·⟩)
    | _ => match Threshold.spelled? cs with
      | some t => some ⟨[], t⟩
      | none => some ⟨cs, some .trace⟩

end Directive

abbrev Filter := List Directive

namespace Filter

/-- The parts of a text between commas that are not empty. -/
def parts (text : String) : List (List Char) :=
  ((Text.split ',' text).filter (· != "")).map String.toList

def orErrors (ds : List Directive) : Filter := if ds.isEmpty then [⟨[], some .error⟩] else ds

/-- The filter of a text whose directives are all valid. -/
def strict? (text : String) : Option Filter := ((parts text).mapM Directive.read?).map orErrors

/-- The filter of the valid directives of a text. -/
def lenient (text : String) : Filter := orErrors ((parts text).filterMap Directive.read?)

/-- Of the directives that concern a target the longest, and of equal ones the last. -/
def deciding? (f : Filter) (target : String) : Option Directive :=
  (f.filter (·.concerns target)).foldl (fun best d =>
    match best with
    | none => some d
    | some b => if d.target.length < b.target.length then some b else some d) none

def shows (f : Filter) (r : Record) : Bool :=
  (f.deciding? r.target).any (·.threshold.passes r.level)

end Filter

end PatternHooks.Journal

import PatternHooks.Fault
import PatternHooks.Journal.Filter
import PatternHooks.Settings.Types
import PatternHooks.Text.Quoted

/-!
The viewer of the journal: it shows the records that its filter lets through, as they are or as
lines of text. There is one at most, and once installed it stays.
-/

namespace PatternHooks.Journal

inductive Layout where
  | structured
  | lines
  deriving DecidableEq

structure Viewer where
  filter : Filter
  layout : Layout
  deriving DecidableEq

/-- What a viewer shows of a record. -/
inductive Shown where
  | record (r : Record)
  | line (s : String)
  deriving DecidableEq

def datumText : Datum → String
  | .text s => s
  | .name s => Text.quoted s
  | .count n => toString n
  | .flag b => if b then "true" else "false"

/-- The record on one line. -/
def lineOf (r : Record) : String :=
  let message := r.level.label ++ " " ++ r.target ++ ": " ++ r.message
  ", ".intercalate (message :: r.data.map fun (key, d) => key ++ ": " ++ datumText d)

namespace Viewer

/-- The viewer of some settings. Directives given beside them go first, unless one of them is
not valid. -/
def ofSettings (s : LogSettings) (directives : Option String) : Viewer where
  filter := (directives.bind Filter.strict?).getD (Filter.lenient s.level)
  layout := if s.format = "json" then .structured else .lines

def present (v : Viewer) (r : Record) : Shown :=
  match v.layout with
  | .structured => .record r
  | .lines => .line (lineOf r)

/-- What is shown of some records. -/
def view (v : Viewer) (rs : List Record) : List Shown := (rs.filter v.filter.shows).map v.present

end Viewer

def initialized (s : LogSettings) : Record :=
  Reporter.logging.record .info "Logging initialized"
    [("level", .text s.level), ("format", .text s.format)]

def alreadyInstalled : Fault :=
  ⟨.internal,
    "Failed to install subscriber: a global default trace dispatcher has already been set", []⟩

/-- Installs the viewer of some settings, unless there is one. -/
def install (s : LogSettings) (directives : Option String) :
    Option Viewer → Except Fault Record × Option Viewer
  | none => (.ok (initialized s), some (.ofSettings s directives))
  | some present => (.error alreadyInstalled, some present)

end PatternHooks.Journal

import PatternHooks.Fault
import PatternHooks.Journal
import PatternHooks.Settings.Decoding
import PatternHooks.Settings.Files

/-!
Settings from a text, or from a file under an environment. The environment goes over the file, leaf
by leaf, and both over the defaults.
-/

namespace PatternHooks.Settings

/-- Why there are no settings: a file is not well formed, or what was set does not fit. -/
inductive Refusal where
  | malformed
  | unfit (c : Complaint)
  deriving DecidableEq

def Refusal.message : Refusal → String
  | malformed => "<syntax>"
  | unfit c => c.message

/-- The settings of layers that lie over one another. -/
def ofLayers (layers : List Layer) : Except Refusal Settings :=
  (ofTree (Layer.stack layers)).mapError .unfit

/-- The settings of a document. -/
def ofDocument (text : String) : Except Refusal Settings :=
  match Toml.read? text with
  | none => .error .malformed
  | some members => ofLayers [Tree.ofTomlMembers none members]

/-- The settings of the file at a path, which need not exist, under an environment. -/
def ofFile (files : Files) (environment : List (String × String)) (path : String) :
    Except Refusal Settings :=
  let surrounding := Layer.ofEnvironment environment
  match files.find? path with
  | none => ofLayers [surrounding]
  | some file => match file.layer? with
    | none => .error .malformed
    | some layer => ofLayers [layer, surrounding]

/-- Reads settings from a text. The fault is caused by what refused them. -/
def ofText (text : String) : Except Fault Settings :=
  (ofDocument text).mapError fun r =>
    .causedBy .configuration ("Configuration error: " ++ r.message) ⟨r.message, []⟩

/-- The same for a client that is told of a fault by a copy, which forgets its causes. -/
def parse (text : String) : Except Fault Settings := (ofText text).mapError Fault.copy

def loaded (path : String) (s : Settings) : Record :=
  Reporter.settings.record .info "Configuration loaded"
    [("path", .text path), ("on_duplicate", .text s.hooks.onDuplicate.name),
      ("fatal_errors", .flag s.hooks.fatalErrors)]

/-- What was being done when a file was refused. -/
def stage : Refusal → String
  | .malformed => "Failed to build config"
  | .unfit _ => "Failed to deserialize config"

/-- The fault of a file that was refused. It has no causes: what refused the file is only quoted. -/
def fault (r : Refusal) : Fault := ⟨.configuration, stage r ++ ": " ++ r.message, []⟩

/-- Loads the settings of a path, and tells so if it succeeds. -/
def load (files : Files) (environment : List (String × String)) (path : String) :
    Except Fault Settings × List Record :=
  match ofFile files environment path with
  | .ok s => (.ok s, [loaded path s])
  | .error r => (.error (fault r), [])

end PatternHooks.Settings

import PatternHooks.Fault
import PatternHooks.Json.Format
import PatternHooks.MatchState
import PatternHooks.Node
import PatternHooks.Pattern
import PatternHooks.Phase
import PatternHooks.Scope
import PatternHooks.Settings.Types
import PatternHooks.Time.Timestamp

/-!
The formats of the data model. Fields stand in the order of their schemas; a setting may be left out
and then has its default, and so may a number that may be null.
-/

namespace PatternHooks.Json

def patternIdFormat : Format PatternId where
  schema := .text "a formatted UUID string" fun s =>
    match PatternId.parse s with
    | .ok id => .ok id.display
    | .error e => .error ("UUID parsing failed: " ++ e.message)
  encode id := .text id.display
  decode? j := j.text?.bind fun s => (PatternId.parse s).toOption

def instantFormat : Format Time.Instant where
  schema := .text "an RFC 3339 formatted date and time string" fun s =>
    match Time.Instant.parse s with
    | .ok i => .ok i.timestamp
    | .error e => .error e.message
  encode i := .text i.timestamp
  decode? j := j.text?.bind fun s => (Time.Instant.parse s).toOption

/-- The kinds of node that hold nothing, with their names. -/
def bareKinds : List (String × NodeKind) := [
  ("branch", .branch), ("star", .star), ("plus", .plus), ("bol", .lineStart), ("eol", .lineEnd),
  ("reg_any", .anyChar), ("any_of", .anyOf), ("nothing", .nothing), ("succeed", .succeed),
  ("end", .finish)]

def curlySchema : Schema :=
  .record "struct variant NodeKind::Curly"
    [.required "min" word32Format.schema, .optional "max" word32Format.schema]

def nodeKindFormat : Format NodeKind where
  schema := .choice [
    .holding "exact" textFormat.schema, .bare "branch", .bare "star", .bare "plus",
    .holding "curly" curlySchema, .holding "open" word32Format.schema,
    .holding "close" word32Format.schema, .bare "bol", .bare "eol", .bare "reg_any", .bare "any_of",
    .bare "nothing", .bare "succeed", .bare "end", .holding "other" word8Format.schema]
  encode
    | .exact s => tagged "exact" (.text s)
    | .branch => .text "branch"
    | .star => .text "star"
    | .plus => .text "plus"
    | .curly least most =>
      tagged "curly"
        (.object [("min", word32Format.encode least), ("max", word32Format.encodeOption most)])
    | .opening group => tagged "open" (word32Format.encode group)
    | .closing group => tagged "close" (word32Format.encode group)
    | .lineStart => .text "bol"
    | .lineEnd => .text "eol"
    | .anyChar => .text "reg_any"
    | .anyOf => .text "any_of"
    | .nothing => .text "nothing"
    | .succeed => .text "succeed"
    | .finish => .text "end"
    | .other code => tagged "other" (word8Format.encode code)
  decode?
    | .text name => bareKinds.lookup name
    | .object [(name, j)] =>
      if name = "exact" then j.text?.map .exact
      else if name = "curly" then do
        let least ← j.field? "min" word32Format.decode?
        let most ← j.field? "max" word32Format.decodeOption?
        return .curly least most
      else if name = "open" then (word32Format.decode? j).map .opening
      else if name = "close" then (word32Format.decode? j).map .closing
      else if name = "other" then (word8Format.decode? j).map .other
      else none
    | _ => none

def nodeFormat : Format Node where
  schema := .record "struct Node"
    [.required "index" sizeFormat.schema, .required "kind" nodeKindFormat.schema,
      .required "offset" sizeFormat.schema, .optional "next" sizeFormat.schema]
  encode n := .object
    [("index", sizeFormat.encode n.index), ("kind", nodeKindFormat.encode n.kind),
      ("offset", sizeFormat.encode n.offset), ("next", sizeFormat.encodeOption n.next)]
  decode? j := do
    let index ← j.field? "index" sizeFormat.decode?
    let kind ← j.field? "kind" nodeKindFormat.decode?
    let offset ← j.field? "offset" sizeFormat.decode?
    let next ← j.field? "next" sizeFormat.decodeOption?
    return ⟨index, kind, offset, next⟩

def captureFormat : Format Capture where
  schema := .record "struct Capture"
    [.required "start" sizeFormat.schema, .required "end" sizeFormat.schema]
  encode c := .object [("start", sizeFormat.encode c.start), ("end", sizeFormat.encode c.stop)]
  decode? j := do
    let start ← j.field? "start" sizeFormat.decode?
    let stop ← j.field? "end" sizeFormat.decode?
    return ⟨start, stop⟩

def flagsFormat : Format PatternFlags where
  schema := .record "struct PatternFlags"
    [.required "case_insensitive" .flag, .required "multi_line" .flag,
      .required "single_line" .flag, .required "extended" .flag]
  encode f := .object
    [("case_insensitive", .flag f.caseInsensitive), ("multi_line", .flag f.multiLine),
      ("single_line", .flag f.singleLine), ("extended", .flag f.extended)]
  decode? j := do
    let caseInsensitive ← j.field? "case_insensitive" flag?
    let multiLine ← j.field? "multi_line" flag?
    let singleLine ← j.field? "single_line" flag?
    let extended ← j.field? "extended" flag?
    return ⟨caseInsensitive, multiLine, singleLine, extended⟩

def textsFormat : Format (List String) := listFormat textFormat

def patternFormat : Format Pattern where
  schema := .record "struct Pattern"
    [.required "id" patternIdFormat.schema, .required "source" textFormat.schema,
      .required "flags" flagsFormat.schema, .required "hook_keys" textsFormat.schema,
      .required "compiled_at" instantFormat.schema]
  encode p := .object
    [("id", patternIdFormat.encode p.id), ("source", .text p.source),
      ("flags", flagsFormat.encode p.flags), ("hook_keys", textsFormat.encode p.hookKeys),
      ("compiled_at", instantFormat.encode p.compiledAt)]
  decode? j := do
    let id ← j.field? "id" patternIdFormat.decode?
    let source ← j.field? "source" text?
    let flags ← j.field? "flags" flagsFormat.decode?
    let hookKeys ← j.field? "hook_keys" textsFormat.decode?
    let compiledAt ← j.field? "compiled_at" instantFormat.decode?
    return ⟨id, source, flags, hookKeys, compiledAt⟩

def phaseFormat : Format Phase := nameFormat Phase.all Phase.name

def failureFormat : Format HookFailure where
  schema := .record "struct HookFailure"
    [.required "key" textFormat.schema, .required "message" textFormat.schema]
  encode f := .object [("key", .text f.key), ("message", .text f.message)]
  decode? j := do
    let key ← j.field? "key" text?
    let message ← j.field? "message" text?
    return ⟨key, message⟩

def reportFormat : Format Report where
  schema := .record "struct DispatchReport"
    [.required "phase" phaseFormat.schema, .required "fired" textsFormat.schema,
      .required "missing" textsFormat.schema,
      .required "failures" (listFormat failureFormat).schema]
  encode r := .object
    [("phase", phaseFormat.encode r.phase), ("fired", textsFormat.encode r.fired),
      ("missing", textsFormat.encode r.missing),
      ("failures", (listFormat failureFormat).encode r.failures)]
  decode? j := do
    let phase ← j.field? "phase" phaseFormat.decode?
    let fired ← j.field? "fired" textsFormat.decode?
    let missing ← j.field? "missing" textsFormat.decode?
    let failures ← j.field? "failures" (listFormat failureFormat).decode?
    return ⟨phase, fired, missing, failures⟩

def scopeFormat : Format Scope where
  schema := .record "struct HookScope" [.required "keys" textsFormat.schema]
  encode s := .object [("keys", textsFormat.encode s.keys)]
  decode? j := (j.field? "keys" textsFormat.decode?).map Scope.mk

/-- The name that a kind of fault has in texts. -/
def faultKindName : FaultKind → String
  | .invalidKey => "InvalidKey"
  | .duplicateKey => "DuplicateKey"
  | .hookFailed => "HookFailed"
  | .validation => "Validation"
  | .notFound => "NotFound"
  | .configuration => "Configuration"
  | .internal => "Internal"

def faultKindFormat : Format FaultKind := nameFormat FaultKind.all faultKindName

def policyFormat : Format DuplicatePolicy := nameFormat [.reject, .replace] DuplicatePolicy.name

def hookSettingsFormat : Format HookSettings where
  schema := .record "struct HooksConfig"
    [.defaulted "on_duplicate" policyFormat.schema (.text "reject"),
      .defaulted "fatal_errors" .flag (.flag true)]
  encode s := .object
    [("on_duplicate", policyFormat.encode s.onDuplicate), ("fatal_errors", .flag s.fatalErrors)]
  decode? j := do
    let onDuplicate ← j.field? "on_duplicate" policyFormat.decode?
    let fatalErrors ← j.field? "fatal_errors" flag?
    return ⟨onDuplicate, fatalErrors⟩

def logSettingsFormat : Format LogSettings where
  schema := .record "struct LoggingConfig"
    [.defaulted "level" textFormat.schema (.text "info"),
      .defaulted "format" textFormat.schema (.text "pretty")]
  encode s := .object [("level", .text s.level), ("format", .text s.format)]
  decode? j := do
    let level ← j.field? "level" text?
    let format ← j.field? "format" text?
    return ⟨level, format⟩

def settingsFormat : Format Settings where
  schema := .record "struct RehookConfig"
    [.defaulted "hooks" hookSettingsFormat.schema (hookSettingsFormat.encode {}),
      .defaulted "logging" logSettingsFormat.schema (logSettingsFormat.encode {})]
  encode s := .object
    [("hooks", hookSettingsFormat.encode s.hooks), ("logging", logSettingsFormat.encode s.logging)]
  decode? j := do
    let hooks ← j.field? "hooks" hookSettingsFormat.decode?
    let logging ← j.field? "logging" logSettingsFormat.decode?
    return ⟨hooks, logging⟩

end PatternHooks.Json

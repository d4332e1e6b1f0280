import PatternHooks.Json.Text
import PatternHooks.Settings.Layer
import PatternHooks.Text.Split
import PatternHooks.Toml.Document

/-!
Files that may hold settings, told by their paths from one directory, and how one is found by a
path. The path may leave out the extension. A path may lead up again from the directories on its
way, which have to be there.
-/

namespace PatternHooks.Settings

/-- The contents of files by their paths. -/
abbrev Files := List (String × String)

inductive FileKind where
  | toml
  | json
  deriving DecidableEq

def FileKind.extension : FileKind → String
  | toml => "toml"
  | json => "json"

def FileKind.all : List FileKind := [.toml, .json]

structure File where
  path : String
  kind : FileKind
  content : String

namespace Files

/-- Whether a name leads nowhere from where it stands. -/
def stays (name : String) : Bool := name == "" || name == "."

/-- The names that a path leads through; a name that stays in place is left out. -/
def names (path : String) : List String := (Text.split '/' path).filter fun n => !stays n

def path (names : List String) : String := "/".intercalate names

/-- Where a step leads from a place, which is told by the names below the directory where all paths
start. Above that directory only steps upward are told. -/
def step (place : List String) (name : String) : List String :=
  if stays name then place
  else if name = ".." ∧ place.getLast?.any (· != "..") then place.dropLast
  else place ++ [name]

/-- Where some names lead, step by step. -/
def destination (names : List String) : List String := names.foldl step []

/-- The content of the file at a place; of files with several paths the last stays. -/
def content? (files : Files) (place : List String) : Option String :=
  (files.reverse.find? fun f => destination (names f.1) == place).map (·.2)

/-- The places of the directories that the path of a file leads through. -/
def directories (path : String) : List (List String) :=
  let names := names path
  (List.range names.length).map fun n => destination (names.take n)

/-- Whether a place is a directory: some file's path leads through it, or nothing but steps upward
leads there. -/
def isDirectory (files : Files) (place : List String) : Bool :=
  place.all (· == "..") || files.any fun f => (directories f.1).contains place

/-- Where a path leads. Each name but the last must be that of a directory. -/
def walk? (files : Files) : List String → List String → Option (List String)
  | place, [] => some place
  | place, name :: more =>
    if files.isDirectory place then walk? files (step place name) more else none

/-- The content of the file that some names lead to. -/
def open? (files : Files) (names : List String) : Option String :=
  match names with
  | "" :: _ => none
  | names =>
    if names.getLast?.any stays then none
    else (walk? files [] names).bind files.content?

/-- What follows the last dot of a name, unless the name begins with that dot or has none. The name
of the directory above has no extension. -/
def extension? (name : String) : Option String :=
  if name = ".." then none
  else match Text.split '.' name with
    | [] => none
    | [_] => none
    | ["", _] => none
    | parts => parts.getLast?

/-- The name with another extension in place of its own. -/
def withExtension (extension name : String) : String :=
  match extension? name with
  | none => name ++ "." ++ extension
  | some _ => ".".intercalate ((Text.split '.' name).dropLast ++ [extension])

def kind? (names : List String) : Option FileKind := do
  let extension ← extension? (← names.getLast?)
  FileKind.all.find? (·.extension == extension)

/-- The names without those at the end that lead nowhere. -/
def dropStays (names : List String) : List String := (names.reverse.dropWhile stays).reverse

/-- The names of a path with a provisional extension at its end if it has one already, which then
stays when the provisional one gives way. After a slash this makes a name of its own. -/
def provisional (names : List String) : List String :=
  let ended := dropStays names
  match ended.getLast?.bind extension?, names.getLast? with
  | some _, some last => names.dropLast ++ [last ++ ".placeholder"]
  | _, _ => ended

/-- The file of a path with an extension added. -/
def extended? (files : Files) (names : List String) (kind : FileKind) : Option File :=
  let ready := provisional names
  match ready.getLast? with
  | none => none
  | some last =>
    if last = ".." then none
    else
      let names := ready.dropLast ++ [withExtension kind.extension last]
      (files.open? names).map (⟨path (names.filter fun n => !stays n), kind, ·⟩)

/-- The file of a path: the very file if there is one, and if its extension tells its kind; else one
whose extension the path leaves out. -/
def find? (files : Files) (p : String) : Option File :=
  let raw := Text.split '/' p
  match files.open? raw with
  | some content => (kind? (names p)).map (⟨path (names p), ·, content⟩)
  | none => FileKind.all.findSome? (files.extended? raw)

end Files

namespace File

/-- The content without the mark of byte order that may come first. -/
def text (f : File) : String :=
  match f.content.toList with
  | '\ufeff' :: cs => String.ofList cs
  | _ => f.content

/-- The layer that a file holds, if it is well formed. -/
def layer? (f : File) : Option Layer :=
  match f.kind with
  | .toml => (Toml.read? f.text).map (Tree.ofTomlMembers (some f.path))
  | .json =>
    match Json.ofText? f.text with
    | some (.object members) => some (Tree.ofJsonMembers (some f.path) members)
    | _ => none

end File

end PatternHooks.Settings

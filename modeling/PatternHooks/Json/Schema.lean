import PatternHooks.Json.Reading
import PatternHooks.Text.Quoted

/-!
Schemas: the values that a text may say, by shape. Checking a reading against a schema meets the
problems of the text and of the shape in one order, that of the text, and gives the value in one
layout: every field is there, in the order of the schema.
-/

namespace PatternHooks.Json

/-- What a missing field stands for: nothing at all, the value null, or some other value. Only the
last may also be left out at the end of a record that is written as a list. -/
inductive Absence where
  | refused
  | null
  | filled (j : Json)

mutual

inductive Schema where
  /-- A whole number below a limit. -/
  | whole (title : String) (limit : Nat)
  | flag
  /-- A text that has a normal form, or an account of why it has none. -/
  | text (title : String) (normal : String → Except String String)
  | list (item : Schema)
  | record (title : String) (fields : List Field)
  | choice (variants : List Variant)

/-- A nullable field may be null instead. -/
inductive Field where
  | mk (name : String) (schema : Schema) (nullable : Bool) (absence : Absence)

inductive Variant where
  | bare (name : String)
  | holding (name : String) (content : Schema)

end

/-- Why a text does not say a value: a problem of the text, or of the shape. -/
inductive DecodeFault where
  | text (p : Problem)
  | shape (message : String)
  deriving DecidableEq

namespace Schema

def anyText (title : String) : Schema := .text title .ok

def isRecord : Schema → Bool
  | .record .. => true
  | _ => false

end Schema

namespace Field

def name : Field → String
  | mk name .. => name

def schema : Field → Schema
  | mk _ schema .. => schema

def nullable : Field → Bool
  | mk _ _ nullable _ => nullable

def absence : Field → Absence
  | mk _ _ _ absence => absence

def required (name : String) (schema : Schema) : Field := mk name schema false .refused

def optional (name : String) (schema : Schema) : Field := mk name schema true .null

def defaulted (name : String) (schema : Schema) (j : Json) : Field :=
  mk name schema false (.filled j)

end Field

def Variant.name : Variant → String
  | bare name => name
  | holding name _ => name

def foundNumeral : Numeral → String
  | .whole n => "integer " ++ Text.ticked (toString n)
  | .real x => "floating point " ++ Text.ticked x.scaledText

def mismatch (found expected : String) : DecodeFault :=
  .shape ("invalid type: " ++ found ++ ", expected " ++ expected)

/-- The names that would have done. -/
def alternatives : List String → String
  | [] => "there are no variants"
  | [a] => "expected " ++ Text.ticked a
  | [a, b] => "expected " ++ Text.ticked a ++ " or " ++ Text.ticked b
  | names => "expected one of " ++ ", ".intercalate (names.map Text.ticked)

def unknownVariant (name : String) (variants : List Variant) : DecodeFault :=
  .shape ("unknown variant " ++ Text.ticked name ++ ", " ++ alternatives (variants.map (·.name)))

def wrongLength (found : Nat) (title : String) (size : Nat) : DecodeFault :=
  .shape ("invalid length " ++ toString found ++ ", expected " ++ title ++ " with " ++
    toString size ++ (if size = 1 then " element" else " elements"))

/-- A value with the name of its variant. -/
def tagged (name : String) (j : Json) : Json := .object [(name, j)]

namespace Reading

/-- A reading of the wrong kind. -/
def unexpected (r : Reading) (expected : String) : DecodeFault :=
  match r with
  | .null => mismatch "null" expected
  | .flag b => mismatch ("boolean " ++ Text.ticked (if b then "true" else "false")) expected
  | .number (.ok n) _ => mismatch (foundNumeral n) expected
  | .number (.error p) _ => .text p
  | .text (.ok s) _ => mismatch ("string " ++ Text.quoted s) expected
  | .text (.error p) _ => .text p
  | .list _ => mismatch "sequence" expected
  | .object _ => mismatch "map" expected
  | .misspelt p => .text p
  | .broken p => .text p

def checkWhole (title : String) (limit : Nat) (r : Reading) : Except DecodeFault Json :=
  match r with
  | .number (.ok (.whole n)) _ =>
    if 0 ≤ n ∧ n < limit then .ok (.number (.whole n))
    else .error (.shape
      ("invalid value: integer " ++ Text.ticked (toString n) ++ ", expected " ++ title))
  | r => .error (r.unexpected title)

def checkFlag (r : Reading) : Except DecodeFault Json :=
  match r with
  | .flag b => .ok (.flag b)
  | r => .error (r.unexpected "a boolean")

def checkText (title : String) (normal : String → Except String String) (r : Reading) :
    Except DecodeFault Json :=
  match r with
  | .text (.ok s) _ =>
    match normal s with
    | .ok t => .ok (.text t)
    | .error message => .error (.shape message)
  | r => .error (r.unexpected title)

def checkNull (r : Reading) : Except DecodeFault Unit :=
  match r with
  | .null => .ok ()
  | r => .error (r.unexpected "unit")

/-- A variant named by a text alone. -/
def checkName (variants : List Variant) (name : String) : Except DecodeFault Json :=
  match variants.find? (·.name == name) with
  | none => .error (unknownVariant name variants)
  | some (.bare name) => .ok (.text name)
  | some (.holding _ content) =>
    .error (mismatch "unit variant"
      (if content.isRecord then "struct variant" else "newtype variant"))

/-- What must come after the last item that is looked at. -/
def checkEnd : Items → Except DecodeFault Unit
  | .stop none => .ok ()
  | .stop (some p) => .error (.text p)
  | .more .. => .error (.text .malformed)

/-- What must come after the only member that is looked at. -/
def checkLast : Members → Except DecodeFault Unit
  | .stop none => .ok ()
  | .stop (some p) => .error (.text p)
  | .more .. => .error (.text .malformed)

/-- The values of the fields left over at the end of a record that is written as a list. -/
def fillList (title : String) (found size : Nat) : List Field →
    Except DecodeFault (List (String × Json))
  | [] => .ok []
  | f :: fs => match f.absence with
    | .filled j => (fillList title found size fs).map ((f.name, j) :: ·)
    | _ => .error (wrongLength found title size)

/-- All fields in order, from those that were there. -/
def fillObject (seen : List (String × Json)) : List Field →
    Except DecodeFault (List (String × Json))
  | [] => .ok []
  | f :: fs =>
    match seen.lookup f.name, f.absence with
    | some j, _ => (fillObject seen fs).map ((f.name, j) :: ·)
    | none, .filled j => (fillObject seen fs).map ((f.name, j) :: ·)
    | none, .null => (fillObject seen fs).map ((f.name, .null) :: ·)
    | none, .refused => .error (.shape ("missing field " ++ Text.ticked f.name))

/-- A nullable field that is null, if it is. -/
def nullFor (f : Field) (r : Reading) : Bool :=
  match r with
  | .null => f.nullable
  | _ => false

mutual

/-- The value that a reading says, in the layout of the schema. -/
def check (r : Reading) (s : Schema) : Except DecodeFault Json :=
  match r, s with
  | r, .whole title limit => r.checkWhole title limit
  | r, .flag => r.checkFlag
  | r, .text title normal => r.checkText title normal
  | .list items, .list item => (checkItems items item).map .list
  | r, .list _ => .error (r.unexpected "a sequence")
  | .list items, .record title fields =>
    (checkFields items title fields.length 0 fields).map .object
  | .object members, .record _ fields => (checkMembers members fields []).map .object
  | r, .record title _ => .error (r.unexpected title)
  | .text (.ok name) _, .choice variants => checkName variants name
  | .text (.error p) _, .choice _ => .error (.text p)
  | .object members, .choice variants => checkVariant members variants
  | .broken p, .choice _ => .error (.text p)
  | _, .choice _ => .error (.text .malformed)

def checkItems (items : Items) (item : Schema) : Except DecodeFault (List Json) :=
  match items with
  | .stop none => .ok []
  | .stop (some p) => .error (.text p)
  | .more r rest => match check r item with
    | .error e => .error e
    | .ok j => (checkItems rest item).map (j :: ·)

/-- Checks items against fields in order. -/
def checkFields (items : Items) (title : String) (size found : Nat) (fields : List Field) :
    Except DecodeFault (List (String × Json)) :=
  match items, fields with
  | items, [] => match checkEnd items with
    | .ok () => .ok []
    | .error e => .error e
  | .stop none, f :: fs => fillList title found size (f :: fs)
  | .stop (some p), _ :: _ => .error (.text p)
  | .more r rest, f :: fs =>
    if nullFor f r then
      (checkFields rest title size (found + 1) fs).map ((f.name, .null) :: ·)
    else match check r f.schema with
      | .error e => .error e
      | .ok j => (checkFields rest title size (found + 1) fs).map ((f.name, j) :: ·)

/-- Checks members against the fields of their names, after those that were seen. -/
def checkMembers (members : Members) (fields : List Field) (seen : List (String × Json)) :
    Except DecodeFault (List (String × Json)) :=
  match members with
  | .stop none => fillObject seen fields
  | .stop (some p) => .error (.text p)
  | .more (.text (.ok name) _) r rest =>
    match fields.find? (·.name == name) with
    | none => match r.skip with
      | some p => .error (.text p)
      | none => checkMembers rest fields seen
    | some f =>
      if (seen.lookup name).isSome then
        .error (.shape ("duplicate field " ++ Text.ticked name))
      else if nullFor f r then checkMembers rest fields ((name, .null) :: seen)
      else match check r f.schema with
        | .error e => .error e
        | .ok j => checkMembers rest fields ((name, j) :: seen)
  | .more (.text (.error p) _) _ _ => .error (.text p)
  | .more _ _ _ => .error (.text .malformed)

/-- Checks an object whose only member is named for a variant. -/
def checkVariant (members : Members) (variants : List Variant) : Except DecodeFault Json :=
  match members with
  | .stop none => .error (.text .malformed)
  | .stop (some p) => .error (.text p)
  | .more (.text (.ok name) _) r rest =>
    match variants.find? (·.name == name) with
    | none => .error (unknownVariant name variants)
    | some (.bare name) => match r.checkNull with
      | .error e => .error e
      | .ok () => match checkLast rest with
        | .error e => .error e
        | .ok () => .ok (.text name)
    | some (.holding name content) => match check r content with
      | .error e => .error e
      | .ok j => match checkLast rest with
        | .error e => .error e
        | .ok () => .ok (tagged name j)
  | .more (.text (.error p) _) _ _ => .error (.text p)
  | .more _ _ _ => .error (.text .malformed)

end

end Reading

/-- The value that a whole text says. Nothing but blanks may follow it. -/
def Document.check (d : Document) (s : Schema) : Except DecodeFault Json :=
  match d.root.check s with
  | .error e => .error e
  | .ok j => if d.trailing then .error (.text .malformed) else .ok j

end PatternHooks.Json

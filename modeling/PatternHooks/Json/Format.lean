import PatternHooks.Json.Schema

/-!
Formats: how the values of a type are said in a text, and how such texts are understood. A text is
first checked against the schema; its value in the layout of the schema is then taken apart.
-/

namespace PatternHooks.Json

structure Format (α : Type) where
  schema : Schema
  encode : α → Json
  decode? : Json → Option α

namespace Format

variable {α : Type}

def write (f : Format α) (a : α) : String := String.ofList (f.encode a).render

def read (f : Format α) (text : String) : Except DecodeFault α :=
  match (Document.read text).check f.schema with
  | .error e => .error e
  | .ok j => match f.decode? j with
    | some a => .ok a
    | none => .error (.text .malformed)

/-- A value that may be missing. -/
def encodeOption (f : Format α) : Option α → Json
  | none => .null
  | some a => f.encode a

def decodeOption? (f : Format α) : Json → Option (Option α)
  | .null => some none
  | j => (f.decode? j).map some

end Format

/-- A field of an object, read by `f`. -/
def field? {α : Type} (j : Json) (key : String) (f : Json → Option α) : Option α :=
  (j.member? key).bind f

@[simp] theorem field?_cons {α : Type} (key k : String) (j : Json) (ms : List (String × Json))
    (f : Json → Option α) : (object ((k, j) :: ms)).field? key f =
      if key = k then f j else (object ms).field? key f := by
  simp only [field?, member?, List.lookup_cons]
  split <;> simp_all

/-- The limit of the sizes that a machine word holds. -/
def sizeFormat : Format Nat where
  schema := .whole "usize" (Nat.pow 2 64)
  encode := .nat
  decode? := nat?

def word32Format : Format UInt32 where
  schema := .whole "u32" (Nat.pow 2 32)
  encode n := .nat n.toNat
  decode? j := j.nat?.map UInt32.ofNat

def word8Format : Format UInt8 where
  schema := .whole "u8" (Nat.pow 2 8)
  encode n := .nat n.toNat
  decode? j := j.nat?.map UInt8.ofNat

def textFormat : Format String where
  schema := .anyText "a string"
  encode := .text
  decode? := text?

/-- Lists of values of a format. -/
def listFormat {α : Type} (f : Format α) : Format (List α) where
  schema := .list f.schema
  encode as := .list (as.map f.encode)
  decode? := listOf? f.decode?

/-- Values that are told by a name, given all of them and their names. -/
def nameFormat {α : Type} (all : List α) (name : α → String) : Format α where
  schema := .choice (all.map fun a => .bare (name a))
  encode a := .text (name a)
  decode? j := j.text?.bind fun s => all.find? (name · == s)

theorem decode?_encode_listFormat {α : Type} {f : Format α}
    (h : ∀ a, f.decode? (f.encode a) = some a) (as : List α) :
    (listFormat f).decode? ((listFormat f).encode as) = some as := by
  change (as.map f.encode).mapM f.decode? = some as
  induction as with
  | nil => rfl
  | cons a as ih => simp [List.mapM_cons, h, ih]

end PatternHooks.Json

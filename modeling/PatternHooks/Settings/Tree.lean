import PatternHooks.Number.Binary64

/-!
Settings before they are understood: trees of tables and lists whose leaves remember where they come
from. Layers are put over one another table by table, so a later layer changes only what it names.
-/

namespace PatternHooks.Settings

inductive Scalar where
  | nil
  | flag (b : Bool)
  | integer (n : Int)
  | real (x : Binary64)
  | text (s : String)
  deriving DecidableEq

inductive Tree where
  | scalar (origin : Option String) (s : Scalar)
  | list (origin : Option String) (items : List Tree)
  | table (origin : Option String) (members : List (String × Tree))
  deriving Inhabited

namespace Tree

/-- What stands where nothing has been set. -/
def nil : Tree := .scalar none .nil

def empty : Tree := .table none []

def origin : Tree → Option String
  | scalar origin _ => origin
  | list origin _ => origin
  | table origin _ => origin

def members : Tree → List (String × Tree)
  | table _ members => members
  | _ => []

def member? (t : Tree) (key : String) : Option Tree := t.members.lookup key

/-- Sets a member where it stands, or at the end. -/
def setMember (key : String) (t : Tree) : List (String × Tree) → List (String × Tree)
  | [] => [(key, t)]
  | (k, s) :: ms => if k = key then (k, t) :: ms else (k, s) :: setMember key t ms

/-- The table with a member set. What is no table gives way to a new one. -/
def insert (t : Tree) (key : String) (child : Tree) : Tree :=
  match t with
  | table origin members => .table origin (setMember key child members)
  | _ => .table none [(key, child)]

theorem lookup_cons_eq (k key : String) (t : Tree) (ms : List (String × Tree)) :
    ((key, t) :: ms).lookup k = if k = key then some t else ms.lookup k := by
  by_cases h : k = key
  · subst h
    simp
  · rw [List.lookup_cons, if_neg h, beq_false_of_ne h]

@[simp] theorem lookup_setMember (key k : String) (t : Tree) (ms : List (String × Tree)) :
    (setMember key t ms).lookup k = if k = key then some t else ms.lookup k := by
  induction ms with
  | nil => exact lookup_cons_eq k key t []
  | cons m ms ih =>
    obtain ⟨name, s⟩ := m
    by_cases hname : name = key
    · subst hname
      by_cases hk : k = name <;> simp [setMember, lookup_cons_eq, hk]
    · by_cases hk : k = name
      · subst hk
        simp [setMember, hname]
      · simp [setMember, lookup_cons_eq, hname, hk, ih]

/-- A member that was set is there, and the others are as they were. -/
@[simp] theorem member?_insert (t child : Tree) (key k : String) :
    (t.insert key child).member? k = if k = key then some child else t.member? k := by
  cases t with
  | table origin ms => simp [insert, member?, members]
  | scalar origin s => simp [insert, member?, members, lookup_cons_eq]
  | list origin items => simp [insert, member?, members, lookup_cons_eq]

mutual

/-- Puts the second tree over the first. Tables keep the members that the other does not name. -/
def merge (under : Tree) : Tree → Tree
  | table _ members =>
    match under with
    | table origin old => mergeMembers (.table origin old) members
    | _ => mergeMembers .empty members
  | top => top

def mergeMembers (under : Tree) : List (String × Tree) → Tree
  | [] => under
  | (key, top) :: members =>
    mergeMembers (under.insert key (merge ((under.member? key).getD .nil) top)) members

end

/-- The items with a place for the index, and its position. An index below zero counts from the end;
beyond either end empty places are added. -/
def reach (items : List Tree) (index : Int) : List Tree × Nat :=
  if 0 ≤ index then
    (items ++ List.replicate (index.toNat + 1 - items.length) nil, index.toNat)
  else if index.natAbs ≤ items.length then (items, items.length - index.natAbs)
  else (List.replicate (index.natAbs - items.length) nil ++ items, 0)

/-- The list with the item at an index changed. What is no list gives way to a new one. -/
def modifyItem (t : Tree) (index : Int) (f : Tree → Tree) : Tree :=
  match t with
  | list origin items =>
    let (items, n) := reach items index
    .list origin (items.modify n f)
  | _ =>
    let (items, n) := reach [] index
    .list none (items.modify n f)

end Tree

/-- A way into a tree is made of keys of tables and indices of lists. -/
inductive Step where
  | key (name : String)
  | index (i : Int)
  deriving DecidableEq

namespace Tree

/-- Changes what stands at the end of a path, making the way there. -/
def modify (f : Tree → Tree) : List Step → Tree → Tree
  | [], t => f t
  | .key name :: path, t => t.insert name (modify f path ((t.member? name).getD .nil))
  | .index i :: path, t => t.modifyItem i (modify f path)

/-- Puts a tree over what stands at the end of a path. -/
def put (t : Tree) (path : List Step) (top : Tree) : Tree := modify (·.merge top) path t

@[simp] theorem put_nil (t top : Tree) : t.put [] top = t.merge top := rfl

@[simp] theorem put_key (t top : Tree) (name : String) (path : List Step) :
    t.put (.key name :: path) top = t.insert name (((t.member? name).getD .nil).put path top) :=
  rfl

@[simp] theorem merge_scalar (t : Tree) (origin : Option String) (s : Scalar) :
    t.merge (.scalar origin s) = .scalar origin s := by
  simp [merge]

/-- A table put over a table is put over it one member after another. -/
@[simp] theorem mergeMembers_cons (t top : Tree) (key : String) (ms : List (String × Tree)) :
    t.mergeMembers ((key, top) :: ms) = (t.put [.key key] top).mergeMembers ms := by
  simp [mergeMembers]

end Tree

end PatternHooks.Settings

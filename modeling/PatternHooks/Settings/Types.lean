/-!
Settings: what a registry does with a key that is taken, whether a failing hook ends its dispatch,
and how the journal is shown.
-/

namespace PatternHooks

/-- What happens to a second registration of a key. -/
inductive DuplicatePolicy where
  | reject
  | replace
  deriving DecidableEq

def DuplicatePolicy.name : DuplicatePolicy → String
  | reject => "reject"
  | replace => "replace"

structure HookSettings where
  onDuplicate : DuplicatePolicy := .reject
  fatalErrors : Bool := true
  deriving DecidableEq

structure LogSettings where
  level : String := "info"
  format : String := "pretty"
  deriving DecidableEq

structure Settings where
  hooks : HookSettings := {}
  logging : LogSettings := {}
  deriving DecidableEq

end PatternHooks

import PatternHooks.Scope
import PatternHooks.World

/-!
The host of a pipeline: it makes the world its hooks live in, finds hooks that must be there, and
empties the registry when the pipeline shuts down.
-/

namespace PatternHooks.Host

variable {η σ : Type}

def initialized (settings : HookSettings) : Record :=
  Reporter.host.record .info "Hook host initialized"
    [("on_duplicate", .text settings.onDuplicate.name),
      ("fatal_errors", .flag settings.fatalErrors)]

/-- A world without hooks, under the policy of the settings. -/
def initial (settings : HookSettings) (own : σ) : World η σ :=
  ({ registry := .empty settings.onDuplicate, own } : World η σ).write (initialized settings)

/-- The entry of a key that must have one. -/
def require (w : World η σ) (key : String) : Except Fault (Entry η) :=
  match w.registry.lookup key with
  | some entry => .ok entry
  | none => .error ⟨.notFound, "No hooks registered for key '" ++ key ++ "'", []⟩

def wasShutDown (removed : Nat) : Record :=
  Reporter.host.record .info "Hook host shut down" [("removed", .count removed)]

/-- Empties the registry, and tells how many entries were removed. -/
def shutdown (w : World η σ) : Nat × World η σ :=
  let (n, w) := w.clear
  (n, w.write (wasShutDown n))

end PatternHooks.Host

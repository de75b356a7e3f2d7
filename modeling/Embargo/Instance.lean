import Embargo.Controller.State

/-!
# The shared controller

Layers that have no place to keep a controller share one.  It is made on first use, from the
environment variables; variables that make no sense are reported, and the defaults taken.

* `Instance` — a controller's configuration, with a number that no other instance has;
* `Holder.get` — the shared instance, made on first use.
-/

namespace Embargo

/-- An instance of the controller. -/
structure Instance where
  number : Nat
  config : Config
  deriving DecidableEq

/-- The state in which an instance starts. -/
def Instance.state (_ : Instance) : State Unit :=
  .initial .disabled ()

/-- Where the shared instance is kept. -/
structure Holder where
  held : Option Instance := none
  /-- How many instances have been made. -/
  made : Nat := 0
  /-- The notices that making them led to. -/
  notices : List Notice := []

namespace Holder

/-- Makes an instance from the variables of the environment. -/
def make (h : Holder) (interval? retries? : Option ByteArray) : Instance × Holder :=
  let (config, notices) :=
    match Config.ofEnvironment interval? retries? with
    | .ok c => (c, [])
    | .error f => ({}, [.configRefused f.error])
  let i : Instance := ⟨h.made, config⟩
  (i, { held := some i, made := h.made + 1, notices := h.notices ++ notices })

/-- The shared instance; the first use makes it. -/
def get (h : Holder) (interval? retries? : Option ByteArray) : Instance × Holder :=
  match h.held with
  | some i => (i, h)
  | none => h.make interval? retries?

end Holder

end Embargo

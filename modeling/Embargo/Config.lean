import Embargo.Duration
import Embargo.Error
import Embargo.Json.Read
import Embargo.Text.Blank
import Embargo.Text.Digits

/-!
# Configuration

How often, and how many times, the broker is asked whether a consumer has left its group.

* `Config` — interval and number of polls;
* `Config.validate` — neither may be zero;
* `Config.ofVariables` — the defaults, overridden from two environment variables;
* `Config.window?` — how long a suspension can stay unconfirmed.
-/

namespace Embargo

/-- How group exits are confirmed. -/
structure Config where
  /-- Milliseconds between two polls. -/
  intervalMs : UInt64 := 1000
  /-- Polls before the suspension is rolled back. -/
  maxRetries : UInt32 := 5
  deriving DecidableEq, Repr, Inhabited

namespace Config

/-- The environment variable for the interval. -/
def intervalVariable : String := "PROHIBITION_CONFIRM_INTERVAL_MS"

/-- The environment variable for the number of polls. -/
def retriesVariable : String := "PROHIBITION_CONFIRM_MAX_RETRIES"

/-- Why a configuration is refused. -/
inductive Fault where
  | notANumber (name value : String)
  | zeroInterval
  | zeroRetries
  deriving DecidableEq, Repr

/-- A fault in words. -/
def Fault.message : Fault → String
  | .notANumber name value => name ++ " is not a number: " ++ value
  | .zeroInterval => "confirm_interval_ms must be greater than zero"
  | .zeroRetries => "confirm_max_retries must be greater than zero"

/-- A fault as an error. -/
def Fault.error (f : Fault) : Error :=
  .config f.message

/-- Refuses numbers that would make the confirmation meaningless. -/
def validate (c : Config) : Except Fault Unit :=
  if c.intervalMs = 0 then .error .zeroInterval
  else if c.maxRetries = 0 then .error .zeroRetries
  else .ok ()

theorem validate_eq_ok {c : Config} :
    c.validate = .ok () ↔ c.intervalMs ≠ 0 ∧ c.maxRetries ≠ 0 := by
  rw [validate]
  split
  · rename_i hzero
    exact ⟨fun h => (nomatch h), fun h => absurd hzero h.1⟩
  · rename_i hinterval
    split
    · rename_i hzero
      exact ⟨fun h => (nomatch h), fun h => absurd hzero h.2⟩
    · rename_i hretries
      exact ⟨fun _ => ⟨hinterval, hretries⟩, fun _ => rfl⟩

/-- The number of a text of ASCII digits, which may have one plus sign in front. -/
def natural? (cs : List Char) : Option Nat :=
  let ds := if cs.head? = some '+' then cs.tail else cs
  if ds.isEmpty || !ds.all Char.isDigit then none else some (Text.naturalOf ds)

/-- The number that a value holds between blanks, where it is below `bound`. -/
def numberOf? (value : String) (bound : Nat) : Option Nat :=
  (natural? (Text.trimChars value.toList)).filter (· < bound)

/-- The number of a variable that may be unset. -/
def overridden (name : String) (value? : Option String) (default bound : Nat) :
    Except Fault Nat :=
  match value? with
  | none => .ok default
  | some v =>
      match numberOf? v bound with
      | some n => .ok n
      | none => .error (.notANumber name v)

/-- The configuration of two variables, each of which may be unset. -/
def ofVariables (interval? retries? : Option String) : Except Fault Config :=
  match overridden intervalVariable interval? 1000 UInt64.size with
  | .error f => .error f
  | .ok i =>
      match overridden retriesVariable retries? 5 UInt32.size with
      | .error f => .error f
      | .ok r =>
          let c : Config := { intervalMs := UInt64.ofNat i, maxRetries := UInt32.ofNat r }
          match c.validate with
          | .error f => .error f
          | .ok () => .ok c

/-- The configuration of an environment, which holds bytes: a variable that is not valid UTF-8
counts as unset. -/
def ofEnvironment (interval? retries? : Option ByteArray) : Except Fault Config :=
  ofVariables (interval?.bind String.fromUTF8?) (retries?.bind String.fromUTF8?)

/-- The time between two polls. -/
def interval (c : Config) : Duration :=
  .ofMillis c.intervalMs

/-- How long a suspension can stay unconfirmed, unless that overflows. -/
def window? (c : Config) : Option Duration :=
  c.interval.times? c.maxRetries

/-! ### Documents -/

/-- The members of a configuration document. -/
def members : List (Json.Member Config) :=
  [{ name := "confirm_interval_ms"
     read := fun c cs =>
       match Json.unsigned 64 cs with
       | .error e => .error e
       | .ok (n, r) => .ok ({ c with intervalMs := UInt64.ofNat n }, r) },
   { name := "confirm_max_retries"
     read := fun c cs =>
       match Json.unsigned 32 cs with
       | .error e => .error e
       | .ok (n, r) => .ok ({ c with maxRetries := UInt32.ofNat n }, r) }]

/-- Reads a configuration; missing members have their defaults. -/
def reader : Json.Reader Config := fun cs =>
  match Json.record "ControllerConfig" members {} cs with
  | .error e => .error e
  | .ok (g, r) => .ok (g.value, r)

end Config

end Embargo

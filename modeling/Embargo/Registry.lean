import Embargo.Client

/-!
# Registries

What is known about live consumers, by their identities.  The first one to register under an
identity stays until it is removed.

* `Registry` — the type; `register`, `lookup`, `remove` — its operations;
* `Registry.toList` — the registered ones, by identity.
-/

namespace Embargo

/-- Values by the identities of the consumers they belong to. -/
structure Registry (α : Type) where
  entries : ConsumerMap α := ∅

namespace Registry

variable {α : Type}

/-- The empty registry. -/
def empty : Registry α := {}

instance : Inhabited (Registry α) := ⟨empty⟩

/-- What is registered under an identity. -/
def lookup (r : Registry α) (id : ConsumerId) : Option α :=
  r.entries[id]?

/-- Registers a value, unless one is registered already: then that one. -/
def register (r : Registry α) (id : ConsumerId) (a : α) : Option α × Registry α :=
  match r.lookup id with
  | some present => (some present, r)
  | none => (none, { entries := r.entries.insert id a })

/-- Removes what is registered under an identity. -/
def remove (r : Registry α) (id : ConsumerId) : Option α × Registry α :=
  (r.lookup id, { entries := r.entries.erase id })

/-- Puts a new value in the place of the registered one. -/
def replace (r : Registry α) (id : ConsumerId) (a : α) : Registry α :=
  { entries := r.entries.insert id a }

/-- Whether anything is registered under an identity. -/
def contains (r : Registry α) (id : ConsumerId) : Bool :=
  r.entries.contains id

/-- How many are registered. -/
def size (r : Registry α) : Nat :=
  r.entries.size

/-- Whether none is registered. -/
def isEmpty (r : Registry α) : Bool :=
  r.entries.isEmpty

/-- The identities in use, in order. -/
def ids (r : Registry α) : List ConsumerId :=
  r.entries.keys

/-- The registered ones, by identity. -/
def toList (r : Registry α) : List (ConsumerId × α) :=
  r.entries.toList

/-! ### Look-ups after each operation -/

theorem lookup_empty (id : ConsumerId) : (empty : Registry α).lookup id = none := by
  simp [lookup, empty]

theorem lookup_replace (r : Registry α) (id id' : ConsumerId) (a : α) :
    (r.replace id a).lookup id' = if id = id' then some a else r.lookup id' := by
  simp [lookup, replace, Std.ExtTreeMap.getElem?_insert]

/-- Of two values put in the same place the second one stays. -/
theorem replace_replace (r : Registry α) (id : ConsumerId) (a b : α) :
    (r.replace id a).replace id b = r.replace id b := by
  refine congrArg Registry.mk (Std.ExtTreeMap.ext_getElem? fun id' => ?_)
  simp only [replace, Std.ExtTreeMap.getElem?_insert]
  split <;> rfl

theorem lookup_remove (r : Registry α) (id id' : ConsumerId) :
    (r.remove id).2.lookup id' = if id = id' then none else r.lookup id' := by
  simp [lookup, remove, Std.ExtTreeMap.getElem?_erase]

theorem lookup_register (r : Registry α) (id id' : ConsumerId) (a : α) :
    (r.register id a).2.lookup id' =
      if id = id' then some ((r.lookup id).getD a) else r.lookup id' := by
  unfold register
  cases h : r.lookup id with
  | some b =>
    by_cases e : id = id'
    · subst e; simp [h]
    · simp [e]
  | none => simp [lookup, Std.ExtTreeMap.getElem?_insert]

/-! ### Identities in use -/

theorem mem_ids {r : Registry α} {id : ConsumerId} : id ∈ r.ids ↔ (r.lookup id).isSome := by
  rw [ids, lookup, Std.ExtTreeMap.mem_keys, Std.ExtTreeMap.isSome_getElem?_iff_mem]

theorem nodup_ids (r : Registry α) : r.ids.Nodup :=
  r.entries.nodup_keys

end Registry

end Embargo

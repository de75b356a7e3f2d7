import Embargo.Environment

/-!
# Programs of calls

A transition of a consumer is a program: it makes calls into the client, one after the other, and
goes on with what they return, reporting as it goes.  A program says nothing about how the calls
are answered, or about the hooks that clients deliver in the meantime; that is up to what it runs
in.

* `Program` — programs with a result;
* `Program.perform` — makes a call;
* `Program.controllerCall` — the same in the controller's own scope, which each call site asks for;
* `Program.Subject` — whom a program runs for.
-/

namespace Embargo

/-- Calls into one client, with notices between them. -/
inductive Program (α : Type) where
  | done (a : α)
  | note (n : Notice) (rest : Program α)
  /-- A command, and whether it is called in the controller's own scope. -/
  | call (own : Bool) (c : Command) (next : Except Error Unit → Program α)

namespace Program

variable {α β : Type}

/-- One program after another. -/
def bind : Program α → (α → Program β) → Program β
  | .done a, f => f a
  | .note n rest, f => .note n (rest.bind f)
  | .call own c next, f => .call own c fun r => (next r).bind f

instance : Monad Program where
  pure := .done
  bind := bind

/-- Reports. -/
def report (n : Notice) : Program Unit := .note n (.done ())

/-- Makes a call. -/
def perform (c : Command) : Program (Except Error Unit) := .call false c .done

/-- Does the same in the controller's own scope: hooks that are delivered from inside its calls are
recognized as the controller's own doing.  The scope ends with the calls. -/
def controllerCall : Program α → Program α
  | .done a => .done a
  | .note n rest => .note n rest.controllerCall
  | .call _ c next => .call true c fun r => (next r).controllerCall

/-- Reports the failure of a call whose outcome does not matter otherwise. -/
def reportFailure (n : Error → Notice) : Except Error Unit → Program Unit
  | .error e => report (n e)
  | .ok () => .done ()

@[simp] theorem pure_eq (a : α) : (pure a : Program α) = .done a := rfl

@[simp] theorem bind_eq (p : Program α) (f : α → Program β) : p >>= f = p.bind f := rfl

@[simp] theorem bind_done (a : α) (f : α → Program β) : (Program.done a).bind f = f a := rfl

@[simp] theorem bind_note (n : Notice) (p : Program α) (f : α → Program β) :
    (Program.note n p).bind f = .note n (p.bind f) := rfl

@[simp] theorem bind_call (own : Bool) (c : Command) (k : Except Error Unit → Program α)
    (f : α → Program β) :
    (Program.call own c k).bind f = .call own c fun r => (k r).bind f := rfl

@[simp] theorem controllerCall_perform (c : Command) :
    controllerCall (perform c) = .call true c .done := rfl

/-- The consumer that a program runs for: its client, and the how-many-eth one under its identity
it is. -/
structure Subject where
  client : Client
  life : Nat

end Program

end Embargo

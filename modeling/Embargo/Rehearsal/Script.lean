import Embargo.Environment

/-!
# Scripted clients

To rehearse a controller one needs clients that behave as they are told.

* `Part` — how one client behaves: which calls fail, what the broker lists, which hooks it delivers
  while it is called;
* `Script` — the parts of all clients, by their handles;
* `Script.environment` — scripted clients as an environment.
-/

namespace Embargo.Rehearsal

/-- A call that is told to fail. -/
structure Failure where
  message : String
  /-- How many times it fails still; without a number it fails every time. -/
  times : Option Nat
  deriving DecidableEq, Repr

/-- How one client behaves. -/
structure Part where
  /-- The operations that fail. -/
  failures : Std.ExtTreeMap String Failure := ∅
  /-- Whether the broker lists the client for every topic, member or not. -/
  sticky : Bool := false
  /-- The topics for which the broker lists the client, member or not. -/
  stickyTopics : TopicSet := ∅
  /-- The member lists that the broker answers with, one after the other, the last one for good. -/
  members : Std.ExtTreeMap String (List (List String)) := ∅
  /-- The hooks that are delivered from inside an operation. -/
  reentered : Std.ExtTreeMap String (List Hook) := ∅
  /-- Whether the client is a member of its group. -/
  registered : Bool := true

/-- The parts of all clients, by their handles. -/
structure Script where
  parts : Std.ExtTreeMap String Part := ∅

namespace Script

/-- The part of a client. -/
def part (s : Script) (handle : String) : Part :=
  s.parts.getD handle {}

/-- The script with another part for a client. -/
def withPart (s : Script) (handle : String) (p : Part) : Script :=
  { parts := s.parts.insert handle p }

end Script

namespace Part

/-- Whether an operation fails now, and the part after that. -/
def attempt (p : Part) (operation : String) : Option Error × Part :=
  match p.failures[operation]? with
  | none => (none, p)
  | some f =>
      let error := Error.broker operation f.message
      match f.times with
      | none => (some error, p)
      | some 0 => (none, p)
      | some (n + 1) =>
          (some error, { p with failures := p.failures.insert operation ⟨f.message, some n⟩ })

/-- The hooks that are delivered from inside an operation. -/
def hooks (p : Part) (operation : String) : List Hook :=
  p.reentered.getD operation []

/-- The effect of a command on the membership of the client. -/
def effect (p : Part) : Command → Part
  | .unregister _ => { p with registered := false }
  | .register _ => { p with registered := true }
  | _ => p

/-- The member that is always there. -/
def otherMember : String := "10.0.0.9@other"

/-- The members that the broker lists for a topic, and the part after that. -/
def list (p : Part) (clientId topic : String) : List String × Part :=
  match p.members[topic]? with
  | some [] => ([], p)
  | some [l] => (l, p)
  | some (l :: ls) => (l, { p with members := p.members.insert topic ls })
  | none =>
      if p.registered || p.sticky || p.stickyTopics.contains topic then
        ([otherMember, clientId], p)
      else ([otherMember], p)

end Part

/-- Scripted clients as an environment. -/
def Script.environment : Environment Script where
  command s _ client c :=
    match (s.part client.handle).attempt c.name with
    | (some e, p) => { result := .error e, delivered := [], memory := s.withPart client.handle p }
    | (none, p) =>
        { result := .ok ()
          delivered := p.hooks c.name
          memory := s.withPart client.handle (p.effect c) }
  query s _ client topic group :=
    let operation := (Call.findMembers topic group).name
    match (s.part client.handle).attempt operation with
    | (some e, p) => (.error e, s.withPart client.handle p)
    | (none, p) => (.ok (p.hooks operation), s.withPart client.handle p)
  members s _ client topic _ :=
    let (l, p) := (s.part client.handle).list client.clientId topic
    (l, s.withPart client.handle p)

end Embargo.Rehearsal

import Embargo.Proofs.Numerals
import Embargo.Proofs.Routes
import Embargo.Wire

/-!
# What is written is read back

Identities, kinds, modes, states, queues and policies are written as texts and read from them again.
Nothing is lost on the way, whatever the characters of a name and however large a number; only the
reader of whole policies cleans the topic names.

* `Json.ReadsBack` — a reader reads what a writer wrote, and stops behind it;
* `Json.string_readsBack`, `Json.variant_readsBack`, `Queue.readsBack` — strings, names of variants
  and records do, each from the ones before;
* `Policy.normalized_eq_iff` — the policies that need no cleaning;
* `wire_forms_round_trip` — **whatever is written is read back**.
-/

namespace Embargo

/-! ### Values -/

namespace Json

/-- What was written is read back, if nothing follows that a numeral could go on with. -/
def ReadsBack {α : Type} (read : Reader α) (write : α → List Char) : Prop :=
  ∀ a rest, Stops rest → bare (read (write a ++ rest)) = .ok (a, rest)

section Values

variable {α : Type} {read : Reader α} {write : α → List Char} {rest : List Char}

theorem ReadsBack.parse_text (h : ReadsBack read write) (a : α) :
    parse read (text (write a)) = .ok a := by
  have hread := h a [] stops_nil
  rw [List.append_nil] at hread
  rw [parse, text, String.toList_ofList]
  exact parseChars_of_bare hread .done

theorem Reader.Reads.readsBack {spells : α → List Char → List Char → Prop} (h : read.Reads spells)
    (hwrite : ∀ a rest, Stops rest → spells a (write a ++ rest) rest) : ReadsBack read write :=
  fun a rest hrest => bare_eq_ok_iff.2 (h.reads .done (hwrite a rest hrest))

theorem string_readsBack : ReadsBack string quote :=
  string_reads.readsBack fun s rest _ => spellsString_quote s rest

theorem bare_unsigned_natural (bits : Nat) {n : Nat} (hbits : Nat.pow 2 bits ≤ UInt64.size)
    (hn : n < Nat.pow 2 bits) (hrest : Stops rest) :
    bare (unsigned bits (natural n ++ rest)) = .ok (n, rest) :=
  bare_eq_ok_iff.2 ((unsigned_reads hbits).reads .done ⟨hn, .written hrest⟩)

/-- A variant is read by its name, if it is the first of that name. -/
theorem variant_reads {known : List (String × α)} {name : α → String}
    (hknown : ∀ a, (known.find? fun k => k.1 = name a) = some (name a, a)) :
    (variant known).Reads fun a => SpellsString (name a) where
  starts := by
    rintro a _ rest ⟨h⟩
    exact ⟨_, _, rfl, by decide, by decide⟩
  reads := by
    rintro a cs _ rest hblanks ⟨h⟩
    obtain ⟨hle, hskip⟩ := skipBlanks_of_blanks hblanks (by decide)
    obtain ⟨hlt, hbody⟩ := stringBody_of_spells h
    refine ⟨length_lt_of_cons_of_lt hle hlt, ?_⟩
    simp only [variant, hskip, if_true, hbody, String.ofList_toList, choose, hknown]

theorem variant_readsBack {known : List (String × α)} {name : α → String}
    (hknown : ∀ a, (known.find? fun k => k.1 = name a) = some (name a, a)) :
    ReadsBack (variant known) fun a => quote (name a) :=
  (variant_reads hknown).readsBack fun a rest _ => spellsString_quote (name a) rest

end Values

end Json

open Json (ReadsBack bare)

/-! ### Identities and enumerations -/

theorem ConsumerId.readsBack : ReadsBack reader write := by
  intro id rest hrest
  have hraw := Json.bare_unsigned_natural 64 (by decide) id.raw.toNat_lt hrest
  obtain ⟨hlt, hraw⟩ := Json.bare_eq_ok_iff.1 hraw
  simp only [reader, write, hraw, UInt64.ofNat_toNat]
  rfl

theorem ConsumerKind.readsBack : ReadsBack reader write :=
  Json.variant_readsBack fun k => by cases k <;> rfl

theorem Mode.readsBack : ReadsBack reader write :=
  Json.variant_readsBack fun m => by cases m <;> rfl

theorem Membership.readsBack : ReadsBack reader write :=
  Json.variant_readsBack fun m => by cases m <;> rfl

/-! ### Queues -/

namespace Queue

theorem write_append (q : Queue) (rest : List Char) : q.write ++ rest =
    '\x7b' :: (Json.quote "topic" ++ ':' :: (Json.quote q.topic ++
      ',' :: (Json.quote "broker_name" ++ ':' :: (Json.quote q.broker ++
        ',' :: (Json.quote "queue_id" ++ ':' :: (Json.natural q.number.toNat ++
          '\x7d' :: rest)))))) := by
  simp [write, Json.object, Json.commaSeparated]

theorem bare_reader {g : Json.Gathered Queue} {cs rest : List Char}
    (hrecord : bare (Json.record "MessageQueue" members default cs) = .ok (g, rest))
    (hlacking : g.lacking? "MessageQueue" members = none) :
    bare (reader cs) = .ok (g.value, rest) := by
  obtain ⟨hlt, hrecord⟩ := Json.bare_eq_ok_iff.1 hrecord
  simp only [reader, hrecord, hlacking]
  rfl

section Members

variable {v : Queue} {names : List String} {r : List Char}

theorem stops_comma (r : List Char) : Json.Stops (',' :: r) :=
  Json.stops_cons.2 (by decide)

theorem members_topic (t : String) (hnew : "topic" ∉ names) :
    bare (Json.members members v names true
      (Json.quote "topic" ++ ':' :: (Json.quote t ++ ',' :: r))) =
    bare (Json.members members { v with topic := t } ("topic" :: names) false (',' :: r)) := by
  obtain ⟨hlt, hread⟩ := Json.bare_eq_ok_iff.1 (Json.string_readsBack t _ (stops_comma r))
  have hfind : (members.find? fun m => m.name = "topic") = some _ := rfl
  refine Json.members_of_known (Json.spellsName_quote _ _) hfind hnew ?_
  simp only [hread]
  rfl

theorem members_broker (b : String) (hnew : "broker_name" ∉ names) :
    bare (Json.members members v names false
      (',' :: (Json.quote "broker_name" ++ ':' :: (Json.quote b ++ ',' :: r)))) =
    bare (Json.members members { v with broker := b } ("broker_name" :: names) false
      (',' :: r)) := by
  obtain ⟨hlt, hread⟩ := Json.bare_eq_ok_iff.1 (Json.string_readsBack b _ (stops_comma r))
  have hfind : (members.find? fun m => m.name = "broker_name") = some _ := rfl
  refine Json.members_of_known (Json.spellsName_comma_quote _ _) hfind hnew ?_
  simp only [hread]
  rfl

theorem members_number (n : UInt32) (hnew : "queue_id" ∉ names) :
    bare (Json.members members v names false
      (',' :: (Json.quote "queue_id" ++ ':' :: (Json.natural n.toNat ++ '\x7d' :: r)))) =
    bare (Json.members members { v with number := n } ("queue_id" :: names) false
      ('\x7d' :: r)) := by
  have hend : Json.Stops ('\x7d' :: r) := Json.stops_cons.2 (by decide)
  obtain ⟨hlt, hread⟩ := Json.bare_eq_ok_iff.1
    (Json.bare_unsigned_natural 32 (by decide) n.toNat_lt hend)
  have hfind : (members.find? fun m => m.name = "queue_id") = some _ := rfl
  refine Json.members_of_known (Json.spellsName_comma_quote _ _) hfind hnew ?_
  simp only [hread, UInt32.ofNat_toNat]
  rfl

end Members

/-- **A queue is read back**, whatever its names are made of. -/
theorem readsBack : ReadsBack reader write := by
  intro q rest _
  have hmembers : bare (Json.record "MessageQueue" members default (q.write ++ rest)) =
      .ok (⟨q, ["queue_id", "broker_name", "topic"], false⟩, rest) := by
    rw [write_append, Json.record_of_braced _ _ _ .done, members_topic _ (by decide),
      members_broker _ (by decide), members_number _ (by decide),
      Json.members_of_closed _ _ _ _ .done]
  exact bare_reader hmembers rfl

end Queue

/-! ### Policies -/

namespace Policy

/-- **A policy needs no cleaning** exactly when none of its topic names is empty or has blanks at
its ends. -/
theorem normalized_eq_iff {p : Policy} :
    p.normalized = p ↔ ∀ t ∈ p.topics, t ≠ "" ∧ Text.trim t = t := by
  constructor
  · intro h t ht
    rw [← h, mem_normalized] at ht
    obtain ⟨hne, u, -, rfl⟩ := ht
    exact ⟨hne, Text.trim_trim u⟩
  · intro h
    have htopics : p.normalized.topics = p.topics := by
      refine Std.ExtTreeSet.ext_mem fun t => ?_
      rw [mem_normalized]
      constructor
      · rintro ⟨-, u, hu, rfl⟩
        rwa [(h u hu).2]
      · intro ht
        exact ⟨(h t ht).1, t, ht, (h t ht).2⟩
    exact congrArg (Policy.mk p.enabled) htopics

theorem parse_documentChars (p : Policy) {names : List String}
    (hnames : ∀ t, t ∈ names ↔ t ∈ p.topics) :
    Json.parse reader (Json.text (documentChars p.enabled names)) = .ok p :=
  parse_of_isDocument (isDocument_documentChars p hnames)

end Policy

/-- **Whatever is written is read back**: every queue, identity, kind, mode and state, and every
policy as it is, in whatever order its topics are written.  The reader of whole policies cleans the
topic names, so it gives the policy itself exactly when there is nothing to clean. -/
theorem wire_forms_round_trip :
    (∀ q : Queue, Json.parse Queue.reader (Json.text q.write) = .ok q) ∧
    (∀ id : ConsumerId, Json.parse ConsumerId.reader (Json.text id.write) = .ok id) ∧
    (∀ k : ConsumerKind, Json.parse ConsumerKind.reader (Json.text k.write) = .ok k) ∧
    (∀ m : Mode, Json.parse Mode.reader (Json.text m.write) = .ok m) ∧
    (∀ m : Membership, Json.parse Membership.reader (Json.text m.write) = .ok m) ∧
    (∀ (p : Policy) (names : List String), (∀ t, t ∈ names ↔ t ∈ p.topics) →
      Json.parse Policy.reader (Json.text (Policy.documentChars p.enabled names)) = .ok p ∧
      Policy.ofDocument (Json.text (Policy.documentChars p.enabled names)) = .ok p.normalized ∧
      (Policy.ofDocument (Json.text (Policy.documentChars p.enabled names)) = .ok p ↔
        ∀ t ∈ p.topics, t ≠ "" ∧ Text.trim t = t)) := by
  refine ⟨Queue.readsBack.parse_text, ConsumerId.readsBack.parse_text,
    ConsumerKind.readsBack.parse_text, Mode.readsBack.parse_text, Membership.readsBack.parse_text,
    fun p names hnames => ?_⟩
  have hparse := Policy.parse_documentChars p hnames
  have hread : Policy.ofDocument (Json.text (Policy.documentChars p.enabled names)) =
      .ok p.normalized := Policy.ofDocument_of_isDocument (Policy.isDocument_documentChars p hnames)
  refine ⟨hparse, hread, ?_⟩
  rw [hread, Except.ok.injEq, Policy.normalized_eq_iff]

/-- Escapes of every kind in a name, the largest numbers, and topics that are written out of order
and need cleaning. -/
theorem wire_forms_round_trip_of_limits :
    Json.parse Queue.reader
      "\x7b\"topic\":\"\\\"\\\\\\n\\u001f😀\",\"broker_name\":\"\",\"queue_id\":4294967295\x7d" =
        .ok ⟨"\"\\\n\x1f😀", "", 4294967295⟩ ∧
    Json.parse ConsumerId.reader "18446744073709551615" = .ok ⟨18446744073709551615⟩ ∧
    Policy.ofDocument "\x7b\"enabled\":true,\"prohibitedTopics\":[\"b\",\" a\"]\x7d" =
      .ok (Policy.prohibiting [" a", "b"]) := by
  obtain ⟨hqueue, hid, -, -, -, hpolicy⟩ := wire_forms_round_trip
  refine ⟨?_, ?_, ?_⟩
  · exact hqueue ⟨"\"\\\n\x1f😀", "", 4294967295⟩
  · exact hid ⟨18446744073709551615⟩
  · have hnames : ∀ t, t ∈ ["b", " a"] ↔ t ∈ TopicSet.ofList [" a", "b"] := by
      intro t
      simp [or_comm]
    exact (hpolicy ⟨true, TopicSet.ofList [" a", "b"]⟩ ["b", " a"] hnames).2.1

end Embargo

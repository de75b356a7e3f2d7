import Embargo.Policy
import Mathlib.Data.Nat.Init

/-!
# The many spellings of a document

A JSON text can say the same in many ways: with blanks between its lexemes, with escapes in its
strings, with its members in any order.  Here the grammar is told by relations between values and
texts, without any scanner, and the readers are shown to read whatever the grammar admits.

* `Blanks`, `SpellsBody`, `SpellsString`, `SpellsTruth` — the lexemes;
* `SpellsList`, `SpellsRecord`, `SpellsDocument` — lists, objects and whole texts;
* `Reader.Reads` — a reader reads all spellings of a value, whatever comes before and after them;
  `boolean_reads`, `string_reads`, `list_reads` — the readers do;
* `bare` — what was read and what follows it; `members_of_known`, `members_of_repeated`,
  `members_of_unknown` — what becomes of one member of an object;
* `members_of_spells` — records are read, member by member;
* `parseChars_of_bare`, `parseChars_of_more` — nothing may follow the value of a text;
* `Policy.IsDocument` — the documents of a policy, among them those that are written;
* `Policy.ofDocument_of_isDocument` — **a policy is read from any of its documents**.
-/

namespace Embargo

namespace Json

/-! ### The grammar -/

/-- Some blanks, and what follows them. -/
inductive Blanks : (cs rest : List Char) → Prop where
  | done {cs : List Char} : Blanks cs cs
  | more {c : Char} {cs rest : List Char} (hc : isBlank c = true) :
      Blanks cs rest → Blanks (c :: cs) rest

/-- The characters of a string, from behind its opening quotation mark: as they are, as short
escapes, or by their numbers, in two halves beyond 16 bits. -/
inductive SpellsBody : (s cs rest : List Char) → Prop where
  | closed {rest : List Char} : SpellsBody [] ('"' :: rest) rest
  | plain {c : Char} {s cs rest : List Char} (hmark : c ≠ '"') (hbackslash : c ≠ '\\')
      (hcontrol : isControl c = false) : SpellsBody s cs rest → SpellsBody (c :: s) (c :: cs) rest
  | short {c e : Char} {s cs rest : List Char} (he : simpleEscape? e = some c) :
      SpellsBody s cs rest → SpellsBody (c :: s) ('\\' :: e :: cs) rest
  | number {a b c d : Char} {n : Nat} {s cs rest : List Char} (hn : hexFour? a b c d = some n)
      (hleading : isLeading n = false) (htrailing : isTrailing n = false) :
      SpellsBody s cs rest →
        SpellsBody (Char.ofNat n :: s) ('\\' :: 'u' :: a :: b :: c :: d :: cs) rest
  | halves {a b c d a' b' c' d' : Char} {n m : Nat} {s cs rest : List Char}
      (hn : hexFour? a b c d = some n) (hleading : isLeading n = true)
      (hm : hexFour? a' b' c' d' = some m) (htrailing : isTrailing m = true) :
      SpellsBody s cs rest →
        SpellsBody (pairChar n m :: s)
          ('\\' :: 'u' :: a :: b :: c :: d :: '\\' :: 'u' :: a' :: b' :: c' :: d' :: cs) rest

/-- A string, and what follows it. -/
inductive SpellsString (s : String) : (cs rest : List Char) → Prop where
  | quoted {cs rest : List Char} (h : SpellsBody s.toList cs rest) : SpellsString s ('"' :: cs) rest

/-- A truth value, and what follows it. -/
inductive SpellsTruth : (b : Bool) → (cs rest : List Char) → Prop where
  | yes {rest : List Char} : SpellsTruth true ('t' :: 'r' :: 'u' :: 'e' :: rest) rest
  | no {rest : List Char} : SpellsTruth false ('f' :: 'a' :: 'l' :: 's' :: 'e' :: rest) rest

/-- What stands before an element of a list or an object: blanks, with a comma among them unless it
is the first one. -/
inductive Separated : (first : Bool) → (cs rest : List Char) → Prop where
  | first {cs rest : List Char} (h : Blanks cs rest) : Separated true cs rest
  | next {cs cs₁ rest : List Char} (hbefore : Blanks cs (',' :: cs₁)) (hafter : Blanks cs₁ rest) :
      Separated false cs rest

/-- The name of a member, with what stands before it and the colon behind it. -/
inductive SpellsName (first : Bool) (name : String) : (cs rest : List Char) → Prop where
  | named {cs cs₁ cs₂ rest : List Char} (hseparated : Separated first cs cs₁)
      (hname : SpellsString name cs₁ cs₂) (hcolon : Blanks cs₂ (':' :: rest)) :
      SpellsName first name cs rest

section Values

variable {α σ : Type}

/-- The elements of a list up to its end. -/
inductive SpellsElements (spells : α → List Char → List Char → Prop) :
    (first : Bool) → List α → (cs rest : List Char) → Prop where
  | closed {first : Bool} {cs rest : List Char} (h : Blanks cs (']' :: rest)) :
      SpellsElements spells first [] cs rest
  | element {first : Bool} {a : α} {as : List α} {cs cs₁ cs₂ rest : List Char}
      (hseparated : Separated first cs cs₁) (ha : spells a cs₁ cs₂) :
      SpellsElements spells false as cs₂ rest → SpellsElements spells first (a :: as) cs rest

/-- A list, and what follows it. -/
inductive SpellsList (spells : α → List Char → List Char → Prop) (as : List α) :
    (cs rest : List Char) → Prop where
  | bracketed {cs rest : List Char} (h : SpellsElements spells true as cs rest) :
      SpellsList spells as ('[' :: cs) rest

/-- The members of an object up to its end, none of them twice: `tells` says what a member makes of
a value. -/
inductive SpellsMembers (tells : String → σ → σ → List Char → List Char → Prop) :
    (first : Bool) → (names : List String) → σ → σ → (cs rest : List Char) → Prop where
  | closed {first : Bool} {names : List String} {v : σ} {cs rest : List Char}
      (h : Blanks cs ('\x7d' :: rest)) : SpellsMembers tells first names v v cs rest
  | member {first : Bool} {names : List String} {name : String} {v v₁ v' : σ}
      {cs cs₁ cs₂ cs₃ cs₄ cs₅ rest : List Char} (hnew : name ∉ names)
      (hseparated : Separated first cs cs₁) (hname : SpellsString name cs₁ cs₂)
      (hcolon : Blanks cs₂ (':' :: cs₃)) (hblanks : Blanks cs₃ cs₄)
      (htells : tells name v v₁ cs₄ cs₅) :
      SpellsMembers tells false (name :: names) v₁ v' cs₅ rest →
        SpellsMembers tells first names v v' cs rest

/-- A record, and what follows it; members that are missing are those of `initial`. -/
inductive SpellsRecord (tells : String → σ → σ → List Char → List Char → Prop) (initial v : σ) :
    (cs rest : List Char) → Prop where
  | braced {cs rest : List Char} (h : SpellsMembers tells true [] initial v cs rest) :
      SpellsRecord tells initial v ('\x7b' :: cs) rest

/-- A text that spells a value, and nothing else. -/
def SpellsDocument (spells : α → List Char → List Char → Prop) (a : α) (text : String) : Prop :=
  ∃ cs rest, Blanks text.toList cs ∧ spells a cs rest ∧ Blanks rest []

end Values

/-! ### Lexemes are read -/

theorem Blanks.dropWhile {cs rest : List Char} (h : Blanks cs rest) :
    cs.dropWhile isBlank = rest.dropWhile isBlank := by
  induction h with
  | done => rfl
  | more hc _ ih => rw [List.dropWhile_cons_of_pos hc, ih]

/-- Blanks are skipped up to the next lexeme. -/
theorem skipBlanks_of_blanks {c : Char} {cs rest : List Char} (h : Blanks cs (c :: rest))
    (hc : isBlank c = false) : ∃ hle, skipBlanks cs = ⟨c :: rest, hle⟩ := by
  have hskipped : cs.dropWhile isBlank = c :: rest := by
    rw [h.dropWhile, List.dropWhile_cons_of_neg (Bool.not_eq_true _ ▸ hc)]
  exact ⟨hskipped ▸ length_dropWhile_le isBlank cs, Subtype.ext hskipped⟩

theorem Blanks.of_eq {cs rest : List Char} (h : cs = rest) : Blanks cs rest :=
  h ▸ .done

theorem blanks_dropWhile (cs : List Char) : Blanks cs (cs.dropWhile isBlank) := by
  induction cs with
  | nil => exact .done
  | cons c cs ih =>
    by_cases hc : isBlank c = true
    · rw [List.dropWhile_cons_of_pos hc]
      exact .more hc ih
    · rw [List.dropWhile_cons_of_neg hc]
      exact .done

/-- Nothing but blanks is skipped to the end. -/
theorem skipBlanks_isEmpty_iff {cs : List Char} :
    (skipBlanks cs).val.isEmpty = true ↔ Blanks cs [] := by
  rw [List.isEmpty_iff]
  constructor
  · intro h
    exact h ▸ blanks_dropWhile cs
  · exact Blanks.dropWhile

theorem hexUnit_of_some {a b c d : Char} {n : Nat} (rest : List Char)
    (hn : hexFour? a b c d = some n) :
    ∃ hle, hexUnit (a :: b :: c :: d :: rest) = .ok (n, ⟨rest, hle⟩) := by
  refine ⟨by simp only [List.length_cons]; omega, ?_⟩
  simp only [hexUnit, hn]

theorem escape_of_short {c e : Char} (rest : List Char) (he : simpleEscape? e = some c) :
    ∃ hlt, escape (e :: rest) = .ok (c, ⟨rest, hlt⟩) := by
  refine ⟨Nat.lt_succ_self _, ?_⟩
  simp only [escape, he]

/-- What is written by its number is read by it. -/
theorem escape_of_unicode {c : Char} {cs rest : List Char}
    (h : ∃ hle, unicodeEscape cs = .ok (c, ⟨rest, hle⟩)) :
    ∃ hlt, escape ('u' :: cs) = .ok (c, ⟨rest, hlt⟩) := by
  obtain ⟨hle, hunicode⟩ := h
  refine ⟨Nat.lt_succ_of_le hle, ?_⟩
  simp only [escape, show simpleEscape? 'u' = none from rfl, if_true, hunicode]

theorem unicodeEscape_of_number {a b c d : Char} {n : Nat} (rest : List Char)
    (hn : hexFour? a b c d = some n) (hleading : isLeading n = false)
    (htrailing : isTrailing n = false) :
    ∃ hle, unicodeEscape (a :: b :: c :: d :: rest) = .ok (Char.ofNat n, ⟨rest, hle⟩) := by
  obtain ⟨hle, hunit⟩ := hexUnit_of_some rest hn
  refine ⟨hle, ?_⟩
  rw [unicodeEscape, hunit]
  dsimp only
  rw [if_neg (Bool.not_eq_true _ ▸ htrailing), if_neg (Bool.not_eq_true _ ▸ hleading)]

theorem unicodeEscape_of_halves {a b c d a' b' c' d' : Char} {n m : Nat} (rest : List Char)
    (hn : hexFour? a b c d = some n) (hleading : isLeading n = true)
    (hm : hexFour? a' b' c' d' = some m) (htrailing : isTrailing m = true) :
    ∃ hle, unicodeEscape (a :: b :: c :: d :: '\\' :: 'u' :: a' :: b' :: c' :: d' :: rest) =
      .ok (pairChar n m, ⟨rest, hle⟩) := by
  obtain ⟨hle, hunit⟩ := hexUnit_of_some ('\\' :: 'u' :: a' :: b' :: c' :: d' :: rest) hn
  obtain ⟨hle', hunit'⟩ := hexUnit_of_some rest hm
  -- the ranges of the two halves do not meet
  have hother : ¬isTrailing n = true := by
    simp only [isLeading, isTrailing, Bool.and_eq_true, decide_eq_true_eq] at hleading ⊢
    omega
  refine ⟨by simp only [List.length_cons]; omega, ?_⟩
  simp only [unicodeEscape, hunit, if_neg hother, if_pos hleading, hunit', if_pos htrailing]

/-- **A string is read in any spelling.** -/
theorem stringBody_of_spells {s cs rest : List Char} (h : SpellsBody s cs rest) :
    ∃ hlt, stringBody cs = .ok (s, ⟨rest, hlt⟩) := by
  have hescape : ∀ {c : Char} {s t cs rest : List Char},
      (∃ hlt, escape cs = .ok (c, ⟨t, hlt⟩)) → (∃ hlt, stringBody t = .ok (s, ⟨rest, hlt⟩)) →
        ∃ hlt, stringBody ('\\' :: cs) = .ok (c :: s, ⟨rest, hlt⟩) := by
    rintro c s t cs rest ⟨hlt, hescape⟩ ⟨hlt', hbody⟩
    refine ⟨by simp only [List.length_cons]; omega, ?_⟩
    rw [stringBody, if_neg (by decide), if_pos rfl]
    simp only [hescape, hbody]
  induction h with
  | closed =>
    refine ⟨Nat.lt_succ_self _, ?_⟩
    rw [stringBody, if_pos rfl]
  | plain hmark hbackslash hcontrol _ ih =>
    obtain ⟨hlt, hbody⟩ := ih
    refine ⟨Nat.lt_succ_of_lt hlt, ?_⟩
    rw [stringBody, if_neg hmark, if_neg hbackslash, if_neg (Bool.not_eq_true _ ▸ hcontrol)]
    simp only [hbody]
  | short he _ ih => exact hescape (escape_of_short _ he) ih
  | number hn hleading htrailing _ ih =>
    exact hescape (escape_of_unicode (unicodeEscape_of_number _ hn hleading htrailing)) ih
  | halves hn hleading hm htrailing _ ih =>
    exact hescape (escape_of_unicode (unicodeEscape_of_halves _ hn hleading hm htrailing)) ih

/-! ### Values are read -/

/-- What was read, and what follows it, without the promise that this is shorter. -/
def bare {α : Type} {cs : List Char} (read : Except Problem (α × Rest cs)) :
    Except Problem (α × List Char) :=
  read.map fun r => (r.1, r.2.val)

theorem bare_eq_ok_iff {α : Type} {cs rest : List Char} {read : Except Problem (α × Rest cs)}
    {a : α} : bare read = .ok (a, rest) ↔ ∃ hlt, read = .ok (a, ⟨rest, hlt⟩) := by
  constructor
  · intro h
    cases read with
    | error p => cases h
    | ok r =>
      obtain ⟨a, rest, hlt⟩ := r
      cases h
      exact ⟨hlt, rfl⟩
  · rintro ⟨hlt, rfl⟩
    rfl

/-- A reader reads every spelling of a value, behind any blanks and before anything else.  A
spelling does not start like the end of a list. -/
structure Reader.Reads {α : Type} (read : Reader α) (spells : α → List Char → List Char → Prop) :
    Prop where
  starts : ∀ {a : α} {cs rest : List Char}, spells a cs rest →
    ∃ c t, cs = c :: t ∧ isBlank c = false ∧ c ≠ ']'
  reads : ∀ {a : α} {cs cs₁ rest : List Char}, Blanks cs cs₁ → spells a cs₁ rest →
    ∃ hlt, read cs = .ok (a, ⟨rest, hlt⟩)

theorem string_reads : string.Reads SpellsString where
  starts := by
    rintro s _ rest ⟨h⟩
    exact ⟨_, _, rfl, by decide, by decide⟩
  reads := by
    rintro s cs _ rest hblanks ⟨h⟩
    obtain ⟨hle, hskip⟩ := skipBlanks_of_blanks hblanks (by decide)
    obtain ⟨hlt, hbody⟩ := stringBody_of_spells h
    refine ⟨length_lt_of_cons_of_lt hle hlt, ?_⟩
    simp only [string, hskip, if_true, hbody, String.ofList_toList]

theorem boolean_reads : boolean.Reads SpellsTruth where
  starts := by
    rintro b _ rest (_ | _)
    · exact ⟨_, _, rfl, by decide, by decide⟩
    · exact ⟨_, _, rfl, by decide, by decide⟩
  reads := by
    rintro b cs _ rest hblanks (_ | _)
    · obtain ⟨hle, hskip⟩ := skipBlanks_of_blanks hblanks (by decide)
      refine ⟨length_lt_of_cons hle (by simp only [List.length_cons]; omega), ?_⟩
      simp only [boolean, hskip, word, if_true]
    · obtain ⟨hle, hskip⟩ := skipBlanks_of_blanks hblanks (by decide)
      refine ⟨length_lt_of_cons hle (by simp only [List.length_cons]; omega), ?_⟩
      simp only [boolean, hskip, word, show 'f' ≠ 't' by decide, if_true, if_false]

section Lists

variable {α : Type} {read : Reader α} {spells : α → List Char → List Char → Prop} {a : α}
  {as : List α} {first : Bool} {cs rest : List Char}

theorem nextElement_of_closed (first : Bool) (h : Blanks cs (']' :: rest)) :
    ∃ hlt, nextElement first cs = .ok (.closed ⟨rest, hlt⟩) := by
  obtain ⟨hle, hskip⟩ := skipBlanks_of_blanks h (by decide)
  refine ⟨hle, ?_⟩
  simp only [nextElement, hskip, if_true]

theorem nextElement_of_separated {c : Char} (h : Separated first cs (c :: rest))
    (hc : isBlank c = false) (hend : c ≠ ']') :
    ∃ hle, nextElement first cs = .ok (.element ⟨c :: rest, hle⟩) := by
  cases h with
  | first h =>
    obtain ⟨hle, hskip⟩ := skipBlanks_of_blanks h hc
    refine ⟨hle, ?_⟩
    simp only [nextElement, hskip, if_neg hend, if_true]
  | next hbefore hafter =>
    obtain ⟨hle, hskip⟩ := skipBlanks_of_blanks hbefore (by decide)
    obtain ⟨hle', hskip'⟩ := skipBlanks_of_blanks hafter hc
    refine ⟨Nat.le_trans hle' (Nat.le_of_lt hle), ?_⟩
    simp only [nextElement, hskip, show ',' ≠ ']' by decide, if_false, Bool.false_eq_true,
      if_true, hskip', if_neg hend]

/-- The elements of a list are read one after the other. -/
theorem elements_of_spells (hread : read.Reads spells)
    (h : SpellsElements spells first as cs rest) :
    ∃ hlt, elements read first cs = .ok (as, ⟨rest, hlt⟩) := by
  induction h with
  | @closed first cs rest hclosed =>
    obtain ⟨hlt, hnext⟩ := nextElement_of_closed first hclosed
    refine ⟨hlt, ?_⟩
    rw [elements, hnext]
  | element hseparated ha _ ih =>
    obtain ⟨c, t, rfl, hc, hend⟩ := hread.starts ha
    obtain ⟨hle, hnext⟩ := nextElement_of_separated hseparated hc hend
    obtain ⟨hfirst, helement⟩ := hread.reads .done ha
    obtain ⟨hothers, helements⟩ := ih
    refine ⟨by omega, ?_⟩
    rw [elements, hnext]
    simp only [helement, helements]

/-- **A list is read in any spelling**, if its elements are. -/
theorem list_reads (hread : read.Reads spells) : (list read).Reads (SpellsList spells) where
  starts := by
    rintro as _ rest ⟨h⟩
    exact ⟨_, _, rfl, by decide, by decide⟩
  reads := by
    rintro as cs _ rest hblanks ⟨h⟩
    obtain ⟨hle, hskip⟩ := skipBlanks_of_blanks hblanks (by decide)
    obtain ⟨hlt, helements⟩ := elements_of_spells hread h
    refine ⟨length_lt_of_cons_of_lt hle hlt, ?_⟩
    simp only [list, hskip, if_true, helements]

end Lists

/-! ### Records are read -/

section Records

variable {σ : Type} {known : List (Member σ)}
  {tells : String → σ → σ → List Char → List Char → Prop} {initial v v' : σ}
  {names : List String} {first : Bool} {cs rest : List Char}

/-- Every member that can be told of is known, and reads what is told. -/
def TellsKnown (known : List (Member σ))
    (tells : String → σ → σ → List Char → List Char → Prop) : Prop :=
  ∀ {name : String} {v v' : σ} {cs cs₁ rest : List Char}, Blanks cs cs₁ → tells name v v' cs₁ rest →
    ∃ m, (known.find? fun m => m.name = name) = some m ∧ ∃ hlt, m.read v cs = .ok (v', ⟨rest, hlt⟩)

theorem colon_of_blanks (h : Blanks cs (':' :: rest)) :
    ∃ hlt, colon cs = .ok ⟨rest, hlt⟩ := by
  obtain ⟨hle, hskip⟩ := skipBlanks_of_blanks h (by decide)
  refine ⟨hle, ?_⟩
  simp only [colon, hskip, if_true]

theorem nextMember_of_closed (first : Bool) (h : Blanks cs ('\x7d' :: rest)) :
    ∃ hlt, nextMember first cs = .ok (.closed ⟨rest, hlt⟩) := by
  obtain ⟨hle, hskip⟩ := skipBlanks_of_blanks h (by decide)
  refine ⟨hle, ?_⟩
  simp only [nextMember, hskip, if_true]

theorem nextMember_of_separated (h : Separated first cs ('"' :: rest)) :
    ∃ hle, nextMember first cs = .ok (.element ⟨rest, hle⟩) := by
  cases h with
  | first h =>
    obtain ⟨hle, hskip⟩ := skipBlanks_of_blanks h (by decide)
    refine ⟨Nat.le_of_lt hle, ?_⟩
    simp only [nextMember, hskip, show '"' ≠ '\x7d' by decide, if_false, if_true]
  | next hbefore hafter =>
    obtain ⟨hle, hskip⟩ := skipBlanks_of_blanks hbefore (by decide)
    obtain ⟨hle', hskip'⟩ := skipBlanks_of_blanks hafter (by decide)
    refine ⟨Nat.le_trans (Nat.le_of_lt hle') (Nat.le_of_lt hle), ?_⟩
    simp only [nextMember, hskip, show ',' ≠ '\x7d' by decide, if_false, Bool.false_eq_true,
      if_true, hskip']

theorem members_of_closed (known : List (Member σ)) (v : σ) (names : List String) (first : Bool)
    (h : Blanks cs ('\x7d' :: rest)) :
    bare (members known v names first cs) = .ok (⟨v, names, false⟩, rest) := by
  obtain ⟨hlt, hnext⟩ := nextMember_of_closed first h
  rw [members, hnext]
  rfl

theorem SpellsName.reads {name : String} (h : SpellsName first name cs rest) :
    ∃ r hr t ht hrest, nextMember first cs = .ok (.element ⟨r, hr⟩) ∧
      stringBody r = .ok (name.toList, ⟨t, ht⟩) ∧ colon t = .ok ⟨rest, hrest⟩ := by
  obtain ⟨hseparated, ⟨hbody⟩, hcolon⟩ := h
  obtain ⟨hstart, hnext⟩ := nextMember_of_separated hseparated
  obtain ⟨hnamed, hname⟩ := stringBody_of_spells hbody
  obtain ⟨hpassed, hcolon⟩ := colon_of_blanks hcolon
  exact ⟨_, hstart, _, hnamed, hpassed, hnext, hname, hcolon⟩

section Named

variable {name : String} {m : Member σ} {t : List Char}

/-- A member that is known adds what its reader reads. -/
theorem members_of_known (h : SpellsName first name cs rest)
    (hfind : (known.find? fun m => m.name = name) = some m) (hnew : m.name ∉ names)
    (hread : bare (m.read v rest) = .ok (v', t)) :
    bare (members known v names first cs) = bare (members known v' (m.name :: names) false t) := by
  obtain ⟨r, hr, u, hu, hrest, hnext, hname, hcolon⟩ := h.reads
  obtain ⟨hlt, hread⟩ := bare_eq_ok_iff.1 hread
  rw [members, hnext]
  simp only [hname, String.ofList_toList, hfind, if_neg hnew, hcolon, hread]
  cases members known v' (m.name :: names) false t <;> rfl

/-- A member that is known is there once. -/
theorem members_of_repeated (h : SpellsName first name cs rest)
    (hfind : (known.find? fun m => m.name = name) = some m) (hold : m.name ∈ names) :
    bare (members known v names first cs) = .error (.repeatedField m.name) := by
  obtain ⟨r, hr, u, hu, hrest, hnext, hname, hcolon⟩ := h.reads
  rw [members, hnext]
  simp only [hname, String.ofList_toList, hfind, if_pos hold]
  rfl

/-- A member that nobody knows is passed over. -/
theorem members_of_unknown (h : SpellsName first name cs rest)
    (hfind : (known.find? fun m => m.name = name) = none)
    (hskip : ∃ hle, skipValue rest = .ok ⟨t, hle⟩) :
    bare (members known v names first cs) = bare (members known v names false t) := by
  obtain ⟨r, hr, u, hu, hrest, hnext, hname, hcolon⟩ := h.reads
  obtain ⟨hle, hskip⟩ := hskip
  rw [members, hnext]
  simp only [hname, String.ofList_toList, hfind, hcolon, hskip]
  cases members known v names false t <;> rfl

end Named

/-- **The members of an object are read in any order and spelling.** -/
theorem members_of_spells (hknown : TellsKnown known tells)
    (h : SpellsMembers tells first names v v' cs rest) :
    ∃ found, bare (members known v names first cs) = .ok (⟨v', found, false⟩, rest) := by
  induction h with
  | closed hclosed => exact ⟨_, members_of_closed _ _ _ _ hclosed⟩
  | member hnew hseparated hname hcolon hblanks htells _ ih =>
    obtain ⟨m, hfind, hread⟩ := hknown hblanks htells
    obtain rfl : m.name = _ := by simpa using List.find?_some hfind
    rw [members_of_known ⟨hseparated, hname, hcolon⟩ hfind hnew (bare_eq_ok_iff.2 hread)]
    exact ih

theorem record_of_braced (name : String) (known : List (Member σ)) (initial : σ)
    {cs₁ : List Char} (hblanks : Blanks cs ('\x7b' :: cs₁)) :
    bare (record name known initial cs) = bare (members known initial [] true cs₁) := by
  obtain ⟨hle, hskip⟩ := skipBlanks_of_blanks hblanks (by decide)
  simp only [record, hskip, if_true]
  cases members known initial [] true cs₁ <;> rfl

theorem record_of_spells (name : String) (hknown : TellsKnown known tells) {cs₁ : List Char}
    (hblanks : Blanks cs cs₁) (h : SpellsRecord tells initial v cs₁ rest) :
    ∃ names, bare (record name known initial cs) = .ok (⟨v, names, false⟩, rest) := by
  obtain ⟨hmembers⟩ := h
  rw [record_of_braced name known initial hblanks]
  exact members_of_spells hknown hmembers

end Records

/-! ### Whole texts -/

section Texts

variable {α : Type} {read : Reader α} {cs rest : List Char} {a : α}

theorem parseChars_of_bare (h : bare (read cs) = .ok (a, rest)) (hrest : Blanks rest []) :
    parseChars read cs = .ok a := by
  obtain ⟨hlt, hread⟩ := bare_eq_ok_iff.1 h
  simp only [parseChars, hread, if_pos (skipBlanks_isEmpty_iff.2 hrest)]

/-- Nothing may follow a value but blanks. -/
theorem parseChars_of_more (h : bare (read cs) = .ok (a, rest)) (hrest : ¬Blanks rest []) :
    parseChars read cs = .error .trailingCharacters := by
  obtain ⟨hlt, hread⟩ := bare_eq_ok_iff.1 h
  simp only [parseChars, hread, if_neg (mt skipBlanks_isEmpty_iff.1 hrest)]

theorem parseChars_of_error {p : Problem} (h : bare (read cs) = .error p) :
    parseChars read cs = .error p := by
  rw [parseChars]
  cases hread : read cs with
  | error q =>
    rw [hread] at h
    cases h
    rfl
  | ok r =>
    rw [hread] at h
    cases h

/-- A document is read as what it spells. -/
theorem parse_of_spells {spells : α → List Char → List Char → Prop} {text : String}
    (hread : ∀ {cs cs₁ rest}, Blanks cs cs₁ → spells a cs₁ rest → bare (read cs) = .ok (a, rest))
    (h : SpellsDocument spells a text) : parse read text = .ok a := by
  obtain ⟨cs, rest, hbefore, ha, hafter⟩ := h
  exact parseChars_of_bare (hread hbefore ha) hafter

end Texts

/-! ### What is written -/

/-- A character is written as one of its spellings. -/
theorem spells_escaped (c : Char) {s cs rest : List Char} (h : SpellsBody s cs rest) :
    SpellsBody (c :: s) (escaped c ++ cs) rest := by
  by_cases hshort : ∃ e, simpleEscape? e = some c ∧ escaped c = ['\\', e]
  · obtain ⟨e, he, hescaped⟩ := hshort
    rw [hescaped]
    exact .short he h
  have hmark : c ≠ '"' := fun hc => hshort ⟨'"', by subst hc; decide, by subst hc; decide⟩
  have hbackslash : c ≠ '\\' := fun hc => hshort ⟨'\\', by subst hc; decide, by subst hc; decide⟩
  have hother : c ≠ '\x08' ∧ c ≠ '\x0c' ∧ c ≠ '\n' ∧ c ≠ '\r' ∧ c ≠ '\t' := by
    refine ⟨?_, ?_, ?_, ?_, ?_⟩ <;> rintro rfl
    · exact hshort ⟨'b', by decide, by decide⟩
    · exact hshort ⟨'f', by decide, by decide⟩
    · exact hshort ⟨'n', by decide, by decide⟩
    · exact hshort ⟨'r', by decide, by decide⟩
    · exact hshort ⟨'t', by decide, by decide⟩
  obtain ⟨hb, hf, hn, hr, ht⟩ := hother
  rw [escaped, if_neg hmark, if_neg hbackslash, if_neg hb, if_neg hf, if_neg hn, if_neg hr,
    if_neg ht]
  by_cases hcontrol : c.toNat < 0x20
  · rw [if_pos hcontrol]
    have hfour : ∀ n < 0x20, hexFour? '0' '0' (Nat.digitChar (n / 16)) (Nat.digitChar (n % 16)) =
        some n ∧ isLeading n = false ∧ isTrailing n = false := by decide
    obtain ⟨hnumber, hleading, htrailing⟩ := hfour c.toNat hcontrol
    have hspelled := SpellsBody.number hnumber hleading htrailing h
    rwa [Char.ofNat_toNat] at hspelled
  · rw [if_neg hcontrol]
    exact .plain hmark hbackslash (by simpa [isControl] using hcontrol) h

theorem spellsString_quote (s : String) (rest : List Char) :
    SpellsString s (quote s ++ rest) rest := by
  have hbody : ∀ cs : List Char, SpellsBody cs (cs.flatMap escaped ++ '"' :: rest) rest := by
    intro cs
    induction cs with
    | nil => exact .closed
    | cons c cs ih =>
      rw [List.flatMap_cons, List.append_assoc]
      exact spells_escaped c ih
  have hquoted := SpellsString.quoted (hbody s.toList)
  rwa [quote, List.append_assoc, List.append_assoc]

theorem spellsName_quote (s : String) (rest : List Char) :
    SpellsName true s (quote s ++ ':' :: rest) rest :=
  .named (.first .done) (spellsString_quote s _) .done

theorem spellsName_comma_quote (s : String) (rest : List Char) :
    SpellsName false s (',' :: (quote s ++ ':' :: rest)) rest :=
  .named (.next .done .done) (spellsString_quote s _) .done

theorem spellsTruth_truth (b : Bool) (rest : List Char) : SpellsTruth b (truth b ++ rest) rest := by
  cases b
  · exact .no
  · exact .yes

theorem commaSeparated_cons (t : List Char) (ts : List (List Char)) :
    commaSeparated (t :: ts) = t ++ ts.flatMap (',' :: ·) := by
  induction ts generalizing t with
  | nil => exact (List.append_nil t).symm
  | cons u ts ih => rw [commaSeparated, ih, List.flatMap_cons, List.append_assoc]; rfl

/-- A list is written as one of its spellings, if its elements are. -/
theorem spellsList_array {α : Type} {spells : α → List Char → List Char → Prop}
    {write : α → List Char} (hwrite : ∀ a rest, spells a (write a ++ rest) rest) (as : List α)
    (rest : List Char) : SpellsList spells as (array (as.map write) ++ rest) rest := by
  have hothers : ∀ as : List α, SpellsElements spells false as
      ((as.map write).flatMap (',' :: ·) ++ ']' :: rest) rest := by
    intro as
    induction as with
    | nil => exact .closed .done
    | cons a as ih =>
      rw [List.map_cons, List.flatMap_cons, List.append_assoc]
      exact .element (.next .done .done) (hwrite a _) ih
  cases as with
  | nil => exact .bracketed (.closed .done)
  | cons a as =>
    have hlist : array ((a :: as).map write) ++ rest =
        '[' :: (write a ++ ((as.map write).flatMap (',' :: ·) ++ ']' :: rest)) := by
      simp [array, commaSeparated_cons]
    rw [hlist]
    exact .bracketed (.element (.first .done) (hwrite a _) (hothers as))

end Json

/-! ### Documents of policies -/

namespace Policy

open Json (SpellsTruth SpellsList SpellsString SpellsMembers SpellsRecord SpellsDocument bare)

/-- What the members of a document tell of a policy: whether it is in force, and its topics in any
order. -/
inductive Tells : String → Policy → Policy → List Char → List Char → Prop where
  | enabled {p : Policy} {b : Bool} {cs rest : List Char} (h : SpellsTruth b cs rest) :
      Tells "enabled" p { p with enabled := b } cs rest
  | topics {p : Policy} {topics : TopicSet} {names : List String} {cs rest : List Char}
      (hnames : ∀ t, t ∈ names ↔ t ∈ topics) (h : SpellsList SpellsString names cs rest) :
      Tells "prohibitedTopics" p { p with topics } cs rest

/-- A JSON text of a policy, with its members in any order. -/
def IsDocument (p : Policy) (text : String) : Prop :=
  SpellsDocument (SpellsRecord Tells disabled) p text

theorem tellsKnown : Json.TellsKnown members Tells := by
  rintro name v v' cs cs₁ rest hblanks (⟨h⟩ | ⟨hnames, h⟩)
  · obtain ⟨hlt, hread⟩ := Json.boolean_reads.reads hblanks h
    refine ⟨_, rfl, hlt, ?_⟩
    simp only [hread]
  · obtain ⟨hlt, hread⟩ := (Json.list_reads Json.string_reads).reads hblanks h
    refine ⟨_, rfl, hlt, ?_⟩
    have htopics : TopicSet.ofList _ = _ := Std.ExtTreeSet.ext_mem fun t =>
      TopicSet.mem_ofList.trans (hnames t)
    simp only [hread, htopics]

theorem bare_reader (cs : List Char) : bare (reader cs) =
    (bare (Json.record "ProhibitionPolicy" members disabled cs)).map fun r => (r.1.value, r.2) := by
  rw [reader]
  cases Json.record "ProhibitionPolicy" members disabled cs <;> rfl

theorem parse_of_isDocument {p : Policy} {text : String} (h : p.IsDocument text) :
    Json.parse reader text = .ok p := by
  refine Json.parse_of_spells (fun hblanks hrecord => ?_) h
  obtain ⟨names, hread⟩ := Json.record_of_spells "ProhibitionPolicy" tellsKnown hblanks hrecord
  rw [bare_reader, hread]
  rfl

/-- **A policy is read from any of its documents**, and normalized. -/
theorem ofDocument_of_isDocument {p : Policy} {text : String} (h : p.IsDocument text) :
    ofDocument text = .ok p.normalized := by
  simp only [ofDocument, parse_of_isDocument h]

/-- What is written is a document of the policy, whatever the order of its topics. -/
theorem isDocument_documentChars (p : Policy) {names : List String}
    (hnames : ∀ t, t ∈ names ↔ t ∈ p.topics) :
    p.IsDocument (String.ofList (documentChars p.enabled names)) := by
  have hchars : documentChars p.enabled names =
      '\x7b' :: (Json.quote "enabled" ++ ':' :: (Json.truth p.enabled ++
        ',' :: (Json.quote "prohibitedTopics" ++ ':' :: (Json.array (names.map Json.quote) ++
          ['\x7d'])))) := by
    simp [documentChars, Json.object, Json.commaSeparated]
  have htopics : SpellsMembers Tells false ["enabled"] { disabled with enabled := p.enabled } p
      (',' :: (Json.quote "prohibitedTopics" ++ ':' :: (Json.array (names.map Json.quote) ++
        ['\x7d']))) [] :=
    .member (by decide) (.next .done .done) (Json.spellsString_quote _ _) .done .done
      (.topics hnames (Json.spellsList_array Json.spellsString_quote names _)) (.closed .done)
  refine ⟨_, [], .done, ?_, .done⟩
  rw [String.toList_ofList, hchars]
  exact .braced (.member List.not_mem_nil (.first .done) (Json.spellsString_quote _ _) .done .done
    (.enabled (Json.spellsTruth_truth _ _)) htopics)

end Policy

end Embargo

import Embargo.Proofs.Numerals

/-!
# Values that nobody looks at

A member that nobody knows may hold any value.  The automaton that passes it over keeps the brackets
that are open on a stack and knows nothing of the grammar's nesting; here the grammar of any value
is told without the automaton, and the automaton is shown to come out where the value ends.

* `SpellsAnyBody`, `SpellsScalar`, `SpellsAny` — the grammar, in parts: values, and what stands
  between two brackets;
* `skipString_of_spells`, `skipScalar_of_spells` — values without brackets;
* `Arrives` — how the automaton gets to the first element of a list or an object, or to the next;
* `Part.passed_of_spells` — **what is open stays open**: a part is passed over whatever the stack
  holds below it;
* `skipValue_of_spells` — a whole value is.
-/

namespace Embargo.Json

/-! ### The grammar -/

/-- The characters of a string that does not matter, from behind its opening quotation mark; halves
of pairs may stand alone. -/
inductive SpellsAnyBody : (cs rest : List Char) → Prop where
  | closed {rest : List Char} : SpellsAnyBody ('"' :: rest) rest
  | plain {c : Char} {cs rest : List Char} (hmark : c ≠ '"') (hbackslash : c ≠ '\\')
      (hcontrol : isControl c = false) : SpellsAnyBody cs rest → SpellsAnyBody (c :: cs) rest
  | short {c e : Char} {cs rest : List Char} (he : simpleEscape? e = some c) :
      SpellsAnyBody cs rest → SpellsAnyBody ('\\' :: e :: cs) rest
  | number {a b c d : Char} {n : Nat} {cs rest : List Char} (hn : hexFour? a b c d = some n) :
      SpellsAnyBody cs rest → SpellsAnyBody ('\\' :: 'u' :: a :: b :: c :: d :: cs) rest

/-- A value without brackets, and what follows it. -/
inductive SpellsScalar : (cs rest : List Char) → Prop where
  | null {rest : List Char} : SpellsScalar ('n' :: 'u' :: 'l' :: 'l' :: rest) rest
  | truth {b : Bool} {cs rest : List Char} (h : SpellsTruth b cs rest) : SpellsScalar cs rest
  | string {cs rest : List Char} (h : SpellsAnyBody cs rest) : SpellsScalar ('"' :: cs) rest
  | numeral {cs rest : List Char} (h : IsNumeral cs) : SpellsScalar (cs ++ rest) rest

/-- The character that opens a bracket. -/
def Bracket.opening : Bracket → Char
  | .list => '['
  | .object => '\x7b'

/-- What a stretch of a text is: a value, or what is left inside a bracket, from behind the opening
one or from behind an element. -/
inductive Part where
  | value
  | inside (b : Bracket) (first : Bool)

/-- Any part, and what follows it. -/
inductive SpellsAny : Part → (cs rest : List Char) → Prop where
  | scalar {cs rest : List Char} (h : SpellsScalar cs rest) : SpellsAny .value cs rest
  | bracketed {b : Bracket} {cs rest : List Char} :
      SpellsAny (.inside b true) cs rest → SpellsAny .value (b.opening :: cs) rest
  | closed {b : Bracket} {first : Bool} {cs rest : List Char} (h : Blanks cs (b.closing :: rest)) :
      SpellsAny (.inside b first) cs rest
  | element {first : Bool} {cs cs₁ cs₂ rest : List Char} (hseparated : Separated first cs cs₁) :
      SpellsAny .value cs₁ cs₂ → SpellsAny (.inside .list false) cs₂ rest →
        SpellsAny (.inside .list first) cs rest
  | member {first : Bool} {cs cs₁ cs₂ cs₃ cs₄ cs₅ rest : List Char}
      (hseparated : Separated first cs ('"' :: cs₁)) (hname : SpellsAnyBody cs₁ cs₂)
      (hcolon : Blanks cs₂ (':' :: cs₃)) (hblanks : Blanks cs₃ cs₄) :
      SpellsAny .value cs₄ cs₅ → SpellsAny (.inside .object false) cs₅ rest →
        SpellsAny (.inside .object first) cs rest

/-! ### Values without brackets -/

section Scalars

variable {cs rest : List Char}

theorem skipString_of_spells (h : SpellsAnyBody cs rest) :
    ∃ hlt, skipString cs = .ok ⟨rest, hlt⟩ := by
  induction h with
  | closed =>
    refine ⟨Nat.lt_succ_self _, ?_⟩
    rw [skipString.eq_def]
    dsimp only
    rw [if_pos rfl]
  | plain hmark hbackslash hcontrol _ ih =>
    obtain ⟨hlt, hskip⟩ := ih
    refine ⟨Nat.lt_succ_of_lt hlt, ?_⟩
    rw [skipString.eq_def]
    dsimp only
    rw [if_neg hmark, if_neg hbackslash, if_neg (Bool.not_eq_true _ ▸ hcontrol)]
    simp only [hskip]
  | short he _ ih =>
    obtain ⟨hlt, hskip⟩ := ih
    refine ⟨by simp only [List.length_cons]; omega, ?_⟩
    rw [skipString, if_neg (by decide), if_pos rfl]
    simp only [he, Option.isSome_some, if_true, hskip]
  | @number _ _ _ _ _ cs _ hn _ ih =>
    obtain ⟨hlt, hskip⟩ := ih
    obtain ⟨hle, hunit⟩ := hexUnit_of_some cs hn
    refine ⟨by simp only [List.length_cons]; omega, ?_⟩
    rw [skipString, if_neg (by decide), if_pos rfl]
    simp only [show (simpleEscape? 'u').isSome = false from rfl, Bool.false_eq_true, if_false,
      if_true, hunit, hskip]

theorem IsNumeral.starts {cs : List Char} (h : IsNumeral cs) :
    ∃ c t, cs = c :: t ∧ (c = '-' ∨ c.isDigit = true) := by
  cases h with
  | positive h =>
    obtain ⟨hwhole, -, -⟩ := h
    obtain ⟨d, ds, rfl, hd⟩ := hwhole.exists_cons
    exact ⟨d, _, List.cons_append, .inr hd⟩
  | negative h => exact ⟨_, _, rfl, .inl rfl⟩

theorem SpellsScalar.starts (h : SpellsScalar cs rest) :
    ∃ c t, cs = c :: t ∧ isBlank c = false ∧ c ≠ '[' ∧ c ≠ ']' ∧ c ≠ '\x7b' := by
  cases h with
  | null => exact ⟨_, _, rfl, by decide⟩
  | truth h => cases h <;> exact ⟨_, _, rfl, by decide⟩
  | string h => exact ⟨_, _, rfl, by decide⟩
  | numeral h =>
    obtain ⟨c, t, rfl, hc⟩ := h.starts
    refine ⟨c, _, List.cons_append, ?_⟩
    rcases hc with rfl | hc
    · decide
    · exact ⟨isBlank_of_isDigit hc, ne_of_isDigit hc rfl, ne_of_isDigit hc rfl,
        ne_of_isDigit hc rfl⟩

theorem skipScalar_of_numeral {n : List Char} (h : IsNumeral n) (hrest : Stops rest) :
    ∃ hlt, skipScalar (n ++ rest) = .ok ⟨rest, hlt⟩ := by
  cases h with
  | positive h =>
    have hskip := skipMagnitude_of_isMagnitude h hrest
    obtain ⟨hwhole, -, -⟩ := h
    obtain ⟨d, ds, rfl, hd⟩ := hwhole.exists_cons
    rw [List.cons_append, List.cons_append] at hskip ⊢
    obtain ⟨hlt, hskip⟩ := hskip
    refine ⟨hlt, ?_⟩
    have hother : ∀ c : Char, c.isDigit = false → d ≠ c := fun c => ne_of_isDigit hd
    simp only [skipScalar, hother '"' rfl, hother 'n' rfl, hother 't' rfl, hother 'f' rfl,
      hother '-' rfl, if_false, hd, if_true, hskip]
  | negative h =>
    obtain ⟨hlt, hskip⟩ := skipMagnitude_of_isMagnitude h hrest
    rw [List.cons_append]
    refine ⟨Nat.lt_succ_of_lt hlt, ?_⟩
    simp [skipScalar, hskip]

/-- A value without brackets is passed over. -/
theorem skipScalar_of_spells (h : SpellsScalar cs rest) (hrest : Stops rest) :
    ∃ hlt, skipScalar cs = .ok ⟨rest, hlt⟩ := by
  cases h with
  | null => exact ⟨by simp only [List.length_cons]; omega, by simp [skipScalar, word]⟩
  | truth h =>
    cases h <;> exact ⟨by simp only [List.length_cons]; omega, by simp [skipScalar, word]⟩
  | string h =>
    obtain ⟨hlt, hskip⟩ := skipString_of_spells h
    refine ⟨Nat.lt_succ_of_lt hlt, ?_⟩
    simp only [skipScalar, if_true, hskip]
  | numeral h => exact skipScalar_of_numeral h hrest

end Scalars

/-! ### What follows a value -/

section Parts

variable {b : Bracket} {first : Bool} {part : Part} {opened : List Bracket}
  {cs cs₀ cs₁ rest : List Char} {outcome : Except Problem (List Char)}

theorem Bracket.isBlank_closing (b : Bracket) : isBlank b.closing = false := by
  cases b <;> decide

theorem Bracket.closing_ne_comma (b : Bracket) : b.closing ≠ ',' := by
  cases b <;> decide

/-- What stands before the next element, or before the end, stops a numeral. -/
theorem Separated.stops (h : Separated false cs rest) : Stops cs := by
  obtain - | ⟨hbefore, -⟩ := h
  exact .of_blanks hbefore (stops_cons.2 (by decide))

theorem stops_of_closing (h : Blanks cs (b.closing :: rest)) : Stops cs := by
  refine .of_blanks h (stops_cons.2 ?_)
  cases b <;> decide

theorem SpellsAny.stops (h : SpellsAny (.inside b false) cs rest) : Stops cs := by
  cases h with
  | closed h => exact stops_of_closing h
  | element hseparated _ _ => exact hseparated.stops
  | member hseparated _ _ _ _ _ => exact hseparated.stops

theorem SpellsAny.starts (h : SpellsAny .value cs rest) :
    ∃ c t, cs = c :: t ∧ isBlank c = false ∧ c ≠ ']' := by
  cases h with
  | scalar h =>
    obtain ⟨c, t, rfl, hc, -, hend, -⟩ := h.starts
    exact ⟨c, t, rfl, hc, hend⟩
  | @bracketed b _ _ _ => exact ⟨_, _, rfl, by cases b <;> decide, by cases b <;> decide⟩

/-! ### The automaton -/

/-- How the automaton gets inside a bracket: by the bracket itself, with what was open below it, or
from behind an element, with the bracket on the stack. -/
inductive Arrives (b : Bracket) (opened : List Bracket) :
    (first : Bool) → (cs : List Char) → Except Problem (List Char) → Prop where
  | first {cs₀ cs : List Char} (h : Blanks cs₀ (b.opening :: cs)) :
      Arrives b opened true cs (skipFrom .value opened cs₀)
  | next {cs : List Char} : Arrives b opened false cs (skipFrom .separator (b :: opened) cs)

/-- At the closing bracket it goes on with what was open before. -/
theorem Arrives.closed (h : Arrives b opened first cs outcome)
    (hclosed : Blanks cs (b.closing :: rest)) : outcome = skipFrom .separator opened rest := by
  obtain ⟨hend, hclosed⟩ := skipBlanks_of_blanks hclosed b.isBlank_closing
  cases h with
  | first h =>
    obtain ⟨hle, hskip⟩ := skipBlanks_of_blanks h (by cases b <;> decide)
    rw [skipFrom, hskip]
    cases b <;> simp [Bracket.opening, hclosed, Bracket.closing]
  | next =>
    rw [skipFrom, hclosed]
    simp only [if_neg b.closing_ne_comma, if_true]

/-- At an element it looks for what the bracket holds. -/
theorem Arrives.separated (h : Arrives b opened first cs outcome) {c : Char}
    (hseparated : Separated first cs (c :: cs₁)) (hc : isBlank c = false) (hend : c ≠ b.closing) :
    ∃ cs₂, Blanks cs₂ (c :: cs₁) ∧ outcome = skipFrom b.wanted (b :: opened) cs₂ := by
  cases h with
  | @first _ cs h =>
    obtain ⟨hblanks⟩ := hseparated
    obtain ⟨hle, hskip⟩ := skipBlanks_of_blanks h (by cases b <;> decide)
    obtain ⟨hinside, hlook⟩ := skipBlanks_of_blanks hblanks hc
    refine ⟨cs, hblanks, ?_⟩
    rw [skipFrom, hskip]
    cases b <;> simp_all [Bracket.opening, Bracket.closing, Bracket.wanted]
  | next =>
    obtain - | ⟨hbefore, hafter⟩ := hseparated
    obtain ⟨hle, hskip⟩ := skipBlanks_of_blanks hbefore (by decide)
    refine ⟨_, hafter, ?_⟩
    rw [skipFrom, hskip]
    simp only [if_true]

/-- What the automaton makes of a part, whatever is open around it: a value that nothing could go
on with is passed over, and so is what is left inside a bracket, its end included. -/
def Part.Passed (cs rest : List Char) : Part → Prop
  | .value => Stops rest → ∀ opened cs₀, Blanks cs₀ cs →
      skipFrom .value opened cs₀ = skipFrom .separator opened rest
  | .inside b first => ∀ opened outcome, Arrives b opened first cs outcome →
      outcome = skipFrom .separator opened rest

theorem passed_of_scalar (h : SpellsScalar cs rest) : Part.value.Passed cs rest := by
  intro hrest opened cs₀ hblanks
  obtain ⟨hlt, hscalar⟩ := skipScalar_of_spells h hrest
  obtain ⟨c, t, rfl, hc, hlist, -, hobject⟩ := h.starts
  obtain ⟨hle, hskip⟩ := skipBlanks_of_blanks hblanks hc
  rw [skipFrom, hskip]
  simp only [if_neg hlist, if_neg hobject, hscalar]

theorem skipFrom_name (opened : List Bracket) {cs₂ cs₃ : List Char}
    (hblanks : Blanks cs ('"' :: cs₁)) (hname : SpellsAnyBody cs₁ cs₂)
    (hcolon : Blanks cs₂ (':' :: cs₃)) :
    skipFrom .name opened cs = skipFrom .value opened cs₃ := by
  obtain ⟨hle, hskip⟩ := skipBlanks_of_blanks hblanks (by decide)
  obtain ⟨hlt, hname⟩ := skipString_of_spells hname
  obtain ⟨hle', hcolon⟩ := skipBlanks_of_blanks hcolon (by decide)
  rw [skipFrom, hskip]
  simp only [if_true, hname, hcolon]

/-- **What is open stays open.**  The automaton comes out behind a part with the stack that it had
before it. -/
theorem Part.passed_of_spells (h : SpellsAny part cs rest) : part.Passed cs rest := by
  induction h with
  | scalar h => exact passed_of_scalar h
  | bracketed _ ih =>
    intro _ opened cs₀ hblanks
    exact ih opened _ (.first hblanks)
  | closed hclosed =>
    intro opened outcome harrives
    exact harrives.closed hclosed
  | element hseparated hvalue hothers ihvalue ihothers =>
    intro opened outcome harrives
    obtain ⟨c, t, rfl, hc, hend⟩ := hvalue.starts
    obtain ⟨cs₂, hblanks, rfl⟩ := harrives.separated hseparated hc hend
    exact (ihvalue hothers.stops _ _ hblanks).trans (ihothers opened _ .next)
  | member hseparated hname hcolon hblanks hvalue hothers ihvalue ihothers =>
    intro opened outcome harrives
    obtain ⟨cs₂, hstart, rfl⟩ := harrives.separated hseparated (by decide) (by decide)
    rw [Bracket.wanted, skipFrom_name _ hstart hname hcolon]
    exact (ihvalue hothers.stops _ _ hblanks).trans (ihothers opened _ .next)

/-- **Any value is passed over**, to the end that the grammar gives it. -/
theorem skipValue_of_spells (hblanks : Blanks cs₀ cs) (h : SpellsAny .value cs rest)
    (hrest : Stops rest) : ∃ hle, skipValue cs₀ = .ok ⟨rest, hle⟩ := by
  have hskip : skipFrom .value [] cs₀ = .ok rest := by
    rw [Part.passed_of_spells h hrest [] cs₀ hblanks, skipFrom]
  refine ⟨length_le_of_skipFrom hskip, ?_⟩
  rw [skipValue]
  split
  · rename_i heq
    cases hskip.symm.trans heq
  · rename_i heq
    cases hskip.symm.trans heq
    rfl

end Parts

end Embargo.Json

import Embargo.Proofs.Spelling

/-!
# Numerals

A number of a text ends where the text goes on with something that no number goes on with.  The
grammar of numerals is told here in their parts, and two scanners are shown to stop at their ends:
the one that checks the form of any numeral, and the one that reads natural numbers.

* `IsRow`, `IsWhole`, `IsFraction`, `IsExponent`, `IsNumeral` — the grammar;
* `Stops` — what may follow a numeral;
* `skipMagnitude_of_isMagnitude` — numerals that do not matter are passed over to their ends;
* `SpellsNatural`, `unsigned_reads` — natural numbers are read, up to the limit of the reader.
-/

namespace Embargo.Json

/-! ### The grammar -/

/-- One digit or more. -/
structure IsRow (ds : List Char) : Prop where
  ne_nil : ds ≠ []
  isDigit : ∀ c ∈ ds, c.isDigit = true

/-- The digits before the point: zeros in front are no part of a numeral. -/
structure IsWhole (ds : List Char) : Prop extends IsRow ds where
  noZero : ds.head? = some '0' → ds.length = 1

/-- A zero stands alone. -/
theorem IsWhole.one_zero {ds : List Char} (h : IsWhole ds) :
    ¬(ds.head? = some '0' ∧ 1 < ds.length) := by
  rintro ⟨hhead, hlong⟩
  exact Nat.ne_of_gt hlong (h.noZero hhead)

/-- A fraction, if there is any. -/
inductive IsFraction : List Char → Prop where
  | none : IsFraction []
  | point {ds : List Char} (hds : IsRow ds) : IsFraction ('.' :: ds)

/-- An exponent, if there is any. -/
inductive IsExponent : List Char → Prop where
  | none : IsExponent []
  | power {e : Char} {sign ds : List Char} (he : e = 'e' ∨ e = 'E')
      (hsign : sign = [] ∨ sign = ['+'] ∨ sign = ['-']) (hds : IsRow ds) :
      IsExponent (e :: (sign ++ ds))

/-- A numeral without its sign. -/
inductive IsMagnitude : List Char → Prop where
  | parts {whole fraction exponent : List Char} (hwhole : IsWhole whole)
      (hfraction : IsFraction fraction) (hexponent : IsExponent exponent) :
      IsMagnitude (whole ++ (fraction ++ exponent))

/-- A numeral, perhaps with a minus sign. -/
inductive IsNumeral : List Char → Prop where
  | positive {cs : List Char} (h : IsMagnitude cs) : IsNumeral cs
  | negative {cs : List Char} (h : IsMagnitude cs) : IsNumeral ('-' :: cs)

/-! ### Where a numeral ends -/

/-- No digit follows. -/
def NoDigit (rest : List Char) : Prop :=
  ∀ c ∈ rest.head?, c.isDigit = false

/-- Nothing follows that a numeral could go on with. -/
def Stops (rest : List Char) : Prop :=
  ∀ c ∈ rest.head?, c.isDigit = false ∧ c ≠ '.' ∧ c ≠ 'e' ∧ c ≠ 'E'

theorem Stops.noDigit {rest : List Char} (h : Stops rest) : NoDigit rest :=
  fun c hc => (h c hc).1

theorem stops_nil : Stops [] := by
  simp [Stops]

theorem stops_cons {c : Char} {rest : List Char} : Stops (c :: rest) ↔
    c.isDigit = false ∧ c ≠ '.' ∧ c ≠ 'e' ∧ c ≠ 'E' := by
  simp [Stops]

theorem stops_of_isBlank {c : Char} (hc : isBlank c = true) (rest : List Char) :
    Stops (c :: rest) := by
  rw [stops_cons]
  simp only [isBlank, Bool.or_eq_true, decide_eq_true_eq] at hc
  rcases hc with ((rfl | rfl) | rfl) | rfl <;> decide

/-- Blanks stop a numeral, and what follows them may. -/
theorem Stops.of_blanks {cs rest : List Char} (h : Blanks cs rest) (hrest : Stops rest) :
    Stops cs := by
  cases h with
  | done => exact hrest
  | more hc _ => exact stops_of_isBlank hc _

section Rows

variable {ds rest : List Char}

theorem digits_append (hds : ∀ c ∈ ds, c.isDigit = true) (hrest : NoDigit rest) :
    digits (ds ++ rest) = ds := by
  rw [digits, List.takeWhile_append_of_pos hds]
  cases rest with
  | nil => exact List.append_nil ds
  | cons c r =>
    have hc : ¬c.isDigit = true := Bool.not_eq_true _ ▸ hrest c rfl
    rw [List.takeWhile_cons_of_neg hc, List.append_nil]

theorem afterDigits_append (hds : ∀ c ∈ ds, c.isDigit = true) (hrest : NoDigit rest) :
    afterDigits (ds ++ rest) = rest := by
  rw [afterDigits, List.dropWhile_append_of_pos hds]
  cases rest with
  | nil => rfl
  | cons c r => exact List.dropWhile_cons_of_neg (Bool.not_eq_true _ ▸ hrest c rfl)

theorem IsRow.digits_not_isEmpty (h : IsRow ds) (hrest : NoDigit rest) :
    ¬(digits (ds ++ rest)).isEmpty = true := by
  rw [digits_append h.isDigit hrest, List.isEmpty_iff]
  exact h.ne_nil

theorem ne_of_isDigit {c d : Char} (hd : d.isDigit = true) (hc : c.isDigit = false) : d ≠ c := by
  rintro rfl
  rw [hc] at hd
  cases hd

theorem isRow_singleton {d : Char} (hd : d.isDigit = true) : IsRow [d] :=
  ⟨List.cons_ne_nil d [], by simpa using hd⟩

theorem IsRow.exists_cons (h : IsRow ds) : ∃ d r, ds = d :: r ∧ d.isDigit = true := by
  obtain ⟨d, r, rfl⟩ := List.exists_cons_of_ne_nil h.ne_nil
  exact ⟨d, r, rfl, h.isDigit d List.mem_cons_self⟩

theorem IsRow.append_ne_cons (h : IsRow ds) {c : Char} (hc : c.isDigit = false) (r : List Char) :
    ds ++ rest ≠ c :: r := by
  obtain ⟨d, ds, rfl, hd⟩ := h.exists_cons
  exact fun heq => ne_of_isDigit hd hc (List.cons.inj heq).1

theorem isBlank_of_isDigit {d : Char} (hd : d.isDigit = true) : isBlank d = false := by
  rw [← Bool.not_eq_true]
  intro hblank
  have hnodigit := (stops_of_isBlank hblank []).noDigit d rfl
  rw [hd] at hnodigit
  cases hnodigit

end Rows

/-! ### Numerals are passed over -/

section Skipped

variable {ds fraction exponent rest : List Char}

theorem skipDigits_of_isRow (h : IsRow ds) (hrest : NoDigit rest) :
    ∃ hlt, skipDigits (ds ++ rest) = .ok ⟨rest, hlt⟩ := by
  have hne := h.digits_not_isEmpty hrest
  have hafter := afterDigits_append h.isDigit hrest
  have hlt := length_afterDigits_lt hne
  refine ⟨by rwa [hafter] at hlt, ?_⟩
  rw [skipDigits, dif_neg hne]
  exact congrArg Except.ok (Subtype.ext hafter)

theorem skipExponent_of_isExponent (h : IsExponent exponent) (hrest : Stops rest) :
    ∃ hle, skipExponent (exponent ++ rest) = .ok ⟨rest, hle⟩ := by
  cases h with
  | none =>
    refine ⟨Nat.le_refl _, ?_⟩
    cases rest with
    | nil => rfl
    | cons c r =>
      obtain ⟨-, -, he, hE⟩ := stops_cons.1 hrest
      simp only [List.nil_append, skipExponent, he, hE, or_self, if_false]
  | @power e sign ds he hsign hds =>
    obtain ⟨hlt, hskip⟩ := skipDigits_of_isRow hds hrest.noDigit
    have hle : ∀ c : Char, rest.length ≤ (c :: (ds ++ rest)).length := fun _ =>
      Nat.le_succ_of_le (Nat.le_of_lt hlt)
    rw [List.cons_append, List.append_assoc]
    rcases hsign with rfl | rfl | rfl
    · rw [List.nil_append]
      refine ⟨hle e, ?_⟩
      rw [skipExponent, if_pos he]
      -- no digit is a sign
      simp only [hskip]
      · exact hds.append_ne_cons (by decide)
      · exact hds.append_ne_cons (by decide)
    · rw [List.singleton_append]
      refine ⟨Nat.le_succ_of_le (hle '+'), ?_⟩
      rw [skipExponent, if_pos he]
      simp only [hskip]
    · rw [List.singleton_append]
      refine ⟨Nat.le_succ_of_le (hle '-'), ?_⟩
      rw [skipExponent, if_pos he]
      simp only [hskip]

theorem IsExponent.ne_point (h : IsExponent exponent) (hrest : Stops rest) (r : List Char) :
    exponent ++ rest ≠ '.' :: r := by
  cases h with
  | none =>
    rintro rfl
    exact (stops_cons.1 hrest).2.1 rfl
  | power he _ _ =>
    intro heq
    obtain ⟨rfl, -⟩ := List.cons.inj heq
    simp at he

theorem IsExponent.noDigit (h : IsExponent exponent) (hrest : Stops rest) :
    NoDigit (exponent ++ rest) := by
  cases h with
  | none => exact hrest.noDigit
  | power he _ _ =>
    intro c hc
    obtain rfl : _ = c := by simpa using hc
    rcases he with rfl | rfl <;> decide

theorem skipFraction_of_parts (hfraction : IsFraction fraction) (hexponent : IsExponent exponent)
    (hrest : Stops rest) :
    ∃ hle, skipFraction (fraction ++ (exponent ++ rest)) = .ok ⟨rest, hle⟩ := by
  obtain ⟨hle, hskip⟩ := skipExponent_of_isExponent hexponent hrest
  cases hfraction with
  | none =>
    rw [List.nil_append]
    refine ⟨hle, ?_⟩
    rw [skipFraction]
    · exact hskip
    · exact hexponent.ne_point hrest
  | point hds =>
    obtain ⟨hlt, hdigits⟩ := skipDigits_of_isRow hds (hexponent.noDigit hrest)
    rw [List.cons_append]
    refine ⟨Nat.le_succ_of_le (Nat.le_trans hle (Nat.le_of_lt hlt)), ?_⟩
    rw [skipFraction]
    simp only [hdigits, hskip]

theorem IsFraction.noDigit (hfraction : IsFraction fraction) (hrest : NoDigit rest) :
    NoDigit (fraction ++ rest) := by
  cases hfraction with
  | none => exact hrest
  | point _ =>
    intro c hc
    obtain rfl : _ = c := by simpa using hc
    decide

/-- **A numeral that does not matter is passed over to its end.** -/
theorem skipMagnitude_of_isMagnitude {cs : List Char} (h : IsMagnitude cs) (hrest : Stops rest) :
    ∃ hlt, skipMagnitude (cs ++ rest) = .ok ⟨rest, hlt⟩ := by
  obtain ⟨hwhole, hfraction, hexponent⟩ := h
  have hend := hfraction.noDigit (hexponent.noDigit hrest)
  obtain ⟨hlt, hdigits⟩ := skipDigits_of_isRow hwhole.toIsRow hend
  obtain ⟨hle, hskip⟩ := skipFraction_of_parts hfraction hexponent hrest
  rw [List.append_assoc, List.append_assoc]
  refine ⟨Nat.lt_of_le_of_lt hle hlt, ?_⟩
  rw [skipMagnitude, digits_append hwhole.isDigit hend]
  rw [if_neg hwhole.one_zero]
  simp only [hdigits, hskip]

end Skipped

/-! ### Natural numbers are read -/

/-- A natural number, and what follows it. -/
inductive SpellsNatural (n : Nat) : (cs rest : List Char) → Prop where
  | written {rest : List Char} (hrest : Stops rest) :
      SpellsNatural n (Nat.toDigits 10 n ++ rest) rest

theorem head?_toDigits {n : Nat} (hn : 0 < n) : (Nat.toDigits 10 n).head? ≠ some '0' := by
  induction n using Nat.strongRecOn with
  | _ n ih =>
    rw [Nat.toDigits_eq_if (by decide)]
    split
    · rename_i hlt
      have hdigit : ∀ n < 10, 0 < n → Nat.digitChar n ≠ '0' := by decide
      simpa using hdigit n hlt hn
    · rename_i hge
      have hfront := ih (n / 10) (by omega) (by omega)
      have hne : Nat.toDigits 10 (n / 10) ≠ [] := Nat.toDigits_ne_nil
      obtain ⟨d, ds, hds⟩ := List.exists_cons_of_ne_nil hne
      rw [hds] at hfront ⊢
      exact hfront

theorem isWhole_toDigits (n : Nat) : IsWhole (Nat.toDigits 10 n) where
  ne_nil := Nat.toDigits_ne_nil
  isDigit _ hc := Nat.isDigit_of_mem_toDigits (by decide) (by decide) hc
  noZero h := by
    rcases Nat.eq_zero_or_pos n with rfl | hn
    · rfl
    · exact absurd h (head?_toDigits hn)

/-- Digits are appended to the last as long as the number that they stand for fits. -/
theorem extend_of_lt (ds : List Char) (s : Nat)
    (h : s * Nat.pow 10 ds.length + Text.naturalOf ds < UInt64.size) :
    extend s ds = (s * Nat.pow 10 ds.length + Text.naturalOf ds, []) := by
  rw [← Text.foldl_digits] at h ⊢
  induction ds generalizing s with
  | nil => rfl
  | cons c ds ih =>
    have hnext : s * 10 + Text.digitValue c < UInt64.size := by
      rw [List.foldl_cons, Text.foldl_digits] at h
      have hone : 0 < Nat.pow 10 ds.length := Nat.pow_pos (by decide)
      exact Nat.lt_of_le_of_lt (Nat.le_trans (Nat.le_mul_of_pos_right _ hone)
        (Nat.le_add_right _ _)) h
    rw [extend, if_pos hnext]
    exact ih _ h

theorem extend_toDigits {n : Nat} (hn : n < UInt64.size) :
    extend 0 (Nat.toDigits 10 n) = (n, []) := by
  have h := extend_of_lt (Nat.toDigits 10 n) 0
  rw [Nat.zero_mul, Nat.zero_add, Text.naturalOf_toDigits] at h
  exact h hn

theorem magnitude_toDigits {n : Nat} (hn : n < UInt64.size) {rest : List Char}
    (hrest : Stops rest) :
    ∃ hlt, magnitude false (Nat.toDigits 10 n ++ rest) = .ok (.integer n, ⟨rest, hlt⟩) := by
  have hwhole := isWhole_toDigits n
  have hne := hwhole.toIsRow.digits_not_isEmpty hrest.noDigit
  have hafter := afterDigits_append hwhole.isDigit hrest.noDigit
  have hlt := length_afterDigits_lt hne
  refine ⟨by rwa [hafter] at hlt, ?_⟩
  rw [magnitude, dif_neg hne]
  simp only [digits_append hwhole.isDigit hrest.noDigit, if_neg hwhole.one_zero, extend_toDigits hn]
  split
  · rename_i c r _ heq _
    obtain rfl : rest = c :: r := hafter.symm.trans heq
    obtain ⟨-, hpoint, he, hE⟩ := stops_cons.1 hrest
    simp only [if_neg hpoint, if_neg (not_or.2 ⟨he, hE⟩), List.isEmpty_nil, if_true, integerOf,
      Bool.not_false]
  · rename_i heq _
    obtain rfl : rest = [] := hafter.symm.trans heq
    simp only [List.isEmpty_nil, if_true, integerOf, Bool.not_false]

theorem number_toDigits {n : Nat} (hn : n < UInt64.size) {rest : List Char} (hrest : Stops rest) :
    ∃ hlt, number (Nat.toDigits 10 n ++ rest) = .ok (.integer n, ⟨rest, hlt⟩) := by
  obtain ⟨hlt, hmagnitude⟩ := magnitude_toDigits hn hrest
  refine ⟨hlt, ?_⟩
  rw [number]
  · exact hmagnitude
  · exact (isWhole_toDigits n).append_ne_cons (by decide)

/-- **A natural number is read**, if it is below the limit of its reader. -/
theorem unsigned_reads {bits : Nat} (hbits : Nat.pow 2 bits ≤ UInt64.size) :
    (unsigned bits).Reads fun n cs rest => n < Nat.pow 2 bits ∧ SpellsNatural n cs rest where
  starts := by
    rintro n _ rest ⟨-, ⟨hrest⟩⟩
    obtain ⟨d, ds, hds, hd⟩ := (isWhole_toDigits n).exists_cons
    rw [hds]
    exact ⟨d, _, List.cons_append, isBlank_of_isDigit hd, ne_of_isDigit hd rfl⟩
  reads := by
    rintro n cs _ rest hblanks ⟨hn, ⟨hrest⟩⟩
    have hnumber := number_toDigits (Nat.lt_of_lt_of_le hn hbits) hrest
    obtain ⟨d, ds, hds, hd⟩ := (isWhole_toDigits n).exists_cons
    rw [hds, List.cons_append] at hblanks hnumber
    obtain ⟨hle, hskip⟩ := skipBlanks_of_blanks hblanks (isBlank_of_isDigit hd)
    obtain ⟨hlt, hnumber⟩ := hnumber
    have hfits : (0 : Int) ≤ n ∧ (n : Int) < Nat.pow 2 bits := ⟨Int.natCast_nonneg n, by omega⟩
    refine ⟨Nat.lt_of_lt_of_le hlt hle, ?_⟩
    simp only [unsigned, hskip, hd, or_true, if_true, hnumber]
    rw [if_pos hfits, Int.toNat_natCast]

end Embargo.Json

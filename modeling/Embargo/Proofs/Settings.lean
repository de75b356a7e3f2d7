import Embargo.Config
import Mathlib.Data.List.DropRight

/-!
# What the environment may hold

Two variables of the environment override the defaults of a configuration.  Each holds a number as
people write it: with blanks around it, with a plus sign or without, with zeros in front or without.

* `Text.Padded`, `Text.padded_trimChars`, `Text.trimChars_of_padded` — a text is what trimming
  leaves of it, with blanks around;
* `Config.Holds` — a value holds a number; `Config.numberOf?_eq_some_iff` — this is what is read;
* `Config.Gives` — what a variable gives, which may be unset;
* `Config.overridden_eq_ok_iff`, `Config.overridden_eq_error_iff` — one variable;
* `Config.ofVariables_exact` — **both variables**: what they are read as, and when they are refused,
  for which of four reasons.
-/

namespace Embargo

/-! ### Blanks around a text -/

namespace Text

/-- A text is another one with blanks around it. -/
inductive Padded (core : List Char) : List Char → Prop where
  | blanks {before after : List Char} (hbefore : ∀ c ∈ before, isBlank c = true)
      (hafter : ∀ c ∈ after, isBlank c = true) : Padded core (before ++ core ++ after)

/-- Trimming takes nothing away but blanks at the ends. -/
theorem padded_trimChars (cs : List Char) : Padded (trimChars cs) cs := by
  have hfront : cs.takeWhile isBlank ++ trimFront cs = cs := List.takeWhile_append_dropWhile
  have hback : trimChars cs ++ (trimFront cs).rtakeWhile isBlank = trimFront cs :=
    List.rdropWhile_append_rtakeWhile
  have hpadded : Padded (trimChars cs)
      (cs.takeWhile isBlank ++ trimChars cs ++ (trimFront cs).rtakeWhile isBlank) := by
    refine .blanks (fun c hc => List.mem_takeWhile_imp hc) (fun c hc => ?_)
    exact List.mem_rtakeWhile_imp hc
  rwa [List.append_assoc, hback, hfront] at hpadded

/-- Trimming takes all of them away. -/
theorem trimChars_of_padded {core cs : List Char} (h : Padded core cs)
    (hcore : ∀ c ∈ core, isBlank c = false) : trimChars cs = core := by
  obtain ⟨hbefore, hafter⟩ := h
  rename_i before after
  have hfront : trimFront (before ++ core ++ after) = trimFront (core ++ after) := by
    rw [trimFront, List.append_assoc, List.dropWhile_append_of_pos hbefore, trimFront]
  rw [trimChars, hfront]
  cases core with
  | nil =>
    have hnothing : trimFront after = [] := List.dropWhile_eq_nil_iff.2 hafter
    rw [List.nil_append, hnothing]
    rfl
  | cons c rest =>
    have hkept : trimFront (c :: rest ++ after) = c :: rest ++ after :=
      List.dropWhile_cons_of_neg (by simp [hcore c List.mem_cons_self])
    have hback : (c :: rest).reverse.dropWhile isBlank = (c :: rest).reverse := by
      rw [List.dropWhile_eq_self_iff]
      intro hl
      rw [Bool.not_eq_true]
      exact hcore _ (List.mem_reverse.1 (List.getElem_mem hl))
    rw [hkept, List.reverse_append, trimFront,
      List.dropWhile_append_of_pos fun d hd => hafter d (List.mem_reverse.1 hd), hback,
      List.reverse_reverse]

end Text

namespace Config

/-! ### Numbers as values hold them -/

/-- A value holds a number: one digit or more, perhaps behind a plus sign, with blanks around. -/
inductive Holds (value : String) : Nat → Prop where
  | number {sign ds : List Char} (hsign : sign = [] ∨ sign = ['+']) (hne : ds ≠ [])
      (hdigits : ∀ c ∈ ds, c.isDigit = true) (hpadded : Text.Padded (sign ++ ds) value.toList) :
      Holds value (Nat.ofDigitChars 10 ds 0)

theorem isBlank_of_isDigit {c : Char} (h : c.isDigit = true) : Text.isBlank c = false := by
  have hrange : 48 ≤ c.toNat ∧ c.toNat ≤ 57 := Char.isDigit_iff_toNat.1 h
  -- the digits stand between two of the runs
  simp [Text.isBlank, Text.blankRuns]
  omega

/-- One digit or more are the number that they stand for, and anything else is none. -/
theorem row_eq_some_iff {ds : List Char} {n : Nat} :
    (if ds.isEmpty || !ds.all Char.isDigit then none else some (Text.naturalOf ds)) = some n ↔
      ds ≠ [] ∧ (∀ c ∈ ds, c.isDigit = true) ∧ Nat.ofDigitChars 10 ds 0 = n := by
  rw [Text.naturalOf_eq_ofDigitChars]
  simp [and_assoc]

theorem natural?_eq_some_iff {cs : List Char} {n : Nat} : natural? cs = some n ↔
    ∃ sign ds, (sign = [] ∨ sign = ['+']) ∧ cs = sign ++ ds ∧
      ds ≠ [] ∧ (∀ c ∈ ds, c.isDigit = true) ∧ Nat.ofDigitChars 10 ds 0 = n := by
  rw [natural?, row_eq_some_iff]
  constructor
  · intro h
    split at h
    · rename_i hplus
      obtain ⟨rest, rfl⟩ := List.head?_eq_some_iff.1 hplus
      exact ⟨['+'], rest, .inr rfl, rfl, h⟩
    · exact ⟨[], cs, .inl rfl, rfl, h⟩
  · rintro ⟨sign, ds, hsign, hcs, h⟩
    rcases hsign with rfl | rfl
    · have hnoplus : cs.head? ≠ some '+' := by
        intro hplus
        rw [hcs] at hplus
        have hdigit := h.2.1 '+' (List.mem_of_head? hplus)
        simp at hdigit
      rw [if_neg hnoplus, hcs]
      exact h
    · rw [hcs]
      exact h

/-- **What is read from a value is the number that it holds**, if that is not too large. -/
theorem numberOf?_eq_some_iff {value : String} {bound n : Nat} :
    numberOf? value bound = some n ↔ Holds value n ∧ n < bound := by
  rw [numberOf?, Option.filter_eq_some_iff, natural?_eq_some_iff]
  simp only [decide_eq_true_eq]
  refine and_congr_left fun _ => ⟨?_, ?_⟩
  · rintro ⟨sign, ds, hsign, hcore, hne, hdigits, rfl⟩
    refine .number hsign hne hdigits ?_
    rw [← hcore]
    exact Text.padded_trimChars _
  · rintro @⟨sign, ds, hsign, hne, hdigits, hpadded⟩
    refine ⟨sign, ds, hsign, Text.trimChars_of_padded hpadded ?_, hne, hdigits, rfl⟩
    intro c hc
    rcases List.mem_append.1 hc with hc | hc
    · rcases hsign with rfl | rfl
      · cases hc
      · cases List.mem_singleton.1 hc
        decide
    · exact isBlank_of_isDigit (hdigits c hc)

theorem numberOf?_eq_none_iff {value : String} {bound : Nat} :
    numberOf? value bound = none ↔ ∀ n, Holds value n → bound ≤ n := by
  rw [Option.eq_none_iff_forall_ne_some]
  refine forall_congr' fun n => ?_
  rw [ne_eq, numberOf?_eq_some_iff, not_and, Nat.not_lt]

/-! ### One variable -/

/-- A variable gives a number below a bound: the one that its value holds, or the default as long as
it is unset. -/
def Gives (value? : Option String) (default bound n : Nat) : Prop :=
  match value? with
  | none => n = default
  | some value => Holds value n ∧ n < bound

section Variable

variable {name value : String} {value? : Option String} {default bound n : Nat} {f : Fault}

theorem Gives.lt (h : Gives value? default bound n) (hdefault : default < bound) : n < bound := by
  cases value? with
  | none => exact h ▸ hdefault
  | some value => exact h.2

theorem overridden_eq_ok_iff :
    overridden name value? default bound = .ok n ↔ Gives value? default bound n := by
  cases value? with
  | none =>
    rw [overridden, Gives, Except.ok.injEq, eq_comm]
  | some value =>
    rw [overridden, Gives, ← numberOf?_eq_some_iff]
    cases numberOf? value bound <;> simp

theorem overridden_eq_error_iff : overridden name value? default bound = .error f ↔
    ∃ value, value? = some value ∧ (∀ n, Holds value n → bound ≤ n) ∧
      f = .notANumber name value := by
  cases value? with
  | none => simp [overridden]
  | some value =>
    simp only [overridden, Option.some.injEq, exists_eq_left', ← numberOf?_eq_none_iff]
    cases numberOf? value bound <;> simp [eq_comm]

end Variable

/-! ### Both variables -/

section Variables

variable {interval? retries? : Option String} {i r : Nat} {f : Fault}

/-- Numbers for both variables are the configuration, unless one of them is zero. -/
theorem ofVariables_of_gives (hi : Gives interval? 1000 UInt64.size i)
    (hr : Gives retries? 5 UInt32.size r) :
    ofVariables interval? retries? =
      if i = 0 then .error .zeroInterval
      else if r = 0 then .error .zeroRetries
      else .ok { intervalMs := UInt64.ofNat i, maxRetries := UInt32.ofNat r } := by
  have hzero : UInt64.ofNat i = 0 ↔ i = 0 := by
    rw [← UInt64.toNat_inj, UInt64.toNat_ofNat_of_lt' (hi.lt (by decide))]
    rfl
  have hzero' : UInt32.ofNat r = 0 ↔ r = 0 := by
    rw [← UInt32.toNat_inj, UInt32.toNat_ofNat_of_lt' (hr.lt (by decide))]
    rfl
  rw [ofVariables, overridden_eq_ok_iff.2 hi]
  dsimp only
  rw [overridden_eq_ok_iff.2 hr]
  dsimp only
  simp only [validate, hzero, hzero']
  by_cases hi₀ : i = 0
  · simp only [if_pos hi₀]
  · by_cases hr₀ : r = 0
    · simp only [if_neg hi₀, if_pos hr₀]
    · simp only [if_neg hi₀, if_neg hr₀]

/-- The interval is read first. -/
theorem ofVariables_of_interval
    (hi : overridden intervalVariable interval? 1000 UInt64.size = .error f) :
    ofVariables interval? retries? = .error f := by
  rw [ofVariables, hi]

theorem ofVariables_of_retries (hi : Gives interval? 1000 UInt64.size i)
    (hr : overridden retriesVariable retries? 5 UInt32.size = .error f) :
    ofVariables interval? retries? = .error f := by
  rw [ofVariables, overridden_eq_ok_iff.2 hi]
  dsimp only
  rw [hr]

/-- A value that holds a number below a bound gives it. -/
theorem gives_of_padded {value : String} {default bound n : Nat} (hn : n < bound)
    (h : Text.Padded (toString n).toList value.toList) : Gives (some value) default bound n := by
  have hdigits : (toString n).toList = Nat.toDigits 10 n := by
    rw [Nat.toString_eq_ofList_toDigits, String.toList_ofList]
  rw [hdigits] at h
  have hholds := Holds.number (.inl rfl) Nat.toDigits_ne_nil
    (fun c hc => Nat.isDigit_of_mem_toDigits (by decide) (by decide) hc) h
  rw [Nat.ofDigitChars_ten_toDigits] at hholds
  exact ⟨hholds, hn⟩

theorem validate_eq_ok_iff_pos {c : Config} :
    c.validate = .ok () ↔ 0 < c.intervalMs.toNat ∧ 0 < c.maxRetries.toNat := by
  rw [validate_eq_ok, Nat.pos_iff_ne_zero, Nat.pos_iff_ne_zero, ne_eq, ne_eq, ← UInt64.toNat_inj,
    ← UInt32.toNat_inj]
  rfl

/-- The interval is refused, or else the retries are, or else both are numbers. -/
theorem gives_or_refused (interval? retries? : Option String) :
    (∃ f, overridden intervalVariable interval? 1000 UInt64.size = .error f) ∨
    ∃ i, Gives interval? 1000 UInt64.size i ∧
      ((∃ f, overridden retriesVariable retries? 5 UInt32.size = .error f) ∨
        ∃ r, Gives retries? 5 UInt32.size r) := by
  cases hi : overridden intervalVariable interval? 1000 UInt64.size with
  | error f => exact .inl ⟨f, rfl⟩
  | ok i =>
    refine .inr ⟨i, overridden_eq_ok_iff.1 hi, ?_⟩
    cases hr : overridden retriesVariable retries? 5 UInt32.size with
    | error f => exact .inl ⟨f, rfl⟩
    | ok r => exact .inr ⟨r, overridden_eq_ok_iff.1 hr⟩

theorem ofVariables_eq_ok_iff {c : Config} : ofVariables interval? retries? = .ok c ↔
    Gives interval? 1000 UInt64.size c.intervalMs.toNat ∧
      Gives retries? 5 UInt32.size c.maxRetries.toNat ∧ c.validate = .ok () := by
  constructor
  · intro h
    obtain ⟨f, hi⟩ | ⟨i, hi, ⟨f, hr⟩ | ⟨r, hr⟩⟩ := gives_or_refused interval? retries?
    · cases (ofVariables_of_interval hi).symm.trans h
    · cases (ofVariables_of_retries hi hr).symm.trans h
    · rw [ofVariables_of_gives hi hr] at h
      by_cases hi₀ : i = 0
      · rw [if_pos hi₀] at h
        cases h
      by_cases hr₀ : r = 0
      · rw [if_neg hi₀, if_pos hr₀] at h
        cases h
      rw [if_neg hi₀, if_neg hr₀] at h
      cases h
      rw [validate_eq_ok_iff_pos]
      dsimp only
      rw [UInt64.toNat_ofNat_of_lt' (hi.lt (by decide)),
        UInt32.toNat_ofNat_of_lt' (hr.lt (by decide))]
      exact ⟨hi, hr, Nat.pos_of_ne_zero hi₀, Nat.pos_of_ne_zero hr₀⟩
  · rintro ⟨hi, hr, hvalid⟩
    rw [validate_eq_ok_iff_pos] at hvalid
    rw [ofVariables_of_gives hi hr, if_neg (Nat.ne_of_gt hvalid.1),
      if_neg (Nat.ne_of_gt hvalid.2), UInt64.ofNat_toNat, UInt32.ofNat_toNat]

theorem ofVariables_eq_error_iff : ofVariables interval? retries? = .error f ↔
    (∃ value, interval? = some value ∧ (∀ n, Holds value n → UInt64.size ≤ n) ∧
      f = .notANumber intervalVariable value) ∨
    (∃ i value, Gives interval? 1000 UInt64.size i ∧ retries? = some value ∧
      (∀ n, Holds value n → UInt32.size ≤ n) ∧ f = .notANumber retriesVariable value) ∨
    (∃ r, Gives interval? 1000 UInt64.size 0 ∧ Gives retries? 5 UInt32.size r ∧
      f = .zeroInterval) ∨
    (∃ i, 0 < i ∧ Gives interval? 1000 UInt64.size i ∧ Gives retries? 5 UInt32.size 0 ∧
      f = .zeroRetries) := by
  constructor
  · intro h
    obtain ⟨f', hi⟩ | ⟨i, hi, ⟨f', hr⟩ | ⟨r, hr⟩⟩ := gives_or_refused interval? retries?
    · cases (ofVariables_of_interval hi).symm.trans h
      exact .inl (overridden_eq_error_iff.1 hi)
    · cases (ofVariables_of_retries hi hr).symm.trans h
      obtain ⟨value, hvalue⟩ := overridden_eq_error_iff.1 hr
      exact .inr (.inl ⟨i, value, hi, hvalue⟩)
    · rw [ofVariables_of_gives hi hr] at h
      by_cases hi₀ : i = 0
      · rw [if_pos hi₀] at h
        cases h
        exact .inr (.inr (.inl ⟨r, hi₀ ▸ hi, hr, rfl⟩))
      by_cases hr₀ : r = 0
      · rw [if_neg hi₀, if_pos hr₀] at h
        cases h
        exact .inr (.inr (.inr ⟨i, Nat.pos_of_ne_zero hi₀, hi, hr₀ ▸ hr, rfl⟩))
      rw [if_neg hi₀, if_neg hr₀] at h
      cases h
  · rintro (hi | ⟨i, value, hi, hr⟩ | ⟨r, hi, hr, rfl⟩ | ⟨i, hpos, hi, hr, rfl⟩)
    · exact ofVariables_of_interval (overridden_eq_error_iff.2 hi)
    · exact ofVariables_of_retries hi (overridden_eq_error_iff.2 ⟨value, hr⟩)
    · rw [ofVariables_of_gives hi hr, if_pos rfl]
    · rw [ofVariables_of_gives hi hr, if_neg (Nat.ne_of_gt hpos), if_pos rfl]

/-- **Exactly what holds numbers is accepted.**  A configuration is read exactly when each variable
that is set holds a number within its range, and neither number is zero: then those are its numbers,
with the default for what is unset, and the configuration is valid.  Otherwise it is refused because
of the first of these: the interval is no number, or too large; the retries are no number, or too
large; the interval is zero; the retries are zero.  A value that is no number is quoted as it is.
And whatever configuration is valid is read from its numbers, written with any blanks around. -/
theorem ofVariables_exact (interval? retries? : Option String) :
    (∀ c : Config, ofVariables interval? retries? = .ok c ↔
      Gives interval? 1000 UInt64.size c.intervalMs.toNat ∧
      Gives retries? 5 UInt32.size c.maxRetries.toNat ∧ c.validate = .ok ()) ∧
    (∀ c : Config, c.validate = .ok () ↔ 0 < c.intervalMs.toNat ∧ 0 < c.maxRetries.toNat) ∧
    (∀ f, ofVariables interval? retries? = .error f ↔
      (∃ value, interval? = some value ∧ (∀ n, Holds value n → UInt64.size ≤ n) ∧
        f = .notANumber intervalVariable value) ∨
      (∃ i value, Gives interval? 1000 UInt64.size i ∧ retries? = some value ∧
        (∀ n, Holds value n → UInt32.size ≤ n) ∧ f = .notANumber retriesVariable value) ∨
      (∃ r, Gives interval? 1000 UInt64.size 0 ∧ Gives retries? 5 UInt32.size r ∧
        f = .zeroInterval) ∨
      (∃ i, 0 < i ∧ Gives interval? 1000 UInt64.size i ∧ Gives retries? 5 UInt32.size 0 ∧
        f = .zeroRetries)) ∧
    (∀ f : Fault, f.error = .config f.message) ∧
    (∀ name value, (Fault.notANumber name value).message =
      name ++ " is not a number: " ++ value) ∧
    (∀ c : Config, c.validate = .ok () → ∀ interval retries : String,
      Text.Padded (toString c.intervalMs.toNat).toList interval.toList →
      Text.Padded (toString c.maxRetries.toNat).toList retries.toList →
        ofVariables (some interval) (some retries) = .ok c) := by
  refine ⟨fun c => ofVariables_eq_ok_iff, fun c => validate_eq_ok_iff_pos,
    fun f => ofVariables_eq_error_iff, fun f => rfl, fun name value => rfl,
    fun c hvalid interval retries hi hr => ?_⟩
  exact ofVariables_eq_ok_iff.2 ⟨gives_of_padded c.intervalMs.toNat_lt_size hi,
    gives_of_padded c.maxRetries.toNat_lt_size hr, hvalid⟩

/-- A plus sign and zeros in front do no harm, and nor do blanks of any kind; the number of polls is
as large as it can be, and one more would be too large. -/
theorem ofVariables_exact_of_largest :
    ofVariables (some "+00250") (some "\u00a04294967295\n") =
      .ok { intervalMs := 250, maxRetries := 4294967295 } ∧
    ofVariables (some "0") (some " 4294967296") =
      .error (.notANumber retriesVariable " 4294967296") := by
  have hinterval : Gives (some "+00250") 1000 UInt64.size 250 :=
    numberOf?_eq_some_iff.1 (by decide)
  have hretries : Gives (some "\u00a04294967295\n") 5 UInt32.size 4294967295 :=
    numberOf?_eq_some_iff.1 (by decide)
  have hzero : Gives (some "0") 1000 UInt64.size 0 := numberOf?_eq_some_iff.1 (by decide)
  have hlarge : ∀ n, Holds " 4294967296" n → UInt32.size ≤ n :=
    numberOf?_eq_none_iff.1 (by decide)
  obtain ⟨haccepted, -⟩ := ofVariables_exact (some "+00250") (some "\u00a04294967295\n")
  obtain ⟨-, -, hrefused, -⟩ := ofVariables_exact (some "0") (some " 4294967296")
  exact ⟨(haccepted _).2 ⟨hinterval, hretries, rfl⟩,
    (hrefused _).2 (.inr (.inl ⟨0, " 4294967296", hzero, rfl, hlarge, rfl⟩))⟩

end Variables

end Config

end Embargo

/-
  Counting days, in agreement with the order of moments.

  * `Moment.Exists`: the parts of a moment are in range, its microsecond included;
    `Moment.exists_of_ofIso?`: those of a moment that is read are.
  * `Moment.instant`: the clock without the offset; moments with an order are ordered by it
    (`Moment.compare?_eq_some`).
  * `daysBetween_of_instant_lt`: from an earlier instant to a later one the calendar goes back
    by two days at most, and not at all where the later one lies no further west.
  * `days_agree_with_order`: so the days between two texts agree with the operators that order
    them, where the offsets do not turn the calendar round.
-/
import Rulebook.Proofs.Calls
import Rulebook.Proofs.Coherence
import Rulebook.Proofs.Printing

namespace Rulebook

namespace Calendar

open Number Library

theorem ok_of_toOption {ε α : Type} {answer : Except ε α} {v : α}
    (h : answer.toOption = some v) : answer = .ok v := by
  cases answer with
  | error _ => cases h
  | ok _ => exact congrArg Except.ok (Option.some.inj h)

/-! ## Dates -/

section
variable {year month day : ℕ} {d : Date}

/-- The parts of a date are in range. -/
structure Date.Exists (d : Date) : Prop where
  year : d.year ≤ lastYear
  month : d.month ≤ 12
  day : d.day ≤ daysInMonth d.year d.month

theorem Date.exists_of_check (h : Date.check year month day = .ok d) : d.Exists := by
  unfold Date.check at h
  split_ifs at h with hyear hmonth hday
  cases h
  simp only [Bool.or_eq_true, decide_eq_true_eq] at hyear hmonth hday
  exact ⟨by dsimp only; omega, by dsimp only; omega, by dsimp only; omega⟩

theorem Date.exists_of_ofWeek? {week : ℕ} (h : Date.ofWeek? year week day = some d) :
    d.Exists := by
  unfold Date.ofWeek? at h
  split_ifs at h
  exact exists_of_check (ok_of_toOption h)

theorem exists_of_weekDate? {dashes : Bool} {cs : List Char}
    (h : weekDate? dashes year cs = some d) : d.Exists := by
  unfold weekDate? at h
  obtain ⟨⟨week, rest⟩, -, h⟩ := Option.bind_eq_some_iff.1 h
  dsimp only at h
  split_ifs at h
  · exact Date.exists_of_ofWeek? h
  · obtain ⟨rest, -, h⟩ := Option.bind_eq_some_iff.1 h
    obtain ⟨⟨day, rest⟩, -, h⟩ := Option.bind_eq_some_iff.1 h
    exact Date.exists_of_ofWeek? h

theorem exists_of_date? {cs : List Char} (h : date? cs = some d) : d.Exists := by
  unfold date? at h
  obtain ⟨⟨year, rest⟩, -, h⟩ := Option.bind_eq_some_iff.1 h
  dsimp only at h
  split at h
  · exact exists_of_weekDate? h
  · obtain ⟨⟨month, rest⟩, -, h⟩ := Option.bind_eq_some_iff.1 h
    obtain ⟨rest, -, h⟩ := Option.bind_eq_some_iff.1 h
    obtain ⟨⟨day, rest⟩, -, h⟩ := Option.bind_eq_some_iff.1 h
    dsimp only at h
    split_ifs at h
    exact Date.exists_of_check (ok_of_toOption h)

theorem daysInMonth_le (year month : ℕ) : daysInMonth year month ≤ 31 := by
  unfold daysInMonth
  split_ifs <;> omega

theorem daysBeforeMonth_le (year month : ℕ) : daysBeforeMonth year month ≤ month * 31 := by
  induction month with
  | zero => exact Nat.zero_le _
  | succ m ih =>
    cases m with
    | zero => exact Nat.zero_le _
    | succ m =>
      have := daysInMonth_le year (m + 1)
      rw [daysBeforeMonth]
      omega

/-- The days up to a date are few enough to be a double. -/
theorem Date.Exists.ordinal_lt (h : d.Exists) : d.ordinal < 2 ^ 53 := by
  obtain ⟨hyear, hmonth, hday⟩ := h
  have := daysInMonth_le d.year d.month
  have := daysBeforeMonth_le d.year d.month
  simp only [lastYear] at hyear
  unfold Date.ordinal daysBeforeYear
  dsimp only
  omega

end

/-! ## Times -/

theorem asciiDigit?_lt {c : Char} {n : ℕ} (h : asciiDigit? c = some n) : n < 10 := by
  unfold asciiDigit? at h
  split_ifs at h with hdigit
  cases h
  obtain ⟨-, hhigh⟩ := Char.isDigit_iff_toNat.1 hdigit
  have hnine : '9'.toNat = 57 := rfl
  have hzero : '0'.toNat = 48 := rfl
  omega

/-- Digits that follow a value make no more of it than their number allows. -/
theorem takeDigits_lt {count value n : ℕ} {cs rest : List Char}
    (h : takeDigits count value cs = some (n, rest)) : n < (value + 1) * 10 ^ count := by
  induction count generalizing value cs with
  | zero =>
    cases h
    omega
  | succ count ih =>
    cases cs with
    | nil => cases h
    | cons c cs =>
      unfold takeDigits at h
      split at h
      · next d hd =>
        have hlt := asciiDigit?_lt hd
        calc n < (10 * value + d + 1) * 10 ^ count := ih h
          _ ≤ (value + 1) * 10 * 10 ^ count := by gcongr; omega
          _ = (value + 1) * 10 ^ (count + 1) := by rw [pow_succ']; ring
      · cases h

theorem fraction?_lt {length n : ℕ} {cs : List Char} {rest : ClockRest}
    (h : fraction? length cs = some (n, rest)) : n < microsecondsPerSecond := by
  unfold fraction? at h
  obtain ⟨⟨value, rest⟩, hvalue, h⟩ := Option.bind_eq_some_iff.1 h
  cases h
  have hlt := takeDigits_lt hvalue
  have hcount : min length 6 + (6 - min length 6) = 6 := by omega
  calc value * 10 ^ (6 - min length 6)
      < (0 + 1) * 10 ^ min length 6 * 10 ^ (6 - min length 6) := by gcongr
    _ = 10 ^ 6 := by rw [zero_add, one_mul, ← pow_add, hcount]

theorem clockParts_lt {fuel length n : ℕ} {colons : Bool} {parts parts' : List ℕ}
    {cs : List Char} {rest : ClockRest}
    (h : clockParts fuel colons parts length cs = some (parts', n, rest)) :
    n < microsecondsPerSecond := by
  induction fuel generalizing colons parts length cs with
  | zero =>
    obtain ⟨⟨micro, rest⟩, hfraction, h⟩ := Option.bind_eq_some_iff.1 h
    cases h
    exact fraction?_lt hfraction
  | succ fuel ih =>
    unfold clockParts at h
    obtain ⟨⟨value, rest⟩, -, h⟩ := Option.bind_eq_some_iff.1 h
    dsimp only at h
    generalize (if (parts ++ [value]).length = 1 then charAt rest 0 == ':' else colons) = colons'
      at h
    generalize (if charAt rest 0 ≠ endMark then ClockRest.more else ClockRest.ended) = ending at h
    split_ifs at h
    · cases h
      decide
    · exact ih h
    · obtain ⟨⟨micro, rest⟩, hfraction, h⟩ := Option.bind_eq_some_iff.1 h
      cases h
      exact fraction?_lt hfraction
    · exact ih h

/-- A microsecond that is read is less than a second. -/
theorem microsecond_lt_of_time? {cs : List Char} {time : Clock} {offset : Option ℤ}
    (h : time? cs = some (time, offset)) : time.microsecond < microsecondsPerSecond := by
  unfold time? at h
  obtain ⟨⟨time', rest⟩, hclock, h⟩ := Option.bind_eq_some_iff.1 h
  obtain ⟨⟨parts, micro, rest'⟩, hparts, hclock⟩ := Option.bind_eq_some_iff.1 hclock
  cases hclock
  have hlt : micro < microsecondsPerSecond := clockParts_lt hparts
  dsimp only at h
  split at h
  · split_ifs at h
    cases h
    exact hlt
  · split_ifs at h
    cases h
    exact hlt
  · obtain ⟨⟨size, rest⟩, -, h⟩ := Option.bind_eq_some_iff.1 h
    dsimp only at h
    split_ifs at h
    cases h
    exact hlt

/-! ## Moments -/

namespace Moment

variable {m n : Moment}

theorem microsecondsPerDay_pos : 0 < microsecondsPerDay := by decide

/-- The microseconds since the day began. -/
def timeOfDay (m : Moment) : ℕ :=
  ((m.hour * 60 + m.minute) * 60 + m.second) * microsecondsPerSecond + m.microsecond

/-- How far east a moment lies; without an offset, nowhere else than others without. -/
def east (m : Moment) : ℤ := m.offset.getD 0

/-- The parts of a moment are in range: its time of day and its offset are less than a day. -/
structure Exists (m : Moment) : Prop where
  date : m.date.Exists
  time : m.timeOfDay < microsecondsPerDay
  offset : m.east.natAbs < microsecondsPerDay

theorem exists_of_check {year month day hour minute second microsecond : ℕ} {offset : Option ℤ}
    (hmicro : microsecond < microsecondsPerSecond)
    (h : Moment.check year month day hour minute second microsecond offset = .ok m) :
    m.Exists := by
  obtain ⟨date, hdate, h⟩ := bind_eq_ok.1 h
  split_ifs at h with hhour hminute hsecond hoffset
  cases h
  refine ⟨Date.exists_of_check hdate, ?_, ?_⟩
  · simp only [timeOfDay, microsecondsPerDay, microsecondsPerSecond] at hmicro ⊢
    omega
  · cases offset with
    | none => exact microsecondsPerDay_pos
    | some o => simpa [east] using hoffset

theorem exists_midnight {d : Date} (h : d.Exists) : d.midnight.Exists :=
  ⟨h, by simp [timeOfDay, Date.midnight, microsecondsPerDay_pos],
    by simp [east, Date.midnight, microsecondsPerDay_pos]⟩

/-- What is read as a moment exists. -/
theorem exists_of_ofIso? {s : String} (h : Moment.ofIso? s = some m) : m.Exists := by
  unfold Moment.ofIso? at h
  dsimp only at h
  split_ifs at h
  obtain ⟨date, hdate, h⟩ := Option.bind_eq_some_iff.1 h
  split at h
  · cases h
    exact exists_midnight (exists_of_date? hdate)
  · obtain ⟨⟨time, offset⟩, htime, h⟩ := Option.bind_eq_some_iff.1 h
    exact exists_of_check (microsecond_lt_of_time? htime) (ok_of_toOption h)

/-! ## Order -/

/-- The microseconds since the day before year 1, the offset taken off. -/
def instant (m : Moment) : ℤ := m.clock - m.east

/-- Moments that have an order are ordered by their instants. -/
theorem compare?_eq_some {o : Ordering} (h : m.compare? n = some o) :
    o = compare m.instant n.instant := by
  unfold compare? at h
  unfold instant east
  cases hm : m.offset <;> cases hn : n.offset <;> rw [hm, hn] at h <;> cases h
  · simp
  · rfl

/-- The clock shows the days and the time of day. -/
theorem clock_eq (m : Moment) :
    m.clock = m.date.ordinal * microsecondsPerDay + m.timeOfDay := rfl

end Moment

theorem daysBetween_swap (m n : Moment) : daysBetween n m = -daysBetween m n :=
  (Int.neg_sub _ _).symm

section
variable {m n : Moment} (hm : m.Exists) (hn : n.Exists)
include hm hn

/-- Towards a later instant the calendar goes back by two days at most, and only to the west. -/
theorem daysBetween_of_instant_lt (h : m.instant < n.instant) :
    -2 ≤ daysBetween m n ∧ (m.east ≤ n.east → 0 ≤ daysBetween m n) := by
  obtain ⟨-, hmtime, hmoffset⟩ := hm
  obtain ⟨-, hntime, hnoffset⟩ := hn
  simp only [Moment.instant, Moment.clock_eq, microsecondsPerDay, microsecondsPerSecond] at *
  unfold daysBetween
  omega

/-- The number of days is a double. -/
theorem isInteger_daysBetween : IsInteger (ofInt (daysBetween m n)) (daysBetween m n) := by
  apply isInteger_ofInt
  have := hm.date.ordinal_lt
  have := hn.date.ordinal_lt
  unfold daysBetween
  omega

end

end Calendar

/-! ## The operators -/

open Calendar Library

namespace Value

variable {a b v : Value} {m n : Moment}

/-- Only texts stand for moments. -/
theorem text_of_moment? (h : a.moment? = some m) : ∃ s, a = .text s := by
  cases a with
  | text s => exact ⟨s, rfl⟩
  | _ => cases h

theorem answers_daysBetween (ha : a.moment? = some m) (hb : b.moment? = some n) :
    Answers "daysBetween" [a, b] (.number (Number.ofInt (daysBetween m n))) := by
  obtain ⟨s, rfl⟩ := text_of_moment? ha
  obtain ⟨t, rfl⟩ := text_of_moment? hb
  refine (answers_iff (fun args => daysApart (argument args 0) (argument args 1))
    fun _ _ => ⟨_, rfl, rfl, fun _ _ => rfl⟩).2 ?_
  change daysApart (.text s) (.text t) = _
  rw [daysApart, ha, hb]
  all_goals nofun

theorem exists_of_moment? (h : a.moment? = some m) : m.Exists := by
  obtain ⟨s, rfl⟩ := text_of_moment? h
  exact Moment.exists_of_ofIso? h

end Value

namespace BinaryOperator

variable {a b v : Value} {m n : Moment}

/-- Texts that are ordered stand for moments, which are. -/
theorem moments_of_dateOrdered {op : BinaryOperator} {wanted : Ordering}
    (h : dateOrdered op wanted a b = .ok v) :
    ∃ m n, a.moment? = some m ∧ b.moment? = some n ∧ ∃ o, m.compare? n = some o ∧
      v = .boolean (o == wanted) := by
  unfold dateOrdered at h
  split at h
  · next m n hm hn =>
    split at h
    · next o ho => exact ⟨m, n, hm, hn, o, ho, (Except.ok.inj h).symm⟩
    · cases h
  · cases h

theorem holds_dateOrdered (hm : a.moment? = some m) (hn : b.moment? = some n)
    {op : BinaryOperator} {wanted : Ordering}
    (h : dateOrdered op wanted a b = .ok (.boolean true)) :
    compare m.instant n.instant = wanted := by
  obtain ⟨m', n', hm', hn', o, ho, heq⟩ := moments_of_dateOrdered h
  cases hm.symm.trans hm'
  cases hn.symm.trans hn'
  rw [← Moment.compare?_eq_some ho]
  exact (eq_of_beq (Value.boolean.inj heq).symm)

/-- **Counting days agrees with the order of dates.** Where `BEFORE` gives an answer, the days
    from the one to the other are a whole number, and those back its negative. If the first is
    before the second, it is not negative unless the first lies further east, and then -2 at
    least; if it is after the second, not positive unless the first lies further west, and
    then 2 at most. -/
theorem days_agree_with_order (h : BinaryOperator.before.apply a b = .ok v) :
    ∃ m n x y k, a.moment? = some m ∧ b.moment? = some n ∧
      Answers "daysBetween" [a, b] (.number x) ∧ IsInteger x k ∧
      Answers "daysBetween" [b, a] (.number y) ∧ IsInteger y (-k) ∧
      (Holds .before a b → -2 ≤ k ∧ (m.east ≤ n.east → 0 ≤ k)) ∧
      (Holds .after a b → k ≤ 2 ∧ (n.east ≤ m.east → k ≤ 0)) := by
  obtain ⟨m, n, hm, hn, o, ho, rfl⟩ := moments_of_dateOrdered h
  have hm' := Value.exists_of_moment? hm
  have hn' := Value.exists_of_moment? hn
  refine ⟨m, n, _, _, _, hm, hn, Value.answers_daysBetween hm hn, isInteger_daysBetween hm' hn',
    Value.answers_daysBetween hn hm, daysBetween_swap m n ▸ isInteger_daysBetween hn' hm',
    ?_, ?_⟩
  · intro hbefore
    have hlt : m.instant < n.instant := Int.compare_eq_lt.1 (holds_dateOrdered hm hn hbefore)
    exact daysBetween_of_instant_lt hm' hn' hlt
  · intro hafter
    have hlt : n.instant < m.instant := Int.compare_eq_gt.1 (holds_dateOrdered hm hn hafter)
    obtain ⟨hback, hcalendar⟩ := daysBetween_of_instant_lt hn' hm' hlt
    rw [daysBetween_swap m n] at hback hcalendar
    exact ⟨by omega, fun heast => by have := hcalendar heast; omega⟩

/-- Evening in the west, and after midnight of the next day but one further east. -/
theorem eastward_days_agree :
    Holds .before (.text "2024-01-01T22:00+02:00") (.text "2024-01-03T01:00+05:30") ∧
      ∃ x k, Answers "daysBetween"
        [.text "2024-01-01T22:00+02:00", .text "2024-01-03T01:00+05:30"] (.number x) ∧
        IsInteger x k ∧ 0 ≤ k := by
  have hbefore : Holds .before (.text "2024-01-01T22:00+02:00")
      (.text "2024-01-03T01:00+05:30") := by
    unfold Holds
    decide +kernel
  obtain ⟨m, n, x, y, k, hm, hn, hx, hk, -, -, hdays, -⟩ := days_agree_with_order hbefore
  have heast : m.east = 7200000000 ∧ n.east = 19800000000 := by
    have hm' : (Value.text "2024-01-01T22:00+02:00").moment? =
        some ⟨⟨2024, 1, 1⟩, 22, 0, 0, 0, some 7200000000⟩ := by decide +kernel
    have hn' : (Value.text "2024-01-03T01:00+05:30").moment? =
        some ⟨⟨2024, 1, 3⟩, 1, 0, 0, 0, some 19800000000⟩ := by decide +kernel
    cases hm.symm.trans hm'
    cases hn.symm.trans hn'
    exact ⟨rfl, rfl⟩
  exact ⟨hbefore, x, k, hx, hk, (hdays hbefore).2 (by omega)⟩

/-- Shortly after midnight in the far east is before the evening of the day before at
    universal time, and yet the days from the one to the other are -1. -/
theorem days_against_order :
    Holds .before (.text "2024-01-02T00:30+14:00") (.text "2024-01-01T23:00+00:00") ∧
      Answers "daysBetween" [.text "2024-01-02T00:30+14:00", .text "2024-01-01T23:00+00:00"]
        (.number (-1)) := by
  have hm : (Value.text "2024-01-02T00:30+14:00").moment? =
      some ⟨⟨2024, 1, 2⟩, 0, 30, 0, 0, some 50400000000⟩ := by decide +kernel
  have hn : (Value.text "2024-01-01T23:00+00:00").moment? =
      some ⟨⟨2024, 1, 1⟩, 23, 0, 0, 0, some 0⟩ := by decide +kernel
  have hbefore : Holds .before (.text "2024-01-02T00:30+14:00")
      (.text "2024-01-01T23:00+00:00") := by
    unfold Holds
    decide +kernel
  have hdays : Number.ofInt (daysBetween ⟨⟨2024, 1, 2⟩, 0, 30, 0, 0, some 50400000000⟩
      ⟨⟨2024, 1, 1⟩, 23, 0, 0, 0, some 0⟩) = -1 := by decide +kernel
  exact ⟨hbefore, hdays ▸ Value.answers_daysBetween hm hn⟩

end BinaryOperator

end Rulebook

import IssueSearch.Expr.Build
import IssueSearch.Proofs.Dates
import IssueSearch.Proofs.WholeNumbers
import Mathlib.Logic.Function.Iterate

/-! # Dates moved by days

    A date and a whole number make a date that many days on.  The days are those of
    the calendar, one after the other, with a leap day in the years that have one,
    also before the year `0`.

    * `Civil.next`: the next day of the calendar.
    * `YearDay`: a day by its place in the year that begins in March.
    * `toCivil_succ`: the date of the next day is the next date.
    * `Civil.DaysOn`, `daysOn_toCivil_iff`: going through the calendar day by day is
      addition on the count of days.
    * `DateTime.addDays?_eq_some_iff`: moving a date-time.
    * `MovesByDays`: the laws of adding days to a date and of taking them away.
    * `evalIn_movesByDays`: the operators obey them. -/

namespace IssueSearch

namespace Calendar

/-! ## The next day -/

/-- The next day of the calendar. -/
def Civil.next (c : Civil) : Civil :=
  if c.day < monthLength c.year c.month then { c with day := c.day + 1 }
  else if c.month < 12 then { year := c.year, month := c.month + 1, day := 1 }
  else { year := c.year + 1, month := 1, day := 1 }

/-- Days before the first of March of a year. -/
def daysBeforeMarch (y : Int) : Int :=
  y / 400 * cycleDays + daysBeforeYear (y % 400)

/-- Every fourth year adds a day, except for every hundredth that is not a four
    hundredth. -/
theorem daysBeforeMarch_eq (y : Int) :
    daysBeforeMarch y = 365 * y + y / 4 - y / 100 + y / 400 := by
  unfold daysBeforeMarch daysBeforeYear cycleDays
  omega

theorem isLeap_eq_true_iff (y : Int) :
    isLeap y = true ↔ y % 4 = 0 ∧ (y % 100 ≠ 0 ∨ y % 400 = 0) := by
  simp [isLeap]

/-- The year that begins in March is as long as the leap day at its end makes it. -/
theorem daysBeforeMarch_succ (y : Int) :
    daysBeforeMarch (y + 1) = daysBeforeMarch y + 365 + if isLeap (y + 1) then 1 else 0 := by
  rw [daysBeforeMarch_eq, daysBeforeMarch_eq]
  by_cases hleap : isLeap (y + 1) = true
  · rw [if_pos hleap]
    rw [isLeap_eq_true_iff] at hleap
    omega
  · rw [if_neg hleap]
    rw [isLeap_eq_true_iff] at hleap
    omega

theorem daysBeforeMarch_le {y z : Int} (h : y ≤ z) : daysBeforeMarch y ≤ daysBeforeMarch z := by
  rw [daysBeforeMarch_eq, daysBeforeMarch_eq]
  by_cases heq : y = z
  · subst heq
    exact Int.le_refl _
  · omega

/-- The date of the `t`-th day of the year that begins in March of the year `y`. -/
def yearDate (y t : Int) : Civil :=
  marchDate y ((5 * t + 2) / 153) (t - daysBeforeMonth ((5 * t + 2) / 153))

/-- Is it the last day of the year, which is the last of February? -/
def IsLast (y t : Int) : Prop :=
  t = 364 + if isLeap (y + 1) then 1 else 0

/-- `YearDay n y t`: the day `n` is the `t`-th day, counted from zero, of the year
    that begins in March of the year `y`. -/
structure YearDay (n y t : Int) : Prop where
  day  : 0 ≤ t ∧ t ≤ 365
  leap : t = 365 → isLeap (y + 1) = true
  eq   : n + epochShift = daysBeforeMarch y + t

namespace YearDay

variable {n y t : Int}

/-- A day does not belong to an earlier year than another of its years. -/
theorem year_le (h : YearDay n y t) {z u : Int} (h' : YearDay n z u) : z ≤ y := by
  obtain ⟨hday, hleap, heq⟩ := h
  obtain ⟨hday', -, heq'⟩ := h'
  by_contra hlater
  have hnext := daysBeforeMarch_succ y
  have hbefore := daysBeforeMarch_le (show y + 1 ≤ z by omega)
  by_cases hlast : t = 365
  · rw [hleap hlast, if_pos rfl] at hnext
    omega
  · split at hnext <;> omega

theorem unique (h : YearDay n y t) {z u : Int} (h' : YearDay n z u) : y = z ∧ t = u := by
  have hyear : y = z := Int.le_antisymm (h'.year_le h) (h.year_le h')
  have heq := h.eq
  have heq' := h'.eq
  rw [hyear] at heq
  exact ⟨hyear, by omega⟩

/-- The date of a day is told by its year and its place there. -/
theorem toCivil_eq (h : YearDay n y t) : toCivil n = yearDate y t := by
  obtain ⟨z, u, hday, hleap, heq, hcivil⟩ := exists_toCivil_eq n
  obtain ⟨rfl, rfl⟩ := h.unique ⟨hday, hleap, heq⟩
  exact hcivil

theorem lt_of_not_isLast (h : YearDay n y t) (hlast : ¬ IsLast y t) :
    0 ≤ t ∧ t < 364 + if isLeap (y + 1) then 1 else 0 := by
  obtain ⟨hday, hleap, -⟩ := h
  unfold IsLast at hlast
  by_cases hlong : isLeap (y + 1) = true
  · rw [if_pos hlong] at *
    omega
  · rw [if_neg hlong] at *
    have hshort : t ≠ 365 := fun ht => hlong (hleap ht)
    omega

theorem succ (h : YearDay n y t) (hlast : ¬ IsLast y t) : YearDay (n + 1) y (t + 1) := by
  have hlt := h.lt_of_not_isLast hlast
  have heq := h.eq
  refine ⟨?_, ?_, by omega⟩
  · split at hlt <;> omega
  · intro ht
    by_contra hshort
    rw [if_neg hshort] at hlt
    omega

theorem succ_of_isLast (h : YearDay n y t) (hlast : IsLast y t) : YearDay (n + 1) (y + 1) 0 := by
  have hnext := daysBeforeMarch_succ y
  have heq := h.eq
  unfold IsLast at hlast
  exact ⟨by omega, by omega, by omega⟩

end YearDay

/-- Within a month, the next date is the next day of the month. -/
theorem next_marchDate {y m d : Int} (hd : 0 ≤ d)
    (h : d + 1 < monthLength (marchDate y m d).year (marchDate y m d).month) :
    (marchDate y m d).next = marchDate y m (d + 1) := by
  have hday : (d + 1 + 1).toNat = (d + 1).toNat + 1 := by omega
  unfold Civil.next
  rw [if_pos (by rw [marchDate_day]; omega), marchDate_day]
  unfold marchDate
  split <;> rw [hday]

/-- After the last day of a month comes the first of the next one. -/
theorem next_marchDate_last {y m d : Int} (hm : 0 ≤ m ∧ m ≤ 11)
    (h : d + 1 = monthLength (marchDate y m d).year (marchDate y m d).month) :
    (marchDate y m d).next = if m = 11 then marchDate (y + 1) 0 0 else marchDate y (m + 1) 0 := by
  unfold Civil.next
  rw [if_neg (by rw [marchDate_day]; omega)]
  obtain rfl | rfl | rfl | rfl | rfl | rfl | rfl | rfl | rfl | rfl | rfl | rfl :
      m = 0 ∨ m = 1 ∨ m = 2 ∨ m = 3 ∨ m = 4 ∨ m = 5 ∨ m = 6 ∨ m = 7 ∨ m = 8 ∨ m = 9 ∨
        m = 10 ∨ m = 11 := by omega
  all_goals rfl

/-- February ends with the year. -/
theorem monthLength_february (y d : Int) :
    (monthLength (marchDate y 11 d).year (marchDate y 11 d).month : Int) =
      28 + if isLeap (y + 1) then 1 else 0 := by
  show ((if isLeap (y + 1) then 29 else 28 : Nat) : Int) = _
  split <;> rfl

/-- After the last of February comes the first of March. -/
theorem next_yearDate_last {y t : Int} (hlast : IsLast y t) :
    (yearDate y t).next = yearDate (y + 1) 0 := by
  have hfebruary : (5 * t + 2) / 153 = 11 := by
    unfold IsLast at hlast
    split at hlast <;> omega
  unfold yearDate
  rw [hfebruary, next_marchDate_last]
  · rfl
  · decide
  · rw [monthLength_february, hlast]
    show 364 + _ - 337 + 1 = _
    omega

/-- Within the year the next date is that of the next day. -/
theorem next_yearDate {y t : Int} (ht : 0 ≤ t ∧ t < 364 + if isLeap (y + 1) then 1 else 0) :
    (yearDate y t).next = yearDate y (t + 1) := by
  have hday : 0 ≤ t ∧ t ≤ 365 := by
    split at ht <;> omega
  obtain ⟨hge, hle, hfrom, huntil⟩ := monthOfDay hday
  unfold yearDate
  by_cases hmonth : t + 1 < daysBeforeMonth ((5 * t + 2) / 153 + 1)
  · have hsame : (5 * (t + 1) + 2) / 153 = (5 * t + 2) / 153 := by
      unfold daysBeforeMonth at *
      omega
    rw [hsame, next_marchDate (by omega)]
    · congr 1
      omega
    · obtain hearlier | hfebruary : (5 * t + 2) / 153 ≤ 10 ∨ (5 * t + 2) / 153 = 11 := by omega
      · rw [monthLength_marchDate hge hearlier]
        omega
      · -- February, of which this is not the last day
        rw [hfebruary, monthLength_february]
        show t - 337 + 1 < _
        omega
  · have hfull : t + 1 = daysBeforeMonth ((5 * t + 2) / 153 + 1) := by omega
    have hearlier : (5 * t + 2) / 153 ≤ 10 := by
      unfold daysBeforeMonth at hfull
      omega
    have hnext : (5 * (t + 1) + 2) / 153 = (5 * t + 2) / 153 + 1 := by
      unfold daysBeforeMonth at hfull
      omega
    rw [hnext, next_marchDate_last ⟨hge, hle⟩, if_neg (by omega), ← hfull, Int.sub_self]
    rw [monthLength_marchDate hge hearlier]
    omega

/-- **The date of the next day is the next date.** -/
theorem toCivil_succ (n : Int) : toCivil (n + 1) = (toCivil n).next := by
  obtain ⟨y, t, hday, hleap, heq, -⟩ := exists_toCivil_eq n
  have h : YearDay n y t := ⟨hday, hleap, heq⟩
  by_cases hlast : IsLast y t
  · rw [h.toCivil_eq, next_yearDate_last hlast, (h.succ_of_isLast hlast).toCivil_eq]
  · rw [h.toCivil_eq, next_yearDate (h.lt_of_not_isLast hlast), (h.succ hlast).toCivil_eq]

-- years before the first count down through the year `0`, which is a leap year
example :
    toCivil (ofCivil { year := -4, month := 2, day := 28 } + 1) =
        { year := -4, month := 2, day := 29 } ∧
      toCivil (ofCivil { year := -100, month := 2, day := 28 } + 1) =
        { year := -100, month := 3, day := 1 } := by
  decide

/-! ## Day by day -/

theorem iterate_next (k : Nat) (n : Int) : Civil.next^[k] (toCivil n) = toCivil (n + k) := by
  induction k with
  | zero => rw [Function.iterate_zero_apply, Int.natCast_zero, Int.add_zero]
  | succ k ih =>
    rw [Function.iterate_succ_apply', ih, ← toCivil_succ, Int.natCast_succ, Int.add_assoc]

theorem toCivil_injective : Function.Injective toCivil :=
  Function.LeftInverse.injective ofCivil_toCivil

/-- `c.DaysOn k c'`: going on from `c` for `k` days, one after the other, leads to
    `c'`.  If `k` is negative, going on from `c'` for `-k` days leads to `c`. -/
def Civil.DaysOn (c : Civil) (k : Int) (c' : Civil) : Prop :=
  Civil.next^[k.toNat] c = Civil.next^[(-k).toNat] c'

/-- **Going through the calendar** day by day is addition on the count of days. -/
theorem daysOn_toCivil_iff {n k m : Int} :
    (toCivil n).DaysOn k (toCivil m) ↔ m = n + k := by
  unfold Civil.DaysOn
  rw [iterate_next, iterate_next, toCivil_injective.eq_iff]
  omega

/-! ## Moving a date-time -/

namespace DateTime

/-- `d.IsMoved k d'`: the date of `d'` is that of `d`, `k` days on, and the time of
    day is the same. -/
def IsMoved (d : DateTime) (k : Int) (d' : DateTime) : Prop :=
  d.civil.DaysOn k d'.civil ∧ d'.nanos = d.nanos

theorem isMoved_iff {d d' : DateTime} {k : Int} :
    d.IsMoved k d' ↔ d'.day = d.day + k ∧ d'.nanos = d.nanos := by
  unfold IsMoved civil
  rw [daysOn_toCivil_iff]

/-- **Moving a date-time** gives the one that is so many days on. -/
theorem addDays?_eq_some_iff {d d' : DateTime} {k : Int} :
    d.addDays? k = some d' ↔ d.IsMoved k d' := by
  rw [isMoved_iff]
  unfold addDays? ofDay?
  constructor
  · intro h
    split at h
    · cases h
      exact ⟨rfl, rfl⟩
    · cases h
  · rintro ⟨hday, hnanos⟩
    rw [← hday, ← hnanos, dif_pos ⟨d'.day_ge, d'.day_le, d'.nanos_lt⟩]

/-- It fails exactly beyond the first and the last day. -/
theorem addDays?_eq_none_iff {d : DateTime} {k : Int} :
    d.addDays? k = none ↔ ¬ (firstDay ≤ d.day + k ∧ d.day + k ≤ lastDay) := by
  have hnanos := d.nanos_lt
  unfold addDays? ofDay?
  rw [dite_eq_right_iff]
  constructor
  · rintro h ⟨hge, hle⟩
    cases h ⟨hge, hle, hnanos⟩
  · rintro h ⟨hge, hle, -⟩
    exact absurd ⟨hge, hle⟩ h

end DateTime

/-- The first day is the first of January of the year `-262143`, and the last one
    the last of December of the year `262142`. -/
theorem firstDay_lastDay :
    firstDay = ofCivil { year := -262143, month := 1, day := 1 } ∧
      lastDay = ofCivil { year := 262142, month := 12, day := 31 } := by
  decide

end Calendar

open Calendar (DateTime ofCivil firstDay lastDay)

/-! ## Adding days and taking them away -/

namespace Standard

/-- The failure to move a date. -/
def outOfRange : Except EvalError Value :=
  .error (.function "add_days" "date out of range")

theorem addDays_eq_ok_iff {d d' : DateTime} {k : Int} :
    addDays d k = .ok (.date d') ↔ d.IsMoved k d' := by
  rw [← DateTime.addDays?_eq_some_iff]
  unfold addDays
  cases d.addDays? k <;> simp

/-- A move leads to a day of the calendar, or it fails. -/
theorem addDays_cases (d : DateTime) (k : Int) :
    (firstDay ≤ d.day + k ∧ d.day + k ≤ lastDay) ∧ (∃ d', addDays d k = .ok (.date d')) ∨
      ¬ (firstDay ≤ d.day + k ∧ d.day + k ≤ lastDay) ∧ addDays d k = outOfRange := by
  unfold addDays
  cases hmoved : d.addDays? k with
  | some d' =>
    refine Or.inl ⟨?_, d', rfl⟩
    by_contra hout
    rw [DateTime.addDays?_eq_none_iff.mpr hout] at hmoved
    cases hmoved
  | none => exact Or.inr ⟨DateTime.addDays?_eq_none_iff.mp hmoved, rfl⟩

/-- No two days of the calendar are further apart than the first and the last. -/
theorem addDays_far {d : DateTime} {k : Int} (h : k < -191491528 ∨ 191491528 < k) :
    addDays d k = outOfRange := by
  have hge := d.day_ge
  have hle := d.day_le
  rcases addDays_cases d k with ⟨hrange, -⟩ | ⟨-, hfails⟩
  · unfold firstDay lastDay at *
    omega
  · exact hfails

end Standard

/-- Taking days away is adding their opposite.  The least number has none, but so
    many days lead beyond the calendar anyway. -/
theorem subtractDays_eq (d : DateTime) (a : Int64) :
    subtractDays d a = Standard.addDays d (-a.toInt) := by
  unfold subtractDays
  cases hkept : Number.int64? (-a.toInt) with
  | some n =>
    show Standard.addDays d n.toInt = _
    rw [Number.int64?_eq_some_iff.mp hkept]
  | none =>
    have hfits : ¬ Number.fits (-a.toInt) = true := by
      simp [Number.int64?_eq_none_iff.mp hkept]
    rw [Number.fits_iff, Int64.toInt_minValue, Int64.toInt_maxValue] at hfits
    have hge := a.le_toInt
    exact (Standard.addDays_far (by omega)).symm

theorem Number.toInt_neg_of_ne {a : Int64} (h : a ≠ Int64.minValue) : (-a).toInt = -a.toInt := by
  have hge := a.le_toInt
  have hlt := a.toInt_lt
  have hne : a.toInt ≠ -2 ^ 63 := by
    rw [← Int64.toInt_minValue]
    exact fun heq => h (Int64.toInt_inj.mp heq)
  rw [Int64.toInt_neg]
  exact Int.bmod_eq_of_le (by omega) (by omega)

/-! ## The operators -/

open Standard (outOfRange addDays_eq_ok_iff addDays_cases addDays_far)

/-- Milliseconds in a day. -/
def millisPerDay : Int := 86400000

/-- The laws of adding days to a date and of taking them away. -/
structure MovesByDays (plus minus : DateTime → Int64 → Except EvalError Value) : Prop where
  /-- What is added can be taken away again, and the time of day stays. -/
  reversible : ∀ d a d', plus d a = .ok (.date d') →
    minus d' a = .ok (.date d) ∧ d'.nanos = d.nanos
  /-- To add one number of days and then another is to add their sum. -/
  additive : ∀ d a b c d' d'', plus d a = .ok (.date d') → plus d' b = .ok (.date d'') →
    c.toInt = a.toInt + b.toInt → plus d c = .ok (.date d'')
  /-- To take away is to add the opposite. -/
  opposite : ∀ d a, a ≠ Int64.minValue → minus d a = plus d (-a)
  /-- The least number, which has no opposite, leads nowhere. -/
  least : ∀ d, plus d Int64.minValue = outOfRange ∧ minus d Int64.minValue = outOfRange
  /-- Either there is a date, or the one failure of moving a date. -/
  outcome : ∀ d a, ((∃ d', plus d a = .ok (.date d')) ∨ plus d a = outOfRange) ∧
    ((∃ d', minus d a = .ok (.date d')) ∨ minus d a = outOfRange)
  /-- A date is the one that is so many days of the calendar on, or back. -/
  calendar : ∀ d a d', (plus d a = .ok (.date d') ↔ d.IsMoved a.toInt d') ∧
    (minus d a = .ok (.date d') ↔ d.IsMoved (-a.toInt) d')
  /-- There is one exactly between the first and the last day of the calendar. -/
  range : ∀ d a, (∃ d', plus d a = .ok (.date d')) ↔
    ofCivil { year := -262143, month := 1, day := 1 } ≤ ofCivil d.civil + a.toInt ∧
      ofCivil d.civil + a.toInt ≤ ofCivil { year := 262142, month := 12, day := 31 }
  /-- There is none if the milliseconds of the days do not fit. -/
  duration : ∀ d a, Number.fits (a.toInt * millisPerDay) = false →
    plus d a = outOfRange ∧ minus d a = outOfRange

/-- A date with a number of days added or taken away. -/
def Expr.movedBy (op : BinaryOp) (d : DateTime) (days : Int64) : Expr :=
  .binary op (.ofValue (.date d)) (.ofValue (.int days))

/-- **Dates move by days**: adding days to a date, and taking them away, obeys the
    laws of the calendar. -/
theorem evalIn_movesByDays (lib : Library) (scope : Scope) :
    MovesByDays (fun d a => (Expr.movedBy .add d a).evalIn lib scope)
      (fun d a => (Expr.movedBy .subtract d a).evalIn lib scope) := by
  have hplus : ∀ d a, (Expr.movedBy .add d a).evalIn lib scope = Standard.addDays d a.toInt :=
    fun _ _ => rfl
  have hminus : ∀ d a, (Expr.movedBy .subtract d a).evalIn lib scope =
      Standard.addDays d (-a.toInt) := subtractDays_eq
  simp only [hplus, hminus]
  constructor
  case reversible =>
    intro d a d' h
    rw [addDays_eq_ok_iff, DateTime.isMoved_iff] at *
    exact ⟨by omega, h.2⟩
  case additive =>
    intro d a b c d' d'' h h' hsum
    rw [addDays_eq_ok_iff, DateTime.isMoved_iff] at *
    omega
  case opposite =>
    intro d a hleast
    rw [Number.toInt_neg_of_ne hleast]
  case least =>
    intro d
    rw [Int64.toInt_minValue]
    exact ⟨addDays_far (by omega), addDays_far (by omega)⟩
  case outcome =>
    intro d a
    refine ⟨(addDays_cases d a.toInt).imp ?_ ?_, (addDays_cases d (-a.toInt)).imp ?_ ?_⟩
    all_goals exact fun h => h.2
  case calendar =>
    intro d a d'
    exact ⟨addDays_eq_ok_iff, addDays_eq_ok_iff⟩
  case range =>
    intro d a
    obtain ⟨hfirst, hlast⟩ := Calendar.firstDay_lastDay
    have hcount : ofCivil d.civil = d.day := Calendar.ofCivil_toCivil d.day
    rw [← hfirst, ← hlast, hcount]
    rcases addDays_cases d a.toInt with ⟨hrange, hmoved⟩ | ⟨hout, hfails⟩
    · exact iff_of_true hmoved hrange
    · refine iff_of_false ?_ hout
      rintro ⟨d', hmoved⟩
      rw [hfails] at hmoved
      cases hmoved
  case duration =>
    intro d a h
    -- the milliseconds reach far beyond the calendar
    have hlong : ¬ Number.fits (a.toInt * millisPerDay) = true := by simp [h]
    rw [Number.fits_iff, Int64.toInt_minValue, Int64.toInt_maxValue] at hlong
    unfold millisPerDay at hlong
    exact ⟨addDays_far (by omega), addDays_far (by omega)⟩

end IssueSearch

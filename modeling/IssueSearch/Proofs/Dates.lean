import IssueSearch.Calendar.Text
import IssueSearch.Proofs.Tokens
import Mathlib.Data.List.TakeWhile

/-! # Dates that are read back

    A day of the calendar is told by its year, month and day, and a date-time
    by its interchange form.

    * `CycleDay`: a day of a cycle of four hundred years by century, group of
      four years, year and day of the year.
    * `ofCivil_toCivil`, `isValid_toCivil`: the date of a day exists, and it is
      the date of no other day.
    * `DateTime.read?_interchange`: reading the interchange form gives back the
      date-time. -/

namespace IssueSearch.Calendar

/-! ## Days of a cycle -/

/-- `CycleDay n c q r t`: the `n`-th day of a cycle is the `t`-th day of the
    `r`-th year of the `q`-th group of the `c`-th century, all counted from
    zero.  A year has a leap day only if it is the last of its group, and not
    in the last group of a century unless that century is the last. -/
structure CycleDay (n c q r t : Int) : Prop where
  century : 0 ≤ c ∧ c ≤ 3
  group   : 0 ≤ q ∧ q ≤ 24
  year    : 0 ≤ r ∧ r ≤ 3
  day     : 0 ≤ t ∧ t ≤ 365
  leap    : t = 365 → r = 3 ∧ (q ≤ 23 ∨ c = 3)
  eq      : n = 36524 * c + 1461 * q + 365 * r + t

theorem exists_cycleDay {n : Int} (hge : 0 ≤ n) (hlt : n < cycleDays) :
    ∃ c q r t, CycleDay n c q r t := by
  unfold cycleDays at hlt
  -- the last century and the last year of a group may be one day longer
  obtain ⟨c, hc⟩ : ∃ c, c = min 3 (n / 36524) := ⟨_, rfl⟩
  obtain ⟨q, hq⟩ : ∃ q, q = (n - 36524 * c) / 1461 := ⟨_, rfl⟩
  obtain ⟨r, hr⟩ : ∃ r, r = min 3 ((n - 36524 * c - 1461 * q) / 365) := ⟨_, rfl⟩
  refine ⟨c, q, r, n - 36524 * c - 1461 * q - 365 * r, ?_, ?_, ?_, ?_, ?_, ?_⟩ <;> omega

namespace CycleDay

variable {n c q r t : Int}

/-- The year of the cycle, as it is computed from the day. -/
theorem yearOfCycle_eq (h : CycleDay n c q r t) :
    (n - n / 1460 + n / 36524 - n / 146096) / 365 = 100 * c + 4 * q + r := by
  obtain ⟨hc, hq, hr, ht, hleap, hn⟩ := h
  have hlast : 1461 * q + 365 * r + t ≤ 36523 ∨ c = 3 ∧ n = 146096 := by omega
  have hcenturies : n / 36524 - n / 146096 = c := by
    rcases hlast with hrest | ⟨rfl, rfl⟩
    · have hcentury : n / 36524 = c := by omega
      have hcycle : n / 146096 = 0 := by omega
      omega
    · rfl
  -- the leap days so far are one too many at most, and not on the first day of a year
  have hgroups : n / 1460 = 25 * c + q ∧ t ≤ 364 ∨ n / 1460 = 25 * c + q + 1 ∧ 1 ≤ t := by omega
  omega

/-- The days before the year and the day of the year make up the day. -/
theorem daysBeforeYear_eq (h : CycleDay n c q r t) :
    n - daysBeforeYear (100 * c + 4 * q + r) = t := by
  obtain ⟨hc, hq, hr, ht, hleap, hn⟩ := h
  unfold daysBeforeYear
  omega

/-- The leap day comes last, so it belongs to the calendar year that begins
    during the year. -/
theorem isLeap_iff (h : CycleDay n c q r t) (cycle : Int) :
    isLeap (cycle * 400 + (100 * c + 4 * q + r) + 1) = true ↔ r = 3 ∧ (q ≤ 23 ∨ c = 3) := by
  obtain ⟨hc, hq, hr, ht, hleap, hn⟩ := h
  unfold isLeap
  simp only [Bool.and_eq_true, Bool.or_eq_true, beq_iff_eq, bne_iff_ne]
  omega

end CycleDay

/-! ## Days and dates -/

/-- The date of the day `d` of the month `m` of the year `y`, where months count
    from March and days from zero. -/
def marchDate (y m d : Int) : Civil :=
  if m < 10 then { year := y, month := (m + 3).toNat, day := (d + 1).toNat }
  else { year := y + 1, month := (m - 9).toNat, day := (d + 1).toNat }

theorem ofCivil_marchDate {y m d : Int} (hm : 0 ≤ m) (hm' : m ≤ 11) (hd : 0 ≤ d) :
    ofCivil (marchDate y m d) =
      y / 400 * cycleDays + daysBeforeYear (y % 400) + daysBeforeMonth m + d - epochShift := by
  unfold marchDate
  by_cases hspring : m < 10
  · rw [if_pos hspring]
    have hmonth : ¬ (m + 3).toNat ≤ 2 := by omega
    have hback : ((m + 3).toNat : Int) - 3 = m := by omega
    have hday : ((d + 1).toNat : Int) - 1 = d := by omega
    simp only [ofCivil, if_neg hmonth, hback, hday]
  · rw [if_neg hspring]
    have hmonth : (m - 9).toNat ≤ 2 := by omega
    have hback : ((m - 9).toNat : Int) + 9 = m := by omega
    have hday : ((d + 1).toNat : Int) - 1 = d := by omega
    have hyear : y + 1 - 1 = y := by omega
    simp only [ofCivil, if_pos hmonth, hback, hday, hyear]

@[simp] theorem marchDate_day (y m d : Int) : (marchDate y m d).day = (d + 1).toNat := by
  unfold marchDate
  split <;> rfl

/-- A month ends where the next one begins.  February, which comes last, ends
    with the year. -/
theorem monthLength_marchDate {m : Int} (hm : 0 ≤ m) (hm' : m ≤ 10) (y d : Int) :
    (monthLength (marchDate y m d).year (marchDate y m d).month : Int) =
      daysBeforeMonth (m + 1) - daysBeforeMonth m := by
  obtain rfl | rfl | rfl | rfl | rfl | rfl | rfl | rfl | rfl | rfl | rfl :
      m = 0 ∨ m = 1 ∨ m = 2 ∨ m = 3 ∨ m = 4 ∨ m = 5 ∨ m = 6 ∨ m = 7 ∨ m = 8 ∨ m = 9 ∨
        m = 10 := by omega
  all_goals rfl

/-- The month of a day of the year. -/
theorem monthOfDay {t : Int} (ht : 0 ≤ t ∧ t ≤ 365) :
    0 ≤ (5 * t + 2) / 153 ∧ (5 * t + 2) / 153 ≤ 11 ∧
      daysBeforeMonth ((5 * t + 2) / 153) ≤ t ∧ t < daysBeforeMonth ((5 * t + 2) / 153 + 1) := by
  unfold daysBeforeMonth
  omega

theorem isValid_iff (c : Civil) :
    c.isValid = true ↔ 1 ≤ c.day ∧ c.day ≤ monthLength c.year c.month := by
  simp [Civil.isValid]

/-- The date exists if the last day of February is left out of other than leap
    years. -/
theorem isValid_marchDate {y t : Int} (ht : 0 ≤ t ∧ t ≤ 365)
    (hleap : t = 365 → isLeap (y + 1) = true) :
    (marchDate y ((5 * t + 2) / 153) (t - daysBeforeMonth ((5 * t + 2) / 153))).isValid =
      true := by
  obtain ⟨hge, hle, hfrom, huntil⟩ := monthOfDay ht
  generalize (5 * t + 2) / 153 = m at *
  rw [isValid_iff, marchDate_day]
  obtain hearlier | rfl : m ≤ 10 ∨ m = 11 := by omega
  · have hlength := monthLength_marchDate hge hearlier y (t - daysBeforeMonth m)
    omega
  · -- February, which is as long as the year makes it
    have hstart : 337 ≤ t := hfrom
    show 1 ≤ (t - 337 + 1).toNat ∧ (t - 337 + 1).toNat ≤ if isLeap (y + 1) then 29 else 28
    by_cases hlast : t = 365
    · rw [if_pos (hleap hlast)]
      omega
    · split <;> omega

/-- The date of a day, in years and months that count from March. -/
theorem exists_toCivil_eq (n : Int) :
    ∃ y t, (0 ≤ t ∧ t ≤ 365) ∧ (t = 365 → isLeap (y + 1) = true) ∧
      n + epochShift = y / 400 * cycleDays + daysBeforeYear (y % 400) + t ∧
      toCivil n =
        marchDate y ((5 * t + 2) / 153) (t - daysBeforeMonth ((5 * t + 2) / 153)) := by
  have hpos : (0 : Int) < cycleDays := by decide
  have hge := Int.emod_nonneg (n + epochShift) (Int.ne_of_gt hpos)
  have hlt := Int.emod_lt_of_pos (n + epochShift) hpos
  obtain ⟨c, q, r, t, hday⟩ := exists_cycleDay hge hlt
  -- the year that begins in March, over all cycles
  obtain ⟨y, hy⟩ : ∃ y, y = (n + epochShift) / cycleDays * 400 + (100 * c + 4 * q + r) := ⟨_, rfl⟩
  have hbounds : 0 ≤ 100 * c + 4 * q + r ∧ 100 * c + 4 * q + r < 400 := by
    obtain ⟨hc, hq, hr, -, -, -⟩ := hday
    omega
  have hcycle : y / 400 = (n + epochShift) / cycleDays := by omega
  have hyear : y % 400 = 100 * c + 4 * q + r := by omega
  refine ⟨y, t, hday.day, ?_, ?_, ?_⟩
  · intro hlast
    rw [hy, hday.isLeap_iff]
    exact hday.leap hlast
  · have hsplit := Int.emod_add_mul_ediv (n + epochShift) cycleDays
    have hbefore := hday.daysBeforeYear_eq
    rw [hcycle, hyear, Int.mul_comm]
    omega
  · unfold toCivil marchDate
    simp only [hday.yearOfCycle_eq, hday.daysBeforeYear_eq, hy]

/-- The date of every day exists. -/
theorem isValid_toCivil (n : Int) : (toCivil n).isValid = true := by
  obtain ⟨y, t, ht, hleap, -, hcivil⟩ := exists_toCivil_eq n
  rw [hcivil]
  exact isValid_marchDate ht hleap

/-- **Days are told by their dates.** -/
theorem ofCivil_toCivil (n : Int) : ofCivil (toCivil n) = n := by
  obtain ⟨y, t, ht, -, hn, hcivil⟩ := exists_toCivil_eq n
  obtain ⟨hge, hle, hfrom, -⟩ := monthOfDay ht
  rw [hcivil, ofCivil_marchDate hge hle (by omega)]
  omega

/-! ## Runs of digits -/

theorem digitsValue_eq (ds : List Char) : digitsValue ds = Nat.ofDigitChars 10 ds 0 := by
  simp only [digitsValue, Nat.ofDigitChars, Nat.mul_comm]

/-- Zeros in front do not count. -/
theorem digitsValue_padded (width n : Nat) : digitsValue (padded width n).toList = n := by
  have hzeros : ∀ k, Nat.ofDigitChars 10 (List.replicate k '0') 0 = 0 := by
    intro k
    induction k with
    | zero => rfl
    | succ k ih => exact ih
  rw [digitsValue_eq, padded, String.toList_ofList, Nat.ofDigitChars_append, hzeros]
  exact Nat.ofDigitChars_ten_toDigits

theorem length_padded {width n : Nat} (hwidth : 0 < width) (h : n < Nat.pow 10 width) :
    (padded width n).toList.length = width := by
  have hdigits := (Nat.length_toDigits_le_iff (by decide) hwidth).mpr h
  simp only [padded, String.toList_ofList, List.length_append, List.length_replicate]
  omega

theorem padded_ne_nil (width n : Nat) : (padded width n).toList ≠ [] := by
  simp [padded, Nat.toDigits_ne_nil]

/-- A run of digits is taken off the front if it is as long as it may be, or if
    no digit follows it. -/
theorem number?_append {limit : Nat} {ds rest : List Char} (hds : ∀ c ∈ ds, c.isDigit = true)
    (hne : ds ≠ []) (hlimit : ds.length ≤ limit)
    (hrest : ds.length = limit ∨ NoDigitAhead rest) :
    number? limit (ds ++ rest) = some (digitsValue ds, rest) := by
  have hnone : (rest.take (limit - ds.length)).takeWhile Char.isDigit = [] := by
    rcases hrest with hfull | hahead
    · rw [hfull, Nat.sub_self, List.take_zero]
      rfl
    · cases rest with
      | nil => simp
      | cons c more =>
        have hc : c.isDigit = false := hahead c rfl
        cases limit - ds.length with
        | zero => rfl
        | succ k => simp [hc]
  have hrun : ((ds ++ rest).take limit).takeWhile Char.isDigit = ds := by
    rw [List.take_append, List.take_of_length_le hlimit, List.takeWhile_append_of_pos hds, hnone,
      List.append_nil]
  unfold number?
  -- what is dropped is as long as the run
  simp only [hrun, List.isEmpty_iff, if_neg hne, List.drop_left]

/-! ## Columns and marks -/

theorem isBlank_of_isDigit {c : Char} (h : c.isDigit = true) : Text.isBlank c = false := by
  have hrange : 48 ≤ c.toNat ∧ c.toNat ≤ 57 := by
    simpa [Char.isDigit, UInt32.le_iff_toNat_le] using h
  simp only [Text.isBlank, Text.blankRuns, List.any_cons, List.any_nil, Bool.or_false]
  simp only [Bool.or_eq_false_iff, Bool.and_eq_false_iff, decide_eq_false_iff_not]
  omega

/-- There are no blanks to drop before a digit. -/
theorem dropBlanks_append {ds rest : List Char} (hds : ∀ c ∈ ds, c.isDigit = true)
    (hne : ds ≠ []) : Text.dropBlanks (ds ++ rest) = ds ++ rest := by
  cases ds with
  | nil => exact absurd rfl hne
  | cons c more =>
    have hc := isBlank_of_isDigit (hds c List.mem_cons_self)
    simp [Text.dropBlanks, hc]

theorem column?_padded {n : Nat} (h : n < 100) (rest : List Char) :
    column? ((padded 2 n).toList ++ rest) = some (n, rest) := by
  have hlength : (padded 2 n).toList.length = 2 := length_padded (by decide) h
  unfold column?
  rw [dropBlanks_append (padded_isDigit 2 n) (padded_ne_nil 2 n),
    number?_append (padded_isDigit 2 n) (padded_ne_nil 2 n) (Nat.le_of_eq hlength) (Or.inl hlength),
    digitsValue_padded]

theorem mark?_cons {c : Char} (h : Text.isBlank c = false) (rest : List Char) :
    mark? c (c :: rest) = some rest := by
  simp [mark?, Text.dropBlanks, h]

theorem year?_minus (rest : List Char) :
    year? ('-' :: rest) = (number? rest.length rest).map fun (n, r) => (-(n : Int), r) := rfl

theorem year?_plus (rest : List Char) :
    year? ('+' :: rest) = (number? rest.length rest).map fun (n, r) => ((n : Int), r) := rfl

theorem year?_digits {ds rest : List Char} (hds : ∀ c ∈ ds, c.isDigit = true) (hne : ds ≠ []) :
    year? (ds ++ rest) = (number? 4 (ds ++ rest)).map fun (n, r) => ((n : Int), r) := by
  unfold year?
  rw [dropBlanks_append hds hne]
  cases ds with
  | nil => exact absurd rfl hne
  | cons c more =>
    have hc := hds c List.mem_cons_self
    split
    · rename_i heq
      rw [(List.cons.inj heq).1] at hc
      exact absurd hc (by decide)
    · rename_i heq
      rw [(List.cons.inj heq).1] at hc
      exact absurd hc (by decide)
    · rfl

/-- A year is read up to the mark after it. -/
theorem year?_yearText (year : Int) {rest : List Char} (hrest : NoDigitAhead rest) :
    year? ((yearText year).toList ++ rest) = some (year, rest) := by
  have hdigits := padded_isDigit 4 year.natAbs
  have hne := padded_ne_nil 4 year.natAbs
  -- after a sign there may be any number of digits
  have hsigned : number? ((padded 4 year.natAbs).toList ++ rest).length
      ((padded 4 year.natAbs).toList ++ rest) = some (year.natAbs, rest) := by
    rw [number?_append hdigits hne (by simp) (Or.inr hrest), digitsValue_padded]
  by_cases hneg : year < 0
  · have htext : (yearText year).toList = '-' :: (padded 4 year.natAbs).toList := by
      simp [yearText, hneg]
    have hvalue : -(year.natAbs : Int) = year := by omega
    simp only [htext, List.cons_append, year?_minus, hsigned, Option.map_some, hvalue]
  · have hvalue : (year.natAbs : Int) = year := by omega
    by_cases hlarge : 9999 < year
    · have htext : (yearText year).toList = '+' :: (padded 4 year.natAbs).toList := by
        simp [yearText, hneg, hlarge]
      simp only [htext, List.cons_append, year?_plus, hsigned, Option.map_some, hvalue]
    · have htext : yearText year = padded 4 year.natAbs := by
        simp [yearText, hneg, hlarge]
      have hlength : (padded 4 year.natAbs).toList.length = 4 :=
        length_padded (by decide) (show year.natAbs < 10000 by omega)
      have hunsigned : number? 4 ((padded 4 year.natAbs).toList ++ rest) = some (_, rest) :=
        number?_append hdigits hne (Nat.le_of_eq hlength) (Or.inl hlength)
      simp only [htext, year?_digits hdigits hne, hunsigned, digitsValue_padded, Option.map_some,
        hvalue]

/-- A fraction of three, six or nine digits is read as the nanoseconds that it
    stands for. -/
theorem fraction?_padded {width n : Nat} (hwidth : 0 < width) (hwidth' : width ≤ 9)
    (h : n < Nat.pow 10 width) :
    fraction? ('.' :: (padded width n).toList) = some (n * Nat.pow 10 (9 - width), []) := by
  have hlength := length_padded hwidth h
  have hall : (padded width n).toList.takeWhile Char.isDigit = (padded width n).toList :=
    List.takeWhile_eq_self_iff.mpr (padded_isDigit width n)
  have hdrop : (padded width n).toList.drop width = [] :=
    List.drop_eq_nil_of_le (Nat.le_of_eq hlength)
  have hkept : (padded width n).toList.take 9 = (padded width n).toList :=
    List.take_of_length_le (by omega)
  simp only [fraction?, hall, hkept, List.isEmpty_iff, if_neg (padded_ne_nil width n),
    digitsValue_padded, hlength, hdrop]

theorem fraction?_fractionText {nano : Nat} (h : nano < nanosPerSecond) :
    fraction? (fractionText nano).toList = some (nano, []) := by
  unfold nanosPerSecond at h
  have hread : ∀ width n, 0 < width → width ≤ 9 → n < Nat.pow 10 width →
      n * Nat.pow 10 (9 - width) = nano →
      fraction? ("." ++ padded width n).toList = some (nano, []) := by
    intro width n hwidth hwidth' hn hvalue
    rw [← hvalue, ← fraction?_padded hwidth hwidth' hn]
    simp
  unfold fractionText
  by_cases hzero : nano = 0
  · rw [if_pos hzero, hzero]
    rfl
  · rw [if_neg hzero]
    split
    · exact hread 3 _ (by decide) (by decide) (show nano / 1000000 < 1000 by omega)
        (show nano / 1000000 * 1000000 = nano by omega)
    · split
      · exact hread 6 _ (by decide) (by decide) (show nano / 1000 < 1000000 by omega)
          (show nano / 1000 * 1000 = nano by omega)
      · exact hread 9 _ (by decide) (by decide) h (Nat.mul_one nano)

/-! ## Date-times -/

namespace DateTime

/-- Month and day have two digits at most. -/
theorem civil_lt (d : DateTime) : d.civil.month < 100 ∧ d.civil.day < 100 := by
  have hvalid : d.civil.isValid = true := isValid_toCivil d.day
  obtain ⟨hday, hlength⟩ := (isValid_iff _).mp hvalid
  have hmonths : ∀ year month, monthLength year month ≤ 31 ∧
      (1 ≤ monthLength year month → month ≤ 12) := by
    intro year month
    unfold monthLength
    repeat' split
    all_goals omega
  obtain ⟨hlong, hmonth⟩ := hmonths d.civil.year d.civil.month
  have hexists := hmonth (by omega)
  omega

/-- The clock time of a date-time. -/
theorem nanosOfClock?_eq (d : DateTime) :
    nanosOfClock? d.hour d.minute d.second d.nano = some d.nanos := by
  have hlt := d.nanos_lt
  unfold nanosOfClock? hour minute second nano
  unfold nanosPerDay nanosPerSecond at *
  rw [if_pos (by omega)]
  simp only [Option.some.injEq]
  omega

theorem ofCivil?_civil (d : DateTime) : ofCivil? d.civil d.nanos = some d := by
  unfold ofCivil? civil
  rw [if_pos (isValid_toCivil d.day), ofCivil_toCivil, ofDay?,
    dif_pos ⟨d.day_ge, d.day_le, d.nanos_lt⟩]

theorem clock_lt (d : DateTime) :
    d.hour < 100 ∧ d.minute < 100 ∧ d.second < 100 ∧ d.nano < nanosPerSecond := by
  have hlt := d.nanos_lt
  unfold hour minute second nano
  unfold nanosPerDay nanosPerSecond at *
  omega

theorem interchange_toList (d : DateTime) :
    d.interchange.toList =
      (yearText d.civil.year).toList ++ '-' :: ((padded 2 d.civil.month).toList ++
        '-' :: ((padded 2 d.civil.day).toList ++ 'T' :: ((padded 2 d.hour).toList ++
          ':' :: ((padded 2 d.minute).toList ++ ':' :: ((padded 2 d.second).toList ++
            (fractionText d.nano).toList))))) := by
  simp [interchange, dateText, clockText, List.append_assoc]

/-- **Date-times are read back**: the interchange form of a date-time reads as
    that date-time. -/
theorem read?_interchange (d : DateTime) : read? d.interchange = some d := by
  obtain ⟨hmonth, hday⟩ := civil_lt d
  obtain ⟨hhour, hminute, hsecond, hnano⟩ := clock_lt d
  have hminus : ∀ rest, mark? '-' ('-' :: rest) = some rest := mark?_cons (by decide)
  have hmiddle : ∀ rest, mark? 'T' ('T' :: rest) = some rest := mark?_cons (by decide)
  have hcolon : ∀ rest, mark? ':' (':' :: rest) = some rest := mark?_cons (by decide)
  have hyear : ∀ rest, year? ((yearText d.civil.year).toList ++ '-' :: rest) =
      some (d.civil.year, '-' :: rest) := by
    intro rest
    exact year?_yearText _ (by rintro c ⟨⟩; rfl)
  unfold read?
  rw [interchange_toList]
  simp only [hyear, hminus, hmiddle, hcolon, column?_padded hmonth, column?_padded hday,
    column?_padded hhour, column?_padded hminute, column?_padded hsecond,
    fraction?_fractionText hnano, Option.bind_eq_bind, Option.bind_some, nanosOfClock?_eq,
    Text.dropBlanks, List.dropWhile_nil, List.isEmpty_nil, if_true]
  exact ofCivil?_civil d

end DateTime

end IssueSearch.Calendar

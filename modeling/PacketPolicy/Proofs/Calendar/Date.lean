import PacketPolicy.Calendar.Reader

/-!
This module contains the proof that the count of days follows the calendar: over the ends of months
and years and over leap days, every day counts one more than the day before it.
-/

namespace PacketPolicy
namespace Date

variable {d d' : Date} {year year' : Int} {month month' : Nat}

def Before (d d' : Date) : Prop :=
  d.year < d'.year ∨ d.year = d'.year ∧ (d.month < d'.month ∨ d.month = d'.month ∧ d.day < d'.day)

instance : LT Date := ⟨Before⟩

instance : LE Date := ⟨fun d d' => d < d' ∨ d = d'⟩

instance (d d' : Date) : Decidable (d < d') :=
  inferInstanceAs
    (Decidable (d.year < d'.year ∨ d.year = d'.year
      ∧ (d.month < d'.month ∨ d.month = d'.month ∧ d.day < d'.day)))

instance (d d' : Date) : Decidable (d ≤ d') := inferInstanceAs (Decidable (d < d' ∨ d = d'))

theorem daysInMonth_pos (year : Int) (month : Nat) : 1 ≤ daysInMonth year month := by
  unfold daysInMonth
  grind

theorem daysBeforeMonth_le (year : Int) (hmonth : 1 ≤ month) (h : month ≤ month') :
    daysBeforeMonth year month ≤ daysBeforeMonth year month' := by
  induction h with
  | refl => exact Nat.le_refl _
  | step h ih =>
    rw [Nat.succ_eq_add_one, daysBeforeMonth_succ year (Nat.le_trans hmonth h)]
    omega

theorem daysBeforeYear_le (h : year ≤ year') : daysBeforeYear year ≤ daysBeforeYear year' := by
  simp only [daysBeforeYear]
  omega

theorem toDays_bounds (d : Date) :
    daysBeforeYear d.year + daysBeforeMonth d.year d.month ≤ d.toDays
      ∧ d.toDays < daysBeforeYear d.year + daysBeforeMonth d.year (d.month + 1) := by
  have hvalid := isValid_iff.mp d.valid
  rw [daysBeforeMonth_succ d.year hvalid.1, toDays]
  omega

theorem toDays_lt_year (d : Date) : d.toDays < daysBeforeYear (d.year + 1) := by
  have hvalid := isValid_iff.mp d.valid
  have hyear := daysBeforeMonth_le d.year (Nat.le_add_left 1 d.month) (by omega : d.month + 1 ≤ 13)
  have hbounds := d.toDays_bounds
  rw [daysBeforeYear_succ]
  omega

theorem toDays_lt_of_lt (h : d < d') : d.toDays < d'.toDays := by
  have hbounds := d.toDays_bounds
  have hbounds' := d'.toDays_bounds
  obtain hyear | ⟨hyear, hmonth | ⟨hmonth, hday⟩⟩ := h
  . have hless := d.toDays_lt_year
    have hle := daysBeforeYear_le (by omega : d.year + 1 ≤ d'.year)
    omega
  . have hle := daysBeforeMonth_le d.year (Nat.le_add_left 1 d.month) hmonth
    rw [← hyear] at hbounds'
    omega
  . simp only [toDays, hyear, hmonth]
    omega

theorem lt_or_eq_or_lt (d d' : Date) : d < d' ∨ d = d' ∨ d' < d := by
  obtain ⟨year, month, day, _⟩ := d
  obtain ⟨year', month', day', _⟩ := d'
  show Before _ _ ∨ _ ∨ Before _ _
  simp only [Before, mk.injEq]
  omega

theorem lt_iff_toDays_lt : d < d' ↔ d.toDays < d'.toDays := by
  constructor
  . exact toDays_lt_of_lt
  . intro h
    obtain hlt | rfl | hgt := lt_or_eq_or_lt d d'
    . exact hlt
    . omega
    . have := toDays_lt_of_lt hgt
      omega

theorem toDays_inj : d.toDays = d'.toDays ↔ d = d' := by
  constructor
  . intro h
    obtain hlt | heq | hgt := lt_or_eq_or_lt d d'
    . have := toDays_lt_of_lt hlt
      omega
    . exact heq
    . have := toDays_lt_of_lt hgt
      omega
  . rintro rfl
    rfl

theorem le_iff_toDays_le : d ≤ d' ↔ d.toDays ≤ d'.toDays := by
  show d < d' ∨ d = d' ↔ _
  rw [lt_iff_toDays_lt, ← toDays_inj]
  omega

def next (d : Date) : Date :=
  have hvalid := isValid_iff.mp d.valid
  if hday : d.day < daysInMonth d.year d.month then
    ⟨d.year, d.month, d.day + 1, isValid_iff.mpr ⟨hvalid.1, hvalid.2.1, Nat.le_add_left 1 _, hday⟩⟩
  else if hmonth : d.month < 12 then
    ⟨d.year, d.month + 1, 1,
      isValid_iff.mpr ⟨Nat.le_add_left 1 _, hmonth, Nat.le_refl 1, daysInMonth_pos _ _⟩⟩
  else
    ⟨d.year + 1, 1, 1, isValid_iff.mpr
      ⟨Nat.le_refl 1, by decide, Nat.le_refl 1, daysInMonth_pos _ _⟩⟩

def addDays (d : Date) : Nat → Date
  | 0 => d
  | n + 1 => (d.addDays n).next

theorem toDays_next (d : Date) : d.next.toDays = d.toDays + 1 := by
  obtain ⟨year, month, day, hvalid⟩ := d
  rw [isValid_iff] at hvalid
  have hmonth := daysBeforeMonth_succ year hvalid.1
  simp only [next]
  split
  . simp only [toDays]
    omega
  . split
    . simp only [toDays, hmonth]
      omega
    . obtain rfl : month = 12 := by omega
      have hyear := daysBeforeYear_succ year
      have hfirst : daysBeforeMonth (year + 1) 1 = 0 := rfl
      simp only [Nat.reduceAdd] at hmonth
      simp only [toDays]
      omega

theorem toDays_addDays (d : Date) (n : Nat) : (d.addDays n).toDays = d.toDays + n := by
  induction n with
  | zero => simp [addDays]
  | succ n ih =>
    rw [addDays, toDays_next, ih]
    omega

example :
    addDays ⟨2000, 2, 28, rfl⟩ 2 = ⟨2000, 3, 1, rfl⟩
    ∧ addDays ⟨1900, 2, 28, rfl⟩ 2 = ⟨1900, 3, 2, rfl⟩ := by
  decide

@[simp]
theorem toDays_ofDays (days : Int) : (ofDays days).toDays = days := by
  have hbounds := bounds_yearOf days
  have hspec := (monthAndDay_spec (dayOfYear_lt days)).2
  simp only [ofDays, toDays]
  omega

end Date

namespace Moment

variable {m m' : Moment}

@[simp]
theorem toDays_date (m : Moment) : m.date.toDays = m.day :=
  Date.toDays_ofDays m.day

theorem date_inj : m.date = m'.date ↔ m.day = m'.day := by
  rw [← Date.toDays_inj, toDays_date, toDays_date]

theorem date_lt_iff : m.date < m'.date ↔ m.day < m'.day := by
  rw [Date.lt_iff_toDays_lt, toDays_date, toDays_date]

theorem date_le_iff : m.date ≤ m'.date ↔ m.day ≤ m'.day := by
  rw [Date.le_iff_toDays_le, toDays_date, toDays_date]

theorem date_le_addDays_iff : m.date ≤ m'.date.addDays n ↔ m.day ≤ m'.day + n := by
  rw [Date.le_iff_toDays_le, Date.toDays_addDays, toDays_date, toDays_date]

end Moment
end PacketPolicy

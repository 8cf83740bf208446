/-!
This module contains calendar days of the proleptic Gregorian calendar, counted from the first of
January of the year 1, and moments: instants together with the offset of the clock that shows them.
-/

namespace PacketPolicy

namespace Date

def isLeap (year : Int) : Bool :=
  year % 4 == 0 && (year % 100 != 0 || year % 400 == 0)

def daysInMonth (year : Int) (month : Nat) : Nat :=
  if month == 2 then (if isLeap year then 29 else 28)
  else if month == 4 || month == 6 || month == 9 || month == 11 then 30
  else 31

def isValid (year : Int) (month day : Nat) : Bool :=
  1 ≤ month && month ≤ 12 && 1 ≤ day && day ≤ daysInMonth year month

theorem isValid_iff :
    isValid year month day = true ↔
      1 ≤ month ∧ month ≤ 12 ∧ 1 ≤ day ∧ day ≤ daysInMonth year month := by
  simp [isValid, and_assoc]

end Date

structure Date where
  year : Int
  month : Nat
  day : Nat
  valid : Date.isValid year month day = true
  deriving DecidableEq, Repr

namespace Date

variable {year : Int} {month : Nat}

def daysBeforeYear (year : Int) : Int :=
  let y := year - 1
  365 * y + y / 4 - y / 100 + y / 400

def daysBeforeMonth (year : Int) (month : Nat) : Nat :=
  (List.range (month - 1)).foldl (fun days i => days + daysInMonth year (i + 1)) 0

theorem daysBeforeMonth_succ (year : Int) (h : 1 ≤ month) :
    daysBeforeMonth year (month + 1) = daysBeforeMonth year month + daysInMonth year month := by
  obtain ⟨m, rfl⟩ := Nat.exists_eq_add_of_le' h
  simp [daysBeforeMonth, List.range_succ]

theorem daysBeforeMonth_thirteen (year : Int) :
    daysBeforeMonth year 13 = if isLeap year then 366 else 365 := by
  cases h : isLeap year <;> simp [daysBeforeMonth, daysInMonth, h, List.range_succ]

theorem daysBeforeYear_succ (year : Int) :
    daysBeforeYear (year + 1) = daysBeforeYear year + daysBeforeMonth year 13 := by
  have hleap : isLeap year = true ↔ year % 4 = 0 ∧ (year % 100 ≠ 0 ∨ year % 400 = 0) := by
    simp [isLeap]
  rw [daysBeforeMonth_thirteen]
  simp only [daysBeforeYear]
  split
  . next h =>
    rw [hleap] at h
    omega
  . next h =>
    rw [hleap] at h
    omega

def toDays (d : Date) : Int :=
  daysBeforeYear d.year + daysBeforeMonth d.year d.month + d.day - 1

/--
The year of a day. The quotient by the mean length of a year is the year or the one before or after
it.
-/
def yearOf (days : Int) : Int :=
  let guess := days * 400 / 146097 + 1
  if days < daysBeforeYear guess then guess - 1
  else if daysBeforeYear (guess + 1) ≤ days then guess + 1
  else guess

theorem bounds_of_guess (days : Int) (h : guess = days * 400 / 146097 + 1) :
    daysBeforeYear (guess - 1) ≤ days ∧ days < daysBeforeYear (guess + 1 + 1) := by
  simp only [daysBeforeYear]
  omega

theorem bounds_yearOf (days : Int) :
    daysBeforeYear (yearOf days) ≤ days ∧ days < daysBeforeYear (yearOf days + 1) := by
  have hguess := bounds_of_guess days rfl
  unfold yearOf
  dsimp only
  split
  . rw [Int.sub_add_cancel]
    omega
  . split
    . omega
    . omega

def monthAndDay (year : Int) (dayOfYear : Nat) : Nat × Nat :=
  go 1 dayOfYear 12
where
  go (month day : Nat) : Nat → Nat × Nat
    | 0 => (month, day + 1)
    | rest + 1 =>
      if day < daysInMonth year month || month == 12 then (month, day + 1)
      else go (month + 1) (day - daysInMonth year month) rest

/--
Invariant of the search for a month: the months that were passed and the days that are left make up
the day of the year.
-/
theorem monthAndDay_go (hmonth : 1 ≤ month) (hrest : month + rest = 13) (hpos : 1 ≤ rest)
    (hleft : daysBeforeMonth year month + left < daysBeforeMonth year 13)
    (h : monthAndDay.go year month left rest = (m, n)) :
    isValid year m n = true
      ∧ daysBeforeMonth year m + n = daysBeforeMonth year month + left + 1 := by
  induction rest generalizing month left with
  | zero => omega
  | succ rest ih =>
    have hsucc := daysBeforeMonth_succ year hmonth
    unfold monthAndDay.go at h
    split at h
    . next hfound =>
      -- In December the days that are left are days of the month, as the year is not over.
      have hdays : left < daysInMonth year month := by
        simp only [Bool.or_eq_true, decide_eq_true_eq, beq_iff_eq] at hfound
        obtain hfound | rfl := hfound
        . exact hfound
        . simp only [Nat.reduceAdd] at hsucc
          omega
      cases h
      rw [isValid_iff]
      omega
    . next hlater =>
      simp only [Bool.or_eq_true, decide_eq_true_eq, beq_iff_eq, not_or] at hlater
      obtain ⟨hvalid, hcount⟩ := ih (by omega) (by omega) (by omega) (by omega) h
      exact ⟨hvalid, by omega⟩

theorem monthAndDay_spec (h : dayOfYear < daysBeforeMonth year 13) :
    isValid year (monthAndDay year dayOfYear).1 (monthAndDay year dayOfYear).2 = true
      ∧ daysBeforeMonth year (monthAndDay year dayOfYear).1 + (monthAndDay year dayOfYear).2
        = dayOfYear + 1 := by
  have hfirst : daysBeforeMonth year 1 = 0 := rfl
  have hgo : monthAndDay.go year 1 dayOfYear 12
      = ((monthAndDay year dayOfYear).1, (monthAndDay year dayOfYear).2) :=
    rfl
  obtain ⟨hvalid, hcount⟩ := monthAndDay_go (Nat.le_refl 1) rfl (by decide) (by omega) hgo
  exact ⟨hvalid, by omega⟩

theorem dayOfYear_lt (days : Int) :
    (days - daysBeforeYear (yearOf days)).toNat < daysBeforeMonth (yearOf days) 13 := by
  have hbounds := bounds_yearOf days
  rw [daysBeforeYear_succ] at hbounds
  omega

def ofDays (days : Int) : Date :=
  let year := yearOf days
  let found := monthAndDay year (days - daysBeforeYear year).toNat
  ⟨year, found.1, found.2, (monthAndDay_spec (dayOfYear_lt days)).1⟩

def padded (width : Nat) (n : Nat) : String :=
  let digits := Nat.toDigits 10 n
  String.ofList (List.replicate (width - digits.length) '0' ++ digits)

def yearText (year : Int) : String :=
  if year < 0 then "-" ++ padded 4 year.natAbs else padded 4 year.toNat

def text (d : Date) : String :=
  yearText d.year ++ "-" ++ padded 2 d.month ++ "-" ++ padded 2 d.day

end Date

/--
An instant in seconds and nanoseconds from the start of the year 1, and the offset in seconds of the
clock that shows it.
-/
structure Moment where
  seconds : Int
  nanoseconds : Nat
  offset : Int
  deriving DecidableEq, Repr, Inhabited

namespace Moment

def ofDate (d : Date) : Moment :=
  ⟨d.toDays * 86400, 0, 0⟩

def day (m : Moment) : Int :=
  (m.seconds + m.offset) / 86400

def date (m : Moment) : Date :=
  Date.ofDays m.day

/--
The start of the year 1 stands for no moment at all.
-/
def isZero (m : Moment) : Bool :=
  m.seconds == 0 && m.nanoseconds == 0

def nonzero? (m : Moment) : Option Moment :=
  if m.isZero then none else some m

def text (m : Moment) : String :=
  let secondOfDay := (m.seconds % 86400).toNat
  (Date.ofDays (m.seconds / 86400)).text ++ "T" ++ Date.padded 2 (secondOfDay / 3600) ++ ":"
    ++ Date.padded 2 (secondOfDay / 60 % 60) ++ ":" ++ Date.padded 2 (secondOfDay % 60) ++ "Z"

end Moment
end PacketPolicy

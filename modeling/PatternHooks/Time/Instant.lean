/-!
Points in time, by the calendar and the clock at longitude zero. A date or a clock time that does
not exist cannot be made. A leap second is the sixtieth second of its minute, kept as a fraction
that goes on beyond the whole second before it.
-/

namespace PatternHooks.Time

def isLeapYear (y : Int) : Bool := y % 4 == 0 && (y % 100 != 0 || y % 400 == 0)

def daysIn (y : Int) (m : Nat) : Nat :=
  if m = 2 then if isLeapYear y then 29 else 28
  else if m = 4 ∨ m = 6 ∨ m = 9 ∨ m = 11 then 30
  else 31

/-- The years of the calendar. -/
def firstYear : Int := -262143

def lastYear : Int := 262142

/-- Whether the calendar has the day. -/
def isDate (y : Int) (m d : Nat) : Bool :=
  firstYear ≤ y && y ≤ lastYear && 1 ≤ m && m ≤ 12 && 1 ≤ d && d ≤ daysIn y m

structure Date where
  year : Int
  month : Nat
  day : Nat
  exists_day : isDate year month day = true
  deriving DecidableEq

def Date.of? (y : Int) (m d : Nat) : Option Date :=
  if h : isDate y m d = true then some ⟨y, m, d, h⟩ else none

/-- The next day, unless this is the last one. -/
def Date.next? (a : Date) : Option Date :=
  match Date.of? a.year a.month (a.day + 1) with
  | some b => some b
  | none => match Date.of? a.year (a.month + 1) 1 with
    | some b => some b
    | none => Date.of? (a.year + 1) 1 1

/-- The day before, unless this is the first one. -/
def Date.previous? (a : Date) : Option Date :=
  if 1 < a.day then Date.of? a.year a.month (a.day - 1)
  else if 1 < a.month then Date.of? a.year (a.month - 1) (daysIn a.year (a.month - 1))
  else Date.of? (a.year - 1) 12 31

/-- Whether a clock shows the time; only the last second of a minute can be a leap second. -/
def isClock (h m s n : Nat) : Bool :=
  h < 24 && m < 60 && s < 60 && n < 2000000000 && (n < 1000000000 || s == 59)

structure Clock where
  hour : Nat
  minute : Nat
  second : Nat
  nano : Nat
  exists_time : isClock hour minute second nano = true
  deriving DecidableEq

def Clock.of? (h m s n : Nat) : Option Clock :=
  if ok : isClock h m s n = true then some ⟨h, m, s, n, ok⟩ else none

structure Instant where
  date : Date
  clock : Clock
  deriving DecidableEq

/-- The instant at which clocks `ahead` minutes ahead show the date and time. -/
def Instant.ofLocal? (date : Date) (clock : Clock) (ahead : Int) : Option Instant :=
  let minutes : Int := (clock.hour * 60 + clock.minute : Nat) - ahead
  let rest := (minutes % 1440).toNat
  let day? :=
    if minutes < 0 then date.previous?
    else if 1440 ≤ minutes then date.next?
    else some date
  match day?, Clock.of? (rest / 60) (rest % 60) clock.second clock.nano with
  | some day, some c => some ⟨day, c⟩
  | _, _ => none

/-- The start of 1970. -/
def Instant.epoch : Instant := ⟨⟨1970, 1, 1, by decide⟩, ⟨0, 0, 0, 0, by decide⟩⟩

@[simp] theorem Date.of?_self (a : Date) : Date.of? a.year a.month a.day = some a := by
  simp [Date.of?, a.exists_day]

@[simp] theorem Clock.of?_self (c : Clock) :
    Clock.of? c.hour c.minute c.second c.nano = some c := by
  simp [Clock.of?, c.exists_time]

/-- Clocks at longitude zero show the instant itself. -/
theorem Instant.ofLocal?_zero (i : Instant) : Instant.ofLocal? i.date i.clock 0 = some i := by
  have h := i.clock.exists_time
  simp only [isClock, Bool.and_eq_true, decide_eq_true_eq] at h
  have hh : (i.clock.hour * 60 + i.clock.minute) % 1440 = i.clock.hour * 60 + i.clock.minute :=
    Nat.mod_eq_of_lt (by omega)
  have hrest : (((i.clock.hour * 60 + i.clock.minute : Nat) - 0 : Int) % 1440).toNat =
      i.clock.hour * 60 + i.clock.minute := by omega
  have hhour : (i.clock.hour * 60 + i.clock.minute) / 60 = i.clock.hour := by omega
  have hmin : (i.clock.hour * 60 + i.clock.minute) % 60 = i.clock.minute := by omega
  have hlow : ¬((i.clock.hour * 60 + i.clock.minute : Nat) - 0 : Int) < 0 := by omega
  have hhigh : ¬(1440 : Int) ≤ ((i.clock.hour * 60 + i.clock.minute : Nat) - 0 : Int) := by omega
  simp only [Instant.ofLocal?, hrest, hhour, hmin, if_neg hlow, if_neg hhigh, Clock.of?_self]

end PatternHooks.Time

import Timetable.Calendar.Date

/-! Readings of a clock. From 1000000000 on the nanoseconds belong to a leap second, which follows the
counted one. -/

namespace Timetable.Calendar

inductive Clock where
  | common
  | wall
deriving DecidableEq, Repr

structure Reading (c : Clock) where
  second : Int
  nano : Nat
  nano_lt : nano < 2000000000
deriving DecidableEq, Repr

abbrev Instant := Reading .common
abbrev WallTime := Reading .wall

def secondsPerDay : Int := 86400
def nanosPerSecond : Nat := 1000000000

def lastNano : Nat := 999999999

def dayStart (n : Int) : Int := n * secondsPerDay

def earliestSecond : Int := dayStart Date.earliest.number
def latestSecond : Int := dayStart Date.latest.number + (secondsPerDay - 1)

def dateOf (t : Int) : Date := ⟨t / secondsPerDay⟩

def hourOf (t : Int) : Nat := (t % secondsPerDay / 3600).toNat
def minuteOf (t : Int) : Nat := (t % 3600 / 60).toNat
def secondOf (t : Int) : Nat := (t % 60).toNat

def secondAt (d : Date) (hour minute second : Nat) : Int :=
  dayStart d.number + 3600 * hour + 60 * minute + second

theorem secondAt_dateOf (t : Int) : secondAt (dateOf t) (hourOf t) (minuteOf t) (secondOf t) = t := by
  simp only [secondAt, dateOf, hourOf, minuteOf, secondOf, dayStart, secondsPerDay]
  omega

theorem lt_secondAt_of_number_lt {t : Int} {d : Date} (h : (dateOf t).number < d.number)
    (hour minute second : Nat) : t < secondAt d hour minute second := by
  simp only [secondAt, dateOf, dayStart, secondsPerDay] at *
  omega

theorem secondAt_lt_of_number_lt {t : Int} {d : Date} (h : d.number < (dateOf t).number) :
    secondAt d 23 59 59 < t := by
  simp only [secondAt, dateOf, dayStart, secondsPerDay] at *
  omega

theorem hourOf_lt (t : Int) : hourOf t < 24 := by simp only [hourOf, secondsPerDay]; omega

theorem minuteOf_lt (t : Int) : minuteOf t < 60 := by simp only [minuteOf]; omega

theorem secondOf_lt (t : Int) : secondOf t < 60 := by simp only [secondOf]; omega

namespace Reading
variable {c : Clock}

instance : LT (Reading c) where
  lt a b := a.second < b.second ∨ (a.second = b.second ∧ a.nano < b.nano)

instance : LE (Reading c) where
  le a b := a.second < b.second ∨ (a.second = b.second ∧ a.nano ≤ b.nano)

instance (a b : Reading c) : Decidable (a < b) :=
  inferInstanceAs (Decidable (a.second < b.second ∨ (a.second = b.second ∧ a.nano < b.nano)))

instance (a b : Reading c) : Decidable (a ≤ b) :=
  inferInstanceAs (Decidable (a.second < b.second ∨ (a.second = b.second ∧ a.nano ≤ b.nano)))

instance : Min (Reading c) := minOfLe
instance : Max (Reading c) := maxOfLe

def ofSecond (t : Int) : Reading c := ⟨t, 0, by decide⟩

def ofDate (d : Date) (s : Nat) : Reading c := ofSecond (dayStart d.number + s)

def endOfDate (d : Date) : Reading c :=
  ⟨dayStart d.number + (secondsPerDay - 1), lastNano, by decide⟩

def date (r : Reading c) : Date := dateOf r.second
def secondOfDay (r : Reading c) : Nat := (r.second % secondsPerDay).toNat

def isLeap (r : Reading c) : Bool := nanosPerSecond ≤ r.nano

def earliest : Reading c := ofSecond earliestSecond
def latest : Reading c := ⟨latestSecond, lastNano, by decide⟩

def InRange (r : Reading c) : Prop := r.date.InRange

instance (r : Reading c) : Decidable r.InRange := inferInstanceAs (Decidable r.date.InRange)

def inRange? (r : Reading c) : Option (Reading c) := if r.InRange then some r else none

/-- The reading `n` seconds later. The leap second counts as the second before it for one who goes
on from there, and as the second after it for one who goes back. -/
def addSeconds (r : Reading c) (n : Int) : Reading c :=
  have := r.nano_lt
  if n = 0 ∨ r.nano < nanosPerSecond then ⟨r.second + n, r.nano, r.nano_lt⟩
  else if 0 < n then ⟨r.second + n, r.nano - nanosPerSecond, by omega⟩
  else ⟨r.second + 1 + n, r.nano - nanosPerSecond, by omega⟩

def carry (second nano : Int) : Reading c :=
  ⟨second + nano / 1000000000, (nano % 1000000000).toNat, by omega⟩

def addNanos (r : Reading c) (n : Int) : Reading c :=
  if r.nano < nanosPerSecond then carry r.second (r.nano + n)
  else if h : -1000000000 < n ∧ r.nano + n < 2000000000 then
    ⟨r.second, (r.nano + n).toNat, by omega⟩
  else if 0 < n then carry r.second (r.nano - nanosPerSecond + n)
  else carry (r.second + 1) (r.nano - nanosPerSecond + n)

def addSeconds? (r : Reading c) (n : Int) : Option (Reading c) := (r.addSeconds n).inRange?
def addNanos? (r : Reading c) (n : Int) : Option (Reading c) := (r.addNanos n).inRange?

def onDate (r : Reading c) (d : Date) : Reading c :=
  ⟨dayStart d.number + r.secondOfDay, r.nano, r.nano_lt⟩

def addDays? (r : Reading c) (n : Int) : Option (Reading c) := (r.date.addDays? n).map r.onDate

def addMonths? (r : Reading c) (n : Int) : Option (Reading c) := (r.date.addMonths? n).map r.onDate

/-- The seconds from one reading to another with the same nanoseconds. If they lie in leap seconds,
the one that is left behind counts when the time of day goes up, and is taken off when it goes
down. -/
def secondsSince (later sooner : Reading c) : Int :=
  let n := later.second - sooner.second
  if sooner.isLeap && sooner.secondOfDay < later.secondOfDay then n + 1
  else if later.isLeap && later.secondOfDay < sooner.secondOfDay then n - 1
  else n

theorem lt_def {a b : Reading c} :
    a < b ↔ a.second < b.second ∨ (a.second = b.second ∧ a.nano < b.nano) := Iff.rfl

theorem le_def {a b : Reading c} :
    a ≤ b ↔ a.second < b.second ∨ (a.second = b.second ∧ a.nano ≤ b.nano) := Iff.rfl

theorem not_lt {a b : Reading c} : ¬ a < b ↔ b ≤ a := by
  simp only [lt_def, le_def]; omega

theorem eq_iff {a b : Reading c} : a = b ↔ a.second = b.second ∧ a.nano = b.nano := by
  cases a; cases b; simp

theorem ofSecond_second {r : Reading c} (h : r.nano = 0) : ofSecond r.second = r := by
  rw [eq_iff]
  exact ⟨rfl, h.symm⟩

theorem lt_ofSecond_iff {r : Reading c} {s : Int} : r < ofSecond s ↔ r.second < s := by
  simp only [lt_def, ofSecond]
  omega

@[simp] theorem onDate_date (r : Reading c) : r.onDate r.date = r := by
  simp only [eq_iff, onDate, date, dateOf, secondOfDay, dayStart, secondsPerDay, and_true]
  omega

theorem secondOfDay_lt (r : Reading c) : r.secondOfDay < 86400 := by
  simp only [secondOfDay, secondsPerDay]; omega

theorem inRange_iff (r : Reading c) :
    r.InRange ↔ earliestSecond ≤ r.second ∧ r.second ≤ latestSecond := by
  simp only [InRange, Date.InRange, date, dateOf, earliestSecond, latestSecond, dayStart, secondsPerDay,
    Date.earliest, Date.latest]
  omega

theorem inRange?_eq_some_iff {r r' : Reading c} : r.inRange? = some r' ↔ r.InRange ∧ r = r' := by
  rw [inRange?]
  split <;> simp_all

end Reading

end Timetable.Calendar

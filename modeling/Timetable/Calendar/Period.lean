import Timetable.Calendar.Date

namespace Timetable.Calendar

inductive Period where
  | day
  | week
  | month
  | quarter
  | year
deriving DecidableEq, Repr

def quarterMonth (m : Nat) : Nat := (m - 1) / 3 * 3 + 1

namespace Period

def first (p : Period) (d : Date) : Date :=
  let c := d.civil
  match p with
  | day => d
  | week => (d.addDays? (-d.daysFromMonday)).getD d
  | month => Civil.toDate { c with day := 1 }
  | quarter => Civil.toDate ⟨c.year, quarterMonth c.month, 1⟩
  | year => Civil.toDate ⟨c.year, 1, 1⟩

def last (p : Period) (d : Date) : Date :=
  let c := d.civil
  match p with
  | day => d
  | week => (d.addDays? (6 - d.daysFromMonday)).getD d
  | month => d.lastOfMonth
  | quarter => (Civil.toDate ⟨c.year, quarterMonth c.month + 2, 1⟩).lastOfMonth
  | year => Civil.toDate ⟨c.year, 12, 31⟩

def advance? (p : Period) (d : Date) (n : Nat) : Option Date :=
  match p with
  | day => d.addDays? n
  | week => d.addDays? (7 * n)
  | month => d.addMonths? n
  | quarter => d.addMonths? (3 * n)
  | year => d.addMonths? (12 * n)

end Period

end Timetable.Calendar

import Timetable.Calendar.Reading
import Timetable.Schedule.Basic

namespace Timetable

open Calendar

structure Plan where
  second : Field .second
  minute : Field .minute
  hour : Field .hour
  dayOfMonth : Field .dayOfMonth
  month : Field .month
  dayOfWeek : Field .dayOfWeek
  year : Option (Field .year)
  weekOfYear : Option (Field .weekOfYear)
  zone : Zone

def Schedule.plan (s : Schedule) (zone : Zone) : Plan where
  second := s.second.getD (.any _)
  minute := s.minute.getD (.any _)
  hour := s.hour.getD (.any _)
  dayOfMonth := s.dayOfMonth.getD (.any _)
  month := s.month.getD (.any _)
  dayOfWeek := s.dayOfWeek.getD (.any _)
  year := s.year
  weekOfYear := s.weekOfYear
  zone := (s.timezone.map Timezone.zone).getD zone

namespace Plan

def admitsYear (p : Plan) (y : Int) : Bool :=
  match p.year with
  | none => true
  | some f => 0 ≤ y && f.admits y.toNat

/-- A date qualifies by the day of the month or of the week if both are constrained, and else by the
one that is. -/
def admitsDayOf (p : Plan) (d : Date) : Bool :=
  match p.dayOfMonth.isWildcard, p.dayOfWeek.isWildcard with
  | false, false => p.dayOfMonth.admitsDay d || p.dayOfWeek.admitsDay d
  | false, true => p.dayOfMonth.admitsDay d
  | true, false => p.dayOfWeek.admitsDay d
  | true, true => true

def admitsDay (p : Plan) (d : Date) : Bool :=
  p.admitsDayOf d && p.weekOfYear.all fun f => f.admits d.isoWeek

def admitsDate (p : Plan) (d : Date) : Bool :=
  p.admitsYear d.year && p.month.admits d.month && p.admitsDay d

def admits (p : Plan) (t : Int) : Bool :=
  p.admitsDate (dateOf t) && p.hour.admits (hourOf t) && p.minute.admits (minuteOf t) &&
    p.second.admits (secondOf t)

end Plan

end Timetable

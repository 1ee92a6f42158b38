import Timetable.Text.Blank
import Timetable.Zone.Basic

namespace Timetable

structure Timezone where
  name : String
  zone : Zone
deriving DecidableEq, Repr

def Timezone.utc : Timezone := ⟨"UTC", Zone.utc⟩

/-- The zones that are known by name. A name is a single word, and the zone that it finds keeps it. -/
class TimezoneDatabase where
  find? : String → Option Timezone
  name_eq {name : String} {z : Timezone} : find? name = some z → z.name = name
  name_ne {name : String} {z : Timezone} : find? name = some z → name ≠ ""
  not_blank {name : String} {z : Timezone} :
    find? name = some z → ∀ c ∈ name.toList, Text.isBlank c = false
  regular {name : String} {z : Timezone} : find? name = some z → z.zone.Regular

theorem TimezoneDatabase.find?_name [TimezoneDatabase] {name : String} {z : Timezone}
    (h : find? name = some z) : find? z.name = some z := by rw [name_eq h, h]

end Timetable

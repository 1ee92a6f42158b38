import Timetable.Engine

namespace Timetable

structure SearchSettings where
  horizon : UInt32 := 10
  timezone : String := "UTC"
deriving DecidableEq, Repr

structure RetrySettings where
  maxRetries : UInt32 := 0
  delayMillis : UInt64 := 0
deriving DecidableEq, Repr

structure LogSettings where
  filter : String := "warn"
  json : Bool := false
deriving DecidableEq, Repr

structure Settings where
  search : SearchSettings := {}
  retry : RetrySettings := {}
  log : LogSettings := {}
deriving DecidableEq, Repr

def SearchSettings.initial : SearchSettings := {}
def RetrySettings.initial : RetrySettings := {}
def LogSettings.initial : LogSettings := {}
def Settings.initial : Settings := {}

namespace SearchSettings

def clampedHorizon (s : SearchSettings) : Nat := min (max s.horizon.toNat 1) maxHorizon

def engine [TimezoneDatabase] (s : SearchSettings) : Except Error Engine :=
  (readTimezone s.timezone).map (.ofHorizon s.horizon.toNat)

end SearchSettings

namespace RetrySettings

def maxDelay : Nat := UInt64.size - 1

def ofDelay (maxRetries : UInt32) (seconds nanos : Nat) : RetrySettings :=
  ⟨maxRetries, UInt64.ofNat (min (1000 * seconds + nanos / 1000000) maxDelay)⟩

def allows (s : RetrySettings) (n : UInt32) : Bool := n < s.maxRetries

def delaySeconds (s : RetrySettings) : Nat := s.delayMillis.toNat / 1000

def delayRest (s : RetrySettings) : Nat := s.delayMillis.toNat % 1000

end RetrySettings

end Timetable

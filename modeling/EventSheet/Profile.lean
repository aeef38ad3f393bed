namespace EventSheet

/-! Profiling samples: how long an event took during the last profiled run, and
which share of the whole run that was. -/

/-- A length of time. The nanoseconds stay below one second. -/
structure Duration where
  seconds : UInt64 := 0
  nanoseconds : UInt32 := 0
deriving DecidableEq

namespace Duration

def nanosecondsPerSecond : Nat := 1000000000

/-- Whole seconds among the nanoseconds are carried over. Nothing when the
seconds no longer fit. -/
def ofParts? (seconds nanoseconds : Nat) : Option Duration :=
  let seconds := seconds + nanoseconds / nanosecondsPerSecond
  if seconds < UInt64.size then
    some ⟨UInt64.ofNat seconds, UInt32.ofNat (nanoseconds % nanosecondsPerSecond)⟩
  else none

def isZero (duration : Duration) : Bool := duration = ⟨0, 0⟩

/-- The length in seconds, rounded to a double. -/
def toFloat (duration : Duration) : Float :=
  duration.seconds.toFloat + duration.nanoseconds.toFloat / 1e9

end Duration

/-- A share in percent, held as the bits of a 32-bit float. -/
structure Percent where
  bits : UInt32 := 0
deriving DecidableEq

namespace Percent

/-- All exponent bits are set and the fraction is not zero. -/
def isNaN (percent : Percent) : Bool := 0x7F800000 < (percent.bits &&& 0x7FFFFFFF)

def isZero (percent : Percent) : Bool := (percent.bits &&& 0x7FFFFFFF) = 0

/-- Equality as floats compare: both zeros are equal, and a NaN equals nothing. -/
def floatEqual (left right : Percent) : Bool :=
  !left.isNaN && !right.isNaN &&
    (left.bits = right.bits || (left.isZero && right.isZero))

def ofFloat (value : Float) : Percent := ⟨value.toFloat32.toBits⟩

end Percent

/-- What is published for one event. -/
structure Sample where
  time : Duration := {}
  percent : Percent := {}
deriving DecidableEq

namespace Sample

/-- The share of an event in a run. A run that took no time has no share. -/
def ofRun (event run : Duration) : Sample :=
  ⟨event, if run.isZero then {} else .ofFloat (event.toFloat / run.toFloat * 100)⟩

/-- Equal times and shares that compare as equal floats. -/
def floatEqual (left right : Sample) : Bool :=
  decide (left.time = right.time) && left.percent.floatEqual right.percent

end Sample

end EventSheet

/-!
# A clock

A clock that advances by one step whenever it is read, so that what is measured depends on the number
of readings only.
-/

namespace LazyTensor

structure Clock where
  step : Float := 0
  readings : Nat := 0

namespace Clock

def tick (c : Clock) : Clock := { c with readings := c.readings + 1 }

def seconds (c : Clock) : Float := c.readings.toFloat * c.step

def nanoseconds (c : Clock) : Nat := (c.seconds * 1e9).toUInt64.toNat

end Clock

end LazyTensor

namespace FoxMachine

inductive Clock where
  | unthrottled
  /-- Ticks once in `period` nanoseconds; `ticks` have passed so far. -/
  | periodic (period : Nat) (ticks : Nat)
deriving DecidableEq, Repr

namespace Clock

/-- The rate of the machine when nothing else is asked for, in cycles a second. -/
def nominalRate : Nat :=
  8000000

/-- The nanoseconds between two ticks; a rate of zero counts as one. -/
def periodOf (rate : Nat) : Nat :=
  1000000000 / max rate 1

/-- The clock for a rate, where zero asks for no clock at all. -/
def ofRate (rate : Nat) : Clock :=
  if rate = 0 then unthrottled else periodic (periodOf rate) 0

def tick : Clock → Clock
  | unthrottled => unthrottled
  | periodic period ticks => periodic period (ticks + 1)

def ticks : Clock → Nat
  | unthrottled => 0
  | periodic _ ticks => ticks

@[simp] theorem tick_periodic (period ticks : Nat) :
    tick (periodic period ticks) = periodic period (ticks + 1) := rfl

end Clock

end FoxMachine

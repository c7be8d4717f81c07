/-! Time in milliseconds, and what waits for it. Times are 64 bits wide. -/
namespace FeatureText

def timeLimit : Nat := 0x10000000000000000

inductive Clock where
  | manual (now : Nat)
  /-- A clock that stands at zero. -/
  | still
deriving DecidableEq, Repr

namespace Clock

def now : Clock → Nat
  | manual now => now
  | still => 0

def advance (span : Nat) : Clock → Clock
  | manual now => manual ((now + span) % timeLimit)
  | still => still

/-- Time does not go back. -/
def set (time : Nat) : Clock → Clock
  | manual now => manual (max now time)
  | still => still

end Clock

/-- At most one deadline, some time after it was last asked for. -/
structure Debouncer where
  delay : Nat
  deadline : Option Nat
deriving DecidableEq, Repr

namespace Debouncer

def new (delay : Nat) : Debouncer := ⟨delay, none⟩

def schedule (d : Debouncer) (now : Nat) : Debouncer :=
  { d with deadline := some (min (now + d.delay) (timeLimit - 1)) }

def cancel (d : Debouncer) : Debouncer := { d with deadline := none }

def isPending (d : Debouncer) : Bool := d.deadline.isSome

def isDue (d : Debouncer) (now : Nat) : Bool := d.deadline.any (· ≤ now)

def fire (d : Debouncer) (now : Nat) : Debouncer × Bool :=
  if d.isDue now then (d.cancel, true) else (d, false)

end Debouncer

/-- Requests to paint; several before the next frame are one. -/
structure Frames where
  pending : Bool
  blocked : Bool
deriving DecidableEq, Repr

namespace Frames

def idle : Frames := ⟨false, false⟩

def request (f : Frames) : Frames := { f with pending := true }

def block (f : Frames) (blocked : Bool) : Frames := { f with blocked }

def isReady (f : Frames) : Bool := f.pending && !f.blocked

/-- Takes a frame unless none is asked for or frames are blocked; then the request stays. -/
def take (f : Frames) : Frames × Bool :=
  if f.isReady then ({ f with pending := false }, true) else (f, false)

end Frames

end FeatureText

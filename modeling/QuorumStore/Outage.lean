/-
A replica out of service.  An outage lasts until its timer fires; a replica that
is out of service cannot be put out of service again, and a timer ends the
outage that it was set for and no other.
-/
import QuorumStore.Failure

namespace QuorumStore

/-- Whether a replica is out of service.  Times are in milliseconds. -/
structure Outage where
  /-- Whether it is out of service now. -/
  down : Bool
  /-- When that is due to end; nothing if it is in service, or if the end lies
  beyond the calendar. -/
  ends : Option Nat
  /-- How many outages there have been, the present one included.  The count has no
  bound.  One that wraps around would do as well: an outage begins when the timers of
  all earlier ones have fired, and none fires twice. -/
  episode : Nat
  deriving DecidableEq, Inhabited

namespace Outage

/-- In service, and never out of it. -/
def none : Outage := ⟨false, .none, 0⟩

/-- How far the calendar reaches from now on. -/
def calendarRoom : Nat := 8208500000000000

/-- The length of the timers that the clock cannot count. -/
def farFuture : Nat := 30 * 365 * 86400000

/-- How long the timer of an outage runs.  A length that the clock cannot count
is replaced by thirty years. -/
def timer (duration : Nat) : Nat :=
  if Nat.pow 2 63 * 1000 ≤ duration then farFuture else duration

/-- Refuses while out of service. -/
def available (o : Outage) : Except Refusal Unit :=
  if o.down then .error .crashed else .ok ()

/-- Goes out of service for a while. -/
def start (o : Outage) (now duration : Nat) : Except Refusal Outage :=
  if o.down then .error .crashed
  else .ok ⟨true, if duration ≤ calendarRoom then some (now + duration) else .none, o.episode + 1⟩

/-- The timer of an outage fires. -/
def expire (o : Outage) (episode : Nat) : Outage :=
  if o.down ∧ o.episode = episode then ⟨false, .none, o.episode⟩ else o

end Outage

end QuorumStore

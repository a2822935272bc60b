/-
A version of a value: the bytes and the clock that they were written with.
-/
import QuorumStore.Clock
import QuorumStore.Text.Utf8

namespace QuorumStore

/-- A value with the clock of its write. -/
structure Version where
  /-- What the write knew of, itself included. -/
  clock : Clock
  /-- What was written. -/
  value : Bytes
  deriving DecidableEq, Inhabited

/-- The clock and the value between parentheses; the value is shown as text. -/
def Version.text (v : Version) : String :=
  "(" ++ v.clock.text ++ ", " ++ Utf8.lossy v.value ++ ")"

/-- The versions of one key that are alive together. -/
abbrev Siblings := List Version

namespace Siblings

/-- The clock that covers every version: a write in this context supersedes
them all. -/
def context (s : Siblings) : Clock :=
  Clock.empty.joinAll (s.map Version.clock)

/-- The clocks of the versions, in order. -/
def clocks (s : Siblings) : List Clock :=
  s.map Version.clock

end Siblings

/-! ### Merging -/

/-- What a merge of two sets of versions gives. -/
structure Merge where
  /-- The versions that remain. -/
  versions : Siblings
  /-- How many of them the incoming side brought. -/
  fresh : Nat
  deriving DecidableEq

namespace Merge

/-- Whether the incoming side brought anything. -/
def changed (m : Merge) : Bool :=
  0 < m.fresh

end Merge

namespace Siblings

/-- Whether a held version stays: no incoming version is strictly after it. -/
def survives (incoming : Siblings) (v : Version) : Bool :=
  !incoming.any fun w => v.clock.before w.clock

/-- Whether an incoming version is new: no held version is equal to it or after
it. -/
def isFresh (held : Siblings) (w : Version) : Bool :=
  !held.any fun v => w.clock.before v.clock || w.clock = v.clock

/-- Merges incoming versions into the held ones.  The held versions that stay
come first and in their order, then the incoming ones that are new; of equal
clocks the held version is kept. -/
def merge (held incoming : Siblings) : Merge :=
  let news := incoming.filter (isFresh held)
  ⟨held.filter (survives incoming) ++ news, news.length⟩

end Siblings

end QuorumStore

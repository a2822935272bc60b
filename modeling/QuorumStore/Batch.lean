/-
A store cut into parts that fit into frames.

* `Batch.weight`: the bytes that a key with its versions takes in a message;
* `Batch.split`: the parts.  A key is never cut, and one that does not fit alone
  is refused.  The keys are taken in a given order, and a part is closed when
  the next key would not fit into it.
-/
import QuorumStore.Message.Writer

namespace QuorumStore

namespace Batch

/-- The bytes that are kept for what surrounds a store in a message. -/
def envelope : Nat := 64

/-- The bytes of a key with its versions: both texts, a colon and a comma. -/
def weight (p : String × Siblings) : Nat :=
  (Json.text p.1).render.utf8ByteSize + (Siblings.toJson p.2).render.utf8ByteSize + 2

/-- The parts that are closed, last first, and the open one with its weight. -/
structure Cut where
  /-- The parts that are closed. -/
  closed : List Store
  /-- The part that is open. -/
  part : Store
  /-- The weight of the open part. -/
  used : Nat

/-- Adds a key to the parts. -/
def Cut.add (budget : Nat) (c : Cut) (p : String × Siblings) (weight : Nat) : Cut :=
  if budget < c.used + weight ∧ ¬ c.part.isEmpty then
    ⟨c.part :: c.closed, KeyMap.empty.insert p.1 p.2, weight⟩
  else
    ⟨c.closed, c.part.insert p.1 p.2, c.used + weight⟩

/-- All parts in the order in which they were closed.  The open part counts if
it is not empty or the only one. -/
def Cut.parts (c : Cut) : List Store :=
  if ¬ c.part.isEmpty ∨ c.closed = [] then (c.part :: c.closed).reverse else c.closed.reverse

/-- Cuts keys with their versions into parts whose messages have at most
`maxFrame` bytes each. -/
def splitPairs (maxFrame : Nat) (pairs : List (String × Siblings)) :
    Except FrameError (List Store) := do
  let budget := maxFrame - envelope
  let cut ← pairs.foldlM (fun c p =>
    let w := weight p
    if budget < w then .error (.tooLong maxFrame) else .ok (c.add budget p w))
    (⟨[], KeyMap.empty, 0⟩ : Cut)
  .ok cut.parts

/-- Cuts a store into parts whose messages have at most `maxFrame` bytes each. -/
def split (maxFrame : Nat) (store : Store) : Except FrameError (List Store) :=
  splitPairs maxFrame store.entries

end Batch

end QuorumStore

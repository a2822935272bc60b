/-
A store: for every key the versions that are alive.

* `Store.absorb` merges versions of one key and leaves the store as it is when
  they bring nothing;
* `Store.absorbEach` does so for a list of keys, one after the other.
-/
import QuorumStore.Version

namespace QuorumStore

/-- The versions of every key. -/
abbrev Store := KeyMap Siblings

namespace Store

/-- The versions of a key; none for a key that is not held. -/
def versions (s : Store) (key : String) : Siblings :=
  (s.get? key).getD []

/-- Merges incoming versions into those of a key. -/
def absorb (s : Store) (key : String) (incoming : Siblings) : Merge × Store :=
  let merged := (s.versions key).merge incoming
  (merged, if merged.changed then s.insert key merged.versions else s)

/-- Merges the versions of several keys in turn, and counts what was new. -/
def absorbEach (s : Store) (pairs : List (String × Siblings)) : Nat × Store :=
  pairs.foldl (fun acc p =>
    let (merged, s) := acc.2.absorb p.1 p.2
    (acc.1 + merged.fresh, s)) (0, s)

end Store

end QuorumStore

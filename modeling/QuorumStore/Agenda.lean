/-
What is to happen and when.  Of two things that are due at one moment the one
that was arranged first comes first.

* `Agenda.mem_arrange`: an arrangement adds one thing and loses none.
-/

namespace QuorumStore

/-- Things with the moments at which they are due, the earliest first. -/
abbrev Agenda (α : Type) := List (Nat × α)

namespace Agenda

variable {α : Type}

/-- Arranges a thing, behind those that are due at the same moment. -/
def arrange (due : Nat) (x : α) : Agenda α → Agenda α
  | [] => [(due, x)]
  | (d, y) :: rest => if due < d then (due, x) :: (d, y) :: rest else (d, y) :: arrange due x rest

/-- An arrangement adds one thing and loses none. -/
theorem mem_arrange {due : Nat} {x : α} {a : Agenda α} {p : Nat × α} :
    p ∈ arrange due x a ↔ p = (due, x) ∨ p ∈ a := by
  induction a with
  | nil => simp [arrange]
  | cons q rest ih =>
    simp only [arrange]
    split
    · simp
    · simp only [List.mem_cons, ih]
      exact or_left_comm

end Agenda

end QuorumStore

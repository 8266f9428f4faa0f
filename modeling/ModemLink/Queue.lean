/-
A bounded queue between a producer that never waits and a consumer that takes its time.

What arrives at a full queue is refused, and so is what arrives after the consumer has closed its
end. What was accepted before stays, and is taken in the order in which it came.
-/
set_option autoImplicit false

namespace ModemLink

/-- A queue that holds at most `depth` items. -/
structure Queue (α : Type) where
  depth : Nat
  items : List α := []
  /-- whether the consumer still listens -/
  isOpen : Bool := true
deriving DecidableEq, Repr

/-- What becomes of an item that is offered. -/
inductive Offer where
  | accepted
  | full
  | closed
deriving DecidableEq, Repr

namespace Queue

variable {α : Type}

/-- Offers an item. -/
def offer (a : α) (q : Queue α) : Offer × Queue α :=
  if !q.isOpen then (.closed, q)
  else if q.depth ≤ q.items.length then (.full, q)
  else (.accepted, { q with items := q.items ++ [a] })

/-- Takes the oldest item. -/
def take? (q : Queue α) : Option (α × Queue α) :=
  match q.items with
  | [] => none
  | a :: rest => some (a, { q with items := rest })

/-- Closes the consumer's end. -/
def close (q : Queue α) : Queue α := { q with isOpen := false }

end Queue

end ModemLink

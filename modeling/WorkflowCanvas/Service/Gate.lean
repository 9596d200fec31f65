/-!
# A gate that opens for groups

Callers that arrive at the gate wait until a whole group has arrived; then the group passes and the
next one gathers.  The tickets are the numbers of the arrivals from zero on, so the group of a
ticket is its quotient by the size.
-/

namespace WorkflowCanvas

/-- A gate. -/
structure Gate where
  /-- How many callers make a group. -/
  size : Nat
  /-- How many callers have arrived so far. -/
  arrived : Nat
  size_pos : 0 < size := by omega
  deriving DecidableEq

namespace Gate

/-- A gate nobody has arrived at.  A group has at least one caller. -/
def ofSize (size : Nat) : Gate where
  size := max 1 size
  arrived := 0

/-- A caller arrives. -/
def arrive (g : Gate) : Nat × Gate := (g.arrived, { g with arrived := g.arrived + 1 })

/-- Whether the group of a ticket is complete. -/
def isOpen (g : Gate) (ticket : Nat) : Bool := decide ((ticket / g.size + 1) * g.size ≤ g.arrived)

end Gate

end WorkflowCanvas

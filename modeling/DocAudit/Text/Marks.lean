/-
  DocAudit.Text.Marks
  ───────────────────
  **SETS OF POSITIONS IN A LIST.**

  A list of `n` members has `n + 1` positions: one before each member and one at
  the end.  A search keeps the set of all positions that it may have reached, as
  a list of marks, and moves the whole set at once:

      overOne   one member that satisfies `p`
      overRun   one such member or more
      overAny   any number of such members

  No position is looked at twice in a step, so a search takes as many steps as its
  pattern has, however many ways there are to match it.
-/

namespace DocAudit

/-- A set of positions: a mark for each of them, in order. -/
abbrev Marks := List Bool

namespace Marks

variable {α : Type}

/-- The positions in one of two sets. -/
def union (m k : Marks) : Marks := List.zipWith (fun a b => a || b) m k

/-- The positions in both of two sets. -/
def inter (m k : Marks) : Marks := List.zipWith (fun a b => a && b) m k

/-- The first position of a list, alone. -/
def start (t : List α) : Marks := true :: t.map fun _ => false

/-- The empty set of positions of a list. -/
def empty (t : List α) : Marks := false :: t.map fun _ => false

/-- Whether a set holds the last position. -/
def atEnd (m : Marks) : Bool := m.getLast?.getD false

/-- Whether a set holds a position. -/
def isInhabited (m : Marks) : Bool := m.any id

/-- Move over one member that satisfies `p`. -/
def overOne (p : α → Bool) (t : List α) (m : Marks) : Marks :=
  false :: List.zipWith (fun a b => b && p a) t m

/-- The positions after one member or more that satisfy `p`.  The flag says whether the
position at hand is one of them. -/
def overRunFrom (p : α → Bool) : (here : Bool) → List α → Marks → Marks
  | here, a :: t, b :: m => here :: overRunFrom p ((here || b) && p a) t m
  | here, _, _ => [here]

/-- Move over one member or more that satisfy `p`. -/
def overRun (p : α → Bool) (t : List α) (m : Marks) : Marks := overRunFrom p false t m

/-- Move over any number of members that satisfy `p`. -/
def overAny (p : α → Bool) (t : List α) (m : Marks) : Marks := union m (overRun p t m)

/-- Move over the members of another list. -/
def overAll [BEq α] (members : List α) (t : List α) (m : Marks) : Marks :=
  members.foldl (fun m a => overOne (· == a) t m) m

end Marks
end DocAudit

/-!
Ranges of a sequence whose bounds are integers of either sign. A negative bound
counts from the end, and a bound outside the sequence means its nearer end; so
every pair of bounds names a range, though it may be empty. A range may also be
walked in steps, backward if the step is negative.
-/

namespace Tilde.Text.Slice

/-- The offset that a bound stands for in a sequence of a given size. -/
def bound (size : Nat) (i : Int) : Nat :=
  min (if i < 0 then i + size else i).toNat size

def between {α : Type} (items : Array α) (start stop : Int) : Array α :=
  items.extract (bound items.size start) (bound items.size stop)

/-- The first position from a bound on at which an item passes a test. -/
def findFrom? {α : Type} (items : Array α) (start : Int) (test : α → Bool) : Option Nat :=
  let first := bound items.size start
  ((items.extract first items.size).findIdx? test).map (first + ·)

/-- The bound of a walk. Forward, it lies between the first position and the one
after the last; backward, between the one before the first and the last. -/
def walkBound (size : Nat) (backward : Bool) (i : Int) : Int :=
  let offset := if i < 0 then i + size else i
  let least : Int := if backward then -1 else 0
  let greatest : Int := if backward then size - 1 else size
  max least (min offset greatest)

/-- The positions of a walk from `start` up to but not including `stop`. A bound
that is left out is the end at which the walk begins or stops. There is no walk
in steps of zero. -/
def positions? (size : Nat) (start stop step : Option Int) : Option (List Nat) :=
  let step := step.getD 1
  if step = 0 then none
  else
    let backward : Bool := step < 0
    let first : Int := match start with
      | some i => walkBound size backward i
      | none => if backward then size - 1 else 0
    let last : Int := match stop with
      | some i => walkBound size backward i
      | none => if backward then -1 else size
    let distance := if backward then first - last else last - first
    let count := ((distance + step.natAbs - 1) / step.natAbs).toNat
    some ((List.range count).map fun (k : Nat) => (first + step * k).toNat)

/-- A bound within the sequence stands for itself. -/
theorem bound_ofNat {size i : Nat} (h : i ≤ size) : bound size i = i := by
  have : ¬((i : Int) < 0) := by omega
  simp [bound, this, h]

end Tilde.Text.Slice

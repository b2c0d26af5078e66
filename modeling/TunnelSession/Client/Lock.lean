/-
  Fair locks.

  PROGRAM.  A lock knows its holder and those in line.  It is handed over: giving it back makes
  the first in line the holder at once, so nobody can get in between.

  INVARIANT.  `Lock.WellFormed`: nobody is in line for a lock without a holder.  It holds of a
  free lock, and every operation keeps it.
-/

namespace TunnelSession

/-- The number of a task. -/
abbrev TaskId := Nat

/-- A lock. -/
structure Lock where
  holder : Option TaskId
  line : List TaskId
  deriving DecidableEq, Repr

namespace Lock

/-- A lock that nobody holds. -/
def free : Lock := ⟨none, []⟩

/-- Is the lock held, or handed over to somebody? -/
def isHeld (l : Lock) : Bool := l.holder.isSome

/-- Does this task hold the lock? -/
def isHeldBy (l : Lock) (t : TaskId) : Bool := l.holder == some t

/-- Take the lock, or join the line. -/
def request (l : Lock) (t : TaskId) : Lock :=
  match l.holder with
  | none => { l with holder := some t }
  | some _ => { l with line := l.line ++ [t] }

/-- Give the lock back. -/
def release (l : Lock) : Lock :=
  match l.line with
  | [] => ⟨none, []⟩
  | t :: rest => ⟨some t, rest⟩

/-- Nobody is in line for a lock without a holder. -/
def WellFormed (l : Lock) : Prop := l.holder = none → l.line = []

theorem wellFormed_free : free.WellFormed := fun _ => rfl

theorem wellFormed_request (l : Lock) (t : TaskId) : (l.request t).WellFormed := by
  unfold request WellFormed
  split <;> simp_all

theorem wellFormed_release (l : Lock) : l.release.WellFormed := by
  unfold release WellFormed
  split <;> simp

end Lock

end TunnelSession

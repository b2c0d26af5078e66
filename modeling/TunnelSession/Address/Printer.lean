/-
  Writing internet addresses in canonical form.

  RULE.  Lower case, no leading zeros.  The longest run of two or more zero groups, the first of
  equals, becomes "::".  An address whose first five groups are zero and whose sixth is ffff ends
  in four bytes; no other does.
-/
import TunnelSession.Address.Basic

namespace TunnelSession.Address

/-- Four bytes in decimal with points. -/
def printQuad (q : Quad) : List Char :=
  Nat.toDigits 10 q.a.toNat ++ '.' :: (Nat.toDigits 10 q.b.toNat ++
    '.' :: (Nat.toDigits 10 q.c.toNat ++ '.' :: Nat.toDigits 10 q.d.toNat))

/-- A group in hexadecimal. -/
def printGroup (g : UInt16) : List Char := Nat.toDigits 16 g.toNat

/-- Groups with colons between them. -/
def printGroups : List UInt16 → List Char
  | [] => []
  | [g] => printGroup g
  | g :: gs => printGroup g ++ ':' :: printGroups gs

/-- A run of zero groups: where it starts and how many there are. -/
structure Run where
  start : Nat
  size : Nat
  deriving DecidableEq, Repr

/-- The zeros at the front. -/
def zerosAhead (gs : List UInt16) : Nat := (gs.takeWhile (· == 0)).length

/-- The longest run of zeros from place `i` on, the first of equals, if it is longer than `best`. -/
def longestRun : (i : Nat) → (best : Run) → List UInt16 → Run
  | _, best, [] => best
  | i, best, g :: gs =>
    let size := zerosAhead (g :: gs)
    longestRun (i + 1) (if best.size < size then ⟨i, size⟩ else best) gs

/-- The canonical text of eight groups. -/
def printLong (gs : List UInt16) : List Char :=
  match gs with
  | [0, 0, 0, 0, 0, 0xffff, g, h] => "::ffff:".toList ++ printQuad (.ofGroups g h)
  | _ =>
    let run := longestRun 0 ⟨0, 0⟩ gs
    if 1 < run.size then
      printGroups (gs.take run.start) ++ ':' :: ':' :: printGroups (gs.drop (run.start + run.size))
    else printGroups gs

/-- The canonical text. -/
def print : Address → String
  | .v4 q => String.ofList (printQuad q)
  | .v6 groups => String.ofList (printLong (groupList groups))

end TunnelSession.Address

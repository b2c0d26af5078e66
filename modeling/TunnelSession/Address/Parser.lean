/-
  Reading internet addresses.

  THE SHORT FORM.  Four numbers up to 255 with points between them, each of one to three digits
  and none with a leading zero.

  THE LONG FORM.  Groups of one to four hexadecimal digits with colons between them; the last two
  may be written as four bytes in the short form.  One "::" may stand for at least one zero group,
  and without it there are eight groups.  There is no zone and there are no brackets.
-/
import TunnelSession.Address.Basic
import TunnelSession.Text.Split

namespace TunnelSession.Address

open Text (splitAll)

/-- Cut a text at its first "::". -/
def cutDouble : List Char → Option (List Char × List Char)
  | ':' :: ':' :: rest => some ([], rest)
  | c :: rest => (cutDouble rest).map fun r => (c :: r.1, r.2)
  | [] => none

/-- A byte in decimal. -/
def byte? (cs : List Char) : Option UInt8 :=
  if cs.all Char.isDigit && !cs.isEmpty && cs.length ≤ 3 &&
      (cs.length == 1 || cs.head? != some '0') then
    let n := Nat.ofDigitChars 10 cs 0
    if n < 256 then some (UInt8.ofNat n) else none
  else none

/-- Four bytes. -/
def quad? (cs : List Char) : Option Quad :=
  match splitAll '.' cs with
  | [a, b, c, d] => do some ⟨← byte? a, ← byte? b, ← byte? c, ← byte? d⟩
  | _ => none

/-- The value of a hexadecimal digit. -/
def hexValue? (c : Char) : Option Nat :=
  if c.isDigit then some (c.toNat - '0'.toNat)
  else if 'a' ≤ c && c ≤ 'f' then some (c.toNat - 'a'.toNat + 10)
  else if 'A' ≤ c && c ≤ 'F' then some (c.toNat - 'A'.toNat + 10)
  else none

/-- The value of hexadecimal digits behind those already read. -/
def hexNumber? : Nat → List Char → Option Nat
  | n, [] => some n
  | n, c :: cs => (hexValue? c).bind fun d => hexNumber? (n * 16 + d) cs

/-- A group. -/
def group? (cs : List Char) : Option UInt16 :=
  if cs.isEmpty || 4 < cs.length then none else (hexNumber? 0 cs).map UInt16.ofNat

/-- Groups, of which the last may be four bytes if `tail` allows it. -/
def groups? (tail : Bool) : List (List Char) → Option (List UInt16)
  | [] => some []
  | [p] =>
    match group? p with
    | some g => some [g]
    | none => if tail then (quad? p).map Quad.groups else none
  | p :: ps => do some ((← group? p) :: (← groups? tail ps))

/-- One side of a "::", which may be empty. -/
def side? (tail : Bool) (cs : List Char) : Option (List UInt16) :=
  if cs.isEmpty then some [] else groups? tail (splitAll ':' cs)

/-- The long form. -/
def long? (cs : List Char) : Option Address :=
  match cutDouble cs with
  | none => (groups? true (splitAll ':' cs)).bind ofGroups?
  | some (front, back) => do
    let head ← side? false front
    let tail ← side? true back
    let size := head.length + tail.length
    if size < 8 then ofGroups? (head ++ List.replicate (8 - size) 0 ++ tail) else none

/-- The address that a text spells. -/
def parse (s : String) : Option Address :=
  match quad? s.toList with
  | some q => some (.v4 q)
  | none => long? s.toList

example : parse "1.2.3.04" = none := by cbv
example : (parse "::1").isSome = true := by cbv

end TunnelSession.Address

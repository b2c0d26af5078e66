/-
  Text for a terminal.

  A terminal obeys some control characters instead of showing them: escape, bell, backspace, form
  feed, delete, and those from 80 to 9f.  `spell` writes a character so that it is shown: the first
  five with `\x` and two digits of base 16, the others with `\u` and their number in braces.  No
  other character is touched, so a text that holds none of them stays as it is
  (`forTerminal_eq_self`).
-/

namespace TunnelSession.Text

/-- Is it one of the five control characters of the first kind? -/
def isTerminalControl (c : Char) : Bool :=
  c == '\x1b' || c == '\x07' || c == '\x08' || c == '\x0c' || c == '\x7f'

/-- Is it a control character from 80 to 9f? -/
def isHighControl (c : Char) : Bool := 0x80 ≤ c.toNat && c.toNat ≤ 0x9f

/-- The digits of base 16 of a character's number, two at least. -/
def hexDigits (c : Char) : List Char :=
  let ds := Nat.toDigits 16 c.toNat
  List.replicate (2 - ds.length) '0' ++ ds

/-- A character so that it is shown. -/
def spell (c : Char) : List Char :=
  if isTerminalControl c then '\\' :: 'x' :: hexDigits c
  else if isHighControl c then '\\' :: 'u' :: '\x7b' :: (hexDigits c ++ ['\x7d'])
  else [c]

/-- A text so that all of it is shown. -/
def forTerminal (s : String) : String := String.ofList (s.toList.flatMap spell)

theorem flatMap_spell_eq_self {cs : List Char}
    (h : ∀ c ∈ cs, isTerminalControl c = false ∧ isHighControl c = false) :
    cs.flatMap spell = cs := by
  induction cs with
  | nil => rfl
  | cons c cs ih =>
    have hc : spell c = [c] := by
      rw [spell, (h c List.mem_cons_self).1, (h c List.mem_cons_self).2]
      rfl
    rw [List.flatMap_cons, hc, ih fun d hd => h d (List.mem_cons_of_mem c hd)]
    rfl

theorem forTerminal_eq_self {s : String}
    (h : ∀ c ∈ s.toList, isTerminalControl c = false ∧ isHighControl c = false) :
    forTerminal s = s := by
  rw [forTerminal, flatMap_spell_eq_self h, String.ofList_toList]

example : ['\x1b'].flatMap spell = ['\\', 'x', '1', 'b'] := by decide
example : ['\x07'].flatMap spell = ['\\', 'x', '0', '7'] := by decide
example : ['\u009b'].flatMap spell = ['\\', 'u', '\x7b', '9', 'b', '\x7d'] := by decide

end TunnelSession.Text

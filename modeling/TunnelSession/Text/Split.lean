/-
  Cutting texts at separators.

  `splitAll` cuts at every separator, so it gives one piece more than there are separators, and no
  piece holds one.
-/

namespace TunnelSession.Text

/-- Put a character in front of the first piece. -/
def consFirst (c : Char) : List (List Char) → List (List Char)
  | [] => [[c]]
  | p :: ps => (c :: p) :: ps

/-- Cut a text at every separator. -/
def splitAll (sep : Char) : List Char → List (List Char)
  | [] => [[]]
  | c :: cs => if c = sep then [] :: splitAll sep cs else consFirst c (splitAll sep cs)

theorem splitAll_eq_singleton {sep : Char} {cs : List Char} (h : sep ∉ cs) :
    splitAll sep cs = [cs] := by
  induction cs with
  | nil => rfl
  | cons c cs ih =>
    rw [List.mem_cons, not_or] at h
    rw [splitAll, if_neg (Ne.symm h.1), ih h.2]
    rfl

theorem splitAll_append {sep : Char} {p : List Char} (h : sep ∉ p) (cs : List Char) :
    splitAll sep (p ++ sep :: cs) = p :: splitAll sep cs := by
  induction p with
  | nil => simp [splitAll]
  | cons c p ih =>
    rw [List.mem_cons, not_or] at h
    rw [List.cons_append, splitAll, if_neg (Ne.symm h.1), ih h.2]
    rfl

end TunnelSession.Text

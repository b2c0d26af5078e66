/-
  White space and trimming.

  THE SET.  `isBlank` is the property White_Space of the character standard: 25 characters, of
  which six are ASCII.  Everything that this library trims, it trims by this set.

  THE OPERATION.  `trim` drops blanks at both ends and nothing else; `IsTrimmed` says of a text that
  neither its first nor its last character is blank, and it holds exactly of the texts that
  `trim` leaves alone.
-/

namespace TunnelSession.Text

/-- The property White_Space. -/
def isBlank (c : Char) : Bool :=
  let n := c.toNat
  (0x09 ≤ n && n ≤ 0x0d) || n == 0x20 || n == 0x85 || n == 0xa0 || n == 0x1680 ||
    (0x2000 ≤ n && n ≤ 0x200a) || n == 0x2028 || n == 0x2029 || n == 0x202f || n == 0x205f ||
    n == 0x3000

/-- Drop the blanks at the end. -/
def trimEnd (cs : List Char) : List Char :=
  (cs.reverse.dropWhile isBlank).reverse

/-- Drop the blanks at both ends. -/
def trimChars (cs : List Char) : List Char :=
  trimEnd (cs.dropWhile isBlank)

/-- Drop the blanks at both ends of a text. -/
def trim (s : String) : String :=
  String.ofList (trimChars s.toList)

/-- Neither end is blank. -/
def IsTrimmed (cs : List Char) : Prop :=
  (∀ c ∈ cs.head?, isBlank c = false) ∧ ∀ c ∈ cs.getLast?, isBlank c = false

/-! ## What core calls white space is blank -/

theorem isBlank_of_isWhitespace {c : Char} (h : c.isWhitespace = true) : isBlank c = true := by
  simp only [Char.isWhitespace, Bool.or_eq_true, decide_eq_true_eq] at h
  rcases h with ((h | h) | h) | h <;> subst h <;> decide

/-! ## Trimming leaves no blank at an end, and no trimmed text is changed -/

theorem dropWhile_eq_self_iff {p : Char → Bool} {cs : List Char} :
    cs.dropWhile p = cs ↔ ∀ c ∈ cs.head?, p c = false := by
  cases cs with
  | nil => simp
  | cons a t =>
    by_cases ha : p a = true
    · have hlen := (List.dropWhile_sublist p (l := t)).length_le
      simp only [List.dropWhile_cons_of_pos ha, List.head?_cons, Option.mem_some_iff,
        forall_eq', ha, Bool.true_eq_false, iff_false]
      intro h
      rw [h, List.length_cons] at hlen
      exact Nat.not_succ_le_self t.length hlen
    · simp [ha]

theorem trimChars_eq_self_iff {cs : List Char} : trimChars cs = cs ↔ IsTrimmed cs := by
  unfold trimChars trimEnd IsTrimmed
  constructor
  · intro h
    have hsub : (cs.dropWhile isBlank).length = cs.length := by
      have h₁ := (List.dropWhile_sublist isBlank (l := cs)).length_le
      have h₂ := (List.dropWhile_sublist isBlank (l := (cs.dropWhile isBlank).reverse)).length_le
      have h₃ := congrArg List.length h
      simp only [List.length_reverse] at h₂ h₃
      omega
    have hfront : cs.dropWhile isBlank = cs :=
      (List.dropWhile_sublist isBlank).eq_of_length hsub
    refine ⟨dropWhile_eq_self_iff.1 hfront, ?_⟩
    rw [hfront] at h
    have hback : cs.reverse.dropWhile isBlank = cs.reverse := by
      simpa using congrArg List.reverse h
    simpa using dropWhile_eq_self_iff.1 hback
  · rintro ⟨hfront, hback⟩
    rw [dropWhile_eq_self_iff.2 hfront]
    have : cs.reverse.dropWhile isBlank = cs.reverse :=
      dropWhile_eq_self_iff.2 (by simpa using hback)
    rw [this, List.reverse_reverse]

example : trim "  a b\u3000" = "a b" := by cbv

end TunnelSession.Text

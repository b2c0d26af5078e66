/-
  A JSON document is read back from every text that spells it.

  GRAMMAR.  `Json.Spells` says what the texts of a document are, without the reader: blanks anywhere
  between tokens, and in a string any of the ways to write a character — as it is, with an escape of
  one letter, with the four digits of a 16-bit unit, or with two units where it has two.

  STRINGS.  A string is a character after the other, and so are its pieces
  (`SpellsChar.pieces_append`).

  WHAT FOLLOWS.  A number ends where no character goes on with it, so the reader stops where the
  text of a value does if a comma, a bracket or a brace follows, or blanks, or nothing (`Ends`).

  `parse_of_spelledBy` is the result.  The writer of this library is one of the writers of the
  grammar (`spells_render`).
-/
import TunnelSession.Json.Parser
import TunnelSession.Json.Printer
import TunnelSession.Proofs.Documents
import TunnelSession.Text.Blank

namespace TunnelSession.Json

open Toml (isDigit_of_mem toDigits_eq_cons)

/-! ## The grammar -/

/-- Blanks between tokens. -/
def IsGap (cs : List Char) : Prop := cs ⊆ [' ', '\t', '\n', '\r']

/-- The escapes of one letter, with what they stand for. -/
def shortEscapes : List (Char × Char) :=
  [('\x22', '\x22'), ('\\', '\\'), ('/', '/'), ('b', '\x08'), ('f', '\x0c'), ('n', '\n'),
    ('r', '\r'), ('t', '\t')]

/-- A hexadecimal digit, in either case. -/
inductive HexDigit (n : Nat) : Char → Prop
  | lower : HexDigit n n.digitChar
  | upper : HexDigit n n.digitChar.toUpper

/-- The escape of a 16-bit unit. -/
inductive SpellsUnit (n : Nat) : List Char → Prop
  | mk {a b c d : Char} (hn : n < 0x10000) (ha : HexDigit (n / 0x1000) a)
    (hb : HexDigit (n / 0x100 % 16) b) (hc : HexDigit (n / 0x10 % 16) c)
    (hd : HexDigit (n % 16) d) : SpellsUnit n ['\\', 'u', a, b, c, d]

/-- How a character is written in a string. -/
inductive SpellsChar (c : Char) : List Char → Prop
  | plain (hq : c ≠ '\x22') (hs : c ≠ '\\') (hc : 0x20 ≤ c.toNat) : SpellsChar c [c]
  | letter {d : Char} (h : (d, c) ∈ shortEscapes) : SpellsChar c ['\\', d]
  | unit {ds : List Char} (h : SpellsUnit c.toNat ds) : SpellsChar c ds
  | pair {high low : Nat} {ds es : List Char} (hc : c.toNat = 0x10000 + high * 0x400 + low)
    (hh : high < 0x400) (hl : low < 0x400) (hd : SpellsUnit (0xd800 + high) ds)
    (he : SpellsUnit (0xdc00 + low) es) : SpellsChar c (ds ++ es)

/-- How characters are written in a string. -/
inductive SpellsText : List Char → List Char → Prop
  | nil : SpellsText [] []
  | cons {c : Char} {cs ds es : List Char} (h : SpellsChar c ds) (hs : SpellsText cs es) :
    SpellsText (c :: cs) (ds ++ es)

/-- What stands in a text: a document, one with blanks around it, the items of an array, a member of
an object, or its members. -/
inductive Part where
  | value (v : Json)
  | padded (v : Json)
  | items (vs : List Json)
  | member (m : String × Json)
  | members (ms : List (String × Json))

/-- The texts of a part. -/
inductive Spells : Part → List Char → Prop
  | null : Spells (.value .null) ['n', 'u', 'l', 'l']
  | yes : Spells (.value (.bool true)) ['t', 'r', 'u', 'e']
  | no : Spells (.value (.bool false)) ['f', 'a', 'l', 's', 'e']
  | nat (n : Nat) : Spells (.value (.nat n)) (Nat.toDigits 10 n)
  | text {s : String} {cs : List Char} (h : SpellsText s.toList cs) :
    Spells (.value (.text s)) ('\x22' :: (cs ++ ['\x22']))
  | noItems {gap : List Char} (hg : IsGap gap) : Spells (.value (.array [])) ('[' :: (gap ++ [']']))
  | array {vs : List Json} {cs : List Char} (h : Spells (.items vs) cs) :
    Spells (.value (.array vs)) ('[' :: (cs ++ [']']))
  | noMembers {gap : List Char} (hg : IsGap gap) :
    Spells (.value (.record [])) ('\x7b' :: (gap ++ ['\x7d']))
  | record {ms : List (String × Json)} {cs : List Char} (h : Spells (.members ms) cs) :
    Spells (.value (.record ms)) ('\x7b' :: (cs ++ ['\x7d']))
  | padded {v : Json} {gap cs gap' : List Char} (hg : IsGap gap) (h : Spells (.value v) cs)
    (hg' : IsGap gap') : Spells (.padded v) (gap ++ (cs ++ gap'))
  | lastItem {v : Json} {cs : List Char} (h : Spells (.padded v) cs) : Spells (.items [v]) cs
  | item {v : Json} {vs : List Json} {cs ds : List Char} (h : Spells (.padded v) cs)
    (hs : Spells (.items vs) ds) : Spells (.items (v :: vs)) (cs ++ ',' :: ds)
  | member {name : String} {v : Json} {gap cs gap' ds : List Char} (hg : IsGap gap)
    (hn : SpellsText name.toList cs) (hg' : IsGap gap') (h : Spells (.padded v) ds) :
    Spells (.member (name, v)) (gap ++ '\x22' :: (cs ++ '\x22' :: (gap' ++ ':' :: ds)))
  | lastMember {m : String × Json} {cs : List Char} (h : Spells (.member m) cs) :
    Spells (.members [m]) cs
  | moreMembers {m : String × Json} {ms : List (String × Json)} {cs ds : List Char}
    (h : Spells (.member m) cs) (hs : Spells (.members ms) ds) :
    Spells (.members (m :: ms)) (cs ++ ',' :: ds)

/-- The text spells the document. -/
def SpelledBy (v : Json) (t : String) : Prop := Spells (.padded v) t.toList

/-! ## Strings -/

section Strings

variable {c : Char} {cs ds es rest : List Char} {n : Nat}

theorem HexDigit.value_eq (h : HexDigit n c) (hn : n < 16) : hexValue c = some n := by
  have hall : ∀ n < 16, hexValue n.digitChar = some n ∧ hexValue n.digitChar.toUpper = some n := by
    decide
  cases h
  · exact (hall n hn).1
  · exact (hall n hn).2

/-- The escape of a unit is read as that unit. -/
theorem SpellsUnit.pieces_append (h : SpellsUnit n ds) (cs : List Char) :
    pieces (ds ++ cs) = (pieces cs).map fun r => (.unit n :: r.1, r.2) := by
  obtain ⟨hn, ha, hb, hc, hd⟩ := h
  have hsum : (n / 0x1000 * 16 + n / 0x100 % 16) * 256 + (n / 0x10 % 16 * 16 + n % 16) = n := by
    omega
  rw [show ∀ a b c d : Char, ['\\', 'u', a, b, c, d] ++ cs = '\\' :: 'u' :: a :: b :: c :: d :: cs
    from fun _ _ _ _ => rfl, pieces, ha.value_eq (by omega), hb.value_eq (by omega),
    hc.value_eq (by omega), hd.value_eq (by omega)]
  dsimp only [Option.bind_eq_bind, Option.bind_some]
  rw [hsum]
  cases pieces cs <;> rfl

/-- A character is read as pieces of its own, and these are joined to it: one piece, or two if it is
escaped as a pair of surrogates. -/
theorem SpellsChar.pieces_append (h : SpellsChar c ds) :
    ∃ ps, (∀ cs, pieces (ds ++ cs) = (pieces cs).map fun r => (ps ++ r.1, r.2)) ∧
      ∀ qs, join (ps ++ qs) = (join qs).map (c :: ·) := by
  cases h with
  | plain hq hs hc =>
    refine ⟨[.char c], fun cs => ?_, fun qs => rfl⟩
    rw [List.singleton_append, pieces]
    · rw [if_neg hq, if_neg (by simp [hs]; omega)]
      cases pieces cs <;> rfl
    all_goals
      intros
      contradiction
  | letter h =>
    refine ⟨[.char c], fun cs => ?_, fun qs => rfl⟩
    have hall : ∀ e ∈ shortEscapes, e.1 ≠ 'u' ∧ escapeOf e.1 = some e.2 := by decide
    obtain ⟨hu, he⟩ := hall _ h
    rw [List.cons_append, List.cons_append, List.nil_append, pieces, he]
    · cases pieces cs <;> rfl
    · exact fun _ _ _ _ _ hd _ => hu hd
  | unit h =>
    refine ⟨[.unit c.toNat], h.pieces_append, fun qs => ?_⟩
    -- no character is half a pair
    have hc : c.toNat < 0xd800 ∨ 0xdfff < c.toNat ∧ c.toNat < 0x110000 := c.valid
    have hhigh : isHigh c.toNat = false := by
      rw [isHigh, Bool.and_eq_false_iff, decide_eq_false_iff_not, decide_eq_false_iff_not]
      omega
    have hlow : isLow c.toNat = false := by
      rw [isLow, Bool.and_eq_false_iff, decide_eq_false_iff_not, decide_eq_false_iff_not]
      omega
    rw [List.singleton_append, join.eq_def]
    dsimp only
    rw [hhigh, if_neg Bool.false_ne_true, hlow, if_neg Bool.false_ne_true, Char.ofNat_toNat]
  | @pair high low _ _ hc hh hl hd he =>
    refine ⟨[.unit (0xd800 + high), .unit (0xdc00 + low)], fun cs => ?_, fun qs => ?_⟩
    · rw [List.append_assoc, hd.pieces_append, he.pieces_append]
      cases pieces cs <;> rfl
    · have hhigh : isHigh (0xd800 + high) = true := by
        simp only [isHigh, Bool.and_eq_true, decide_eq_true_eq]
        omega
      have hlow : isLow (0xdc00 + low) = true := by
        simp only [isLow, Bool.and_eq_true, decide_eq_true_eq]
        omega
      rw [List.cons_append, List.singleton_append, join, hhigh, if_pos rfl, hlow, if_pos rfl,
        Nat.add_sub_cancel_left, Nat.add_sub_cancel_left, ← hc, Char.ofNat_toNat]

/-- A string is read back up to its closing quote: its pieces are those of its characters, in
order. -/
theorem SpellsText.stringTail_append (h : SpellsText cs es) (rest : List Char) :
    stringTail (es ++ '\x22' :: rest) = some (some (String.ofList cs), rest) := by
  have hpieces : ∃ ps, pieces (es ++ '\x22' :: rest) = some (ps, rest) ∧ join ps = some cs := by
    -- the induction is on the characters of the string
    induction h with
    | nil => exact ⟨[], by simp [pieces], rfl⟩
    | cons h _ ih =>
      obtain ⟨ps, hps, hjoin⟩ := ih
      obtain ⟨qs, hqs, hq⟩ := h.pieces_append
      exact ⟨qs ++ ps, by rw [List.append_assoc, hqs, hps]; rfl, by rw [hq, hjoin]; rfl⟩
  obtain ⟨ps, hps, hjoin⟩ := hpieces
  rw [stringTail, hps]
  show some ((join ps).map String.ofList, rest) = _
  rw [hjoin]
  rfl

end Strings

/-! ## What follows a value -/

/-- No number goes on here. -/
def Ends (rest : List Char) : Prop :=
  ∀ c ∈ rest.head?, c.isDigit = false ∧ c ≠ '.' ∧ c ≠ 'e' ∧ c ≠ 'E'

/-- What stands behind a value and its blanks. -/
def IsClosing (rest : List Char) : Prop := ∀ c ∈ rest.head?, c = ',' ∨ c = ']' ∨ c = '\x7d'

section Tokens

variable {c : Char} {cs gap rest : List Char} {n : Nat}

theorem isSpace_of_mem (hg : IsGap gap) (h : c ∈ gap) : isSpace c = true := by
  have hall : ∀ d ∈ [' ', '\t', '\n', '\r'], isSpace d = true := by simp [isSpace]
  exact hall c (hg h)

theorem skipSpace_append (hg : IsGap gap) (cs : List Char) :
    skipSpace (gap ++ cs) = skipSpace cs :=
  List.dropWhile_append_of_pos fun _ h => isSpace_of_mem hg h

theorem skipSpace_of_head (h : ∀ c ∈ cs.head?, isSpace c = false) : skipSpace cs = cs :=
  Text.dropWhile_eq_self_iff.2 h

theorem ne_of_isDigit {d : Char} (hc : c.isDigit = true) (hd : d.isDigit = false) : c ≠ d := by
  rintro rfl
  rw [hc] at hd
  cases hd

/-- No digit is a blank. -/
theorem skipSpace_digit (hc : c.isDigit = true) (cs : List Char) :
    skipSpace (c :: cs) = c :: cs :=
  skipSpace_of_head fun d hd => by
    cases hd
    simp [isSpace, ne_of_isDigit hc (d := ' ') rfl, ne_of_isDigit hc (d := '\t') rfl,
      ne_of_isDigit hc (d := '\n') rfl, ne_of_isDigit hc (d := '\r') rfl]

theorem IsClosing.skipSpace_eq (h : IsClosing rest) : skipSpace rest = rest :=
  skipSpace_of_head fun c hc => by rcases h c hc with rfl | rfl | rfl <;> rfl

/-- A number ends there, with blanks in between or without. -/
theorem IsClosing.ends_append (h : IsClosing rest) (hg : IsGap gap) : Ends (gap ++ rest) := by
  intro c hc
  cases gap with
  | nil => rcases h c hc with rfl | rfl | rfl <;> decide
  | cons d gap =>
    cases hc
    have hall : ∀ d ∈ [' ', '\t', '\n', '\r'],
        d.isDigit = false ∧ d ≠ '.' ∧ d ≠ 'e' ∧ d ≠ 'E' := by simp
    exact hall _ (hg List.mem_cons_self)

/-- Blanks in front of a value do not matter. -/
theorem value_append (hg : IsGap gap) (fuel : Nat) (cs : List Char) :
    value fuel (gap ++ cs) = value fuel cs := by
  cases fuel with
  | zero => rfl
  | succ fuel => rw [value, value, skipSpace_append hg]

/-! ## Numbers -/

/-- The digits of a natural number are read as its whole part. -/
theorem wholePart_toDigits (h : Ends rest) (n : Nat) :
    wholePart (Nat.toDigits 10 n ++ rest) = some (Nat.toDigits 10 n, rest) := by
  rcases Nat.eq_zero_or_pos n with rfl | hn
  · rfl
  · -- no digit follows
    have hrest : rest.takeWhile Char.isDigit = [] ∧ rest.dropWhile Char.isDigit = rest := by
      cases rest with
      | nil => exact ⟨rfl, rfl⟩
      | cons c rest =>
        have hc : ¬ c.isDigit = true := by simp [(h c rfl).1]
        exact ⟨List.takeWhile_cons_of_neg hc, List.dropWhile_cons_of_neg hc⟩
    have htake : (Nat.toDigits 10 n ++ rest).takeWhile Char.isDigit = Nat.toDigits 10 n := by
      rw [List.takeWhile_append_of_pos isDigit_of_mem, hrest.1, List.append_nil]
    have hdrop : (Nat.toDigits 10 n ++ rest).dropWhile Char.isDigit = rest := by
      rw [List.dropWhile_append_of_pos isDigit_of_mem, hrest.2]
    obtain ⟨d, ds, hd, -⟩ := toDigits_eq_cons n
    have hzero := head?_toDigits_ne_zero (b := 10) (by decide) hn
    rw [hd] at htake hdrop hzero ⊢
    rw [List.cons_append] at htake hdrop ⊢
    rw [wholePart, digits1, htake, hdrop]
    rintro rest' he
    exact hzero (congrArg some (List.cons.inj he).1)

/-- A natural number has neither a fraction nor an exponent, if what follows its digits ends a
number. -/
theorem numeral_toDigits (h : Ends rest) (n : Nat) :
    numeral (Nat.toDigits 10 n ++ rest) = some (.ofNat n, rest) := by
  have hfraction : fractionPart rest = some ([], rest) := by
    unfold fractionPart
    split
    · exact absurd rfl (h _ rfl).2.1
    · rfl
  have hexponent : exponentPart rest = some (none, rest) := by
    unfold exponentPart
    split
    · exact absurd rfl (h _ rfl).2.2.1
    · exact absurd rfl (h _ rfl).2.2.2
    · rfl
  have hunsigned : unsigned false (Nat.toDigits 10 n ++ rest) = some (.ofNat n, rest) := by
    unfold unsigned
    rw [wholePart_toDigits h]
    dsimp only [Option.bind_eq_bind, Option.bind_some]
    rw [hfraction, Option.bind_some]
    dsimp only
    rw [hexponent]
    rfl
  obtain ⟨d, ds, hd, hdigit⟩ := toDigits_eq_cons n
  rw [hd, List.cons_append] at hunsigned ⊢
  rw [numeral, hunsigned]
  rintro rest' he
  rw [(List.cons.inj he).1] at hdigit
  cases hdigit

end Tokens

/-! ## Documents -/

section Documents

variable {c : Char} {cs ds gap rest : List Char} {fuel : Nat} {p : Part} {v : Json}

theorem skipSpace_append_of_cons (h : skipSpace cs = c :: ds) (rest : List Char) :
    skipSpace (cs ++ rest) = c :: (ds ++ rest) := by
  rw [skipSpace, List.dropWhile_append, show cs.dropWhile isSpace = c :: ds from h]
  rfl

/-- The first token of a part closes nothing, which tells an array or an object from the empty
one. -/
theorem Spells.head (h : Spells p cs) :
    ∃ c ds, skipSpace cs = c :: ds ∧ c ≠ ']' ∧ c ≠ '\x7d' := by
  induction h with
  | null | yes | no | text | noItems | array | noMembers | record =>
    exact ⟨_, _, rfl, by decide, by decide⟩
  | nat n =>
    obtain ⟨d, ds, hd, hdigit⟩ := toDigits_eq_cons n
    refine ⟨d, ds, ?_, ne_of_isDigit hdigit rfl, ne_of_isDigit hdigit rfl⟩
    rw [hd]
    exact skipSpace_digit hdigit ds
  | padded hg _ _ ih =>
    -- blanks in front are skipped, so the token is that of the document
    obtain ⟨c, ds, hc, hne⟩ := ih
    exact ⟨c, _, (skipSpace_append hg _).trans (skipSpace_append_of_cons hc _), hne⟩
  | lastItem _ ih | lastMember _ ih => exact ih
  | item _ _ ih | moreMembers _ _ ih =>
    obtain ⟨c, ds, hc, hne⟩ := ih
    exact ⟨c, _, skipSpace_append_of_cons hc _, hne⟩
  | member hg => exact ⟨_, _, skipSpace_append hg _, by decide, by decide⟩

/-! ### The cases of the reader -/

theorem value_string (k : Nat) (cs : List Char) :
    value (k + 1) ('\x22' :: cs) = (stringTail cs).map fun r => (.string r.1, r.2) := rfl

/-- One that begins with a digit is a number. -/
theorem value_digit (k : Nat) (hd : c.isDigit = true) (cs : List Char) :
    value (k + 1) (c :: cs) = (numeral (c :: cs)).map fun r => (.number r.1, r.2) := by
  rw [value, skipSpace_digit hd]
  -- every other case of the reader begins with a character that is no digit
  split
  all_goals first
    | rfl
    | rename_i h
      exact absurd (List.cons.inj h).1 (ne_of_isDigit hd rfl)

theorem value_noItems (k : Nat) (h : skipSpace cs = ']' :: rest) :
    value (k + 1) ('[' :: cs) = some (.array [], rest) := by
  have hcs : skipSpace ('[' :: cs) = '[' :: cs := rfl
  simp only [value, hcs, h]

/-- Any other one has those that are read up to its bracket. -/
theorem value_array (k : Nat) (h : skipSpace cs = c :: ds) (hc : c ≠ ']') :
    value (k + 1) ('[' :: cs) = (items k cs).map fun r => (.array r.1, r.2) := by
  have hcs : skipSpace ('[' :: cs) = '[' :: cs := rfl
  simp only [value, hcs, h]
  split
  · rename_i he
    exact absurd (List.cons.inj he).1 hc
  · rfl

theorem value_noMembers (k : Nat) (h : skipSpace cs = '\x7d' :: rest) :
    value (k + 1) ('\x7b' :: cs) = some (.object [], rest) := by
  have hcs : skipSpace ('\x7b' :: cs) = '\x7b' :: cs := rfl
  simp only [value, hcs, h]

/-- Any other one has those that are read up to its brace. -/
theorem value_object (k : Nat) (h : skipSpace cs = c :: ds) (hc : c ≠ '\x7d') :
    value (k + 1) ('\x7b' :: cs) = (members k cs).map fun r => (.object r.1, r.2) := by
  have hcs : skipSpace ('\x7b' :: cs) = '\x7b' :: cs := rfl
  simp only [value, hcs, h]
  split
  · rename_i he
    exact absurd (List.cons.inj he).1 hc
  · rfl

/-- An item was read, and the text goes on behind it. -/
theorem items_item {k : Nat} {tail : List Char} (hv : value k cs = some (v, tail)) :
    items (k + 1) cs =
      match skipSpace tail with
      | ',' :: rest => (items k rest).bind fun r => some (v :: r.1, r.2)
      | ']' :: rest => some ([v], rest)
      | _ => none := by
  rw [items, hv]
  rfl

/-- A member was read, and the text goes on behind it. -/
theorem members_member {k : Nat} {name colon tail tail' : List Char} {s : Option String}
    (hq : skipSpace cs = '\x22' :: name) (hname : stringTail name = some (s, tail))
    (hcolon : skipSpace tail = ':' :: colon) (hv : value k colon = some (v, tail')) :
    members (k + 1) cs =
      match skipSpace tail' with
      | ',' :: rest => (members k rest).bind fun r => some ((s, v) :: r.1, r.2)
      | '\x7d' :: rest => some ([(s, v)], rest)
      | _ => none := by
  rw [members, hq]
  show (stringTail name).bind _ = _
  rw [hname, Option.bind_some]
  dsimp only
  rw [hcolon]
  show (value k colon).bind _ = _
  rw [hv]
  rfl

/-! ### Every part is read -/

/-- What the reader makes of a part, whatever stands behind it. -/
def Part.IsRead (cs : List Char) : Part → Prop
  | .value v => ∀ fuel rest, 2 * cs.length ≤ fuel → Ends rest →
    Json.value fuel (cs ++ rest) = some (v, rest)
  | .padded v => ∀ fuel rest, 2 * cs.length ≤ fuel → IsClosing rest →
    ∃ tail, Json.value fuel (cs ++ rest) = some (v, tail) ∧ skipSpace tail = rest
  | .items vs => ∀ fuel rest, 2 * cs.length < fuel →
    Json.items fuel (cs ++ ']' :: rest) = some (vs, rest)
  | .member m => ∀ fuel rest, 2 * cs.length ≤ fuel → IsClosing rest →
    ∃ name tail colon tail', skipSpace (cs ++ rest) = '\x22' :: name ∧
      stringTail name = some (some m.1, tail) ∧ skipSpace tail = ':' :: colon ∧
      Json.value fuel colon = some (m.2, tail') ∧ skipSpace tail' = rest
  | .members ms => ∀ fuel rest, 2 * cs.length < fuel →
    Json.members fuel (cs ++ '\x7d' :: rest) = some (ms.map fun m => (some m.1, m.2), rest)

/-- Fuel for a text that is not empty. -/
theorem exists_succ_of_le (hcs : cs ≠ []) (h : 2 * cs.length ≤ fuel) : ∃ k, fuel = k + 1 := by
  have := List.length_pos_iff.2 hcs
  exact ⟨fuel - 1, by omega⟩

/-- A natural number is read back. -/
theorem isRead_nat (n : Nat) : (Part.value (.nat n)).IsRead (Nat.toDigits 10 n) := by
  intro fuel rest hf hr
  obtain ⟨k, rfl⟩ := exists_succ_of_le Nat.toDigits_ne_nil hf
  have hnumeral := numeral_toDigits hr n
  obtain ⟨d, ds, hd, hdigit⟩ := toDigits_eq_cons n
  rw [hd] at hnumeral ⊢
  rw [List.cons_append] at hnumeral ⊢
  rw [value_digit k hdigit, hnumeral]
  rfl

/-- A spelled string is read between its quotes, and what stands after the closing quote is left. -/
theorem isRead_text {s : String} (h : SpellsText s.toList cs) :
    (Part.value (.text s)).IsRead ('\x22' :: (cs ++ ['\x22'])) := by
  intro fuel rest hf _
  obtain ⟨k, rfl⟩ := exists_succ_of_le (List.cons_ne_nil _ _) hf
  have htail := h.stringTail_append rest
  rw [String.ofList_toList] at htail
  rw [List.cons_append, List.append_assoc, value_string, List.singleton_append, htail]
  rfl

theorem isRead_noItems (hg : IsGap cs) :
    (Part.value (.array [])).IsRead ('[' :: (cs ++ [']'])) := by
  intro fuel rest hf _
  obtain ⟨k, rfl⟩ := exists_succ_of_le (List.cons_ne_nil _ _) hf
  rw [List.cons_append, List.append_assoc]
  exact value_noItems k (skipSpace_append hg _)

/-- An array is read if its items are, and if it is told from the empty one (`Spells.head`). -/
theorem isRead_array {vs : List Json} (h : Spells (.items vs) cs)
    (hread : (Part.items vs).IsRead cs) :
    (Part.value (.array vs)).IsRead ('[' :: (cs ++ [']'])) := by
  intro fuel rest hf _
  obtain ⟨k, rfl⟩ := exists_succ_of_le (List.cons_ne_nil _ _) hf
  rw [List.length_cons, List.length_append] at hf
  obtain ⟨c, ds, hc, hne, -⟩ := h.head
  rw [List.cons_append, List.append_assoc,
    value_array k (skipSpace_append_of_cons hc _) hne, List.singleton_append,
    hread k rest (by omega)]
  rfl

theorem isRead_noMembers (hg : IsGap cs) :
    (Part.value (.record [])).IsRead ('\x7b' :: (cs ++ ['\x7d'])) := by
  intro fuel rest hf _
  obtain ⟨k, rfl⟩ := exists_succ_of_le (List.cons_ne_nil _ _) hf
  rw [List.cons_append, List.append_assoc]
  exact value_noMembers k (skipSpace_append hg _)

/-- An object is read if its members are, and if it is told from the empty one. -/
theorem isRead_record {ms : List (String × Json)} (h : Spells (.members ms) cs)
    (hread : (Part.members ms).IsRead cs) :
    (Part.value (.record ms)).IsRead ('\x7b' :: (cs ++ ['\x7d'])) := by
  intro fuel rest hf _
  obtain ⟨k, rfl⟩ := exists_succ_of_le (List.cons_ne_nil _ _) hf
  rw [List.length_cons, List.length_append] at hf
  obtain ⟨c, ds, hc, -, hne⟩ := h.head
  rw [List.cons_append, List.append_assoc,
    value_object k (skipSpace_append_of_cons hc _) hne, List.singleton_append,
    hread k rest (by omega)]
  rfl

theorem isRead_padded {gap gap' : List Char} (hg : IsGap gap) (hg' : IsGap gap')
    (hread : (Part.value v).IsRead cs) : (Part.padded v).IsRead (gap ++ (cs ++ gap')) := by
  intro fuel rest hf hr
  simp only [List.length_append] at hf
  refine ⟨gap' ++ rest, ?_, (skipSpace_append hg' _).trans hr.skipSpace_eq⟩
  rw [List.append_assoc, List.append_assoc, value_append hg]
  exact hread _ _ (by omega) (hr.ends_append hg')

theorem isRead_lastItem (hread : (Part.padded v).IsRead cs) : (Part.items [v]).IsRead cs := by
  intro fuel rest hf
  obtain ⟨k, rfl⟩ : ∃ k, fuel = k + 1 := ⟨fuel - 1, by omega⟩
  obtain ⟨tail, htail, hskip⟩ := hread k (']' :: rest) (by omega) (by rintro _ ⟨⟩; decide)
  rw [items_item htail, hskip]
  rfl

/-- Any other item is followed by a comma, and the items behind it. -/
theorem isRead_item {vs : List Json} {ds : List Char} (hread : (Part.padded v).IsRead cs)
    (hreads : (Part.items vs).IsRead ds) : (Part.items (v :: vs)).IsRead (cs ++ ',' :: ds) := by
  intro fuel rest hf
  rw [List.length_append, List.length_cons] at hf
  obtain ⟨k, rfl⟩ : ∃ k, fuel = k + 1 := ⟨fuel - 1, by omega⟩
  obtain ⟨tail, htail, hskip⟩ := hread k (',' :: (ds ++ ']' :: rest)) (by omega)
    (by rintro _ ⟨⟩; decide)
  rw [List.append_assoc, List.cons_append, items_item htail, hskip]
  show (items k (ds ++ ']' :: rest)).bind _ = _
  rw [hreads k rest (by omega)]
  rfl

/-- A member is a name, a colon and a document, with blanks around the name. -/
theorem isRead_member {name : String} {gap gap' ds : List Char} (hg : IsGap gap)
    (hn : SpellsText name.toList cs) (hg' : IsGap gap') (hread : (Part.padded v).IsRead ds) :
    (Part.member (name, v)).IsRead (gap ++ '\x22' :: (cs ++ '\x22' :: (gap' ++ ':' :: ds))) := by
  intro fuel rest hf hr
  simp only [List.length_append, List.length_cons] at hf
  obtain ⟨tail, htail, hskip⟩ := hread fuel rest (by omega) hr
  have hname := hn.stringTail_append (gap' ++ ':' :: (ds ++ rest))
  rw [String.ofList_toList] at hname
  refine ⟨_, _, _, tail, ?_, hname, skipSpace_append hg' _, htail, hskip⟩
  rw [List.append_assoc, skipSpace_append hg, List.cons_append, List.append_assoc,
    List.cons_append, List.append_assoc, List.cons_append]
  rfl

/-- The last member is followed by the brace. -/
theorem isRead_lastMember {m : String × Json} (hread : (Part.member m).IsRead cs) :
    (Part.members [m]).IsRead cs := by
  intro fuel rest hf
  obtain ⟨k, rfl⟩ : ∃ k, fuel = k + 1 := ⟨fuel - 1, by omega⟩
  obtain ⟨name, tail, colon, tail', hq, hname, hcolon, hvalue, hskip⟩ :=
    hread k ('\x7d' :: rest) (by omega) (by rintro _ ⟨⟩; decide)
  rw [members_member hq hname hcolon hvalue, hskip]
  rfl

/-- Any other member is followed by a comma, and the members behind it. -/
theorem isRead_moreMembers {m : String × Json} {ms : List (String × Json)} {ds : List Char}
    (hread : (Part.member m).IsRead cs) (hreads : (Part.members ms).IsRead ds) :
    (Part.members (m :: ms)).IsRead (cs ++ ',' :: ds) := by
  intro fuel rest hf
  rw [List.length_append, List.length_cons] at hf
  obtain ⟨k, rfl⟩ : ∃ k, fuel = k + 1 := ⟨fuel - 1, by omega⟩
  obtain ⟨name, tail, colon, tail', hq, hname, hcolon, hvalue, hskip⟩ :=
    hread k (',' :: (ds ++ '\x7d' :: rest)) (by omega) (by rintro _ ⟨⟩; decide)
  rw [List.append_assoc, List.cons_append, members_member hq hname hcolon hvalue, hskip]
  show (members k (ds ++ '\x7d' :: rest)).bind _ = _
  rw [hreads k rest (by omega)]
  rfl

/-- Every part is read back, construct by construct. -/
theorem Spells.isRead (h : Spells p cs) : p.IsRead cs := by
  -- the induction is on how the part was spelled
  induction h with
  | null | yes | no =>
    intro fuel rest hf _
    obtain ⟨k, rfl⟩ := exists_succ_of_le (List.cons_ne_nil _ _) hf
    rfl
  | nat n => exact isRead_nat n
  | text h => exact isRead_text h
  | noItems hg => exact isRead_noItems hg
  | array h ih => exact isRead_array h ih
  | noMembers hg => exact isRead_noMembers hg
  | record h ih => exact isRead_record h ih
  | padded hg _ hg' ih => exact isRead_padded hg hg' ih
  | lastItem _ ih => exact isRead_lastItem ih
  | item _ _ ih ihs => exact isRead_item ih ihs
  | member hg hn hg' _ ih => exact isRead_member hg hn hg' ih
  | lastMember _ ih => exact isRead_lastMember ih
  | moreMembers _ _ ih ihs => exact isRead_moreMembers ih ihs

/-- A document is read back from every text that spells it. -/
theorem parse_of_spelledBy {t : String} (h : v.SpelledBy t) : parse t = some v := by
  obtain ⟨tail, htail, hskip⟩ := Spells.isRead h (2 * t.length + 2) [] (by
    rw [String.length_toList]; omega) nofun
  rw [List.append_nil] at htail
  rw [parse, htail]
  dsimp only
  rw [hskip]
  rfl

end Documents

/-! ## The writer -/

/-- A document without a number that is no natural one, and without a string that spells no text. -/
inductive IsPlain : Json → Prop
  | null : IsPlain .null
  | bool (b : Bool) : IsPlain (.bool b)
  | nat (n : Nat) : IsPlain (.nat n)
  | text (s : String) : IsPlain (.text s)
  | array {vs : List Json} (h : ∀ v ∈ vs, IsPlain v) : IsPlain (.array vs)
  | record {ms : List (String × Json)} (h : ∀ m ∈ ms, IsPlain m.2) : IsPlain (.record ms)

section Writer

variable {c : Char} {cs : List Char} {v : Json} {vs : List Json} {ms : List (String × Json)}

theorem isGap_nil : IsGap [] := List.nil_subset _

/-- The writer spells every character, some of them by the escape of a unit. -/
theorem spellsChar_escapeChar (c : Char) : SpellsChar c (escapeChar c) := by
  unfold escapeChar
  split
  · subst_vars
    exact .letter (by decide)
  split
  · subst_vars
    exact .letter (by decide)
  rename_i hq hs
  split
  · rename_i hlt
    refine .unit (.mk (by omega) ?_ ?_ ?_ .lower)
    · rw [show c.toNat / 0x1000 = 0 by omega]
      exact .lower
    · rw [show c.toNat / 0x100 % 16 = 0 by omega]
      exact .lower
    · exact .lower
  · exact .plain hq hs (by omega)

theorem spellsText_flatMap (cs : List Char) : SpellsText cs (cs.flatMap escapeChar) := by
  induction cs with
  | nil => exact .nil
  | cons c cs ih => exact .cons (spellsChar_escapeChar c) ih

/-- No blanks are needed. -/
theorem Spells.tight (h : Spells (.value v) cs) : Spells (.padded v) cs := by
  have hp := Spells.padded isGap_nil h isGap_nil
  rwa [List.append_nil] at hp

/-- Items are written with commas between them. -/
theorem spells_renderItems (hvs : vs ≠ []) (h : ∀ v ∈ vs, Spells (.value v) v.render) :
    Spells (.items vs) (renderItems vs) := by
  induction vs with
  | nil => exact absurd rfl hvs
  | cons v vs ih =>
    have hv := (h v List.mem_cons_self).tight
    cases vs with
    | nil => exact .lastItem hv
    | cons w vs =>
      exact .item hv (ih (List.cons_ne_nil _ _) fun u hu => h u (List.mem_cons_of_mem _ hu))

/-- The members of an object are spelled as they are rendered, each with its name and a colon, by
induction on how many there are. -/
theorem spells_renderMembers (hms : ms ≠ []) (h : ∀ m ∈ ms, Spells (.value m.2) m.2.render) :
    Spells (.members ms) (renderMembers (ms.map fun m => (some m.1, m.2))) := by
  have hmember : ∀ m : String × Json, Spells (.value m.2) m.2.render →
      Spells (.member m) (renderString (some m.1) ++ ':' :: m.2.render) := fun m hm => by
    have hp := Spells.member isGap_nil (spellsText_flatMap m.1.toList) isGap_nil hm.tight
    simpa [renderString, quote] using hp
  induction ms with
  | nil => exact absurd rfl hms
  | cons m ms ih =>
    have hm := hmember m (h m List.mem_cons_self)
    cases ms with
    | nil => exact .lastMember hm
    | cons n ms =>
      have hs := Spells.moreMembers hm
        (ih (List.cons_ne_nil _ _) fun u hu => h u (List.mem_cons_of_mem _ hu))
      rwa [List.append_assoc] at hs

/-- What is written spells the document. -/
theorem spells_render (h : IsPlain v) : Spells (.value v) v.render := by
  -- the induction is on the document
  induction h with
  | null => exact .null
  | bool b =>
    cases b
    · exact .no
    · exact .yes
  | nat n =>
    have hn : render (.nat n) = Nat.toDigits 10 n := by
      simp [nat, render, renderNumber, Number.ofNat]
    rw [hn]
    exact .nat n
  | text s => exact .text (spellsText_flatMap s.toList)
  | @array vs _ ih =>
    by_cases hvs : vs = []
    · subst hvs
      exact .noItems isGap_nil
    · exact .array (spells_renderItems hvs ih)
  | @record ms _ ih =>
    by_cases hms : ms = []
    · subst hms
      exact .noMembers isGap_nil
    · exact .record (spells_renderMembers hms ih)

theorem spelledBy_print (h : IsPlain v) : v.SpelledBy v.print := by
  rw [SpelledBy, print, String.toList_ofList]
  exact (spells_render h).tight

end Writer

end TunnelSession.Json

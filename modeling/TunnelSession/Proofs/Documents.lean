/-
  A TOML document is read back from its text.

  VALUES.  Each written value is one that can be read (`Field.value`).  A number is no date and no
  float, because no separator of theirs stands behind its digits; an array of several items has one
  on each line, so the reader goes round once for each of them.

  LINES.  An assignment, a header and an empty line are one line each, and no line is read beyond
  its break.  The fuel of the loop over lines is a length of text, and every line has some.

  MEMBERS.  A name that is not there yet is added behind the others (`insertNew_of_not_mem`), in the
  document itself or in the table of the latest header.

  `parse_printDocument` is the result: any assignments and sections with bare names, none of which
  is given twice in one table, and with numbers that fit.
-/
import Mathlib.Data.List.TakeWhile
import TunnelSession.Proofs.Addresses
import TunnelSession.Proofs.Quotes
import TunnelSession.Toml.Parser

namespace TunnelSession.Toml

variable {c : Char} {cs rest : List Char} {fuel depth : Nat}

/-- The value that is written. -/
def Field.value : Field → Value
  | .flag b => .boolean b
  | .natural n => .integer n
  | .text s => .string s
  | .texts l => .array (l.map .string)

/-! ## Numbers -/

/-- What stands behind a value on its line: the end of it. -/
theorem isUnquoted_break : IsUnquoted ('\n' :: rest) := by
  rintro _ ⟨⟩
  decide

/-- No separator stands behind digits on a line that ends there. So digits that a line consists of
are never the beginning of a date. -/
theorem expect_eq_none_of_fixedDigits {ds more : List Char} {n m : Nat} {e : Char}
    (hds : ∀ d ∈ ds, d.isDigit = true) (he : e.isDigit = false) (hn : e ≠ '\n')
    (h : fixedDigits n (ds ++ '\n' :: rest) = some (m, more)) : expect e more = none := by
  unfold fixedDigits at h
  dsimp only at h
  split at h
  · rename_i hall
    rw [Bool.and_eq_true, decide_eq_true_eq, List.all_eq_true] at hall
    -- the digits that were read do not reach beyond the line
    have hlen : n ≤ ds.length := by
      by_contra hlt
      have hbreak : '\n' ∈ (ds ++ '\n' :: rest).take n := by
        rw [List.take_append, List.mem_append]
        right
        obtain ⟨k, hk⟩ : ∃ k, n - ds.length = k + 1 := ⟨n - ds.length - 1, by omega⟩
        rw [hk, List.take_succ_cons]
        exact List.mem_cons_self
      exact absurd (hall.2 _ hbreak) (by decide)
    cases h
    rw [List.drop_append_of_le_length hlen]
    cases hd : ds.drop n with
    | nil => exact if_neg hn
    | cons d more =>
      have hdigit := hds d (List.mem_of_mem_drop (hd ▸ List.mem_cons_self))
      refine if_neg ?_
      rintro rfl
      rw [he] at hdigit
      cases hdigit
  · cases h

/-- Digits are read up to the end of the line. -/
theorem digitRun_append {ds : List Char} (hds : ∀ d ∈ ds, d.isDigit = true) (rest : List Char) :
    digitRun Char.isDigit (ds ++ '\n' :: rest) = (ds, '\n' :: rest) := by
  induction ds with
  | nil => rfl
  | cons d ds ih =>
    have hd : d.isDigit = true := hds d List.mem_cons_self
    have hne : d ≠ '_' := by
      rintro rfl
      cases hd
    rw [List.cons_append, digitRun]
    · rw [if_pos hd, ih fun e he => hds e (List.mem_cons_of_mem _ he)]
    · exact fun _ _ h => absurd h hne

theorem isDigit_of_mem {n : Nat} : ∀ d ∈ Nat.toDigits 10 n, d.isDigit = true :=
  fun _ h => Nat.isDigit_of_mem_toDigits (by decide) (by decide) h

theorem toDigits_eq_cons (n : Nat) :
    ∃ d ds, Nat.toDigits 10 n = d :: ds ∧ d.isDigit = true := by
  cases hd : Nat.toDigits 10 n with
  | nil => exact absurd hd Nat.toDigits_ne_nil
  | cons d ds => exact ⟨d, ds, rfl, isDigit_of_mem (n := n) d (hd ▸ List.mem_cons_self)⟩

/-- A number has no leading zero, so its digits are plain. -/
theorem plainDigits_toDigits (n : Nat) (rest : List Char) :
    plainDigits (Nat.toDigits 10 n ++ '\n' :: rest) = some (Nat.toDigits 10 n, '\n' :: rest) := by
  rcases Nat.eq_zero_or_pos n with rfl | hn
  · rfl
  · have hhead := head?_toDigits_ne_zero (b := 10) (by decide) hn
    have hrun := digitRun_append (isDigit_of_mem (n := n)) rest
    obtain ⟨d, ds, hd, hdigit⟩ := toDigits_eq_cons n
    rw [hd] at hhead hrun ⊢
    rw [List.cons_append, plainDigits, digits1, if_pos hdigit, ← List.cons_append, hrun]
    exact fun _ h => hhead (congrArg some (List.cons.inj h).1)

/-- The first digit is no sign, so there is none. -/
theorem sign_toDigits (n : Nat) (rest : List Char) :
    sign (Nat.toDigits 10 n ++ rest) = (false, Nat.toDigits 10 n ++ rest) := by
  obtain ⟨d, ds, hd, hdigit⟩ := toDigits_eq_cons n
  rw [hd, List.cons_append, sign]
  all_goals
    intro _ h
    rw [(List.cons.inj h).1] at hdigit
    cases hdigit

/-- A number is no date and no time: no dash and no colon follows its digits. -/
theorem moment_toDigits (n : Nat) (rest : List Char) :
    moment (Nat.toDigits 10 n ++ '\n' :: rest) = none := by
  have hdate : date (Nat.toDigits 10 n ++ '\n' :: rest) = none := by
    unfold date
    cases h : fixedDigits 4 (Nat.toDigits 10 n ++ '\n' :: rest) with
    | none => rfl
    | some r =>
      have he := expect_eq_none_of_fixedDigits (e := '-') isDigit_of_mem rfl (by decide) h
      simp [he]
  have htime : time (Nat.toDigits 10 n ++ '\n' :: rest) = none := by
    unfold time
    cases h : fixedDigits 2 (Nat.toDigits 10 n ++ '\n' :: rest) with
    | none => rfl
    | some r =>
      have he := expect_eq_none_of_fixedDigits (e := ':') isDigit_of_mem rfl (by decide) h
      simp [he]
  simp [moment, hdate, htime]

theorem decimal_toDigits (n : Nat) (rest : List Char) :
    decimal (Nat.toDigits 10 n ++ '\n' :: rest) = none := by
  simp [decimal, sign_toDigits, plainDigits_toDigits, fraction, exponent]

/-- A natural number is none of the numbers that have a name. -/
theorem namedFloat_toDigits (n : Nat) (rest : List Char) :
    namedFloat (Nat.toDigits 10 n ++ '\n' :: rest) = none := by
  unfold namedFloat
  rw [sign_toDigits]
  obtain ⟨d, ds, hd, hdigit⟩ := toDigits_eq_cons n
  have hne : ∀ {e : Char} {more : List Char}, e.isDigit = false →
      Nat.toDigits 10 n ++ '\n' :: rest ≠ e :: more := by
    intro e more he h
    rw [hd] at h
    rw [(List.cons.inj h).1, he] at hdigit
    cases hdigit
  dsimp only
  split
  · exact absurd ‹_› (hne rfl)
  · exact absurd ‹_› (hne rfl)
  · rfl

/-- The digits of a natural number are read as an integer, and in no base but ten. -/
theorem integer_toDigits {n : Nat} (hn : n ≤ integerMax) (rest : List Char) :
    integer (Nat.toDigits 10 n ++ '\n' :: rest) = some ((n : Int), '\n' :: rest) := by
  -- a zero in front stands alone
  have hlead : ∀ e more, Nat.toDigits 10 n ++ '\n' :: rest = '0' :: e :: more → e = '\n' := by
    intro e more h
    rcases Nat.eq_zero_or_pos n with rfl | hpos
    · exact (List.cons.inj (List.cons.inj h).2).1.symm
    · refine absurd ?_ (head?_toDigits_ne_zero (b := 10) (by decide) hpos)
      rw [← List.head?_append_of_ne_nil _ Nat.toDigits_ne_nil, h]
      rfl
  rw [integer]
  · rw [sign_toDigits]
    simp [plainDigits_toDigits, hn]
  all_goals
    intro more h
    exact absurd (hlead _ _ h) (by decide)

theorem numeric_toDigits {n : Nat} (hn : n ≤ integerMax) (rest : List Char) :
    numeric (Nat.toDigits 10 n ++ '\n' :: rest) = some (.integer n, '\n' :: rest) := by
  unfold numeric
  rw [moment_toDigits, decimal_toDigits, namedFloat_toDigits, integer_toDigits hn]
  rfl

/-! ## Values -/

/-- A value that begins with a digit is a number. -/
theorem value_toDigits (n : Nat) (rest : List Char) :
    value (fuel + 1) depth (Nat.toDigits 10 n ++ rest) = numeric (Nat.toDigits 10 n ++ rest) := by
  obtain ⟨d, ds, hd, hdigit⟩ := toDigits_eq_cons n
  have hq : ¬ (d = '\x22' || d = apostrophe) = true := by
    simp only [Bool.or_eq_true, decide_eq_true_eq, not_or]
    constructor
    all_goals
      rintro rfl
      cases hdigit
  rw [hd, List.cons_append, value]
  · rw [if_neg hq]
  all_goals
    intros
    subst_vars
    cases hdigit

/-- A string is read back, whatever follows it that is no quote. -/
theorem value_printString (s : String) (hr : IsUnquoted rest) :
    value (fuel + 1) depth (printString s ++ rest) = some (.string s, rest) := by
  have hread : text (printString s ++ rest) = some (s, rest) := by
    unfold printString
    rw [text_printText s.toList hr, String.ofList_toList]
  have hvalue : value (fuel + 1) depth (printString s ++ rest) =
      (text (printString s ++ rest)).map fun r => (.string r.1, r.2) := by
    obtain ⟨c, hc, hq⟩ := head?_printText s.toList
    obtain ⟨ds, hds⟩ := List.head?_eq_some_iff.1 hc
    rw [printString, hds]
    obtain rfl | rfl := hq <;> rfl
  rw [hvalue, hread]
  rfl

theorem skipGap_cons (hr : c ≠ '\r') (hn : c ≠ '\n') (hs : isSpace c = false) (hh : c ≠ '#') :
    skipGap false (c :: cs) = c :: cs := by
  rw [skipGap]
  · simp [hn, hs, hh]
  · exact fun _ h _ => hr h

/-- A quote ends a gap. -/
theorem skipGap_printString (s : String) (rest : List Char) :
    skipGap false (printString s ++ rest) = printString s ++ rest := by
  obtain ⟨c, hc, hq⟩ := head?_printText s.toList
  obtain ⟨ds, hds⟩ := List.head?_eq_some_iff.1 hc
  rw [printString, hds]
  obtain rfl | rfl := hq <;>
    exact skipGap_cons (by decide) (by decide) (by decide) (by decide)

theorem skipGap_indent (s : String) (rest : List Char) :
    skipGap false ('\n' :: (List.replicate 4 ' ' ++ printString s ++ rest)) =
      printString s ++ rest := by
  refine Eq.trans ?_ (skipGap_printString s rest)
  rfl

/-- One step of an array: an item with a comma behind it. -/
theorem items_comma {v : Value} {vs : List Value} {ds more : List Char}
    (hitem : value fuel depth ds = some (v, ',' :: more)) (hgap : skipGap false cs = ds)
    (hds : ∀ c ∈ ds.head?, c ≠ ']') (hmore : items fuel depth more = some (vs, rest)) :
    items (fuel + 1) depth cs = some (v :: vs, rest) := by
  rw [items, hgap]
  split
  · exact absurd rfl (hds _ rfl)
  · rw [hitem]
    simp [skipGap_cons, isSpace, hmore]

/-- A line of an array. -/
def itemLine (s : String) : List Char := List.replicate 4 ' ' ++ printString s ++ [',', '\n']

/-- An array on several lines is read back: the reader goes round once for each line and once for
the bracket. -/
theorem items_lines (l : List String) (h : l.length + 1 < fuel) (rest : List Char) :
    items fuel depth ('\n' :: (l.flatMap itemLine ++ ']' :: rest)) =
      some (l.map .string, rest) := by
  -- the induction is on the items; each takes one of the rounds
  induction l generalizing fuel with
  | nil =>
    obtain ⟨k, rfl⟩ : ∃ k, fuel = k + 1 := ⟨fuel - 1, by omega⟩
    rfl
  | cons s l ih =>
    obtain ⟨k, rfl⟩ : ∃ k, fuel = k + 1 + 1 := ⟨fuel - 2, by rw [List.length_cons] at h; omega⟩
    have hmore : items (k + 1) depth ('\n' :: (l.flatMap itemLine ++ ']' :: rest)) =
        some (l.map .string, rest) := ih (by rw [List.length_cons] at h; omega)
    refine items_comma (value_printString s (by rintro _ ⟨⟩; decide)) ?_ ?_ hmore
    · rw [List.flatMap_cons, itemLine, List.append_assoc, List.append_assoc]
      exact skipGap_indent s _
    · obtain ⟨c, hc, hq⟩ := head?_printText s.toList
      obtain ⟨ds, hds⟩ := List.head?_eq_some_iff.1 hc
      rw [printString, hds]
      rintro _ ⟨⟩
      obtain rfl | rfl := hq <;> decide

/-- An array of one item. -/
theorem items_one (s : String) (rest : List Char) :
    items (fuel + 1 + 1) depth (printString s ++ ']' :: rest) = some ([.string s], rest) := by
  rw [items, skipGap_printString]
  split
  · rename_i h
    obtain ⟨c, hc, hq⟩ := head?_printText s.toList
    obtain ⟨ds, hds⟩ := List.head?_eq_some_iff.1 hc
    rw [printString, hds] at h
    rw [(List.cons.inj h).1] at hq
    exact absurd hq (by decide)
  · rw [value_printString s (by rintro _ ⟨⟩; decide)]
    simp [skipGap_cons, isSpace]

/-- An array is read back from any fuel that goes round its items. -/
theorem value_printTexts (l : List String) (h : l.length + 3 ≤ fuel) (rest : List Char) :
    value fuel (depth + 1) (printTexts l ++ rest) = some (.array (l.map .string), rest) := by
  obtain ⟨k, rfl⟩ : ∃ k, fuel = k + 1 + 1 + 1 := ⟨fuel - 3, by omega⟩
  have hbracket : ∀ cs, value (k + 1 + 1 + 1) (depth + 1) ('[' :: cs) =
      (items (k + 1 + 1) depth cs).map fun r => (.array r.1, r.2) := fun _ => rfl
  match l with
  | [] => rfl
  | [s] =>
    rw [printTexts, List.cons_append, hbracket, List.append_assoc]
    exact congrArg (Option.map _) (items_one s rest)
  | s :: t :: l =>
    have hitems :
        items (k + 1 + 1) depth ('\n' :: ((s :: t :: l).flatMap itemLine ++ ']' :: rest)) =
        some ((s :: t :: l).map .string, rest) :=
      items_lines (s :: t :: l) (by simp only [List.length_cons] at h ⊢; omega) rest
    have hprint : printTexts (s :: t :: l) ++ rest =
        '[' :: '\n' :: ((s :: t :: l).flatMap itemLine ++ ']' :: rest) := by
      show '[' :: '\n' :: (((s :: t :: l).flatMap itemLine ++ [']']) ++ rest) = _
      rw [List.append_assoc]
      rfl
    rw [hprint, hbracket, hitems]
    rfl

/-- Every item takes some of the text. -/
theorem length_le_printTexts (l : List String) : l.length ≤ (printTexts l).length := by
  have hlines : ∀ l : List String, l.length ≤ (l.flatMap itemLine).length := by
    intro l
    induction l with
    | nil => exact Nat.le_refl _
    | cons s l ih =>
      simp only [List.flatMap_cons, itemLine, List.length_append, List.length_cons] at ih ⊢
      omega
  match l with
  | [] | [s] => simp [printTexts]
  | s :: t :: l =>
    have h := hlines (s :: t :: l)
    have hprint : (printTexts (s :: t :: l)).length =
        ((s :: t :: l).flatMap itemLine ++ [']']).length + 1 + 1 := rfl
    rw [hprint, List.length_append]
    omega

/-- A value is read back, if a number in it fits. -/
theorem value_printField {f : Field} (hf : f.fits = true)
    (h : 2 * (printField f ++ '\n' :: rest).length + 2 ≤ fuel) :
    value fuel depthMax (printField f ++ '\n' :: rest) = some (f.value, '\n' :: rest) := by
  obtain ⟨k, rfl⟩ : ∃ k, fuel = k + 1 := ⟨fuel - 1, by omega⟩
  cases f with
  | flag b => cases b <;> rfl
  | natural n =>
    refine (value_toDigits n _).trans (numeric_toDigits ?_ rest)
    simpa [Field.fits] using hf
  | text s => exact value_printString s isUnquoted_break
  | texts l =>
    refine value_printTexts l ?_ _
    have hl := length_le_printTexts l
    simp only [printField, List.length_append, List.length_cons] at h
    omega

/-- A value does not begin with a blank. -/
theorem head?_printField (f : Field) : ∃ c ∈ (printField f).head?, isSpace c = false := by
  cases f with
  | flag b => cases b <;> exact ⟨_, rfl, rfl⟩
  | natural n =>
    obtain ⟨d, ds, hd, hdigit⟩ := toDigits_eq_cons n
    refine ⟨d, by rw [printField, hd]; rfl, ?_⟩
    rw [isSpace, Bool.or_eq_false_iff, beq_eq_false_iff_ne, beq_eq_false_iff_ne]
    constructor
    all_goals
      rintro rfl
      cases hdigit
  | text s =>
    obtain ⟨c, hc, hq⟩ := head?_printText s.toList
    refine ⟨c, hc, ?_⟩
    obtain rfl | rfl := hq <;> rfl
  | texts l =>
    match l with
    | [] | [s] | s :: t :: l => exact ⟨'[', rfl, rfl⟩

theorem skipSpace_cons (h : isSpace c = false) : skipSpace (c :: cs) = c :: cs := by
  rw [skipSpace, List.dropWhile_cons_of_neg]
  simp [h]

theorem skipSpace_printField (f : Field) (rest : List Char) :
    skipSpace (printField f ++ rest) = printField f ++ rest := by
  obtain ⟨c, hc, hs⟩ := head?_printField f
  obtain ⟨ds, hds⟩ := List.head?_eq_some_iff.1 hc
  rw [hds, List.cons_append, skipSpace_cons hs]

/-! ## Keys -/

/-- A name that needs no quotes. -/
structure IsBareName (s : String) : Prop where
  ne_nil : s.toList ≠ []
  bare : ∀ c ∈ s.toList, isBare c = true

instance (s : String) : Decidable (IsBareName s) :=
  -- by way of the list: of the characters there are too many to go through
  haveI : Decidable (∀ c ∈ s.toList, isBare c = true) := List.decidableBAll _ s.toList
  decidable_of_iff (s.toList ≠ [] ∧ ∀ c ∈ s.toList, isBare c = true)
    ⟨fun h => ⟨h.1, h.2⟩, fun h => ⟨h.ne_nil, h.bare⟩⟩

theorem IsBareName.eq_cons {s : String} (h : IsBareName s) :
    ∃ c cs, s.toList = c :: cs ∧ isBare c = true := by
  cases hs : s.toList with
  | nil => exact absurd hs h.ne_nil
  | cons c cs => exact ⟨c, cs, rfl, h.bare c (hs ▸ List.mem_cons_self)⟩

/-- What stands in a bare name is nothing that means something else. -/
theorem ne_of_isBare (h : isBare c = true) {d : Char} (hd : isBare d = false) : c ≠ d := by
  rintro rfl
  rw [h] at hd
  cases hd

theorem isSpace_of_isBare (h : isBare c = true) : isSpace c = false := by
  rw [isSpace, Bool.or_eq_false_iff, beq_eq_false_iff_ne, beq_eq_false_iff_ne]
  exact ⟨ne_of_isBare h rfl, ne_of_isBare h rfl⟩

/-- A bare name ends where a character follows that cannot stand in one. -/
theorem name_append {s : String} (h : IsBareName s) (hc : isBare c = false) (cs : List Char) :
    name (s.toList ++ c :: cs) = some (s, c :: cs) := by
  have htake : (s.toList ++ c :: cs).takeWhile isBare = s.toList := by
    rw [List.takeWhile_append_of_pos h.bare, List.takeWhile_cons_of_neg (by simp [hc]),
      List.append_nil]
  have hdrop : (s.toList ++ c :: cs).dropWhile isBare = c :: cs := by
    rw [List.dropWhile_append_of_pos h.bare, List.dropWhile_cons_of_neg (by simp [hc])]
  obtain ⟨d, ds, hs, hd⟩ := h.eq_cons
  rw [hs] at htake hdrop ⊢
  rw [List.cons_append] at htake hdrop ⊢
  rw [name, if_neg (ne_of_isBare hd rfl), if_neg (ne_of_isBare hd rfl), if_pos hd, htake, hdrop,
    ← hs, String.ofList_toList]

/-- A bare name with blanks behind it is a key by itself, where no point follows. -/
theorem key_append {s : String} (h : IsBareName s) (hc : isBare c = false) {ds : List Char}
    (hskip : skipSpace (c :: cs) = ds) (hdot : ∀ d ∈ ds.head?, d ≠ '.') :
    key (s.toList ++ c :: cs) = some (([], s), ds) := by
  have hspace : skipSpace (s.toList ++ c :: cs) = s.toList ++ c :: cs := by
    obtain ⟨d, ds, hs, hd⟩ := h.eq_cons
    rw [hs, List.cons_append, skipSpace_cons (isSpace_of_isBare hd)]
  -- no point follows, so this name is all of it
  have hnames : ∀ k, names (k + 1) (s.toList ++ c :: cs) = some ([s], ds) := by
    intro k
    rw [names, hspace, name_append h hc]
    dsimp only [Option.bind_eq_bind, Option.bind_some]
    rw [hskip]
    split
    · exact absurd rfl (hdot _ rfl)
    · rfl
  rw [key, hnames]
  rfl

/-! ## Lines -/

/-- An assignment and its line. -/
def fieldLine (f : String × Field) : List Char :=
  f.1.toList ++ " = ".toList ++ printField f.2 ++ ['\n']

/-- The member that an assignment gives. -/
def member (f : String × Field) : String × Value := (f.1, f.2.value)

/-- An assignment is one line: the key up to the sign, and the value up to the break. The value is
read by the theorem for its kind, with the rest of the document behind it. -/
theorem line_fieldLine {f : String × Field} (hs : IsBareName f.1) (hf : f.2.fits = true)
    (rest : List Char) :
    line (fieldLine f ++ rest) = some (.assignment [] f.1 f.2.value, rest) := by
  have htext : fieldLine f ++ rest =
      f.1.toList ++ ' ' :: '=' :: ' ' :: (printField f.2 ++ '\n' :: rest) := by
    simp [fieldLine]
  have hkey : key (f.1.toList ++ ' ' :: '=' :: ' ' :: (printField f.2 ++ '\n' :: rest)) =
      some (([], f.1), '=' :: ' ' :: (printField f.2 ++ '\n' :: rest)) :=
    key_append hs rfl rfl (by rintro _ ⟨⟩; decide)
  have hvalue : value (2 * (' ' :: (printField f.2 ++ '\n' :: rest)).length + 2) depthMax
      (skipSpace (' ' :: (printField f.2 ++ '\n' :: rest))) =
        some (f.2.value, '\n' :: rest) := by
    have hskip : skipSpace (' ' :: (printField f.2 ++ '\n' :: rest)) =
        printField f.2 ++ '\n' :: rest := skipSpace_printField f.2 _
    rw [hskip]
    exact value_printField hf (by rw [List.length_cons]; omega)
  -- the line begins with a character of the key, so it is neither empty nor a comment or a header
  obtain ⟨c, cs, hc, hb⟩ := hs.eq_cons
  rw [htext]
  rw [hc, List.cons_append] at hkey ⊢
  unfold line
  rw [skipSpace_cons (isSpace_of_isBare hb)]
  split
  · contradiction
  · rename_i h
    exact absurd (List.cons.inj h).1 (ne_of_isBare hb rfl)
  · rename_i h
    exact absurd (List.cons.inj h).1 (ne_of_isBare hb rfl)
  · rename_i h
    obtain ⟨rfl, rfl⟩ := List.cons.inj h
    have hplain : ¬ (c = '#' || c = '\n' || c = '\r') = true := by
      simp [ne_of_isBare hb (d := '#') rfl, ne_of_isBare hb (d := '\n') rfl,
        ne_of_isBare hb (d := '\r') rfl]
    rw [if_neg hplain, hkey]
    show (value _ depthMax _).bind _ = _
    rw [hvalue]
    rfl

/-- A header is one line. -/
theorem line_header {s : String} (hs : IsBareName s) (rest : List Char) :
    line ('[' :: (s.toList ++ ']' :: '\n' :: rest)) = some (.table [] s, rest) := by
  have hkey : key (s.toList ++ ']' :: '\n' :: rest) = some (([], s), ']' :: '\n' :: rest) :=
    key_append hs rfl rfl (by rintro _ ⟨⟩; decide)
  obtain ⟨c, cs, hc, hb⟩ := hs.eq_cons
  rw [hc, List.cons_append] at hkey ⊢
  unfold line
  rw [skipSpace_cons rfl]
  split
  · contradiction
  · rename_i h
    exact absurd (List.cons.inj (List.cons.inj h).2).1 (ne_of_isBare hb rfl)
  · rename_i h
    obtain rfl := (List.cons.inj h).2
    rw [hkey]
    rfl
  · rename_i hne h
    exact (hne (List.cons.inj h).1.symm).elim

/-! ## Members -/

/-- The names of a table. -/
def namesOf (ms : Members) : List String := ms.map (·.1)

/-- A name that is not there yet comes behind the others. -/
theorem alter_of_not_mem {n : String} {f : Option Value → Option Value} {ms : Members}
    (h : n ∉ namesOf ms) : alter n f ms = (f none).map fun v => ms ++ [(n, v)] := by
  induction ms with
  | nil => rfl
  | cons m ms ih =>
    rw [namesOf, List.map_cons, List.mem_cons, not_or] at h
    rw [alter, if_neg (Ne.symm h.1), ih h.2, Option.map_map]
    rfl

/-- A name is found where it stands last. -/
theorem alter_append {n : String} {v : Value} {f : Option Value → Option Value} {ms : Members}
    (h : n ∉ namesOf ms) :
    alter n f (ms ++ [(n, v)]) = (f (some v)).map fun w => ms ++ [(n, w)] := by
  induction ms with
  | nil =>
    show (if n = n then _ else _) = _
    rw [if_pos rfl]
    rfl
  | cons m ms ih =>
    rw [namesOf, List.map_cons, List.mem_cons, not_or] at h
    rw [List.cons_append, alter, if_neg (Ne.symm h.1), ih h.2, Option.map_map]
    rfl

theorem insertNew_of_not_mem {n : String} {v : Value} {ms : Members} (h : n ∉ namesOf ms) :
    insertNew n v ms = some (ms ++ [(n, v)]) := alter_of_not_mem h

/-- What was read so far: members of the document, and maybe a table under the latest header. -/
def Draft.of (ms : Members) : Option (String × Members) → Draft
  | none => ⟨ms, []⟩
  | some (s, sub) => ⟨ms ++ [(s, .table .header sub)], [s]⟩

theorem Draft.add_root {ms : Members} {n : String} (h : n ∉ namesOf ms) (v : Value) :
    (Draft.of ms none).add (.assignment [] n v) = some (.of (ms ++ [(n, v)]) none) := by
  show (insertNew n v ms).map _ = _
  rw [insertNew_of_not_mem h]
  rfl

/-- One behind a header is a member of that table. -/
theorem Draft.add_section {ms sub : Members} {s n : String} (hs : s ∉ namesOf ms)
    (h : n ∉ namesOf sub) (v : Value) :
    (Draft.of ms (some (s, sub))).add (.assignment [] n v) =
      some (.of ms (some (s, sub ++ [(n, v)]))) := by
  show (within .header [s] (assign .dotted [] n v) .header (ms ++ [(s, .table .header sub)])).map
    _ = _
  rw [within, alter_append hs]
  show (((insertNew n v sub).map _).map _).map _ = _
  rw [insertNew_of_not_mem h]
  rfl

theorem Draft.add_header {d : Draft} {s : String} (hs : s ∉ namesOf d.members) :
    d.add (.table [] s) = some (.of d.members (some (s, []))) := by
  show (alter s _ d.members).map _ = _
  rw [alter_of_not_mem hs]
  rfl

/-! ## Documents -/

/-- A line is read, and the rest of the text has fuel left. -/
theorem lines_of_line {d e : Draft} {l : Line} (hl : line cs = some (l, rest))
    (hd : d.add l = some e) (hcs : cs ≠ []) (hfuel : cs.length ≤ fuel)
    (hlt : rest.length < cs.length) :
    ∃ k, rest.length ≤ k ∧ lines fuel d cs = lines k e rest := by
  obtain ⟨k, rfl⟩ : ∃ k, fuel = k + 1 := ⟨fuel - 1, by
    have := List.length_pos_iff.2 hcs
    omega⟩
  refine ⟨k, by omega, ?_⟩
  rw [lines, if_neg (by simpa using hcs), hl]
  show (d.add l).bind _ = _
  rw [hd]
  rfl

/-- Assignments are read one line after the other, each of which adds a member to what `wrap` makes
a draft of. -/
theorem lines_printFields (wrap : Members → Draft) (ms : Members) (fields : List (String × Field))
    (hadd : ∀ {ms : Members} {n : String}, n ∉ namesOf ms → ∀ v,
      (wrap ms).add (.assignment [] n v) = some (wrap (ms ++ [(n, v)])))
    (hbare : ∀ f ∈ fields, IsBareName f.1 ∧ f.2.fits = true)
    (hnodup : (namesOf ms ++ fields.map (·.1)).Nodup)
    (hfuel : (printFields fields ++ rest).length ≤ fuel) :
    ∃ k, rest.length ≤ k ∧ lines fuel (wrap ms) (printFields fields ++ rest) =
      lines k (wrap (ms ++ fields.map member)) rest := by
  -- the induction is on the assignments, with the members that were read before them
  induction fields generalizing ms fuel with
  | nil => exact ⟨fuel, hfuel, by rw [List.map_nil, List.append_nil]; rfl⟩
  | cons f fields ih =>
    have htext : printFields (f :: fields) ++ rest = fieldLine f ++ (printFields fields ++ rest) :=
      List.append_assoc _ _ _
    have hlen : 0 < (fieldLine f).length := by
      rw [fieldLine, List.length_append]
      exact Nat.lt_add_left _ (by decide)
    rw [htext] at hfuel ⊢
    obtain ⟨hs, hf⟩ := hbare f List.mem_cons_self
    have hnew : f.1 ∉ namesOf ms := by
      rw [List.map_cons, List.nodup_append] at hnodup
      exact fun hm => hnodup.2.2 _ hm _ List.mem_cons_self rfl
    obtain ⟨k, hk, hline⟩ := lines_of_line (line_fieldLine hs hf _) (hadd hnew _)
      (by
        rw [← List.length_pos_iff, List.length_append]
        omega) hfuel (by
          have hlen : (fieldLine f ++ (printFields fields ++ rest)).length =
              (fieldLine f).length + (printFields fields ++ rest).length := List.length_append
          omega)
    have hnodup' : (namesOf (ms ++ [(f.1, f.2.value)]) ++ fields.map (·.1)).Nodup := by
      rw [namesOf, List.map_append, List.append_assoc]
      exact hnodup
    obtain ⟨j, hj, hrest⟩ := ih _ (fun g hg => hbare g (List.mem_cons_of_mem _ hg)) hnodup' hk
    refine ⟨j, hj, ?_⟩
    rw [hline, hrest, List.map_cons, List.append_assoc]
    rfl

/-- A section of the text. -/
def sectionLines (s : String × List (String × Field)) : List Char :=
  '\n' :: '[' :: (s.1.toList ++ [']', '\n'] ++ printFields s.2)

/-- The member that a section gives. -/
def sectionMember (s : String × List (String × Field)) : String × Value :=
  (s.1, .table .header (s.2.map member))

/-- A section whose names need no quotes, each of them given once, and whose numbers fit. -/
structure IsPlain (fields : List (String × Field)) : Prop where
  bare : ∀ f ∈ fields, IsBareName f.1 ∧ f.2.fits = true
  nodup : (fields.map (·.1)).Nodup

/-- A section is an empty line, a header and its assignments. -/
theorem lines_sectionLines {d : Draft} {s : String × List (String × Field)} (hs : IsBareName s.1)
    (hnew : s.1 ∉ namesOf d.members) (hp : IsPlain s.2)
    (hfuel : (sectionLines s ++ rest).length ≤ fuel) :
    ∃ k, rest.length ≤ k ∧ lines fuel d (sectionLines s ++ rest) =
      lines k ⟨d.members ++ [sectionMember s], [s.1]⟩ rest := by
  have htext : sectionLines s ++ rest =
      '\n' :: '[' :: (s.1.toList ++ ']' :: '\n' :: (printFields s.2 ++ rest)) := by
    simp [sectionLines]
  rw [htext] at hfuel ⊢
  obtain ⟨k, hk, hempty⟩ := lines_of_line (d := d) rfl rfl (by simp) hfuel (by simp)
  obtain ⟨j, hj, hheader⟩ := lines_of_line (line_header hs _) (Draft.add_header hnew) (by simp) hk
    (by simp only [List.length_cons, List.length_append]; omega)
  obtain ⟨i, hi, hfields⟩ := lines_printFields
    (fun sub => .of d.members (some (s.1, sub))) [] s.2
      (fun h v => Draft.add_section hnew h v) hp.bare hp.nodup hj
  exact ⟨i, hi, by rw [hempty, hheader, hfields]; rfl⟩

/-- Sections are read one after the other, each under its own header. -/
theorem lines_sections {d : Draft} (sections : List (String × List (String × Field)))
    (hplain : ∀ s ∈ sections, IsBareName s.1 ∧ IsPlain s.2)
    (hnodup : (namesOf d.members ++ sections.map (·.1)).Nodup)
    (hfuel : (sections.flatMap sectionLines).length ≤ fuel) :
    (lines fuel d (sections.flatMap sectionLines)).map (·.members) =
      some (d.members ++ sections.map sectionMember) := by
  induction sections generalizing d fuel with
  | nil =>
    cases fuel <;> simp [lines]
  | cons s sections ih =>
    obtain ⟨hs, hp⟩ := hplain s List.mem_cons_self
    have hnew : s.1 ∉ namesOf d.members := by
      rw [List.map_cons, List.nodup_append] at hnodup
      exact fun hm => hnodup.2.2 _ hm _ List.mem_cons_self rfl
    rw [List.flatMap_cons] at hfuel
    obtain ⟨k, hk, hlines⟩ := lines_sectionLines hs hnew hp hfuel
    have hnodup' : (namesOf (d.members ++ [sectionMember s]) ++ sections.map (·.1)).Nodup := by
      rw [namesOf, List.map_append, List.append_assoc]
      exact hnodup
    rw [List.flatMap_cons, hlines,
      ih (fun t ht => hplain t (List.mem_cons_of_mem _ ht)) hnodup' hk, List.map_cons,
      List.append_assoc]
    rfl

/-- A written document has no byte-order mark. -/
theorem dropMark_printDocument {fields : List (String × Field)}
    (hp : IsPlain fields) (sections : List (String × List (String × Field))) :
    dropMark (printDocument fields sections) = printDocument fields sections := by
  have hhead : ∀ {c : Char} {cs : List Char}, c.toNat ≠ 0xfeff → dropMark (c :: cs) = c :: cs :=
    fun h => if_neg h
  cases fields with
  | nil =>
    cases sections with
    | nil => rfl
    | cons s sections => exact hhead (by decide)
  | cons f fields =>
    obtain ⟨c, cs, hc, hb⟩ := (hp.bare f List.mem_cons_self).1.eq_cons
    have htext : ∃ more, printDocument (f :: fields) sections = c :: more := by
      simp [printDocument, printFields, hc]
    obtain ⟨more, hmore⟩ := htext
    rw [hmore, hhead]
    intro hmark
    have hchar : c = Char.ofNat 0xfeff := by rw [← hmark, Char.ofNat_toNat]
    rw [hchar] at hb
    exact absurd hb (by decide)

/-- A written document is read back: assignments first, and then the sections, as members in their
order. -/
theorem parse_printDocument (fields : List (String × Field))
    (sections : List (String × List (String × Field))) (hp : IsPlain fields)
    (hsections : ∀ s ∈ sections, IsBareName s.1 ∧ IsPlain s.2)
    (hnodup : (fields.map (·.1) ++ sections.map (·.1)).Nodup) :
    parse (String.ofList (printDocument fields sections)) =
      some (.table .header (fields.map member ++ sections.map sectionMember)) := by
  obtain ⟨k, hk, hlines⟩ := lines_printFields (fun ms => .of ms none) [] fields
    (fun h v => Draft.add_root h v) hp.bare hp.nodup
    (Nat.le_refl (printFields fields ++ sections.flatMap sectionLines).length)
  have hnames : namesOf (fields.map member) = fields.map (·.1) := by
    rw [namesOf, List.map_map]
    rfl
  -- behind the assignments the sections follow, with the fuel that is left
  have hend := lines_sections (d := .of (fields.map member) none) sections hsections
    (by
      show (namesOf (fields.map member) ++ _).Nodup
      rwa [hnames]) hk
  have htext : printDocument fields sections = printFields fields ++
    sections.flatMap sectionLines :=
    rfl
  unfold parse
  rw [String.toList_ofList, dropMark_printDocument hp, htext]
  dsimp only
  rw [show (⟨[], []⟩ : Draft) = .of [] none from rfl, hlines, List.nil_append]
  obtain ⟨d, hd, hmembers⟩ := Option.map_eq_some_iff.1 hend
  rw [hd, Option.map_some, hmembers]
  rfl

end TunnelSession.Toml

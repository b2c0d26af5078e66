/-
  A TOML string is read back, whatever form it was written in.

  ON ONE LINE.  Every character is read back from its escape (`Escapes`), or stands for itself; so
  the first quote that is not escaped is the closing one.

  ON SEVERAL LINES.  Quotes may stand in the string, but never three in a row: the writer escapes
  every third one, or takes these forms for strings without so long a run (`longestOf`).  The three
  closing quotes then begin at most two places before the end of the string, and the reader counts
  those two as its own (`closing`).

  `text_printText` says so for the form that the writer takes.
-/
import TunnelSession.Toml.Printer

namespace TunnelSession.Toml

variable {c d : Char} {cs ds rest : List Char} {here best quotes : Nat}

/-- No quote stands in front. -/
def IsUnquoted (rest : List Char) : Prop := ∀ c ∈ rest.head?, c ≠ '\x22' ∧ c ≠ apostrophe

/-! ## Characters -/

/-- What needs no escape may stand in a string, except for a line break. -/
theorem isPrintable_of_not_isControl (h : isControl c = false) (hn : c ≠ '\n') :
    isPrintable c = true := by
  by_cases ht : c = '\t'
  · subst ht
    rfl
  · have hb : (c != '\t' && c != '\n') = true := by simp [ht, hn]
    simp only [isControl, Bool.and_assoc, hb, Bool.and_true, Bool.or_eq_false_iff,
      decide_eq_false_iff_not, beq_eq_false_iff_ne] at h
    simpa [isPrintable, ht] using h

theorem toNat_lt_of_isControl (h : isControl c = true) : c.toNat < 0x80 := by
  simp only [isControl, Bool.or_eq_true, Bool.and_eq_true, decide_eq_true_eq, beq_iff_eq] at h
  omega

/-- A character of two hexadecimal digits is read back from them. -/
theorem codePoint_upperHex (h : c.toNat < 0x80) :
    codePoint ['0', '0', upperHex (c.toNat / 16), upperHex c.toNat] = some c := by
  have hall : ∀ n < 0x80, codePoint ['0', '0', upperHex (n / 16), upperHex n] =
      some (Char.ofNat n) := by decide
  rw [hall _ h, Char.ofNat_toNat]

/-- The characters are an escape of `c`. -/
inductive Escapes (c : Char) : List Char → Prop
  | letter {d : Char} (hu : d ≠ 'u') (hU : d ≠ 'U') (h : escapeOf d = some c) : Escapes c ['\\', d]
  | point (h : c.toNat < 0x80) :
    Escapes c ['\\', 'u', '0', '0', upperHex (c.toNat / 16), upperHex c.toNat]

/-- What the writer escapes everywhere is escaped; anything else is no backslash, no carriage return
and no control character. -/
theorem escape?_cases (c : Char) :
    (∃ ds, escape? c = some ds ∧ Escapes c ds) ∨
      escape? c = none ∧ c ≠ '\\' ∧ c ≠ '\r' ∧ isControl c = false := by
  have hletter : ∀ {d : Char}, d ≠ 'u' → d ≠ 'U' → escapeOf d = some c →
      escape? c = some ['\\', d] → ∃ ds, escape? c = some ds ∧ Escapes c ds :=
    fun hu hU h he => ⟨_, he, .letter hu hU h⟩
  by_cases hb : c = '\x08'
  · subst hb
    exact .inl (hletter (d := 'b') (by decide) (by decide) rfl rfl)
  by_cases ht : c = '\t'
  · subst ht
    exact .inl (hletter (d := 't') (by decide) (by decide) rfl rfl)
  by_cases hf : c = '\x0c'
  · subst hf
    exact .inl (hletter (d := 'f') (by decide) (by decide) rfl rfl)
  by_cases hr : c = '\r'
  · subst hr
    exact .inl (hletter (d := 'r') (by decide) (by decide) rfl rfl)
  by_cases hs : c = '\\'
  · subst hs
    exact .inl (hletter (d := '\\') (by decide) (by decide) rfl rfl)
  have he : escape? c = if isControl c then
      some ['\\', 'u', '0', '0', upperHex (c.toNat / 16), upperHex c.toNat] else none := by
    simp only [escape?, hb, ht, hf, hr, hs, if_false]
  cases hc : isControl c with
  | true =>
    rw [hc, if_pos rfl] at he
    exact .inl ⟨_, he, .point (toNat_lt_of_isControl hc)⟩
  | false =>
    rw [hc, if_neg Bool.false_ne_true] at he
    exact .inr ⟨he, hs, hr, rfl⟩

/-! ## On one line -/

/-- An escape is read back as its character. -/
theorem Escapes.basicTail_append (h : Escapes c ds) (cs : List Char) :
    basicTail (ds ++ cs) = push c (basicTail cs) := by
  cases h with
  | letter hu hU h =>
    rw [List.cons_append, List.cons_append, List.nil_append, basicTail, h]
    · rfl
    · exact fun _ _ _ _ _ hd _ => hu hd
    · exact fun _ _ _ _ _ _ _ _ _ hd _ => hU hd
  | point h =>
    show (codePoint _).bind (fun e => push e (basicTail cs)) = _
    rw [codePoint_upperHex h]
    rfl

/-- A character that is no quote, no backslash and may stand in a string. -/
theorem basicTail_cons (hq : c ≠ '\x22') (hs : c ≠ '\\') (hp : isPrintable c = true)
    (cs : List Char) : basicTail (c :: cs) = push c (basicTail cs) := by
  rw [basicTail]
  · simp [hq, hs, hp]
  all_goals
    intros
    contradiction

/-- Every character that may be written on one line is read back as itself, whether the writer has
escaped it or not. -/
theorem basicTail_escapeChar (c : Char) (cs : List Char) :
    basicTail (escapeChar c ++ cs) = push c (basicTail cs) := by
  unfold escapeChar
  split
  · subst_vars
    exact Escapes.basicTail_append (.letter (by decide) (by decide) rfl) cs
  split
  · subst_vars
    exact Escapes.basicTail_append (.letter (by decide) (by decide) rfl) cs
  rename_i hq hn
  rcases escape?_cases c with ⟨ds, he, h⟩ | ⟨he, hs, -, hc⟩
  · rw [he]
    exact h.basicTail_append cs
  · rw [he]
    exact basicTail_cons hq hs (isPrintable_of_not_isControl hc hn) cs

theorem basicTail_flatMap (cs rest : List Char) :
    basicTail (cs.flatMap escapeChar ++ '\x22' :: rest) = some (cs, rest) := by
  induction cs with
  | nil => simp [basicTail]
  | cons c cs ih =>
    rw [List.flatMap_cons, List.append_assoc, basicTail_escapeChar, ih]
    rfl

/-- Without escapes, too, if no apostrophe stands in it. -/
theorem literalTail_append (ha : apostrophe ∉ cs) (hp : ∀ c ∈ cs, isPrintable c = true)
    (rest : List Char) : literalTail (cs ++ apostrophe :: rest) = some (cs, rest) := by
  induction cs with
  | nil => rw [List.nil_append, literalTail, if_pos rfl]
  | cons c cs ih =>
    rw [List.mem_cons, not_or] at ha
    rw [List.cons_append, literalTail, if_neg (Ne.symm ha.1), if_pos (hp c List.mem_cons_self),
      ih ha.2 fun d hd => hp d (List.mem_cons_of_mem _ hd)]
    rfl

/-! ## Runs of quotes -/

/-- A run that was found counts. -/
theorem here_le_longestOf (c : Char) (here best : Nat) (cs : List Char) :
    here ≤ longestOf c here best cs ∧ best ≤ longestOf c here best cs := by
  induction cs generalizing here best with
  | nil => exact ⟨Nat.le_max_left _ _, Nat.le_max_right _ _⟩
  | cons d cs ih =>
    unfold longestOf
    split
    · exact ⟨Nat.le_of_succ_le (ih _ _).1, (ih _ _).2⟩
    · have h := (ih 0 (max here best)).2
      exact ⟨Nat.le_trans (Nat.le_max_left _ _) h, Nat.le_trans (Nat.le_max_right _ _) h⟩

/-- Where no run is, the character does not stand. -/
theorem not_mem_of_longestOf (h : longestOf c here best cs = 0) : c ∉ cs := by
  induction cs generalizing here best with
  | nil => exact List.not_mem_nil
  | cons d cs ih =>
    unfold longestOf at h
    split at h
    · have := (here_le_longestOf c (here + 1) best cs).1
      omega
    · rename_i hd
      rw [List.mem_cons, not_or]
      exact ⟨Ne.symm hd, ih h⟩

/-! ## On several lines -/

/-- Three quotes close. -/
theorem closes_iff {q : Char} : closes q cs = true ↔ ∃ rest, cs = q :: q :: q :: rest := by
  unfold closes
  split
  · simp [and_assoc]
  · rename_i h
    simp only [Bool.false_eq_true, false_iff, not_exists]
    rintro rest rfl
    exact h _ _ _ _ rfl

theorem closes_of_ne {q : Char} (h : c ≠ q) : closes q (c :: cs) = false := by
  rw [Bool.eq_false_iff]
  intro hc
  obtain ⟨more, hmore⟩ := closes_iff.1 hc
  exact h (List.cons.inj hmore).1

/-- Up to two quotes behind the closing ones belong to the string, if no other one follows. -/
theorem closing_replicate {q : Char} {n : Nat} (hn : n ≤ 2) (h : ∀ c ∈ rest.head?, c ≠ q) :
    closing q (List.replicate n q ++ rest) = (List.replicate n q, rest) := by
  match n, rest with
  | 0, [] | 1, [] | 2, _ => simp [List.replicate, closing]
  | 0, [c] | 0, c :: d :: _ | 1, c :: _ =>
    have hc : c ≠ q := h c rfl
    simp [List.replicate, closing, hc]
  | n + 3, _ => omega

/-- The last quotes of a string, read where the closing ones are seen first. -/
theorem closing_drop {q : Char} (hcs : cs = [] ∨ cs = [q]) (h : ∀ c ∈ rest.head?, c ≠ q) :
    closing q ((cs ++ (List.replicate 3 q ++ rest)).drop 2) = (q :: cs, rest) := by
  rcases hcs with rfl | rfl
  · exact closing_replicate (n := 1) (by decide) h
  · exact closing_replicate (n := 2) (by decide) h

/-! ### With escapes -/

/-- An escape is read back on several lines as on one. -/
theorem Escapes.basicLines_append (h : Escapes c ds) (cs : List Char) :
    basicLines false (ds ++ cs) = push c (basicLines false cs) := by
  cases h with
  | letter hu hU h =>
    rw [List.cons_append, List.cons_append, List.nil_append, basicLines, h]
    · exact fun _ _ _ _ _ hd _ => hu hd
    · exact fun _ _ _ _ _ _ _ _ _ hd _ => hU hd
  | point h =>
    rw [show ∀ a b c d : Char, ['\\', 'u', a, b, c, d] ++ cs = '\\' :: 'u' :: a :: b :: c :: d :: cs
      from fun _ _ _ _ => rfl, basicLines, codePoint_upperHex h]
    rfl

theorem basicLines_cons (hs : c ≠ '\\') (hr : c ≠ '\r') (cs : List Char) :
    basicLines false (c :: cs) =
      if closes '\x22' (c :: cs) then some (closing '\x22' (cs.drop 2))
      else if c = '\n' then push '\n' (basicLines false cs)
      else if isPrintable c then push c (basicLines false cs) else none := by
  rw [basicLines]
  · simp [hs]
  all_goals
    intros
    contradiction

theorem basicLines_quote (cs : List Char) :
    basicLines false ('\x22' :: cs) =
      if closes '\x22' ('\x22' :: cs) then some (closing '\x22' (cs.drop 2))
      else push '\x22' (basicLines false cs) :=
  basicLines_cons (by decide) (by decide) cs

/-- A character that is no quote, no backslash and no carriage return. -/
theorem basicLines_plain (hq : c ≠ '\x22') (hs : c ≠ '\\') (hr : c ≠ '\r')
    (hc : isControl c = false) (cs : List Char) :
    basicLines false (c :: cs) = push c (basicLines false cs) := by
  rw [basicLines_cons hs hr, if_neg]
  · by_cases hn : c = '\n'
    · subst hn
      rfl
    · rw [if_neg hn, if_pos (isPrintable_of_not_isControl hc hn)]
  · rw [closes_of_ne hq]
    exact Bool.false_ne_true

/-- What is written for a character other than a quote does not begin with one. -/
theorem ne_quote_of_escape (hq : c ≠ '\x22') {e : Char} {more : List Char}
    (h : (escape? c).getD [c] ++ cs = e :: more) : e ≠ '\x22' := by
  rcases escape?_cases c with ⟨ds, he, hd⟩ | ⟨he, -⟩
  · rw [he] at h
    cases hd <;> (cases h; decide)
  · rw [he] at h
    cases h
    exact hq

/-- What is written behind two quotes does not begin with one, unless the string is over. -/
theorem eq_nil_of_escapeLines {tail more : List Char}
    (h : escapeLines 2 cs ++ tail = '\x22' :: more) : cs = [] := by
  cases cs with
  | nil => rfl
  | cons c cs =>
    unfold escapeLines at h
    split at h
    · rw [if_pos rfl] at h
      cases h
    · rename_i hc
      rw [List.append_assoc] at h
      exact absurd rfl (ne_quote_of_escape hc h)

/-- Two quotes behind one that is written as it is: the string is over, or this is its last. -/
theorem escapeLines_of_quotes {tail more : List Char} (h0 : 0 < quotes) (hq : quotes ≤ 2)
    (h : escapeLines quotes cs ++ tail = '\x22' :: '\x22' :: more) :
    (cs = [] ∨ cs = ['\x22']) ∧ escapeLines quotes cs = cs := by
  -- one quote was written before these, or two
  obtain rfl | rfl : quotes = 1 ∨ quotes = 2 := by omega
  · cases cs with
    | nil => exact ⟨.inl rfl, rfl⟩
    | cons c cs =>
      by_cases hc : c = '\x22'
      · subst hc
        rw [show escapeLines 1 ('\x22' :: cs) = '\x22' :: escapeLines 2 cs from rfl] at h
        obtain rfl := eq_nil_of_escapeLines (List.cons.inj h).2
        exact ⟨.inr rfl, rfl⟩
      · rw [escapeLines, if_neg hc, List.append_assoc] at h
        exact absurd rfl (ne_quote_of_escape hc h)
  · obtain rfl := eq_nil_of_escapeLines h
    exact ⟨.inl rfl, rfl⟩

/-- A string on several lines is read back up to its three closing quotes, though quotes of its own
may stand right before them. -/
theorem basicLines_escapeLines (hq : quotes ≤ 2) (hr : IsUnquoted rest) :
    basicLines false (escapeLines quotes cs ++ (List.replicate 3 '\x22' ++ rest)) =
      some (cs, rest) := by
  have hrest : ∀ c ∈ rest.head?, c ≠ '\x22' := fun c hc => (hr c hc).1
  -- the induction is on the string; `quotes` counts those that were just written
  induction cs generalizing quotes with
  | nil =>
    refine (basicLines_quote _).trans ((if_pos (closes_iff.2 ⟨rest, rfl⟩)).trans ?_)
    exact congrArg some (closing_replicate (n := 0) (by decide) hrest)
  | cons c cs ih =>
    unfold escapeLines
    split
    · subst_vars
      split
      · -- the third quote in a row
        have h : Escapes '\x22' ['\\', '\x22'] := .letter (by decide) (by decide) rfl
        refine (h.basicLines_append _).trans ?_
        show push '\x22'
          (basicLines false (escapeLines 0 cs ++ (List.replicate 3 '\x22' ++ rest))) = _
        rw [ih (Nat.zero_le _)]
        rfl
      · rw [List.cons_append, basicLines_quote]
        split
        · rename_i hclose
          obtain ⟨more, hmore⟩ := closes_iff.1 hclose
          obtain ⟨hcs, he⟩ := escapeLines_of_quotes (by omega) (by omega) (List.cons.inj hmore).2
          rw [he, closing_drop hcs hrest]
        · rw [ih (by omega)]
          rfl
    · rename_i hc
      rw [List.append_assoc]
      rcases escape?_cases c with ⟨ds, he, hd⟩ | ⟨he, hs, hcr, hctl⟩
      · rw [he, Option.getD_some, hd.basicLines_append, ih (Nat.zero_le _)]
        rfl
      · rw [he, Option.getD_none, List.singleton_append, basicLines_plain hc hs hcr hctl,
          ih (Nat.zero_le _)]
        rfl

/-! ### Without escapes -/

theorem literalLines_cons (hr : c ≠ '\r') (cs : List Char) :
    literalLines (c :: cs) =
      if closes apostrophe (c :: cs) then some (closing apostrophe (cs.drop 2))
      else if c = '\n' || isPrintable c then push c (literalLines cs) else none := by
  rw [literalLines]
  intros
  contradiction

/-- Two apostrophes behind one: the string is over, or this is its last, or the run is longer. -/
theorem eq_of_apostrophes {tail more : List Char}
    (h : cs ++ tail = apostrophe :: apostrophe :: more)
    (hl : longestOf apostrophe (here + 1) best cs ≤ 2) : cs = [] ∨ cs = [apostrophe] := by
  match cs with
  | [] => exact .inl rfl
  | [c] =>
    rw [(List.cons.inj h).1]
    exact .inr rfl
  | c :: d :: cs =>
    obtain ⟨hc, hd⟩ := List.cons.inj h
    rw [hc, (List.cons.inj hd).1] at hl
    rw [longestOf, if_pos rfl, longestOf, if_pos rfl] at hl
    have := (here_le_longestOf apostrophe (here + 1 + 1 + 1) best cs).1
    omega

/-- A literal string over several lines is read back as it is, if it has no longer run of
apostrophes than two: a third would close it. -/
theorem literalLines_append (hc : ∀ c ∈ cs, isControl c = false)
    (hl : longestOf apostrophe here best cs ≤ 2) (hr : IsUnquoted rest) :
    literalLines (cs ++ (List.replicate 3 apostrophe ++ rest)) = some (cs, rest) := by
  have hrest : ∀ c ∈ rest.head?, c ≠ apostrophe := fun c hc => (hr c hc).2
  induction cs generalizing here best with
  | nil =>
    refine (literalLines_cons (by decide) _).trans ((if_pos (closes_iff.2 ⟨rest, rfl⟩)).trans ?_)
    exact congrArg some (closing_replicate (n := 0) (by decide) hrest)
  | cons c cs ih =>
    have hctl := hc c List.mem_cons_self
    have hcr : c ≠ '\r' := by
      rintro rfl
      cases hctl
    have hin : (c = '\n' || isPrintable c) = true := by
      by_cases hn : c = '\n'
      · simp [hn]
      · simp [isPrintable_of_not_isControl hctl hn]
    -- the run that counts is shorter behind this character
    have hnext : literalLines (cs ++ (List.replicate 3 apostrophe ++ rest)) = some (cs, rest) := by
      rw [longestOf] at hl
      split at hl <;> exact ih (fun d hd => hc d (List.mem_cons_of_mem _ hd)) hl
    rw [List.cons_append, literalLines_cons hcr]
    split
    · rename_i hclose
      obtain ⟨more, hmore⟩ := closes_iff.1 hclose
      obtain ⟨rfl, hmore⟩ := List.cons.inj hmore
      rw [longestOf, if_pos rfl] at hl
      rw [closing_drop (eq_of_apostrophes (List.cons.inj hmore).2 hl) hrest]
    · rw [hnext]
      rfl

/-! ## Any form -/

/-- A line break behind the opening quotes is dropped, and none is if the string has none. -/
theorem dropBreak_leadingBreak (hn : '\n' ∉ cs → ∀ c ∈ ds.head?, c ≠ '\n' ∧ c ≠ '\r') :
    dropBreak (leadingBreak cs ++ ds) = ds := by
  unfold leadingBreak
  by_cases h : '\n' ∈ cs
  · simp [h, dropBreak]
  · rw [if_neg (by simpa using h), List.nil_append]
    unfold dropBreak
    split
    · exact absurd rfl (hn h _ rfl).1
    · exact absurd rfl (hn h _ rfl).2
    · rfl

/-- Three quotes do not stand where a string on one line begins. -/
theorem not_closes {q : Char} (h : ∀ c ∈ ds.head?, c ≠ q) (hr : ∀ c ∈ rest.head?, c ≠ q) :
    closes q (q :: (ds ++ q :: rest)) = false := by
  rw [Bool.eq_false_iff]
  intro hc
  obtain ⟨more, hmore⟩ := closes_iff.1 hc
  have hmore := (List.cons.inj hmore).2
  match ds, rest with
  | [], [] => cases hmore
  | [], c :: _ =>
    have h3 := (List.cons.inj hmore).2
    exact hr c rfl (List.cons.inj h3).1
  | c :: _, _ => exact h c rfl (List.cons.inj hmore).1

/-- A string without escapes on one line. -/
theorem Form.of_eq_literal (h : Form.of cs = .literal) :
    (∀ c ∈ cs, isPrintable c = true) ∧ apostrophe ∉ cs := by
  have hform : (cs.any isControl = false ∧ cs.contains '\n' = false) ∧
      longestOf apostrophe 0 0 cs = 0 := by
    simp only [Form.of] at h
    grind
  obtain ⟨⟨hc, hn⟩, hl⟩ := hform
  refine ⟨fun c hm => ?_, not_mem_of_longestOf hl⟩
  refine isPrintable_of_not_isControl (by simpa using List.any_eq_false.1 hc c hm) ?_
  rintro rfl
  simp [hm] at hn

/-- A string without escapes on several lines. -/
theorem Form.of_eq_literalLines (h : Form.of cs = .literalLines) :
    (∀ c ∈ cs, isControl c = false) ∧ longestOf apostrophe 0 0 cs ≤ 2 := by
  have hform : cs.any isControl = false ∧ longestOf apostrophe 0 0 cs ≤ 2 := by
    simp only [Form.of] at h
    grind
  exact ⟨fun c hm => by simpa using List.any_eq_false.1 hform.1 c hm, hform.2⟩

/-- What is written for a character on one line does not begin with a quote. -/
theorem escapeChar_ne_quote (c : Char) : ∀ d ∈ (escapeChar c ++ cs).head?, d ≠ '\x22' := by
  unfold escapeChar
  split
  · simp
  split
  · simp
  rename_i hq _
  intro d hd
  obtain ⟨more, hmore⟩ := List.head?_eq_some_iff.1 hd
  exact ne_quote_of_escape hq hmore

/-- Three opening quotes, of either kind. -/
theorem text_triple (ds : List Char) :
    text (List.replicate 3 '\x22' ++ ds) =
        (basicLines false (dropBreak ds)).map (fun r => (String.ofList r.1, r.2)) ∧
      text (List.replicate 3 apostrophe ++ ds) =
        (literalLines (dropBreak ds)).map fun r => (String.ofList r.1, r.2) :=
  ⟨rfl, rfl⟩

/-- A quote that is not one of three, of either kind. -/
theorem text_single {q : Char} (hq : closes q (q :: ds) = false) (h : q = '\x22' ∨ q = apostrophe) :
    text (q :: ds) = (if q = '\x22' then basicTail ds else literalTail ds).map
      fun r => (String.ofList r.1, r.2) := by
  obtain rfl | rfl := h
  · simp [text, hq, closes_of_ne (show '\x22' ≠ apostrophe by decide)]
  · have hne : apostrophe ≠ '\x22' := by decide
    simp [text, hq, closes_of_ne hne, hne]

/-- What a written string on several lines begins with. -/
theorem head_ne_of_escapeLines (hn : '\n' ∉ cs) :
    ∀ c ∈ (escapeLines 0 cs ++ (List.replicate 3 '\x22' ++ rest)).head?, c ≠ '\n' ∧ c ≠ '\r' := by
  cases cs with
  | nil => simp [escapeLines, List.replicate]
  | cons c cs =>
    unfold escapeLines
    split
    · simp
    · rcases escape?_cases c with ⟨ds, he, hd⟩ | ⟨he, -, hr, -⟩
      · rw [he]
        cases hd <;> simp
      · rw [he]
        simp only [Option.getD_none, List.cons_append, List.head?_cons,
          Option.mem_def, Option.some.injEq, forall_eq']
        exact ⟨fun h => hn (h ▸ List.mem_cons_self), hr⟩

/-- A string is read back, whatever follows it that is no quote, one case for each of the four forms
that the writer may choose. -/
theorem text_printText (cs : List Char) (hr : IsUnquoted rest) :
    text (printText cs ++ rest) = some (String.ofList cs, rest) := by
  unfold printText
  cases hform : Form.of cs with
  | basic =>
    -- on one line, with escapes
    have hquote : ∀ c ∈ (cs.flatMap escapeChar).head?, c ≠ '\x22' := by
      cases cs with
      | nil => simp
      | cons c cs => exact escapeChar_ne_quote c
    have hone : closes '\x22' ('\x22' :: (cs.flatMap escapeChar ++ '\x22' :: rest)) = false :=
      not_closes hquote fun c hc => (hr c hc).1
    simp only [List.cons_append, List.append_assoc, List.nil_append]
    rw [text_single hone (.inl rfl), if_pos rfl, basicTail_flatMap]
    rfl
  | literal =>
    -- on one line, without
    obtain ⟨hp, ha⟩ := Form.of_eq_literal hform
    have hone : closes apostrophe (apostrophe :: (cs ++ apostrophe :: rest)) = false :=
      not_closes (fun c hc h => ha (h ▸ List.mem_of_mem_head? hc)) fun c hc => (hr c hc).2
    simp only [List.cons_append, List.append_assoc, List.nil_append]
    rw [text_single hone (.inr rfl), if_neg (by decide), literalTail_append ha hp]
    rfl
  | basicLines =>
    -- on several lines, with escapes
    simp only [List.append_assoc]
    rw [(text_triple _).1, dropBreak_leadingBreak head_ne_of_escapeLines,
      basicLines_escapeLines (Nat.zero_le _) hr]
    rfl
  | literalLines =>
    -- on several lines, without
    obtain ⟨hc, hl⟩ := Form.of_eq_literalLines hform
    have hhead : '\n' ∉ cs → ∀ c ∈ (cs ++ (List.replicate 3 apostrophe ++ rest)).head?,
        c ≠ '\n' ∧ c ≠ '\r' := by
      cases cs with
      | nil => exact fun _ => by simp [apostrophe]
      | cons c cs =>
        rintro hn _ ⟨⟩
        refine ⟨fun h => hn (h ▸ List.mem_cons_self), ?_⟩
        rintro rfl
        exact absurd (hc _ List.mem_cons_self) (by decide)
    simp only [List.append_assoc]
    rw [(text_triple _).2, dropBreak_leadingBreak hhead, literalLines_append hc hl hr]
    rfl

/-- A written string begins with a quote. -/
theorem head?_printText (cs : List Char) :
    ∃ c ∈ (printText cs).head?, c = '\x22' ∨ c = apostrophe := by
  unfold printText
  cases Form.of cs with
  | basic | basicLines => exact ⟨_, rfl, .inl rfl⟩
  | literal | literalLines => exact ⟨_, rfl, .inr rfl⟩

end TunnelSession.Toml

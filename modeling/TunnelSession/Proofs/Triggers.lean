/-
  What a text asks for.

  SPELLING.  `Trigger.IsSpelled` says which texts ask for an event: a name alone, or a name, a colon
  and an argument with any blanks around it.  The colon is the first one of the text, so the
  argument may hold others.

  TRIMMING.  Blanks are dropped around the whole text first and around what is behind the colon
  then.  A colon is no blank, so the first trimming does not reach over it (`trimEnd_append_cons`),
  and the second one leaves nothing to trim (`isTrimmed_trimChars`).

  PRINTING.  So every event that was read is read again from its text.  An event that was made
  otherwise is, exactly if its argument is not empty and has no blank at either end.
-/
import Mathlib.Data.List.TakeWhile
import TunnelSession.Trigger

namespace TunnelSession

namespace Text

/-! ## Trimming -/

theorem trimEnd_prefix (cs : List Char) : trimEnd cs <+: cs := by
  have h := (List.dropWhile_suffix (l := cs.reverse) isBlank).reverse
  rwa [List.reverse_reverse] at h

/-- What is trimmed has no blank at either end. -/
theorem isTrimmed_trimChars (cs : List Char) : IsTrimmed (trimChars cs) := by
  refine ⟨fun c hc => ?_, fun c hc => ?_⟩
  · -- the first character is that of the text without the blanks in front
    obtain ⟨rest, hrest⟩ := trimEnd_prefix (cs.dropWhile isBlank)
    have hhead : (cs.dropWhile isBlank).head? = some c := by
      rw [← hrest, List.head?_append, show (trimEnd _).head? = some c from hc]
      rfl
    have h := List.head?_dropWhile_not isBlank cs
    rw [hhead] at h
    simpa using h
  · unfold trimChars trimEnd at hc
    rw [List.getLast?_reverse] at hc
    have h := List.head?_dropWhile_not isBlank (cs.dropWhile isBlank).reverse
    rw [show List.head? _ = some c from hc] at h
    simpa using h

/-- The blanks at the end are all behind a character that is none. -/
theorem trimEnd_append_cons {c : Char} (hc : isBlank c = false) (cs ds : List Char) :
    trimEnd (cs ++ c :: ds) = cs ++ c :: trimEnd ds := by
  unfold trimEnd
  rw [List.reverse_append, List.reverse_cons, List.append_assoc, List.dropWhile_append]
  cases h : ds.reverse.dropWhile isBlank with
  | nil => simp [hc]
  | cons d rest => simp

/-- Only what is behind it is trimmed, if a text begins with no blank and goes on with one. -/
theorem trimChars_append_cons {b c : Char} {cs : List Char} (hb : isBlank b = false)
    (hc : isBlank c = false) (ds : List Char) :
    trimChars (b :: (cs ++ c :: ds)) = b :: (cs ++ c :: trimEnd ds) := by
  unfold trimChars
  rw [List.dropWhile_cons_of_neg (by simp [hb]), ← List.cons_append, ← List.cons_append,
    trimEnd_append_cons hc]

/-- Nothing is dropped at the end of a text that has no blanks around it. -/
theorem trimEnd_of_isTrimmed {cs : List Char} (h : IsTrimmed cs) : trimEnd cs = cs := by
  have hself := trimChars_eq_self_iff.2 h
  unfold trimChars at hself
  rwa [dropWhile_eq_self_iff.2 h.1] at hself

end Text

namespace Trigger

open Text (trim trimChars trimEnd isBlank)

/-- The text, which has no blanks around it, asks for the event. -/
def IsSpelled (text : String) : Trigger → Prop
  | .quickConnect => text = "quick-connect-request"
  | .disconnect => text = "disconnect-request"
  | .navigate path => path ≠ "" ∧ ∃ tail, text = "navigate:" ++ tail ∧ trim tail = path
  | .connect id => id ≠ "" ∧ ∃ tail, text = "connect-request:" ++ tail ∧ trim tail = id

/-- The argument, if the event has one, is not empty and has no blank at either end. -/
def HasTrimmedArgument (e : Trigger) : Prop :=
  ∀ argument ∈ e.argument?, argument ≠ "" ∧ Text.IsTrimmed argument.toList

/-! ## Names and parts -/

/-- The events that have a name and no argument. -/
theorem ofName?_eq_some_iff {name : String} {e : Trigger} :
    ofName? name = some e ↔
      name = "quick-connect-request" ∧ e = .quickConnect ∨
      name = "disconnect-request" ∧ e = .disconnect := by
  unfold ofName?
  split
  · subst name
    simp [eq_comm]
  · split
    · subst name
      simp [eq_comm]
    · simp [*]

/-- The events that have an argument, which must not be empty. -/
theorem ofParts?_eq_some_iff {name argument : String} {e : Trigger} :
    ofParts? name argument = some e ↔
      argument ≠ "" ∧ (name = "navigate" ∧ e = .navigate argument ∨
        name = "connect-request" ∧ e = .connect argument) := by
  unfold ofParts?
  split
  · simp [*]
  · split
    · subst name
      simp [*, eq_comm]
    · split
      · subst name
        simp [*, eq_comm]
      · simp [*]

/-! ## The first colon -/

section Colon

variable {name name' tail tail' : List Char}

theorem ne_colon (h : ':' ∉ name) : ∀ c ∈ name, (c != ':') = true := by
  intro c hc
  rw [bne_iff_ne]
  rintro rfl
  exact h hc

theorem takeWhile_colon (h : ':' ∉ name) :
    (name ++ ':' :: tail).takeWhile (· != ':') = name := by
  rw [List.takeWhile_append_of_pos (ne_colon h), List.takeWhile_cons_of_neg (by simp),
    List.append_nil]

theorem dropWhile_colon (h : ':' ∉ name) :
    (name ++ ':' :: tail).dropWhile (· != ':') = ':' :: tail := by
  rw [List.dropWhile_append_of_pos (ne_colon h), List.dropWhile_cons_of_neg (by simp)]

/-- A text is cut at its first colon in one way. -/
theorem cut_inj (h : ':' ∉ name) (h' : ':' ∉ name')
    (he : name ++ ':' :: tail = name' ++ ':' :: tail') : name = name' ∧ tail = tail' := by
  have hname : (name ++ ':' :: tail).takeWhile (· != ':') = name := takeWhile_colon h
  rw [he, takeWhile_colon h'] at hname
  subst hname
  exact ⟨rfl, (List.cons.inj (List.append_cancel_left he)).2⟩

end Colon

/-- A text without a colon is a name. -/
theorem parse_of_not_mem {s : String} (h : ':' ∉ trimChars s.toList) :
    parse s = ofName? (trim s) := by
  have htake : (trimChars s.toList).takeWhile (· != ':') = trimChars s.toList :=
    List.takeWhile_eq_self_iff.2 (ne_colon h)
  have hdrop : (trimChars s.toList).dropWhile (· != ':') = [] :=
    List.dropWhile_eq_nil_iff.2 (ne_colon h)
  unfold parse
  dsimp only
  rw [hdrop, htake]
  rfl

/-- A text with a colon is a name and an argument. -/
theorem parse_of_colon {s : String} {name tail : List Char}
    (hs : trimChars s.toList = name ++ ':' :: tail) (h : ':' ∉ name) :
    parse s = ofParts? (String.ofList name) (trim (String.ofList tail)) := by
  unfold parse trim
  dsimp only
  rw [hs, dropWhile_colon h, takeWhile_colon h, String.toList_ofList]

/-- A text without a colon is spelled as a name is. -/
theorem isSpelled_of_not_mem {text : String} (h : ':' ∉ text.toList) (e : Trigger) :
    IsSpelled text e ↔ ofName? text = some e := by
  rw [ofName?_eq_some_iff]
  have hno : ∀ start tail : String, ':' ∈ start.toList → text ≠ start ++ tail := by
    rintro start tail hs rfl
    rw [String.toList_append] at h
    exact h (List.mem_append_left _ hs)
  cases e with
  | quickConnect => simp [IsSpelled]
  | disconnect => simp [IsSpelled]
  | navigate path => simp [IsSpelled, hno "navigate:" _ (by decide)]
  | connect id => simp [IsSpelled, hno "connect-request:" _ (by decide)]

/-- A text with a colon is spelled as a name and an argument are: it is cut at the first colon, and
a name has none. -/
theorem isSpelled_of_colon {text : String} {name tail : List Char}
    (ht : text.toList = name ++ ':' :: tail) (h : ':' ∉ name) (e : Trigger) :
    IsSpelled text e ↔ ofParts? (String.ofList name) (trim (String.ofList tail)) = some e := by
  rw [ofParts?_eq_some_iff]
  have hbare : ∀ other : String, ':' ∉ other.toList → text ≠ other := by
    rintro other ho rfl
    rw [ht] at ho
    exact ho (by simp)
  -- what begins with a name and a colon is cut there
  have hcut : ∀ (start : String) (cs : List Char), start.toList = cs ++ [':'] → ':' ∉ cs →
      ∀ rest : String, text = start ++ rest ↔ name = cs ∧ rest = String.ofList tail := by
    intro start cs hs hcs rest
    rw [← String.toList_inj, ht, String.toList_append, hs, List.append_assoc,
      List.singleton_append]
    refine ⟨fun he => ?_, ?_⟩
    · obtain ⟨hname, htail⟩ := cut_inj h hcs he
      exact ⟨hname, by rw [htail, String.ofList_toList]⟩
    · rintro ⟨rfl, rfl⟩
      rw [String.toList_ofList]
  cases e with
  | quickConnect => simp [IsSpelled, hbare "quick-connect-request" (by decide)]
  | disconnect => simp [IsSpelled, hbare "disconnect-request" (by decide)]
  | navigate path =>
    have hname : String.ofList name = "navigate" ↔ name = "navigate".toList := by
      rw [← String.ofList_inj, String.ofList_toList]
    simp only [IsSpelled, hcut "navigate:" "navigate".toList rfl (by decide), hname]
    grind
  | connect id =>
    have hname : String.ofList name = "connect-request" ↔ name = "connect-request".toList := by
      rw [← String.ofList_inj, String.ofList_toList]
    simp only [IsSpelled, hcut "connect-request:" "connect-request".toList rfl (by decide), hname]
    grind

/-- A text is read as an event exactly if it asks for it. -/
theorem parse_eq_some_iff {s : String} {e : Trigger} :
    parse s = some e ↔ IsSpelled (trim s) e := by
  have htrim : (trim s).toList = trimChars s.toList := String.toList_ofList
  by_cases h : ':' ∈ trimChars s.toList
  · obtain ⟨name, tail, hs, hname⟩ := List.eq_append_cons_of_mem h
    rw [parse_of_colon hs hname, isSpelled_of_colon (htrim.trans hs) hname]
  · rw [parse_of_not_mem h, isSpelled_of_not_mem (htrim ▸ h)]

/-! ## Reading what was printed -/

/-- What is read has an argument without blanks around it, if it has one. -/
theorem hasTrimmedArgument_of_isSpelled {text : String} {e : Trigger} (h : IsSpelled text e) :
    e.HasTrimmedArgument := by
  have hargument : ∀ tail, Text.IsTrimmed (trim tail).toList := fun tail => by
    unfold trim
    rw [String.toList_ofList]
    exact Text.isTrimmed_trimChars _
  intro argument ha
  cases e with
  | quickConnect | disconnect => cases ha
  | navigate path | connect id =>
    cases ha
    obtain ⟨hne, tail, -, rfl⟩ := h
    exact ⟨hne, hargument tail⟩

theorem trim_of_isTrimmed {s : String} (h : Text.IsTrimmed s.toList) : trim s = s := by
  unfold trim
  rw [Text.trimChars_eq_self_iff.2 h, String.ofList_toList]

/-- Behind a name and a colon, only the argument's end is trimmed. -/
theorem trim_append {b : Char} {cs : List Char} {start : String}
    (hs : start.toList = b :: (cs ++ [':'])) (hb : isBlank b = false) (argument : String) :
    trim (start ++ argument) = start ++ String.ofList (trimEnd argument.toList) := by
  unfold trim
  rw [← String.toList_inj, String.toList_ofList, String.toList_append, String.toList_append, hs,
    String.toList_ofList, List.cons_append, List.append_assoc, List.singleton_append,
    Text.trimChars_append_cons hb rfl, List.cons_append, List.append_assoc, List.singleton_append]

/-- An event is spelled by its own text exactly if nothing of its argument is trimmed. -/
theorem isSpelled_print_iff (e : Trigger) :
    IsSpelled (trim e.print) e ↔ e.HasTrimmedArgument := by
  refine ⟨hasTrimmedArgument_of_isSpelled, fun h => ?_⟩
  -- behind the name and the colon of an event, its argument is trimmed to itself
  have hprint : ∀ (start argument : String) (b : Char) (cs : List Char),
      start.toList = b :: (cs ++ [':']) → isBlank b = false → e.argument? = some argument →
      argument ≠ "" ∧
        ∃ tail, trim (start ++ argument) = start ++ tail ∧ trim tail = argument := by
    intro start argument b cs hs hb ha
    obtain ⟨hne, htrimmed⟩ := h argument ha
    refine ⟨hne, argument, ?_, trim_of_isTrimmed htrimmed⟩
    rw [trim_append hs hb, Text.trimEnd_of_isTrimmed htrimmed, String.ofList_toList]
  cases e with
  | quickConnect | disconnect =>
    refine trim_of_isTrimmed ?_
    constructor <;> rintro c ⟨⟩ <;> rfl
  | navigate path => exact hprint "navigate:" path 'n' "avigate".toList rfl (by decide) rfl
  | connect id => exact hprint "connect-request:" id 'c' "onnect-request".toList rfl (by decide) rfl

/-- A text is read as an event exactly if, without the blanks around it, it is the name of an event
without argument, or a name, a colon and an argument that is not empty, with any blanks around it.
An event is read from its own text exactly if its argument, if it has one, is not empty and has no
blank at either end; so every event that was read from any text is read from its own. -/
theorem parse_and_print :
    (∀ s e, parse s = some e ↔ IsSpelled (trim s) e) ∧
    (∀ e : Trigger, parse e.print = some e ↔ e.HasTrimmedArgument) ∧
    ∀ s e, parse s = some e → e.HasTrimmedArgument ∧ parse e.print = some e := by
  have hown : ∀ e : Trigger, parse e.print = some e ↔ e.HasTrimmedArgument :=
    fun e => parse_eq_some_iff.trans (isSpelled_print_iff e)
  refine ⟨fun s e => parse_eq_some_iff, hown, fun s e h => ?_⟩
  have htrimmed := hasTrimmedArgument_of_isSpelled (parse_eq_some_iff.1 h)
  exact ⟨htrimmed, (hown e).2 htrimmed⟩

/-- An argument with colons, blanks and a line break in it, and blanks of several kinds around. -/
theorem parse_and_print_colons :
    parse "\u3000connect-request: \u00a0a:\n :b \t" = some (.connect "a:\n :b") ∧
      parse (print (.connect "a:\n :b")) = some (.connect "a:\n :b") := by
  have h : parse "\u3000connect-request: \u00a0a:\n :b \t" = some (.connect "a:\n :b") := by cbv
  exact ⟨h, (parse_and_print.2.2 _ _ h).2⟩

end Trigger

end TunnelSession

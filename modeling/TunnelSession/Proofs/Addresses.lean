/-
  An address is read back from its text.

  NUMBERS.  Bytes and groups are written without leading zeros, so the readers take them, and no
  separator stands in them.

  RUNS.  The zeros that "::" stands for are a run in the middle of the groups (`Run.IsZeros`), and
  the text is cut at that "::" and nowhere before.

  `Address.parse_print` puts the two forms together.
-/
import Mathlib.Data.List.Infix
import Mathlib.Data.List.TakeWhile
import TunnelSession.Address.Parser
import TunnelSession.Address.Printer

namespace TunnelSession

/-- A number above zero is written without a leading zero. -/
theorem head?_toDigits_ne_zero {b n : Nat} (hb : 1 < b) (hn : 0 < n) :
    (Nat.toDigits b n).head? ≠ some '0' := by
  induction n using Nat.strong_induction_on with
  | _ n ih =>
    rcases Nat.lt_or_ge n b with h | h
    · rw [Nat.toDigits_of_lt_base h]
      simpa using Nat.pos_iff_ne_zero.1 hn
    · have hlt := ih (n / b) (Nat.div_lt_self hn hb) (Nat.div_pos h (Nat.lt_of_succ_lt hb))
      rw [Nat.toDigits_of_base_le hb h, List.head?_append_of_ne_nil _ Nat.toDigits_ne_nil]
      exact hlt

/-- No character but a digit stands in a decimal number. -/
theorem not_mem_toDigits_ten {c : Char} (hc : c.isDigit = false) (n : Nat) :
    c ∉ Nat.toDigits 10 n := by
  intro h
  rw [Nat.isDigit_of_mem_toDigits (by decide) (by decide) h] at hc
  cases hc

namespace Address

open Text (splitAll splitAll_append splitAll_eq_singleton)

/-! ## The short form -/

/-- A byte is read back from its digits, of which there are three at most. -/
theorem byte?_toDigits (b : UInt8) : byte? (Nat.toDigits 10 b.toNat) = some b := by
  have hlt : b.toNat < 256 := b.toNat_lt
  have hall : (Nat.toDigits 10 b.toNat).all Char.isDigit = true :=
    List.all_eq_true.2 fun c hc => Nat.isDigit_of_mem_toDigits (by decide) (by decide) hc
  have hlen : (Nat.toDigits 10 b.toNat).length ≤ 3 :=
    (Nat.length_toDigits_le_iff (by decide) (by decide)).2 (by omega)
  have hhead : (Nat.toDigits 10 b.toNat).length = 1 ∨
      (Nat.toDigits 10 b.toNat).head? ≠ some '0' := by
    rcases Nat.eq_zero_or_pos b.toNat with h | h
    · exact .inl (by rw [h]; rfl)
    · exact .inr (head?_toDigits_ne_zero (by decide) h)
  unfold byte?
  rw [Nat.ofDigitChars_ten_toDigits, if_pos, if_pos hlt, UInt8.ofNat_toNat]
  simpa [hall, hlen, Nat.toDigits_ne_nil] using hhead

/-- Four bytes are read back from what stands between the points. -/
theorem quad?_printQuad (q : Quad) : quad? (printQuad q) = some q := by
  have hdot : ∀ n, '.' ∉ Nat.toDigits 10 n := not_mem_toDigits_ten rfl
  unfold quad? printQuad
  rw [splitAll_append (hdot _), splitAll_append (hdot _), splitAll_append (hdot _),
    splitAll_eq_singleton (hdot _)]
  dsimp only
  rw [byte?_toDigits, byte?_toDigits, byte?_toDigits, byte?_toDigits]
  rfl

/-! ## Groups -/

theorem hexValue?_digitChar {d : Nat} (h : d < 16) : hexValue? d.digitChar = some d := by
  revert d
  decide

theorem hexNumber?_append (n : Nat) (cs ds : List Char) :
    hexNumber? n (cs ++ ds) = (hexNumber? n cs).bind (hexNumber? · ds) := by
  induction cs generalizing n with
  | nil => rfl
  | cons c cs ih =>
    rw [List.cons_append, hexNumber?, hexNumber?, Option.bind_assoc]
    simp only [ih]

/-- A number is read back from its hexadecimal digits, the last of which is its remainder. -/
theorem hexNumber?_toDigits (n : Nat) : hexNumber? 0 (Nat.toDigits 16 n) = some n := by
  induction n using Nat.strong_induction_on with
  | _ n ih =>
    rcases Nat.lt_or_ge n 16 with h | h
    · rw [Nat.toDigits_of_lt_base h, hexNumber?, hexValue?_digitChar h]
      simp [hexNumber?]
    · rw [Nat.toDigits_of_base_le (by decide) h, hexNumber?_append, ih _ (by omega),
        Option.bind_some, hexNumber?, hexValue?_digitChar (Nat.mod_lt _ (by decide)),
        Option.bind_some, hexNumber?]
      congr 1
      omega

/-- A group is read back from its digits, of which there are four at most. -/
theorem group?_printGroup (g : UInt16) : group? (printGroup g) = some g := by
  have hlen : (Nat.toDigits 16 g.toNat).length ≤ 4 :=
    (Nat.length_toDigits_le_iff (by decide) (by decide)).2 (by have := g.toNat_lt; omega)
  unfold group? printGroup
  rw [hexNumber?_toDigits, if_neg]
  · simp
  · simpa [Nat.toDigits_ne_nil] using hlen

/-- What can be read as a hexadecimal number has hexadecimal digits only. -/
theorem hexNumber?_eq_none {c : Char} (hc : hexValue? c = none) {cs : List Char} (h : c ∈ cs)
    (n : Nat) : hexNumber? n cs = none := by
  induction cs generalizing n with
  | nil => cases h
  | cons d cs ih =>
    rw [hexNumber?]
    rcases List.mem_cons.1 h with rfl | h
    · rw [hc]
      rfl
    · cases hexValue? d with
      | none => rfl
      | some k => exact ih h _

theorem not_mem_printGroup {c : Char} (hc : hexValue? c = none) (g : UInt16) :
    c ∉ printGroup g := by
  intro h
  have hn : hexNumber? 0 (printGroup g) = some g.toNat := hexNumber?_toDigits g.toNat
  rw [hexNumber?_eq_none hc h] at hn
  cases hn

theorem printGroup_ne_nil (g : UInt16) : printGroup g ≠ [] := Nat.toDigits_ne_nil

theorem printGroups_cons_cons (g h : UInt16) (gs : List UInt16) :
    printGroups (g :: h :: gs) = printGroup g ++ ':' :: printGroups (h :: gs) := rfl

theorem printGroups_eq_nil_iff {gs : List UInt16} : printGroups gs = [] ↔ gs = [] := by
  match gs with
  | [] => simp [printGroups]
  | [g] => simpa [printGroups] using printGroup_ne_nil g
  | g :: h :: gs => simp [printGroups_cons_cons]

/-- Between groups stand colons, and nothing else that is no digit. -/
theorem not_mem_printGroups {c : Char} (hc : hexValue? c = none) (hk : c ≠ ':')
    (gs : List UInt16) : c ∉ printGroups gs := by
  induction gs with
  | nil => exact List.not_mem_nil
  | cons g gs ih =>
    cases gs with
    | nil => exact not_mem_printGroup hc g
    | cons h gs =>
      rw [printGroups_cons_cons, List.mem_append, List.mem_cons, not_or, not_or]
      exact ⟨not_mem_printGroup hc g, hk, ih⟩

theorem groups?_cons_cons (tail : Bool) (p q : List Char) (ps : List (List Char)) :
    groups? tail (p :: q :: ps) =
      (group? p).bind fun g => (groups? tail (q :: ps)).map (g :: ·) := by
  rw [groups?]
  · cases group? p <;> cases groups? tail (q :: ps) <;> rfl
  · exact List.cons_ne_nil _ _

/-- Groups are read back, whether or not they may end in four bytes. -/
theorem groups?_printGroups (tail : Bool) {gs : List UInt16} (h : gs ≠ []) :
    groups? tail (splitAll ':' (printGroups gs)) = some gs := by
  have hcolon : ∀ g, ':' ∉ printGroup g := not_mem_printGroup rfl
  -- the induction is on the groups, each of which is cut off at its colon
  induction gs with
  | nil => exact absurd rfl h
  | cons g gs ih =>
    cases gs with
    | nil =>
      rw [printGroups, splitAll_eq_singleton (hcolon g), groups?, group?_printGroup]
    | cons k gs =>
      have htail := ih (List.cons_ne_nil _ _)
      rw [printGroups_cons_cons, splitAll_append (hcolon g)]
      cases hs : splitAll ':' (printGroups (k :: gs)) with
      | nil =>
        rw [hs] at htail
        cases htail
      | cons q ps =>
        rw [hs] at htail
        rw [groups?_cons_cons, group?_printGroup, htail]
        rfl

/-- One side of a cut is read back, be it empty or not. -/
theorem side?_printGroups (tail : Bool) (gs : List UInt16) :
    side? tail (printGroups gs) = some gs := by
  unfold side?
  by_cases h : gs = []
  · subst h
    rfl
  · rw [if_neg, groups?_printGroups tail h]
    simpa [printGroups_eq_nil_iff] using h

/-! ## The cut -/

/-- Nothing is cut where no colon stands. -/
theorem cutDouble_append {p : List Char} (h : ':' ∉ p) (cs : List Char) :
    cutDouble (p ++ cs) = (cutDouble cs).map fun r => (p ++ r.1, r.2) := by
  induction p with
  | nil => simp
  | cons c p ih =>
    rw [List.mem_cons, not_or] at h
    rw [List.cons_append, cutDouble, ih h.2, Option.map_map]
    · rfl
    · rintro rest rfl
      exact absurd rfl h.1

/-- One colon is no cut. -/
theorem cutDouble_colon {c : Char} (h : c ≠ ':') (cs : List Char) :
    cutDouble (':' :: c :: cs) = (cutDouble (c :: cs)).map fun r => (':' :: r.1, r.2) := by
  rw [cutDouble]
  rintro rest - hk
  exact h (List.cons.inj hk).1

/-- Groups are not cut: between two of them stands a single colon, and what follows it begins with a
digit. The induction goes group by group, as the text is printed. -/
theorem cutDouble_printGroups_append (gs : List UInt16) (cs : List Char) :
    cutDouble (printGroups gs ++ cs) =
      (cutDouble cs).map fun r => (printGroups gs ++ r.1, r.2) := by
  induction gs with
  | nil => simp [printGroups]
  | cons g gs ih =>
    cases gs with
    | nil => exact cutDouble_append (not_mem_printGroup rfl g) cs
    | cons h gs =>
      -- the next group starts behind the colon
      obtain ⟨c, rest, hc⟩ := List.exists_cons_of_ne_nil
        (mt printGroups_eq_nil_iff.1 (List.cons_ne_nil h gs))
      have hne : c ≠ ':' := by
        rintro rfl
        cases gs with
        | nil =>
          have hin : ':' ∈ printGroup h := by
            rw [show printGroup h = _ from hc]
            exact List.mem_cons_self
          exact not_mem_printGroup rfl h hin
        | cons k gs =>
          obtain ⟨d, ds, hd⟩ := List.exists_cons_of_ne_nil (printGroup_ne_nil h)
          rw [printGroups_cons_cons, hd] at hc
          have hin : ':' ∈ printGroup h := by
            rw [hd, (List.cons.inj hc).1]
            exact List.mem_cons_self
          exact not_mem_printGroup rfl h hin
      rw [printGroups_cons_cons, List.append_assoc, List.cons_append,
        cutDouble_append (not_mem_printGroup rfl g)]
      rw [hc] at ih ⊢
      rw [List.cons_append, cutDouble_colon hne, ← List.cons_append, ih, Option.map_map,
        Option.map_map]
      simp [Function.comp_def]

/-! ## Runs of zeros -/

/-- The run is one of zeros within the groups. -/
def Run.IsZeros (r : Run) (gs : List UInt16) : Prop :=
  ∃ front back, gs = front ++ List.replicate r.size 0 ++ back ∧ front.length = r.start

theorem eq_zerosAhead_append (gs : List UInt16) :
    ∃ back, gs = List.replicate (zerosAhead gs) 0 ++ back := by
  refine ⟨gs.dropWhile (· == 0), ?_⟩
  have hzeros : gs.takeWhile (· == 0) = List.replicate (zerosAhead gs) 0 := by
    refine List.eq_replicate_iff.2 ⟨rfl, fun g hg => ?_⟩
    simpa using List.mem_takeWhile_imp hg
  rw [← hzeros, List.takeWhile_append_dropWhile]

/-- The longest run found is one of zeros, if the best so far is. -/
theorem isZeros_longestRun {best : Run} {pre rest : List UInt16}
    (h : best.IsZeros (pre ++ rest)) :
    (longestRun pre.length best rest).IsZeros (pre ++ rest) := by
  induction rest generalizing pre best with
  | nil => exact h
  | cons g rest ih =>
    rw [longestRun]
    -- the best run so far stays one of zeros as the reader goes on
    have hnext : ∀ b : Run, b.IsZeros (pre ++ g :: rest) →
        (longestRun (pre.length + 1) b rest).IsZeros (pre ++ g :: rest) := by
      intro b hb
      have hpre : b.IsZeros ((pre ++ [g]) ++ rest) := by simpa using hb
      simpa using ih hpre
    refine hnext _ ?_
    split
    · obtain ⟨back, hback⟩ := eq_zerosAhead_append (g :: rest)
      exact ⟨pre, back, by rw [List.append_assoc, ← hback], rfl⟩
    · exact h

/-! ## The long form -/

theorem ofGroups?_groupList (groups : Vector UInt16 8) :
    ofGroups? (groupList groups) = some (.v6 groups) := by
  unfold ofGroups? groupList
  rw [dif_pos groups.length_toList]
  rfl

/-- Two groups written as four bytes are the same two groups. -/
theorem groups_ofGroups (g h : UInt16) : (Quad.ofGroups g h).groups = [g, h] := by
  have hjoin : ∀ k : UInt16, (k / 256).toUInt8.toUInt16 * 256 + k.toUInt8.toUInt16 = k := by
    intro k
    apply UInt16.toNat_inj.1
    have hk := k.toNat_lt
    simp
    omega
  unfold Quad.groups Quad.ofGroups
  rw [hjoin, hjoin]

/-- Groups with a run that was cut out. -/
theorem long?_cut {front back : List UInt16} {size : Nat} (hs : 0 < size)
    (hlen : (front ++ List.replicate size 0 ++ back).length = 8) :
    long? (printGroups front ++ ':' :: ':' :: printGroups back) =
      ofGroups? (front ++ List.replicate size 0 ++ back) := by
  have hcut : cutDouble (printGroups front ++ ':' :: ':' :: printGroups back) =
      some (printGroups front, printGroups back) := by
    rw [cutDouble_printGroups_append]
    simp [cutDouble]
  simp only [List.length_append, List.length_replicate] at hlen
  have hsize : 8 - (front.length + back.length) = size := by omega
  unfold long?
  rw [hcut]
  dsimp only
  rw [side?_printGroups, side?_printGroups]
  dsimp only [Option.bind_eq_bind, Option.bind_some]
  rw [hsize, if_pos (by omega)]

/-- Groups without a cut. -/
theorem long?_printGroups {gs : List UInt16} (h : gs ≠ []) :
    long? (printGroups gs) = ofGroups? gs := by
  have hcut : cutDouble (printGroups gs) = none := by
    have := cutDouble_printGroups_append gs []
    rwa [List.append_nil] at this
  unfold long?
  rw [hcut]
  dsimp only
  rw [groups?_printGroups true h]
  rfl

/-- Groups that end in four bytes. The only double colon is at the front, and what has points in it
is read as two groups. -/
theorem long?_mapped (g h : UInt16) :
    long? ("::ffff:".toList ++ printQuad (.ofGroups g h)) =
      ofGroups? [0, 0, 0, 0, 0, 0xffff, g, h] := by
  have hcolon : ∀ n, ':' ∉ Nat.toDigits 10 n := not_mem_toDigits_ten rfl
  have hquad : ':' ∉ printQuad (.ofGroups g h) := by
    simp [printQuad, hcolon]
  -- what has points in it is no group
  have hgroup : group? (printQuad (.ofGroups g h)) = none := by
    unfold group?
    split
    · rfl
    · rw [hexNumber?_eq_none (c := '.') rfl (by simp [printQuad])]
      rfl
  have hside : side? true ("ffff:".toList ++ printQuad (.ofGroups g h)) =
      some [0xffff, g, h] := by
    show groups? true (splitAll ':' (['f', 'f', 'f', 'f'] ++ ':' :: printQuad _)) = _
    rw [splitAll_append (by decide), splitAll_eq_singleton hquad, groups?_cons_cons, groups?,
      hgroup]
    dsimp only
    rw [if_pos rfl, quad?_printQuad, Option.map_some, groups_ofGroups]
    rfl
  -- the only cut is at the front
  have hcut : cutDouble ("::ffff:".toList ++ printQuad (.ofGroups g h)) =
      some ([], "ffff:".toList ++ printQuad (.ofGroups g h)) := rfl
  unfold long?
  rw [hcut]
  dsimp only
  rw [hside]
  rfl

/-- Any eight groups are read back from their long form, whichever of the three forms that is: with
four bytes, cut at the longest run of zeros, or in full. -/
theorem long?_printLong {gs : List UInt16} (h : gs.length = 8) :
    long? (printLong gs) = ofGroups? gs := by
  unfold printLong
  split
  · exact long?_mapped _ _
  · have hnone : Run.IsZeros ⟨0, 0⟩ ([] ++ gs) := ⟨[], gs, rfl, rfl⟩
    have hzeros : (longestRun 0 ⟨0, 0⟩ gs).IsZeros gs := isZeros_longestRun hnone
    dsimp only
    split
    · rename_i hrun
      obtain ⟨front, back, hgs, hfront⟩ := hzeros
      generalize longestRun 0 ⟨0, 0⟩ gs = run at hrun hgs hfront
      subst hgs
      have htake : (front ++ List.replicate run.size 0 ++ back).take run.start = front := by
        rw [← hfront, List.append_assoc, List.take_left]
      have hdrop : (front ++ List.replicate run.size 0 ++ back).drop (run.start + run.size) =
          back := by
        rw [← hfront]
        exact List.drop_left' (by simp)
      rw [htake, hdrop]
      exact long?_cut (Nat.lt_of_succ_lt hrun) h
    · refine long?_printGroups ?_
      rintro rfl
      cases h

/-- No long form reads as a short one: it has no point, or no byte in front of its first. -/
theorem quad?_printLong (gs : List UInt16) : quad? (printLong gs) = none := by
  have hdot : ∀ gs, '.' ∉ printGroups gs := not_mem_printGroups rfl (by decide)
  have hnone : ∀ cs : List Char, '.' ∉ cs → quad? cs = none := by
    intro cs hcs
    unfold quad?
    rw [splitAll_eq_singleton hcs]
  unfold printLong
  split
  · -- what stands before the first point is no byte
    rename_i g h
    have hten : ∀ n, '.' ∉ Nat.toDigits 10 n := not_mem_toDigits_ten rfl
    have hbyte : byte? ("::ffff:".toList ++ Nat.toDigits 10 (Quad.ofGroups g h).a.toNat) =
        none := by
      unfold byte?
      rw [if_neg]
      simp
    unfold quad? printQuad
    rw [← List.append_assoc, splitAll_append (by simpa using hten _), splitAll_append (hten _),
      splitAll_append (hten _), splitAll_eq_singleton (hten _)]
    dsimp only
    rw [hbyte]
    rfl
  · dsimp only
    split
    · exact hnone _ (by simp [hdot])
    · exact hnone _ (hdot gs)

/-- Every address is read back from its canonical text. -/
theorem parse_print (a : Address) : parse a.print = some a := by
  unfold parse
  cases a with
  | v4 q =>
    rw [show (Address.v4 q).print.toList = printQuad q from String.toList_ofList, quad?_printQuad]
  | v6 groups =>
    rw [show (Address.v6 groups).print.toList = printLong (groupList groups) from
      String.toList_ofList, quad?_printLong]
    exact (long?_printLong groups.length_toList).trans (ofGroups?_groupList groups)

end Address

end TunnelSession

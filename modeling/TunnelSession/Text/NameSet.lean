/-
  Finite sets of names, kept in order.

  PROGRAM.  A set is the list of its members, each strictly below the next (names are ordered by
  code point, which is also the order of their UTF-8 bytes).  `insert`, `erase` and `toggle` work on
  the list in one pass.

  INVARIANT.  `NameSet.sorted`, carried by the type: hence a set has one list only, and two sets
  with the same members are equal (`NameSet.ext_mem`).

  THE VIEW.  Membership: `mem_insert`, `mem_erase`, `mem_toggle`, `mem_ofList`.
-/

namespace TunnelSession.Text

/-- A set of names, listed in increasing order. -/
structure NameSet where
  toList : List String
  sorted : toList.Pairwise (· < ·)
  deriving DecidableEq

namespace NameSet

instance : Membership String NameSet := ⟨fun s x => x ∈ s.toList⟩

instance (x : String) (s : NameSet) : Decidable (x ∈ s) :=
  inferInstanceAs (Decidable (x ∈ s.toList))

/-- The set with no member. -/
def empty : NameSet := ⟨[], .nil⟩

instance : Inhabited NameSet := ⟨empty⟩

/-- Put a name before the first one that is not below it, unless it is there. -/
def insertSorted (x : String) : List String → List String
  | [] => [x]
  | y :: ys => if x < y then x :: y :: ys else if y < x then y :: insertSorted x ys else y :: ys

theorem mem_insertSorted {x y : String} {l : List String} :
    x ∈ insertSorted y l ↔ x = y ∨ x ∈ l := by
  induction l with
  | nil => simp [insertSorted]
  | cons z zs ih =>
    unfold insertSorted
    split
    · simp
    · split
      · simp only [List.mem_cons, ih]
        grind
      · rename_i h₁ h₂
        have : y = z := String.le_antisymm (String.not_lt.1 h₂) (String.not_lt.1 h₁)
        subst this
        simp

theorem pairwise_insertSorted {x : String} {l : List String} (h : l.Pairwise (· < ·)) :
    (insertSorted x l).Pairwise (· < ·) := by
  induction l with
  | nil => simp [insertSorted]
  | cons y ys ih =>
    rw [List.pairwise_cons] at h
    unfold insertSorted
    split
    · rename_i hx
      exact .cons (fun z hz => by
        rcases List.mem_cons.1 hz with rfl | hz
        · exact hx
        · exact String.lt_trans hx (h.1 z hz)) (.cons h.1 h.2)
    · split
      · rename_i hy
        exact .cons (fun z hz => by
          rcases mem_insertSorted.1 hz with rfl | hz
          · exact hy
          · exact h.1 z hz) (ih h.2)
      · exact .cons h.1 h.2

/-- Add a name. -/
def insert (s : NameSet) (x : String) : NameSet :=
  ⟨insertSorted x s.toList, pairwise_insertSorted s.sorted⟩

/-- Remove a name. -/
def erase (s : NameSet) (x : String) : NameSet :=
  ⟨s.toList.filter (· ≠ x), s.sorted.filter _⟩

/-- Add a name that is not there, remove one that is. -/
def toggle (s : NameSet) (x : String) : NameSet :=
  if x ∈ s then s.erase x else s.insert x

/-- The set of the names of a list. -/
def ofList (l : List String) : NameSet :=
  l.foldl insert empty

theorem mem_def {s : NameSet} {x : String} : x ∈ s ↔ x ∈ s.toList := Iff.rfl

@[simp] theorem not_mem_empty {x : String} : ¬ x ∈ empty := List.not_mem_nil

@[simp] theorem mem_insert {s : NameSet} {x y : String} : x ∈ s.insert y ↔ x = y ∨ x ∈ s :=
  mem_insertSorted

@[simp] theorem mem_erase {s : NameSet} {x y : String} : x ∈ s.erase y ↔ x ∈ s ∧ x ≠ y := by
  simp [erase, mem_def]

theorem mem_toggle {s : NameSet} {x y : String} :
    x ∈ s.toggle y ↔ if x = y then ¬ x ∈ s else x ∈ s := by
  unfold toggle
  by_cases hxy : x = y
  · subst hxy
    by_cases h : x ∈ s <;> simp [h]
  · by_cases h : y ∈ s <;> simp [h, hxy]

theorem mem_foldl_insert {l : List String} {s : NameSet} {x : String} :
    x ∈ l.foldl insert s ↔ x ∈ s ∨ x ∈ l := by
  induction l generalizing s with
  | nil => simp
  | cons y ys ih =>
    rw [List.foldl_cons, ih, mem_insert, List.mem_cons]
    grind

@[simp] theorem mem_ofList {l : List String} {x : String} : x ∈ ofList l ↔ x ∈ l := by
  simp [ofList, mem_foldl_insert]

/-- Two increasing lists with the same members are equal. -/
theorem eq_of_pairwise_of_mem {l m : List String} (hl : l.Pairwise (· < ·))
    (hm : m.Pairwise (· < ·)) (h : ∀ x, x ∈ l ↔ x ∈ m) : l = m := by
  induction l generalizing m with
  | nil =>
    cases m with
    | nil => rfl
    | cons b m => simpa using (h b).2 (List.mem_cons_self ..)
  | cons a l ih =>
    cases m with
    | nil => simpa using (h a).1 (List.mem_cons_self ..)
    | cons b m =>
      rw [List.pairwise_cons] at hl hm
      have hab : a = b := by
        rcases List.mem_cons.1 ((h a).1 (List.mem_cons_self ..)) with e | e
        · exact e
        · rcases List.mem_cons.1 ((h b).2 (List.mem_cons_self ..)) with e' | e'
          · exact e'.symm
          · exact absurd (hl.1 b e') (String.lt_asymm (hm.1 a e))
      subst hab
      congr 1
      refine ih hl.2 hm.2 fun x => ?_
      have hx := h x
      simp only [List.mem_cons] at hx
      constructor
      · intro hxl
        rcases hx.1 (.inr hxl) with e | e
        · exact absurd (hl.1 x hxl) (e ▸ String.lt_irrefl _)
        · exact e
      · intro hxm
        rcases hx.2 (.inr hxm) with e | e
        · exact absurd (hm.1 x hxm) (e ▸ String.lt_irrefl _)
        · exact e

/-- A set is known by its members. -/
theorem ext_mem {s t : NameSet} (h : ∀ x, x ∈ s ↔ x ∈ t) : s = t := by
  have : s.toList = t.toList := eq_of_pairwise_of_mem s.sorted t.sorted h
  cases s
  cases t
  cases this
  rfl

/-- Reading a set's list back gives the set. -/
@[simp] theorem ofList_toList (s : NameSet) : ofList s.toList = s :=
  ext_mem fun _ => mem_ofList

end NameSet

end TunnelSession.Text

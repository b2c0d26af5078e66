/-
  Records that leave out some of their fields.

  SLOTS.  Settings and patches declare the same fields, and find their values in the same slots of
  a document.  A slot that nothing was meant for is a default to the one reader and "not given" to
  the other; a slot with a value in it is read by the same rule (`bind_orElse`).

  NULL.  They part ways at `null` alone: a patch takes it for "not given", and settings refuse it
  (`null_ne_of_orElse`).  `Json.GivesNull` says where it would have to stand in a document, without
  slots: behind a declared name, or among the items of an array (`null_mem_slots`).

  RESULT.  A text spells settings exactly if it spells a patch and gives no `null`, and the settings
  are those that the patch makes of the defaults (`read_settings_iff`).
-/
import TunnelSession.Json.Datum
import TunnelSession.Json.Parser
import TunnelSession.Settings
import Mathlib.Data.List.Basic
import Mathlib.Data.Option.Basic

namespace TunnelSession

/-- Is `null` given under one of some names, or as an item? -/
def Json.GivesNull (names : List String) : Json → Prop
  | .object members => ∃ name ∈ names, (some name, Json.null) ∈ members
  | .array items => Json.null ∈ items
  | _ => False

theorem Json.isEmpty_iff (j : Json) : Datum.isEmpty j = true ↔ j = .null := by
  cases j with
  | null => exact ⟨fun _ => rfl, fun _ => rfl⟩
  | bool | number | string | array | object => exact ⟨nofun, nofun⟩

instance (names : List String) : DecidablePred (Json.GivesNull names)
  | .object members =>
    decidable_of_iff (∃ name ∈ names, ∃ m ∈ members, m.1 = some name ∧ Datum.isEmpty m.2 = true)
      (by simp [Json.GivesNull, Json.isEmpty_iff, Prod.exists])
  | .array items => decidable_of_iff (∃ v ∈ items, Datum.isEmpty v = true)
      (by simp [Json.GivesNull, Json.isEmpty_iff])
  | .null | .bool _ | .number _ | .string _ => isFalse id

/-! ## Slots -/

section Lists

variable {α β : Type} {f : α → Option β} {l : List α} {l' : List β}

/-- A list is read when each of its items is. -/
theorem map_of_mapM (h : l.mapM f = some l') : l.map f = l'.map some := by
  induction l generalizing l' with
  | nil =>
    cases h
    rfl
  | cons a l ih =>
    rw [List.mapM_cons] at h
    obtain ⟨b, hb, h⟩ := Option.bind_eq_some_iff.1 h
    obtain ⟨rest, hrest, h⟩ := Option.bind_eq_some_iff.1 h
    cases h
    rw [List.map_cons, List.map_cons, hb, ih hrest]

/-- What a list is read as holds what its items are read as. -/
theorem mem_of_mapM (h : l.mapM f = some l') {b : β} : b ∈ l' ↔ ∃ a ∈ l, f a = some b := by
  rw [← List.mem_map_of_injective (Option.some_injective β), ← map_of_mapM h, List.mem_map]

end Lists

namespace Datum

variable {V α β : Type} [Datum V]

/-- A slot without an empty value is a default to the one reader where it is not given to the
other. -/
theorem bind_orElse {d : α} {read : V → Option α} {s : Option V}
    (h : ∀ v, s = some v → isEmpty v = false) (f : α → Option β) :
    (orElse d read s).bind f = (optional read s).bind fun o => f (o.getD d) := by
  cases s with
  | none => rfl
  | some v =>
    rw [optional, h v rfl, if_neg Bool.false_ne_true, Option.bind_map]
    rfl

/-- Whoever refuses `null` has read a slot without it. -/
theorem null_ne_of_orElse {d a : α} {read : Json → Option α} {s : Option Json}
    (hread : read .null = none) (h : orElse d read s = some a) : some .null ≠ s := by
  rintro rfl
  cases hread.symm.trans h

omit [Datum V] in
/-- A name has its value from the member of that name. -/
theorem mem_of_slot {ms : List (String × V)} {name : String} {s : Option V}
    (h : slot ms name = some s) (v : V) : s = some v ↔ (name, v) ∈ ms := by
  have hmem : ∀ w, (name, w) ∈ ms ↔ (name, w) ∈ ms.filter (·.1 == name) := by
    simp [List.mem_filter]
  rw [hmem]
  unfold slot at h
  -- no member of that name, one, or several; several are refused
  split at h
  · rename_i hf
    cases h
    rw [hf]
    exact ⟨nofun, nofun⟩
  · rename_i m hf
    cases h
    have hname : m.1 = name := by
      have hm : m ∈ ms.filter (·.1 == name) := hf ▸ List.mem_cons_self
      simpa using (List.mem_filter.1 hm).2
    obtain ⟨n, w⟩ := m
    obtain rfl : n = name := hname
    rw [hf, List.mem_singleton, Option.some.injEq, Prod.mk.injEq]
    exact ⟨fun h => ⟨rfl, h.symm⟩, fun h => h.2.symm⟩
  · cases h

end Datum

namespace Json

/-- The members of an object, when all its names spell a text. -/
theorem mem_namedMembers {members : List (Option String × Json)} {ms : List (String × Json)}
    (h : namedMembers members = some ms) {name : String} {v : Json} :
    (name, v) ∈ ms ↔ (some name, v) ∈ members := by
  rw [mem_of_mapM h]
  constructor
  · rintro ⟨⟨n, w⟩, hm, he⟩
    obtain ⟨x, rfl, hx⟩ := Option.map_eq_some_iff.1 he
    cases hx
    exact hm
  · exact fun hm => ⟨_, hm, rfl⟩

/-- A slot has `null` in it if the document gives it: by its name in an object, and by its place in
an array. -/
theorem null_mem_slots {names : List String} {j : Json} {l : List (Option Json)}
    (h : Datum.slots names j = some l) : some Json.null ∈ l ↔ j.GivesNull names := by
  cases j with
  | object members =>
    -- the slots are read off by name
    unfold Datum.slots at h
    dsimp only [Datum.shape] at h
    cases hms : namedMembers members with
    | none =>
      rw [hms] at h
      cases h
    | some ms =>
      rw [hms] at h
      replace h : names.mapM (Datum.slot ms) = some l := h
      rw [mem_of_mapM h]
      refine exists_congr fun name => and_congr_right fun hname => ?_
      have hread : Datum.slot ms name ∈ l.map some := map_of_mapM h ▸ List.mem_map_of_mem hname
      obtain ⟨s, -, hs⟩ := List.mem_map.1 hread
      rw [← hs, Option.some.injEq, Datum.mem_of_slot hs.symm, mem_namedMembers hms]
  | array items =>
    -- the slots are the items themselves, as there are not too many of them
    have hfits : items.length ≤ names.length := by
      by_contra hlt
      unfold Datum.slots at h
      simp [Datum.shape, Datum.surplus, hlt] at h
    unfold Datum.slots at h
    simp only [Datum.shape, Datum.surplus, hfits] at h
    cases h
    simp [GivesNull, List.take_of_length_le hfits]
  | null | bool | number | string => cases h

end Json

/-! ## Settings -/

namespace Settings

variable {j : Json} {s : Settings}

/-- Settings refuse `null` wherever it is given. -/
theorem not_givesNull_of_read (h : read j = some s) : ¬ j.GivesNull fieldNames := by
  unfold read at h
  obtain ⟨l, hl, h⟩ := Option.bind_eq_some_iff.1 h
  rw [← Json.null_mem_slots hl]
  split at h
  · simp only [Option.bind_eq_bind, Option.bind_eq_some_iff] at h
    -- every slot was read, one after the other, and none of them takes `null` for a value
    obtain ⟨_, h₁, _, h₂, _, h₃, _, h₄, _, h₅, _, h₆, _, h₇, _, h₈, -⟩ := h
    have hflag : (Datum.flag Json.null : Option Bool) = none := rfl
    simp only [List.mem_cons, List.not_mem_nil, or_false, not_or]
    exact ⟨Datum.null_ne_of_orElse hflag h₁, Datum.null_ne_of_orElse hflag h₂,
      Datum.null_ne_of_orElse rfl h₃, Datum.null_ne_of_orElse hflag h₄,
      Datum.null_ne_of_orElse rfl h₅, Datum.null_ne_of_orElse rfl h₆,
      Datum.null_ne_of_orElse hflag h₇, Datum.null_ne_of_orElse hflag h₈⟩
  · cases h

/-- Without `null`, settings are what a patch makes of the defaults. -/
theorem read_eq_map_apply (hn : ¬ j.GivesNull fieldNames) :
    read j = (Patch.read j).map (·.apply default) := by
  unfold read Patch.read
  cases hl : Datum.slots fieldNames j with
  | none => rfl
  | some l =>
    rw [← Json.null_mem_slots hl] at hn
    -- no slot has an empty value, so both readers apply the same rule to each
    have hempty : ∀ o ∈ l, ∀ v, o = some v → Datum.isEmpty v = false := by
      rintro o ho v rfl
      rw [Bool.eq_false_iff, ne_eq, Json.isEmpty_iff]
      rintro rfl
      exact hn ho
    simp only [Option.bind_eq_bind, Option.bind_some]
    split
    · simp only [List.forall_mem_cons] at hempty
      obtain ⟨h₁, h₂, h₃, h₄, h₅, h₆, h₇, h₈, -⟩ := hempty
      simp only [Datum.bind_orElse h₁, Datum.bind_orElse h₂, Datum.bind_orElse h₃,
        Datum.bind_orElse h₄, Datum.bind_orElse h₅, Datum.bind_orElse h₆, Datum.bind_orElse h₇,
        Datum.bind_orElse h₈, Option.map_bind, Function.comp_def]
      rfl
    · rfl

end Settings

/-- A text spells settings exactly if it spells a patch and gives no `null`, neither behind a
declared name nor as an item; the settings are then what the patch makes of the defaults. -/
theorem read_settings_iff (t : String) (s : Settings) :
    (Json.parse t).bind Settings.read = some s ↔
      ∃ p, (Json.parse t).bind Patch.read = some p ∧ p.apply .default = s ∧
        ∀ j ∈ Json.parse t, ¬ j.GivesNull Settings.fieldNames := by
  cases Json.parse t with
  | none => simp
  | some j =>
    simp only [Option.bind_some, Option.mem_def, Option.some.injEq, forall_eq']
    constructor
    · -- settings that are read give no `null`, and are what their patch makes of the defaults
      intro hs
      have hn := Settings.not_givesNull_of_read hs
      rw [Settings.read_eq_map_apply hn] at hs
      obtain ⟨p, hp, hps⟩ := Option.map_eq_some_iff.1 hs
      exact ⟨p, hp, hps, hn⟩
    · -- and without `null` the patch tells what the settings are
      rintro ⟨p, hp, hps, hn⟩
      rw [Settings.read_eq_map_apply hn, hp, ← hps]
      rfl

/-- An object in another order and with a name that is not declared, an array that is cut short,
and `null`, which a patch takes and settings refuse. -/
theorem read_settings_iff_partial :
    (Json.parse "\x7b\"new\": [null], \"protocol\": \"stealth\", \"kill_switch\": false\x7d").bind
        Settings.read = some { Settings.default with protocol := .stealth, killSwitch := false } ∧
    (Json.parse "[false, true]").bind Settings.read =
      some { Settings.default with killSwitch := false, autoConnect := true } ∧
    (Json.parse "[null]").bind Patch.read = some .empty ∧
    (Json.parse "[null]").bind Settings.read = none := by
  refine ⟨?_, ?_, by decide +kernel, Option.eq_none_iff_forall_ne_some.2 fun s hs => ?_⟩
  · exact (read_settings_iff _ _).2
      ⟨{ Patch.empty with protocol := some .stealth, killSwitch := some false },
        by decide +kernel, rfl, by decide +kernel⟩
  · exact (read_settings_iff _ _).2
      ⟨{ Patch.empty with killSwitch := some false, autoConnect := some true },
        by decide +kernel, rfl, by decide +kernel⟩
  · obtain ⟨p, -, -, hn⟩ := (read_settings_iff _ s).1 hs
    exact absurd hn (by decide +kernel)

end TunnelSession

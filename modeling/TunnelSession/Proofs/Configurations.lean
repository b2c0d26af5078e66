/-
  A configuration is read back from its TOML text.

  RECORDS.  A record whose members are the declared fields, in any number of formats written in
  their order, gives each reader its own value (`Datum.slots_of_nodup`).

  FIELDS.  Every value is written in the form that its reader takes: a protocol by its name, an
  address by its text, a set by its names in their order, a word by its number.

  `ofToml_toToml` is the result.  The format has no number above 2^63 - 1, so a configuration with a
  larger one has no text; any other has one, and reading it gives the configuration if it is valid,
  else what is wrong with it.
-/
import Mathlib.Data.UInt
import TunnelSession.Config
import TunnelSession.Proofs.Documents

namespace TunnelSession

open Toml (Field Value IsBareName IsPlain)

/-! ## Records -/

namespace Datum

variable {V : Type} {ms : List (String × V)} {m : String × V}

/-- A member that is there once has its slot. -/
theorem slot_of_mem (h : (ms.map (·.1)).Nodup) (hm : m ∈ ms) : slot ms m.1 = some (some m.2) := by
  have hfilter : ms.filter (·.1 == m.1) = [m] := by
    induction ms with
    | nil => cases hm
    | cons n ms ih =>
      rw [List.map_cons, List.nodup_cons] at h
      rcases List.mem_cons.1 hm with rfl | hm
      · rw [List.filter_cons_of_pos (by simp)]
        refine congrArg (m :: ·) (List.filter_eq_nil_iff.2 fun n hn => ?_)
        rw [beq_iff_eq]
        exact fun he => h.1 (he ▸ List.mem_map_of_mem hn)
      · have hne : ¬ (n.1 == m.1) = true := by
          rw [beq_iff_eq]
          exact fun he => h.1 (he ▸ List.mem_map_of_mem hm)
        rw [List.filter_cons_of_neg (p := fun x : String × V => x.1 == m.1) hne, ih h.2 hm]
  rw [slot, hfilter]

/-- Each member has its slot, in whatever order the slots are asked for. -/
theorem mapM_slot (h : (ms.map (·.1)).Nodup) {l : List (String × V)} (hl : ∀ m ∈ l, m ∈ ms) :
    (l.map (·.1)).mapM (slot ms) = some (l.map fun m => some m.2) := by
  induction l with
  | nil => rfl
  | cons m l ih =>
    rw [List.map_cons, List.mapM_cons, slot_of_mem h (hl m List.mem_cons_self),
      ih fun n hn => hl n (List.mem_cons_of_mem _ hn)]
    rfl

/-- A record with all its fields and no other. -/
theorem slots_of_nodup (o : Toml.Origin) (ms : List (String × Value)) {names : List String}
    (hnames : ms.map (·.1) = names) (h : names.Nodup) :
    slots names (Value.table o ms) = some (ms.map fun m => some m.2) := by
  subst hnames
  exact mapM_slot h fun _ => id

/-- A list of things, each read back from what it is written as. -/
theorem listOf_array {α : Type} {read : Value → Option α} {write : α → String}
    (h : ∀ a, read (.string (write a)) = some a) (l : List α) :
    listOf read (.array ((l.map write).map .string)) = some l := by
  show ((l.map write).map Value.string).mapM read = some l
  induction l with
  | nil => rfl
  | cons a l ih =>
    rw [List.map_cons, List.map_cons, List.mapM_cons, h, ih]
    rfl

theorem word64_integer (w : UInt64) : word64 (Value.integer (w.toNat : Int)) = some w := by
  have hn : natural (Value.integer (w.toNat : Int)) = some w.toNat := by
    show (if 0 ≤ (w.toNat : Int) then some (w.toNat : Int).toNat else none) = _
    rw [if_pos (Int.natCast_nonneg _), Int.toNat_natCast]
  rw [word64, below, hn]
  dsimp only
  rw [if_pos w.toNat_lt, Option.map_some, UInt64.ofNat_toNat]

end Datum

/-! ## Fields -/

theorem Protocol.read_string (p : Protocol) : Protocol.read (Value.string p.name) = some p := by
  cases p <;> rfl

namespace Settings

/-- A set of names is read back from its names. -/
theorem readNames_array (s : Text.NameSet) :
    readNames (Value.array (s.toList.map .string)) = some s := by
  have hlist : Datum.listOf Datum.text (Value.array (s.toList.map .string)) = some s.toList := by
    have h : Datum.listOf Datum.text (Value.array ((s.toList.map id).map .string)) =
      some s.toList :=
      Datum.listOf_array (fun _ => rfl) s.toList
    rwa [List.map_id] at h
  rw [readNames, hlist, Option.map_some, Text.NameSet.ofList_toList]

theorem readAddresses_array (l : List Address) :
    readAddresses (Value.array ((l.map Address.print).map .string)) = some l :=
  Datum.listOf_array (fun a => Address.parse_print a) l

theorem nodup_fieldNames : fieldNames.Nodup := by decide

/-- Settings are read back from the members that are written for them. -/
theorem read_tomlSettings (s : Settings) (o : Toml.Origin) :
    read (Value.table o ((Config.tomlSettings s).map Toml.member)) = some s := by
  have hslots := Datum.slots_of_nodup o ((Config.tomlSettings s).map Toml.member)
    (show _ = fieldNames from rfl) nodup_fieldNames
  have hprotocol := Protocol.read_string s.protocol
  have hnames := readNames_array s.excludedApps
  have haddresses := readAddresses_array s.dnsServers
  unfold read
  rw [hslots]
  simp [Config.tomlSettings, Toml.member, Field.value, Datum.orElse, hprotocol, hnames, haddresses,
    Datum.flag, -List.map_map]

end Settings

namespace Config

theorem nodup_fieldNames : fieldNames.Nodup := by decide

/-- The members that a written configuration has. -/
def tomlMembers (c : Config) : Toml.Members :=
  c.tomlFields.map Toml.member ++ [("settings", tomlSettings c.settings)].map Toml.sectionMember

/-- A configuration is read back from its members, the settings among them. -/
theorem read_tomlMembers (c : Config) : read (Value.table .header c.tomlMembers) = some c := by
  have hslots := Datum.slots_of_nodup .header c.tomlMembers (show _ = fieldNames from rfl)
    nodup_fieldNames
  have hinterval := Datum.word64_integer c.telemetryInterval
  have hcapacity := Datum.word64_integer c.triggerCapacity
  have hsettings := Settings.read_tomlSettings c.settings .header
  unfold read
  rw [hslots]
  simp [tomlMembers, tomlFields, Toml.member, Toml.sectionMember, Field.value, Datum.orElse,
    hinterval, hcapacity, hsettings, Datum.text]

theorem isBareName_of_mem : ∀ n ∈ fieldNames ++ Settings.fieldNames, IsBareName n := by
  have hall : ((fieldNames ++ Settings.fieldNames).all fun n =>
      !n.toList.isEmpty && n.toList.all Toml.isBare) = true := by decide +kernel
  intro n hn
  have hbare := List.all_eq_true.1 hall n hn
  rw [Bool.and_eq_true, Bool.not_eq_true', List.isEmpty_eq_false_iff, List.all_eq_true] at hbare
  exact ⟨hbare.1, hbare.2⟩

/-- The text of a configuration spells its members. -/
theorem parse_toml {c : Config} (h : c.tomlFields.all (·.2.fits) = true) :
    Toml.parse (String.ofList (Toml.printDocument c.tomlFields
      [("settings", tomlSettings c.settings)])) = some (.table .header c.tomlMembers) := by
  -- the fields of the configuration, each of which fits
  have hfields : IsPlain c.tomlFields := by
    refine ⟨fun f hf => ⟨?_, List.all_eq_true.1 h f hf⟩, nodup_fieldNames.sublist ?_⟩
    · have hname : f.1 ∈ c.tomlFields.map (·.1) := List.mem_map_of_mem hf
      exact isBareName_of_mem _ (List.mem_append_left _ (List.mem_append_left ["settings"] hname))
    · exact List.sublist_append_left _ ["settings"]
  -- the fields of the settings, which have no numbers
  have hsettings : IsPlain (tomlSettings c.settings) := by
    refine ⟨fun f hf => ⟨?_, ?_⟩, Settings.nodup_fieldNames⟩
    · have hname : f.1 ∈ Settings.fieldNames := List.mem_map_of_mem (f := (·.1)) hf
      exact isBareName_of_mem _ (List.mem_append_right _ hname)
    · have hall : (tomlSettings c.settings).all (·.2.fits) = true := rfl
      exact List.all_eq_true.1 hall f hf
  refine Toml.parse_printDocument _ _ hfields ?_ nodup_fieldNames
  rintro _ hs
  obtain rfl := List.mem_singleton.1 hs
  exact ⟨isBareName_of_mem "settings" (by decide), hsettings⟩

/-- A configuration has a text where its two numbers are none the format lacks. -/
theorem fits_tomlFields (c : Config) :
    c.tomlFields.all (·.2.fits) = true ↔
      c.telemetryInterval.toNat ≤ Toml.integerMax ∧ c.triggerCapacity.toNat ≤ Toml.integerMax := by
  simp [tomlFields, Field.fits]

/-- What was read is a configuration if it is valid, else what is wrong with it. -/
theorem checked_some (c : Config) :
    (c.validate = .ok () → checked (some c) = .ok c) ∧
      ∀ e, c.validate = .error e → checked (some c) = .error e := by
  unfold checked
  dsimp only
  cases c.validate with
  | ok => exact ⟨fun _ => rfl, fun _ h => nomatch h⟩
  | error e => exact ⟨fun h => (nomatch h), fun _ h => congrArg _ (Except.error.inj h)⟩

/-- Reading back what was written gives the configuration, or says what is wrong with it; and
numbers that the format has not are refused. -/
theorem ofToml_toToml (c : Config) :
    (c.telemetryInterval.toNat ≤ 2 ^ 63 - 1 ∧ c.triggerCapacity.toNat ≤ 2 ^ 63 - 1 →
      ∃ t, c.toToml = .ok t ∧ (c.validate = .ok () → ofToml t = .ok c) ∧
        ∀ e, c.validate = .error e → ofToml t = .error e) ∧
    (2 ^ 63 - 1 < c.telemetryInterval.toNat ∨ 2 ^ 63 - 1 < c.triggerCapacity.toNat →
      ∃ e, c.toToml = .error e) := by
  constructor
  · intro hle
    have hfits := (fits_tomlFields c).2 hle
    refine ⟨_, if_pos hfits, ?_⟩
    rw [ofToml, parse_toml hfits, Option.bind_some, read_tomlMembers]
    exact checked_some c
  · intro hlt
    have hfits : ¬ c.tomlFields.all (·.2.fits) = true := fun h => by
      obtain ⟨hi, hc⟩ := (fits_tomlFields c).1 h
      rw [Toml.integerMax] at hi hc
      omega
    exact ⟨_, if_neg hfits⟩

/-- A configuration that is valid, one that is not, and one that has no text. -/
theorem ofToml_toToml_default :
    (∃ t, default.toToml = .ok t ∧ ofToml t = .ok default) ∧
      (∃ t, { default with telemetryInterval := 0 }.toToml = .ok t ∧
        ofToml t = .error (.invalid Fault.interval.message)) ∧
      ∃ e, { default with triggerCapacity := 2 ^ 63 }.toToml = .error e := by
  obtain ⟨t, ht, hvalid, -⟩ := (ofToml_toToml default).1 (by decide)
  obtain ⟨u, hu, -, hinvalid⟩ :=
    (ofToml_toToml { default with telemetryInterval := 0 }).1 (by decide)
  exact ⟨⟨t, ht, hvalid rfl⟩, ⟨u, hu, hinvalid _ rfl⟩,
    (ofToml_toToml { default with triggerCapacity := 2 ^ 63 }).2 (.inr (by decide +kernel))⟩

end Config

end TunnelSession

/-
  The records are read back from their JSON texts.

  FORMS.  A record is an object with its fields in any order, or the array of their values in the
  declared one (`Json.RecordForm`); the settings of a configuration have their own form.  Either way
  each field finds its own value (`Json.RecordForm.slots_eq`).

  FIELDS.  Every value is written in the form that its reader takes, and none of them is `null` but
  the one for "not given".

  TEXTS.  So whatever text spells a form of the record gives the record back, the one that is
  printed among them (`records_of_json`); a configuration is then checked.
-/
import TunnelSession.Proofs.Configurations
import TunnelSession.Proofs.Spellings
import TunnelSession.Server

namespace TunnelSession

/-! ## Forms -/

namespace Json

variable {names : List String} {values : List Json} {doc : Json}

/-- An object that gives the names their values, in any order, or the array of the values. -/
inductive RecordForm (names : List String) (values : List Json) : Json → Prop
  | object {ms : List (String × Json)} (h : ms.Perm (names.zip values)) :
    RecordForm names values (.record ms)
  | array : RecordForm names values (.array values)

/-- An object that was written with names has them all. -/
theorem namedMembers_record (ms : List (String × Json)) :
    namedMembers (ms.map fun m => (some m.1, m.2)) = some ms := by
  unfold namedMembers
  induction ms with
  | nil => rfl
  | cons m ms ih =>
    rw [List.map_cons, List.mapM_cons, ih]
    rfl

/-- Every field finds its own value, in an object by its name and in an array by its place. -/
theorem RecordForm.slots_eq (h : RecordForm names values doc) (hn : names.Nodup)
    (hl : names.length = values.length) : Datum.slots names doc = some (values.map some) := by
  cases h with
  | @object ms h =>
    -- the members are those of the fields in some order
    have hfst : (names.zip values).map (·.1) = names := List.map_fst_zip (Nat.le_of_eq hl)
    have hsnd : (names.zip values).map (·.2) = values := List.map_snd_zip (Nat.le_of_eq hl.symm)
    have hnodup : (ms.map (·.1)).Nodup := (h.map (·.1)).nodup_iff.2 (hfst.symm ▸ hn)
    have hslots := Datum.mapM_slot hnodup (l := names.zip values) fun m hm => h.mem_iff.2 hm
    have hvalues : (names.zip values).map (fun m => some m.2) = values.map some := by
      rw [← hsnd, List.map_map]
      simp [hsnd]
    rw [hfst, hvalues] at hslots
    unfold Datum.slots
    rw [show Datum.shape (Json.record ms) = (namedMembers _).map Datum.Shape.named from rfl,
      namedMembers_record]
    exact hslots
  | array =>
    unfold Datum.slots
    show (if (false || decide (values.length ≤ names.length)) = true then _ else _) = _
    simp [hl]

/-- A record of plain values is a plain document. -/
theorem RecordForm.isPlain (h : RecordForm names values doc) (hv : ∀ v ∈ values, IsPlain v) :
    IsPlain doc := by
  cases h with
  | object h => exact .record fun m hm => hv _ (List.of_mem_zip (h.mem_iff.1 hm)).2
  | array => exact .array hv

/-! ## Values -/

theorem isPlain_list {α : Type} {f : α → Json} (h : ∀ a, IsPlain (f a)) (l : List α) :
    IsPlain (.list f l) :=
  .array fun v hv => by
    obtain ⟨a, -, rfl⟩ := List.mem_map.1 hv
    exact h a

theorem isPlain_ofOption {α : Type} {f : α → Json} (h : ∀ a, IsPlain (f a)) (o : Option α) :
    IsPlain (.ofOption f o) := by
  cases o with
  | none => exact .null
  | some a => exact h a

theorem text_text (s : String) : Datum.text (Json.text s) = some s := rfl

theorem flag_bool (b : Bool) : Datum.flag (Json.bool b) = some b := rfl

/-- A list is read back item by item. -/
theorem listOf_list {α : Type} {read : Json → Option α} {write : α → Json}
    (h : ∀ a, read (write a) = some a) (l : List α) :
    Datum.listOf read (Json.list write l) = some l := by
  show (l.map write).mapM read = some l
  induction l with
  | nil => rfl
  | cons a l ih =>
    rw [List.map_cons, List.mapM_cons, h, ih]
    rfl

/-- What may be missing is read back, given or not. -/
theorem optional_ofOption {α : Type} {read : Json → Option α} {write : α → Json}
    (h : ∀ a, read (write a) = some a) (hn : ∀ a, Datum.isEmpty (write a) = false)
    (o : Option α) : Datum.optional read (some (Json.ofOption write o)) = some o := by
  cases o with
  | none => rfl
  | some a =>
    show (if Datum.isEmpty (write a) = true then _ else (read (write a)).map some) = _
    rw [hn, if_neg Bool.false_ne_true, h]
    rfl

/-- A natural number is read back where it is below the bound. -/
theorem below_nat {n bound : Nat} (h : n < bound) : Datum.below bound (Json.nat n) = some n := by
  have hn : Datum.natural (Json.nat n) = some n := congrArg some Nat.ofDigitChars_ten_toDigits
  rw [Datum.below, hn]
  exact if_pos h

theorem byte_nat (b : UInt8) : Datum.byte (Json.nat b.toNat) = some b := by
  rw [Datum.byte, below_nat b.toNat_lt, Option.map_some, UInt8.ofNat_toNat]

theorem word32_nat (w : UInt32) : Datum.word32 (Json.nat w.toNat) = some w := by
  rw [Datum.word32, below_nat w.toNat_lt, Option.map_some, UInt32.ofNat_toNat]

theorem word64_nat (w : UInt64) : Datum.word64 (Json.nat w.toNat) = some w := by
  rw [Datum.word64, below_nat w.toNat_lt, Option.map_some, UInt64.ofNat_toNat]

/-- A protocol is read back from its name. -/
theorem protocol_text (p : Protocol) : Protocol.read (Json.text p.name) = some p :=
  Protocol.ofName?_name p

theorem texts_list (l : List String) : Datum.listOf Datum.text (Json.list .text l) = some l :=
  listOf_list text_text l

/-- A set of names is read back from its names in their order. -/
theorem names_list (s : Text.NameSet) : Settings.readNames (Settings.namesJson s) = some s := by
  rw [Settings.readNames, Settings.namesJson, texts_list, Option.map_some,
    Text.NameSet.ofList_toList]

/-- A list of addresses is read back from their texts. -/
theorem addresses_list (l : List Address) :
    Settings.readAddresses (Settings.addressesJson l) = some l :=
  listOf_list (fun a => Address.parse_print a) l

end Json

/-! ## Records -/

open Json (RecordForm IsPlain)

namespace Server

theorem read_form {s : Server} {doc : Json} (h : RecordForm fieldNames s.fieldValues doc) :
    read doc = some s := by
  have hlatency := Json.optional_ofOption Json.word32_nat (fun _ => rfl) s.latency
  unfold read
  rw [h.slots_eq (by decide) rfl]
  simp [fieldValues, Datum.required, Datum.orElse, Json.text_text, Json.byte_nat, hlatency,
    Json.texts_list, Json.protocol_text]

theorem isPlain_fieldValues (s : Server) : ∀ v ∈ s.fieldValues, IsPlain v := by
  have hlatency := Json.isPlain_ofOption (fun l : UInt32 => IsPlain.nat l.toNat) s.latency
  have hfeatures := Json.isPlain_list .text s.features
  simp [fieldValues, IsPlain.text, IsPlain.nat, hlatency, hfeatures]

end Server

namespace Settings

theorem isPlain_namesJson (s : Text.NameSet) : IsPlain (namesJson s) := Json.isPlain_list .text _

theorem isPlain_addressesJson (l : List Address) : IsPlain (addressesJson l) :=
  Json.isPlain_list (fun _ => .text _) l

theorem read_form {s : Settings} {doc : Json} (h : RecordForm fieldNames s.fieldValues doc) :
    read doc = some s := by
  unfold read
  rw [h.slots_eq nodup_fieldNames rfl]
  simp [fieldValues, Datum.orElse, Json.flag_bool, Json.protocol_text, Json.names_list,
    Json.addresses_list]

theorem isPlain_fieldValues (s : Settings) : ∀ v ∈ s.fieldValues, IsPlain v := by
  simp [fieldValues, IsPlain.bool, IsPlain.text, isPlain_namesJson, isPlain_addressesJson]

end Settings

namespace Patch

theorem read_form {p : Patch} {doc : Json}
    (h : RecordForm Settings.fieldNames p.fieldValues doc) : read doc = some p := by
  have hflag := Json.optional_ofOption Json.flag_bool fun _ => rfl
  have hprotocol := Json.optional_ofOption Json.protocol_text (fun _ => rfl) p.protocol
  have hnames := Json.optional_ofOption Json.names_list (fun _ => rfl) p.excludedApps
  have haddresses := Json.optional_ofOption Json.addresses_list (fun _ => rfl) p.dnsServers
  unfold read
  rw [h.slots_eq Settings.nodup_fieldNames rfl]
  simp [fieldValues, hflag, hprotocol, hnames, haddresses]

theorem isPlain_fieldValues (p : Patch) : ∀ v ∈ p.fieldValues, IsPlain v := by
  have hflag := Json.isPlain_ofOption IsPlain.bool
  have hprotocol := Json.isPlain_ofOption (fun q : Protocol => .text q.name) p.protocol
  have hnames := Json.isPlain_ofOption Settings.isPlain_namesJson p.excludedApps
  have haddresses := Json.isPlain_ofOption Settings.isPlain_addressesJson p.dnsServers
  simp [fieldValues, hflag, hprotocol, hnames, haddresses]

end Patch

namespace Config

/-- A configuration, with its settings in one of their forms. -/
inductive IsForm (c : Config) (doc : Json) : Prop
  | mk {settings : Json} (hs : RecordForm Settings.fieldNames c.settings.fieldValues settings)
    (h : RecordForm fieldNames [.nat c.telemetryInterval.toNat, .nat c.triggerCapacity.toNat,
      .text c.versionFallback, .text c.logLevel, settings] doc)

/-- A configuration is read back from any of its forms. -/
theorem IsForm.read_eq {c : Config} {doc : Json} (h : IsForm c doc) : read doc = some c := by
  obtain ⟨hs, h⟩ := h
  unfold read
  rw [h.slots_eq nodup_fieldNames rfl]
  simp [Datum.orElse, Json.word64_nat, Json.text_text, Settings.read_form hs]

/-- All forms of a configuration are plain documents. -/
theorem IsForm.isPlain {c : Config} {doc : Json} (h : IsForm c doc) : IsPlain doc := by
  obtain ⟨hs, h⟩ := h
  have hsettings := hs.isPlain c.settings.isPlain_fieldValues
  exact h.isPlain (by simp [IsPlain.text, IsPlain.nat, hsettings])

/-- The document that is printed is a form of the configuration. -/
theorem isForm_toJson (c : Config) : IsForm c c.toJson :=
  .mk (.object (.refl _)) (.object (.refl _))

theorem isForm_fieldValues (c : Config) : IsForm c (.array c.fieldValues) :=
  .mk (.object (.refl _)) .array

/-- Any text of any form of a configuration is read as that configuration, and then checked:
spelling and form are settled by the two theorems it rests on. -/
theorem IsForm.ofJson_eq {c : Config} {doc : Json} (h : IsForm c doc) {t : String}
    (ht : doc.SpelledBy t) : ofJson t = checked (some c) := by
  rw [ofJson, Json.parse_of_spelledBy ht, Option.bind_some, h.read_eq]

end Config

/-! ## Texts -/

/-- Reading any text of any form of a record gives the record back. -/
def ReadsBack {α : Type} (read : Json → Option α) (a : α) (form : Json → Prop) : Prop :=
  ∀ doc, form doc → ∀ t, doc.SpelledBy t → (Json.parse t).bind read = some a

section ReadsBack

variable {α : Type} {read : Json → Option α} {a : α} {names : List String} {values : List Json}

/-- A record that is read back from its forms is read back from their texts. -/
theorem readsBack (h : ∀ {doc}, RecordForm names values doc → read doc = some a) :
    ReadsBack read a (RecordForm names values) := fun doc hdoc t ht => by
  rw [Json.parse_of_spelledBy ht, Option.bind_some, h hdoc]

/-- What is printed is among the texts. -/
theorem ReadsBack.printed (h : ReadsBack read a (RecordForm names values))
    (hv : ∀ v ∈ values, IsPlain v) :
    (Json.parse (Json.record (names.zip values)).print).bind read = some a ∧
      (Json.parse (Json.array values).print).bind read = some a ∧
      ReadsBack read a (RecordForm names values) :=
  have hprint : ∀ {doc}, RecordForm names values doc → (Json.parse doc.print).bind read = some a :=
    fun hdoc => h _ hdoc _ (Json.spelledBy_print (hdoc.isPlain hv))
  ⟨hprint (.object (.refl _)), hprint .array, h⟩

end ReadsBack

/-- A server, settings, a patch and a configuration are read back from the object that is written
for them, from the array of their fields, and from every other text of these, with blanks between
the tokens, characters escaped in any way, and members in any order.  A configuration is then
checked: what is read is the configuration if it is valid, else what is wrong with it. -/
theorem records_of_json :
    (∀ s : Server, (Json.parse s.toJson.print).bind Server.read = some s ∧
      (Json.parse (Json.array s.fieldValues).print).bind Server.read = some s ∧
      ReadsBack Server.read s (RecordForm Server.fieldNames s.fieldValues)) ∧
    (∀ s : Settings, (Json.parse s.toJson.print).bind Settings.read = some s ∧
      (Json.parse (Json.array s.fieldValues).print).bind Settings.read = some s ∧
      ReadsBack Settings.read s (RecordForm Settings.fieldNames s.fieldValues)) ∧
    (∀ p : Patch, (Json.parse p.toJson.print).bind Patch.read = some p ∧
      (Json.parse (Json.array p.fieldValues).print).bind Patch.read = some p ∧
      ReadsBack Patch.read p (RecordForm Settings.fieldNames p.fieldValues)) ∧
    ∀ c : Config, Config.ofJson c.toJson.print = Config.checked (some c) ∧
      Config.ofJson (Json.array c.fieldValues).print = Config.checked (some c) ∧
      (∀ doc, c.IsForm doc → ∀ t, doc.SpelledBy t → Config.ofJson t = Config.checked (some c)) ∧
      (c.validate = .ok () → Config.checked (some c) = .ok c) ∧
      ∀ e, c.validate = .error e → Config.checked (some c) = .error e := by
  refine ⟨fun s => (readsBack Server.read_form).printed s.isPlain_fieldValues,
    fun s => (readsBack Settings.read_form).printed s.isPlain_fieldValues,
    fun p => (readsBack Patch.read_form).printed p.isPlain_fieldValues, fun c => ?_⟩
  exact ⟨c.isForm_toJson.ofJson_eq (Json.spelledBy_print c.isForm_toJson.isPlain),
    c.isForm_fieldValues.ofJson_eq (Json.spelledBy_print c.isForm_fieldValues.isPlain),
    fun doc hdoc t => hdoc.ofJson_eq, c.checked_some⟩

/-- The array of a patch, with blanks, and a character that is written as its two units; and a
configuration that is not valid. -/
theorem records_of_json_pair :
    let p : Patch := { Patch.empty with excludedApps := some (.ofList ["😀"]) }
    let t := "[null,null,null,null,[ \"\\ud83D\\ude00\" ],null,null,null]"
    (Json.array p.fieldValues).SpelledBy t ∧ (Json.parse t).bind Patch.read = some p ∧
      Config.ofJson { Config.default with triggerCapacity := 0 }.toJson.print =
        .error (.invalid Config.Fault.capacity.message) := by
  intro p t
  have hnull : Json.Spells (.padded .null) ['n', 'u', 'l', 'l'] := Json.Spells.null.tight
  have hgap : Json.IsGap [' '] := by simp [Json.IsGap]
  have hunits : '😀'.toNat = 0x10000 + 0x3d * 0x400 + 0x200 := rfl
  have hpair : Json.SpellsChar '😀'
      ['\\', 'u', 'd', '8', '3', 'D', '\\', 'u', 'd', 'e', '0', '0'] :=
    .pair hunits (by decide) (by decide) (.mk (by decide) .lower .lower .lower .upper)
      (.mk (by decide) .lower .lower .lower .lower)
  have happs : Json.Spells (.value (Settings.namesJson (.ofList ["😀"]))) _ :=
    .array (.lastItem (.padded hgap (.text (.cons hpair .nil)) hgap))
  have h : Json.Spells (.value (.array p.fieldValues)) _ :=
    .array (.item hnull (.item hnull (.item hnull (.item hnull
      (.item happs.tight (.item hnull (.item hnull (.lastItem hnull))))))))
  have ht : (Json.array p.fieldValues).SpelledBy t :=
    Eq.mp (congrArg (Json.Spells _) (by decide +kernel)) h.tight
  exact ⟨ht, (records_of_json.2.2.1 p).2.2 _ .array _ ht, (records_of_json.2.2.2 _).1.trans rfl⟩

end TunnelSession

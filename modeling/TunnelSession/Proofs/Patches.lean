/-
  Patches over settings, field by field.

  FIELDS.  Settings and patches declare the same eight fields (`Settings.Field`).  Settings are
  known by what stands in each of them (`Settings.ext_get`), and a patch by what it gives for each
  (`Patch.ext_given`).

  ONE PATCH.  In every field stands afterwards what the patch gives for it, or else what stood there
  (`Patch.get_apply`); no field looks at another.  That is all that the laws need.

  MANY.  So the last patch that gives something for a field decides it (`Patch.get_foldl_apply`), a
  patch does nothing more the second time, and two patches may change places exactly if they agree
  about the fields that both give (`Patch.apply_comm_iff`).  Only the empty patch changes no
  settings at all: one that gives something cannot leave both the defaults and their contrary as
  they are (`Patch.isEmpty_iff_apply`).
-/
import TunnelSession.Settings

namespace TunnelSession

open Text (NameSet)

namespace Settings

/-- The fields of settings, and of patches. -/
inductive Field where
  | killSwitch
  | autoConnect
  | protocol
  | splitTunneling
  | excludedApps
  | dnsServers
  | startMinimized
  | showNotifications

/-- What can stand in a field. -/
def Field.Value : Field → Type
  | .killSwitch | .autoConnect | .splitTunneling | .startMinimized | .showNotifications => Bool
  | .protocol => Protocol
  | .excludedApps => NameSet
  | .dnsServers => List Address

/-- What stands in a field. -/
def get (s : Settings) : (f : Field) → f.Value
  | .killSwitch => s.killSwitch
  | .autoConnect => s.autoConnect
  | .protocol => s.protocol
  | .splitTunneling => s.splitTunneling
  | .excludedApps => s.excludedApps
  | .dnsServers => s.dnsServers
  | .startMinimized => s.startMinimized
  | .showNotifications => s.showNotifications

/-- Settings with the same in every field are the same. -/
theorem ext_get {s s' : Settings} (h : ∀ f, s.get f = s'.get f) : s = s' := by
  cases s
  cases s'
  rw [mk.injEq]
  exact ⟨h .killSwitch, h .autoConnect, h .protocol, h .splitTunneling, h .excludedApps,
    h .dnsServers, h .startMinimized, h .showNotifications⟩

/-- Settings that have the default in no field. -/
def contrary : Settings where
  killSwitch := false
  autoConnect := true
  protocol := .stealth
  splitTunneling := true
  excludedApps := .ofList ["app"]
  dnsServers := []
  startMinimized := true
  showNotifications := false

theorem get_contrary_ne (f : Field) : contrary.get f ≠ default.get f := by
  cases f with
  | killSwitch | showNotifications => exact Bool.false_ne_true
  | autoConnect | splitTunneling | startMinimized => exact Bool.false_ne_true.symm
  | protocol => exact (nofun : Protocol.stealth ≠ .wireguard)
  | excludedApps => exact (by decide : NameSet.ofList ["app"] ≠ .empty)
  | dnsServers => exact (List.cons_ne_nil _ _).symm

end Settings

namespace Patch

open Settings (Field)

variable {p q : Patch}

/-- What a patch gives for a field. -/
def given? (p : Patch) : (f : Field) → Option f.Value
  | .killSwitch => p.killSwitch
  | .autoConnect => p.autoConnect
  | .protocol => p.protocol
  | .splitTunneling => p.splitTunneling
  | .excludedApps => p.excludedApps
  | .dnsServers => p.dnsServers
  | .startMinimized => p.startMinimized
  | .showNotifications => p.showNotifications

/-- Patches that give the same for every field are the same. -/
theorem ext_given (h : ∀ f, p.given? f = q.given? f) : p = q := by
  cases p
  cases q
  rw [mk.injEq]
  exact ⟨h .killSwitch, h .autoConnect, h .protocol, h .splitTunneling, h .excludedApps,
    h .dnsServers, h .startMinimized, h .showNotifications⟩

theorem given?_empty (f : Field) : empty.given? f = none := by
  cases f <;> rfl

/-- In every field stands what the patch gives for it, or else what stood there. -/
theorem get_apply (p : Patch) (s : Settings) (f : Field) :
    (p.apply s).get f = (p.given? f).getD (s.get f) := by
  cases f <;> rfl

/-- In every field stands what the last patch gave that gave anything for it. -/
theorem get_foldl_apply (ps : List Patch) (s : Settings) (f : Field) :
    (ps.foldl (fun s p => p.apply s) s).get f =
      (ps.filterMap (·.given? f)).getLast?.getD (s.get f) := by
  induction ps generalizing s with
  | nil => rfl
  | cons p ps ih =>
    rw [List.foldl_cons, ih, get_apply, List.filterMap_cons]
    cases p.given? f with
    | none => rfl
    | some v =>
      rw [List.getLast?_cons]
      rfl

theorem apply_apply_self (p : Patch) (s : Settings) : p.apply (p.apply s) = p.apply s := by
  refine Settings.ext_get fun f => ?_
  rw [get_apply, get_apply]
  cases p.given? f <;> rfl

/-- Two patches change places exactly if they give the same wherever both give something. Settings
are known by their fields, so it is enough to compare field by field. -/
theorem apply_comm_iff :
    (∀ s, p.apply (q.apply s) = q.apply (p.apply s)) ↔
      ∀ f, p.given? f = none ∨ q.given? f = none ∨ p.given? f = q.given? f := by
  -- field by field, since settings are known by their fields
  have hfield : ∀ s, p.apply (q.apply s) = q.apply (p.apply s) ↔
      ∀ f, (p.given? f).getD ((q.given? f).getD (s.get f)) =
        (q.given? f).getD ((p.given? f).getD (s.get f)) := by
    intro s
    simp only [← get_apply]
    exact ⟨fun h f => congrArg (·.get f) h, Settings.ext_get⟩
  simp only [hfield]
  constructor
  · intro h f
    -- what both give must be the same, whatever stood there
    have hf := h .default f
    cases hp : p.given? f with
    | none => exact .inl rfl
    | some v =>
      cases hq : q.given? f with
      | none => exact .inr (.inl rfl)
      | some w =>
        rw [hp, hq] at hf
        exact .inr (.inr (congrArg some hf))
  · intro h s f
    rcases h f with hp | hq | hpq
    · rw [hp]
      rfl
    · rw [hq]
      rfl
    · rw [hpq]

/-- The empty patch is the one that changes nothing. -/
theorem isEmpty_iff_apply : p.isEmpty = true ↔ ∀ s, p.apply s = s := by
  unfold isEmpty
  rw [beq_iff_eq]
  constructor
  · rintro rfl
    exact apply_empty
  · intro h
    refine ext_given fun f => ?_
    rw [given?_empty]
    have hkeep : ∀ s : Settings, (p.given? f).getD (s.get f) = s.get f := fun s => by
      rw [← get_apply, h s]
    cases hp : p.given? f with
    | none => rfl
    | some v =>
      -- the value would have to stand in both
      rw [hp] at hkeep
      exact absurd ((hkeep .contrary).symm.trans (hkeep .default)) (Settings.get_contrary_ne f)

/-- After any patches, applied in order, in each field of the settings stands the value that the
last patch gives that gives any for it, and what stood there at first if none does.  A patch that
is applied twice in a row does what it does once.  Patches that give no field in common may be
applied in either order.  A patch is empty exactly if it changes no settings. -/
theorem apply_field_by_field :
    (∀ (ps : List Patch) (s : Settings) (f : Field),
      (ps.foldl (fun s p => p.apply s) s).get f =
        (ps.filterMap (·.given? f)).getLast?.getD (s.get f)) ∧
    (∀ (p : Patch) (s : Settings), p.apply (p.apply s) = p.apply s) ∧
    (∀ p q : Patch, (∀ f, p.given? f = none ∨ q.given? f = none) →
      ∀ s, p.apply (q.apply s) = q.apply (p.apply s)) ∧
    ∀ p : Patch, p.isEmpty = true ↔ ∀ s, p.apply s = s := by
  refine ⟨get_foldl_apply, apply_apply_self, fun p q h => ?_, fun p => isEmpty_iff_apply⟩
  exact apply_comm_iff.2 fun f => (h f).imp_right .inl

/-- Name servers that are given twice, the second time an empty list, and the kill switch, which no
other patch touches. -/
theorem apply_field_by_field_replaced :
    let p : Patch := { empty with dnsServers := some [.v4 ⟨8, 8, 8, 8⟩], protocol := some .stealth }
    let q : Patch := { empty with dnsServers := some [] }
    let r : Patch := { empty with killSwitch := some false }
    let after := [p, q, r].foldl (fun (s : Settings) (p : Patch) => p.apply s) .default
    after.dnsServers = [] ∧ after.protocol = .stealth ∧
      (∀ f, q.given? f = none ∨ r.given? f = none) ∧
      q.apply (r.apply .default) = r.apply (q.apply .default) := by
  intro p q r after
  have happart : ∀ f, q.given? f = none ∨ r.given? f = none := by
    intro f
    cases f with
    | killSwitch => exact .inl rfl
    | _ => exact .inr rfl
  exact ⟨apply_field_by_field.1 [p, q, r] .default .dnsServers,
    apply_field_by_field.1 [p, q, r] .default .protocol, happart,
    apply_field_by_field.2.2.1 q r happart .default⟩

end Patch

end TunnelSession

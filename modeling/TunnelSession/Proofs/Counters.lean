/-
  The statistics that are shown.

  METER.  The backend counts on a tunnel at every look that it answers, whoever asked and whatever
  becomes of the answer; a new tunnel starts at zero.  `Uptime.of` reads off the deals of a run when
  the tunnel came up and when its looks were answered, and `Uptime.meter` is what they add up to.

  SHOWN.  An answer is kept if the connection is up when it comes, which is the instant it is made.
  Leaving a connection behind clears what is shown, and nothing is kept until the next tunnel is up.
  So what is shown is the meter of the last look at this tunnel (`Core.Metered`): no answer is lost,
  none counts twice, and none of an earlier tunnel is left.
-/
import Mathlib.Data.List.Induction
import TunnelSession.Proofs.Talk

namespace TunnelSession

/-- The time of a tunnel: when it came up, and when looks at it were answered. -/
structure Uptime where
  since : Nat
  looks : List Nat
  deriving DecidableEq

namespace Uptime

/-- What a deal does to the time of the tunnel. -/
def next (up : Option Uptime) : Deal → Option Uptime
  | .answered .connect now (.ok _) => some ⟨now, []⟩
  | .answered .quickConnect now (.ok _) => some ⟨now, []⟩
  | .answered .disconnect _ (.ok _) => none
  | .answered .getStats now (.ok _) => up.map fun u => { u with looks := u.looks ++ [now] }
  | _ => up

/-- The time of the tunnel that is up after some deals, if one is. -/
def of (δ : List Deal) : Option Uptime := δ.foldl next none

/-- What the last look found: bytes received, bytes sent, and whole seconds since the tunnel came
up. -/
def found (up : Uptime) : Option (Nat × Nat × Nat) :=
  up.looks.getLast?.map fun last =>
    (262144 * up.looks.length, 32768 * up.looks.length, (last - up.since) / 1000)

/-- The numbers of the tunnel. -/
def meter (up : Uptime) : Nat × Nat × Nat :=
  (up.since, 262144 * up.looks.length, 32768 * up.looks.length)

theorem of_snoc (δ : List Deal) (d : Deal) : of (δ ++ [d]) = next (of δ) d := by
  simp [of]

theorem next_error (up : Option Uptime) (op : Operation) (now : Nat) (e : BackendError) :
    next up (.answered op now (.error e)) = up := by
  cases op <;> rfl

end Uptime

/-- The numbers of a tunnel that looks advance. -/
def Tunnel.meter (t : Tunnel) : Nat × Nat × Nat := (t.since, t.bytesIn, t.bytesOut)

/-- The numbers of statistics that count. -/
def Stats.found (s : Stats) : Nat × Nat × Nat := (s.bytesIn, s.bytesOut, s.durationSecs)

namespace Backend

variable {α : Type} {b : Backend} {up : Option Uptime}

/-- The tunnel has the numbers that the deals add up to. -/
def Meters (b : Backend) (up : Option Uptime) : Prop :=
  b.tunnel.map Tunnel.meter = up.map Uptime.meter

/-- A look advances the numbers of the tunnel. -/
theorem meter_look {t : Tunnel} {u : Uptime} (h : t.meter = u.meter) (now : Nat) :
    (look t now).2.meter = ({ u with looks := u.looks ++ [now] } : Uptime).meter ∧
      some (look t now).1.found = ({ u with looks := u.looks ++ [now] } : Uptime).found := by
  obtain ⟨hs, hin, hout⟩ : t.since = u.since ∧ t.bytesIn = 262144 * u.looks.length ∧
      t.bytesOut = 32768 * u.looks.length := by
    simpa [Tunnel.meter, Uptime.meter] using h
  unfold look Tunnel.meter Uptime.meter Stats.found Uptime.found bytesInPerLook bytesOutPerLook
  dsimp only
  rw [hs, hin, hout, List.getLast?_concat, List.length_append]
  simp [Nat.mul_add]

/-- A look that is answered found what the deals add up to. -/
theorem Meters.answer_stats (h : b.Meters up) {now : Nat} {stats : Stats}
    (ha : (b.answer now .stats).1 = .ok stats) :
    ∃ u, up = some u ∧
      some stats.found = ({ u with looks := u.looks ++ [now] } : Uptime).found := by
  unfold answer perform at ha
  dsimp only at ha
  split at ha
  · cases ha
  · split at ha
    · rename_i t ht
      cases ha
      unfold Meters at h
      rw [ht] at h
      obtain ⟨u, rfl, hu⟩ := Option.map_eq_some_iff.1 h.symm
      exact ⟨u, rfl, (meter_look hu.symm now).2⟩
    · cases ha

/-- An answer changes the numbers of the tunnel as its deal says: a new tunnel starts at zero, a
disconnect takes it away, and a look advances it. -/
theorem Meters.answer (h : b.Meters up) (now : Nat) (ask : Ask α) :
    (b.answer now ask).2.Meters
      (Uptime.next up (.answered ask.operation now ((b.answer now ask).1.map fun _ => ()))) := by
  unfold Backend.answer
  split
  · rw [show (Except.error _ : Except BackendError α).map (fun _ => ()) = .error _ from rfl,
      Uptime.next_error]
    exact h
  · cases ask with
    | connect | quickConnect =>
      -- a new tunnel starts at zero, if there is a server to go to
      unfold perform
      dsimp only
      split
      · exact rfl
      · exact h
    -- and with the tunnel its numbers go
    | disconnect => exact rfl
    | servers | save | version => exact h
    | toggle flag => cases flag <;> exact h
    | stats =>
      -- the only call that advances the numbers of a tunnel
      unfold perform
      dsimp only
      cases ht : b.tunnel with
      | none => exact h
      | some t =>
        unfold Meters at h ⊢
        rw [ht] at h
        obtain ⟨u, rfl, hu⟩ := Option.map_eq_some_iff.1 h.symm
        exact congrArg some (meter_look hu.symm now).1

end Backend

namespace Scene

open Backend

variable {α : Type} {writer : Bool} {s s' : Scene} {δ ε : List Deal}

/-- What is shown is what the last look at the tunnel found. -/
structure Metered (δ : List Deal) (s : Scene) : Prop where
  meters : s.backend.Meters (Uptime.of δ)
  absent : s.session.state ≠ .connected → s.session.stats = none
  shown : s.session.state = .connected →
    ∃ up, Uptime.of δ = some up ∧ s.session.stats.map Stats.found = up.found

/-- Nothing is shown while the connection is not up. -/
theorem metered_down (h : s.backend.Meters (Uptime.of δ)) (hs : s.session.state ≠ .connected)
    (hn : s.session.stats = none) : Metered δ s :=
  ⟨h, fun _ => hn, fun he => absurd he hs⟩

/-- Deals that are no answers, and changes of anything else, keep what is shown. -/
theorem Metered.same (h : Metered δ s) (hu : Uptime.of (δ ++ ε) = Uptime.of δ)
    (hb : s'.backend.tunnel = s.backend.tunnel) (hs : s'.session.state = s.session.state)
    (hn : s'.session.stats = s.session.stats) : Metered (δ ++ ε) s' where
  meters := by
    unfold Meters
    rw [hb, hu]
    exact h.meters
  absent := by
    rw [hs, hn]
    exact h.absent
  shown := by
    rw [hs, hn, hu]
    exact h.shown

/-- An answer is taken in. A failure leaves the uptime as it was, a tunnel starts a new one, and
statistics add a look to the one there is, which is what they show. -/
theorem Metered.answered (h : Metered δ s) (ask : Ask α)
    (hl : ask.operation.isLifecycle = true → s.session.state ≠ .connected) :
    Metered (δ ++ [.answered ask.operation s.now ((s.backend.answer s.now ask).1.map fun _ => ())])
      ({ s with backend := (s.backend.answer s.now ask).2 }.commit ask
        (s.backend.answer s.now ask).1) := by
  have hm := h.meters.answer s.now ask
  have hstats : ∀ stats, (s.backend.answer s.now .stats).1 = .ok stats → ∃ u,
      Uptime.of δ = some u ∧
        some stats.found = ({ u with looks := u.looks ++ [s.now] } : Uptime).found :=
    fun stats => h.meters.answer_stats
  rw [← Uptime.of_snoc] at hm
  -- a connect or a disconnect finds nothing shown
  have hnone : ask.operation.isLifecycle = true → s.session.stats = none :=
    fun hk => h.absent (hl hk)
  generalize (s.backend.answer s.now ask).2 = b at hm
  cases ha : (s.backend.answer s.now ask).1 with
  | error e =>
    rw [ha] at hm
    -- a failure makes no tunnel and is no look
    have hup : Uptime.of (δ ++ [.answered ask.operation s.now (.error e)]) = Uptime.of δ := by
      rw [Uptime.of_snoc, Uptime.next_error]
    have hkeep : Metered (δ ++ [.answered ask.operation s.now (.error e)])
        { s with backend := b } := ⟨hm, h.absent, by rw [hup]; exact h.shown⟩
    cases ask with
    | connect | quickConnect | disconnect => exact metered_down hm nofun (hnone rfl)
    | servers | save | toggle | stats | version => exact hkeep
  | ok a =>
    rw [ha] at hm
    cases ask with
    | connect | quickConnect =>
      -- a tunnel was made now: its uptime begins, and nothing is shown of it yet
      refine ⟨hm, fun hne => absurd rfl hne, fun _ => ⟨⟨s.now, []⟩, Uptime.of_snoc _ _, ?_⟩⟩
      show s.session.stats.map Stats.found = none
      rw [hnone rfl]
      rfl
    | disconnect => exact metered_down hm nofun rfl
    | servers | save | version => exact ⟨hm, h.absent, by rw [Uptime.of_snoc]; exact h.shown⟩
    | toggle flag =>
      refine ⟨hm, h.absent, ?_⟩
      rw [Uptime.of_snoc]
      cases flag <;> exact h.shown
    | stats =>
      obtain ⟨u, hu, hf⟩ := hstats a ha
      have hup : Uptime.of (δ ++ [.answered .getStats s.now (.ok ())]) =
          some { u with looks := u.looks ++ [s.now] } := by
        rw [Uptime.of_snoc, hu]
        rfl
      -- statistics are shown only while the connection is up
      by_cases hc : s.session.state = .connected
      · have hk : Ask.stats.commit (.ok a) s.session = { s.session with stats := some a } :=
          if_pos (by simp [ConnectionState.isConnected, hc])
        unfold commit
        rw [hk]
        exact ⟨hm, fun hne => absurd hc hne, fun _ => ⟨_, hup, hf⟩⟩
      · have hk : Ask.stats.commit (.ok a) s.session = s.session :=
          if_neg (by simp [ConnectionState.isConnected, hc])
        unfold commit
        rw [hk]
        exact metered_down hm hc (h.absent hc)

/-- Every exchange keeps that. -/
theorem Metered.exchange (h : Metered δ s) (hx : Exchange writer s ε s') : Metered (δ ++ ε) s' := by
  cases hx with
  | called op => exact h.same (Uptime.of_snoc δ _) rfl rfl rfl
  | answered ask hl _ => exact h.answered ask hl
  | dropped op => exact h.same (Uptime.of_snoc δ _) rfl rfl rfl
  | depart state hs =>
    rw [List.append_nil]
    exact metered_down h.meters hs rfl
  | favorites | writes | changing =>
    exact h.same (congrArg _ (List.append_nil δ)) rfl rfl rfl

/-- What happens before anybody has a turn shows nothing else. -/
theorem Metered.nudge (h : Metered δ s) (hn : Nudge s s') : Metered δ s' := by
  rw [← List.append_nil δ]
  have hδ : Uptime.of (δ ++ []) = Uptime.of δ := congrArg _ (List.append_nil δ)
  cases hn <;> exact h.same hδ rfl rfl rfl

end Scene

/-- What is shown, throughout every run. -/
theorem Client.metered_after (config : Config) (servers : List Server) (latency : Nat)
    (version : String) (events : List Event) :
    let start := fresh config servers latency version
    (start.after events).core.scene.Metered (start.deals events) := by
  intro start
  have hb := Backend.prompt_make servers latency version
  induction events using List.reverseRecOn with
  | nil => exact Scene.metered_down rfl nofun rfl
  | append_singleton events e ih =>
    obtain ⟨s, hn, ht⟩ := talk_happen (sound_after (sound_make config hb) events)
      (mirrors_after config hb events).1 e
    rw [after_append, deals_snoc]
    exact ht.induct (fun _ _ _ _ h hx => h.exchange hx) _ (ih.nudge hn)

/-- At any point of any run, statistics are shown only while the connection is up; and then they
are what the last look at this tunnel found that the backend answered, with every such look counted
once: nothing if there was none yet, and otherwise the bytes of all of them and the whole seconds
from the tunnel's coming up to the last of them. -/
theorem counters_after (config : Config) (servers : List Server) (latency : Nat) (version : String)
    (events : List Event) :
    let start := Client.fresh config servers latency version
    let session := (start.after events).session
    (session.stats ≠ none → session.state = .connected) ∧
      (session.state = .connected → ∃ up, Uptime.of (start.deals events) = some up ∧
        session.stats.map Stats.found = up.found) := by
  have h := Client.metered_after config servers latency version events
  refine ⟨fun hn => ?_, h.shown⟩
  by_contra hs
  exact hn (h.absent hs)

/-- Two looks at the second tunnel, after one at the first. -/
theorem counters_after_reconnect :
    let start := Client.fresh Config.default [Server.make "x" "" "" "" ""] 0 "1"
    let events : List Event := [.call (.connect "x"), .pass 700, .call .reconnect, .pass 1500,
      .call .fetchStats]
    (start.after events).session.state = .connected ∧
      (start.after events).session.stats.map Stats.found = some (524288, 65536, 1) := by
  -- of any run whose deals come to these looks
  have hany : ∀ events,
      ((Client.fresh Config.default [Server.make "x" "" "" "" ""] 0 "1").after
        events).session.state = .connected →
      Uptime.of ((Client.fresh Config.default [Server.make "x" "" "" "" ""] 0 "1").deals events) =
        some ⟨700, [700, 2200]⟩ →
      ((Client.fresh Config.default [Server.make "x" "" "" "" ""] 0 "1").after
        events).session.stats.map Stats.found = some (524288, 65536, 1) := by
    intro events hs hup
    obtain ⟨up, hup', hf⟩ := (counters_after Config.default [Server.make "x" "" "" "" ""] 0 "1"
      events).2 hs
    rw [hup] at hup'
    cases hup'
    exact hf
  exact ⟨by decide +kernel, hany _ (by decide +kernel) (by decide +kernel)⟩

end TunnelSession

/-
  The state moves along a graph.

  CHART.  A run makes the changes of the state that its records list, one from where the one before
  it left (`Charted`), and nothing else changes the state: the published state is the state at every
  point between two polls, and it was published as often as there were changes.

  LAW.  Every change is one that `ConnectionState.leads` allows, made in the work on a request, by
  the task that carries it out and has the connection (`Record.Lawful`).  No write looks at the old
  state.  What it can be follows from the invariants: who has the connection never finds a
  disconnect half done (`StageInvariant`), and a connect that was superseded owes the state to a
  disconnect (`Settling`).  So a connect that begins while the state is still `connecting` or
  `reconnecting` finds that of a connect that was cancelled.
-/
import TunnelSession.Proofs.Rounds
import TunnelSession.Proofs.Settling

namespace TunnelSession

/-- Every change of the state is made in the work on a request, by the task that carries it out and
has the connection, along the graph.  One connect follows another without settling the state only
if the earlier one was cancelled. -/
def Record.Lawful (past : List Record) (w : Client) (x : Record) : Prop :=
  ∀ s ∈ x.changes, ∃ l, x.act = .leg l ∧ w.Carries s.task l.source ∧ s.holder = some s.task ∧
    s.old.leads s.new = true ∧
    (s.old.isDialing = true → s.new.isDialing = true → ∃ pre m post,
      LastChange (past.map Record.act) pre m post ∧ m.session'.state = s.old ∧
      CancelledIn m.source post)

/-- A lawful change stays lawful: later points only know more of who carries out the requests of a
bridge. -/
theorem Record.Lawful.mono {past : List Record} {v v' : Client} {x : Record}
    (h : x.Lawful past v) (hc : ∀ t s, v.Carries t s → v'.Carries t s) : x.Lawful past v' := by
  intro s hs
  obtain ⟨l, hl, hcarries, hrest⟩ := h s hs
  exact ⟨l, hl, hc _ _ hcarries, hrest⟩

theorem ConnectionState.isTransitioning_of_isDialing {s : ConnectionState}
    (h : s.isDialing = true) : s.isTransitioning = true := by
  revert h
  cases s <;> decide

/-- How the graph leads into `connected` and `disconnected`, and out of `disconnecting`. -/
theorem ConnectionState.doors_of_leads {old new : ConnectionState} (h : old.leads new = true) :
    (new = .connected → old = .connecting ∨ old = .reconnecting) ∧
      (new = .disconnected → old = .disconnecting) ∧
      (old = .disconnecting → new ≠ .connecting ∧ new ≠ .reconnecting) := by
  revert h
  cases old <;> cases new <;> decide

/-- Requests change nothing. -/
theorem LastChange.requests {τ pre post more : List Act} {l : Leg} (h : LastChange τ pre l post)
    (hn : ∀ m, .leg m ∉ more) : LastChange (τ ++ more) pre l (post ++ more) where
  split := by rw [h.split, List.append_assoc, List.cons_append]
  changes := h.changes
  idle m hm := by
    rcases List.mem_append.1 hm with hm | hm
    · exact h.idle m hm
    · exact absurd hm (hn m)

namespace Client

open TunnelSession.Core

variable {v v' : Client} {t : TaskId} {past ρ : List Record} {s : Source}

/-- The task of a bridge is the one that its crew names, whatever else the crew says. -/
theorem carries_bridge (v : Client) (t : TaskId) (b : BridgeId) :
    v.Carries t (.bridge b) ↔ (v.core.crew b).map Prod.fst = some t := by
  unfold Carries crew
  rw [Option.map_map]
  exact .rfl

/-- A task that carries out the requests of a source goes on to: steps keep who a bridge has. -/
theorem Carries.steps {acts : List Act} (h : v.Carries t s) (hs : Steps v.core acts v'.core) :
    v'.Carries t s := by
  cases s with
  | call => exact h
  | bridge b =>
    rw [carries_bridge] at h ⊢
    exact (hs.worker b).trans h

/-- An event from outside never hands the requests of a source over: a call stays with its task, and
a bridge with its worker. -/
theorem Carries.outside {e : Event} (h : v.Carries t s)
    (ho : v'.core = v.core ∨ Outside v.core e v'.core) : v'.Carries t s := by
  cases s with
  | call => exact h
  | bridge b =>
    rw [carries_bridge] at h ⊢
    rcases ho with ho | ho
    · rwa [ho]
    · exact ho.worker h

/-- What is known of the changes of the state. -/
structure Charted (past : List Record) (v : Client) : Prop where
  settling : Settling (past.map Record.act) v.core
  published : v.published = v.session.state
  version : v.version = (changesIn past).length
  chain : StateChange.Chain .disconnected (changesIn past) v.session.state
  lawful : ∀ pre x post, past = pre ++ x :: post → x.Lawful pre v

/-- Nothing happens to the state. -/
theorem Charted.silent (h : Charted past v) (hs : Settling (past.map Record.act) v'.core)
    (hp : v'.published = v'.session.state) (hv : v'.version = v.version)
    (hst : v'.session.state = v.session.state) (hc : ∀ t s, v.Carries t s → v'.Carries t s) :
    Charted past v' where
  settling := hs
  published := hp
  version := hv.trans h.version
  chain := by
    rw [hst]
    exact h.chain
  lawful pre x post he := (h.lawful pre x post he).mono hc

/-- A connect that begins finds a state of a request that runs only if that request was cancelled:
it made the last change, and its work has come to `cancelled` since. -/
theorem Charted.cancelled (h : Charted past v) (hv : v.Fit) (hb : TurnPart t v ρ v')
    {pre : List Record}
    {x : Record} {l : Leg} (hρ : ρ = pre ++ [x]) (hl : x.act = .leg l)
    (hpre : ∀ y ∈ pre, ∀ m, y.act ≠ .leg m) {s : StateChange} (hs : s ∈ x.changes)
    (ho : s.old.isDialing = true) (hn : s.new.isDialing = true) :
    ∃ mid m post, LastChange ((past ++ pre).map Record.act) mid m post ∧
      m.session'.state = s.old ∧ CancelledIn m.source post := by
  have hx : x ∈ ρ := by
    rw [hρ]
    exact List.mem_append_right _ (.head _)
  have hfit := hb.fits x hx
  have hrun := ConnectionState.isTransitioning_of_isDialing hn
  have hchanges : changesIn ρ = x.changes := by
    rw [hρ, changesIn_append, changesIn_of_fits (fun y hy => hb.fits y ?_) hpre]
    · exact List.append_nil _
    · rw [hρ]
      exact List.mem_append_left _ hy
  obtain ⟨w, w', ready, bridges, k, k', rfl, rfl, -, -, -, -, -, heffects⟩ := hb.connEffects
  rw [hchanges] at heffects
  -- the change is the first one of the work, so it leaves the state as the work finds it
  have hold : s.old = w.session.state := by
    have hchain := heffects.chain
    cases hσ : x.changes with
    | nil =>
      rw [hσ] at hs
      cases hs
    | cons s' σ =>
      rw [hσ] at hs hchain
      rcases List.mem_cons.1 hs with rfl | hs
      · exact hchain.1
      · have hsettle := (hfit.changesFit l hl).first s (by rw [hσ]; exact hs)
        rw [hrun] at hsettle
        cases hsettle
  obtain ⟨mid, m, post, y, hlast, hstate, -, hbetween, hdebt⟩ := h.settling.indebted (by
    show w.session.state.isTransitioning = true
    rw [← hold]
    exact ConnectionState.isTransitioning_of_isDialing ho)
  have hreq : ∀ m, .leg m ∉ pre.map Record.act := by
    intro m hm
    obtain ⟨y, hy, he⟩ := List.mem_map.1 hm
    exact hpre y hy m he
  rw [List.map_append]
  refine ⟨mid, m, post ++ pre.map Record.act, hlast.requests hreq, hstate.trans hold.symm, ?_⟩
  cases hdebt with
  | left hc => exact hc.append _
  | own hstand =>
    -- its request would still have the connection, so the work would be on it and settle the state
    exfalso
    obtain ⟨u, -, hu⟩ := carries_of_standing hv.sound
      ((h.settling.accounts.ledger.standing m.source).trans hstand)
    have hh := h.settling.sampled.orderly.active u y hu hbetween.isActive
    have hut : u = t := by
      by_contra hne
      obtain ⟨hnil, -⟩ := heffects.barred hh hne
      rw [hnil] at hs
      cases hs
    subst hut
    have hstart : l.start = some y := ((hb.isOn x hx).stage hv.sound hl).symm.trans hu
    have hsettle := hfit.settle l y hl hstart hbetween.isActive s hs
    rw [hrun] at hsettle
    cases hsettle

/-- The work is done by the task that carries out the requests of its source. -/
theorem carries_of_isOn {x : Record} {l : Leg} (hv : v.core.Staffed) (h : x.IsOn v.core t)
    (hl : x.act = .leg l) : v.Carries t l.source := by
  rcases h l hl with ⟨hs, -⟩ | ⟨b, job, hs, -, hwork⟩
  · rw [hs]
    rfl
  · obtain ⟨current, ho⟩ : ∃ current, v.core.entry t = some (.worker b current) := by
      cases hstart : l.start with
      | none =>
        rw [hstart] at hwork
        exact ⟨_, hwork.1⟩
      | some a =>
        rw [hstart] at hwork
        exact ⟨_, hwork⟩
    obtain ⟨jobs, hb⟩ := hv.owner t b current ho
    rw [hs, carries_bridge, hb]
    rfl

/-- The changes that a part of a turn makes are lawful. A part without work makes none; the work
comes last, and its effects are lawful one by one. -/
theorem Charted.lawful_turnPart (h : Charted past v) (hv : v.Fit) (hb : TurnPart t v ρ v')
    {pre post : List Record} {x : Record} (hρ : ρ = pre ++ x :: post) :
    x.Lawful (past ++ pre) v' := by
  intro s hs
  have hx : x ∈ ρ := by
    rw [hρ]
    exact List.mem_append_right _ (.head _)
  have hwork : ¬ ∀ l, x.act ≠ .leg l := by
    intro hn
    rw [(hb.fits x hx).plain hn] at hs
    cases hs
  rcases hb.shape with hn | ⟨pre', x', l, hρ', hl, hpre⟩
  · exact absurd (hn x hx) hwork
  -- the work comes last
  obtain ⟨rfl, rfl⟩ : pre = pre' ∧ x = x' := by
    rcases List.eq_nil_or_concat post with rfl | ⟨post', y, rfl⟩
    · obtain ⟨h₁, h₂⟩ := List.append_inj' (hρ.symm.trans hρ') rfl
      exact ⟨h₁, List.singleton_inj.1 h₂⟩
    · have heq : (pre ++ x :: post') ++ [y] = pre' ++ [x'] := by
        rw [← hρ', hρ, List.concat_eq_append, List.append_assoc, List.cons_append]
      obtain ⟨h₁, -⟩ := List.append_inj' heq rfl
      refine absurd (hpre x ?_) hwork
      rw [← h₁]
      exact List.mem_append_right _ (.head _)
  obtain ⟨w, w', ready, bridges, k, k', -, -, -, -, -, -, -, heffects⟩ := hb.connEffects
  obtain ⟨htask, hholder, hleads⟩ := heffects.change (List.mem_flatMap.2 ⟨x, hx, hs⟩)
  have hcarries := carries_of_isOn h.settling.accounts.staffed (hb.isOn x hx) hl
  rw [htask]
  exact ⟨l, hl, hcarries.steps hb.steps, hholder, hleads, h.cancelled hv hb hρ' hl hpre hs⟩

/-- A part of a turn adds its changes to the chart: the chain goes on where it was, the published
state follows, and the version counts the changes. -/
theorem Charted.turnPart (h : Charted past v) (hv : v.Fit) (hb : TurnPart t v ρ v') :
    Charted (past ++ ρ) v' := by
  have hsettling : Settling ((past ++ ρ).map Record.act) v'.core := by
    rw [List.map_append]
    exact invariant_steps (I := Settling) (fun _ _ _ _ hc hi hs => hi.step hc hs) hv.sound
      h.settling hb.steps
  obtain ⟨w, w', ready, bridges, k, k', hw, hw', -, -, -, -, -, heffects⟩ := hb.connEffects
  obtain ⟨hpub, hver⟩ := heffects.published (by rw [hw] at h; exact h.published)
  refine ⟨hsettling, ?_, ?_, ?_, fun pre x post he => ?_⟩
  · rw [hw']
    exact hpub
  · rw [hw', changesIn_append, List.length_append, ← h.version, hw]
    exact hver
  · rw [changesIn_append]
    refine h.chain.append ?_
    rw [hw, hw']
    exact heffects.chain
  · -- a change of before was lawful already; a new one is lawful by its place in the part
    rcases List.append_eq_append_iff.1 he with ⟨a, rfl, ha⟩ | ⟨a, hp, ha⟩
    · exact h.lawful_turnPart hv hb ha
    · cases a with
      | nil =>
        -- the first change of the part, with everything before it in the past
        rw [List.append_nil] at hp
        subst hp
        have hlaw := h.lawful_turnPart hv hb (show ρ = [] ++ x :: post from ha.symm)
        rwa [List.append_nil] at hlaw
      | cons y a =>
        obtain ⟨rfl, -⟩ := List.cons.inj ha
        exact (h.lawful pre x a hp).mono fun u s hc => hc.steps hb.steps

/-- A turn of a poller changes no state, and publishes what is there. -/
theorem Charted.watch (h : Charted past v) (hv : v.Fit) (hw : Watch t v v') :
    Charted past v' := by
  obtain ⟨p, w, k, -, hl, rfl, -⟩ := hw.turn
  obtain ⟨hpub, hver⟩ := hl.published h.published
  have hsettling := invariant_steps (I := Settling) (fun _ _ _ _ hc hi hs => hi.step hc hs)
    hv.sound h.settling hw.steps
  rw [List.append_nil] at hsettling
  exact h.silent hsettling hpub hver hl.state fun u s hc => hc.steps hw.steps

/-- What happens from outside changes no state. -/
theorem Charted.outer {e : Event} (h : Charted past v) (hv : v.Fit) (ho : Outer e v v')
    (hc : v'.core = v.core ∨ Outside v.core e v'.core) : Charted past v' := by
  refine h.silent ?_ ?_ ho.version (by rw [ho.session]) fun u s hk => hk.outside hc
  · rcases hc with hc | hc
    · rw [hc]
      exact h.settling
    · exact h.settling.outside hv.sound hc
  · rw [ho.published, ho.session]
    exact h.published

theorem charted_make (config : Config) (servers : List Server) (latency : Nat) (version : String) :
    Charted [] (fresh config servers latency version) where
  settling := settling_make config _
  published := rfl
  version := rfl
  chain := rfl
  lawful pre x post he := by cases pre <;> cases he

/-- Every run is charted. -/
theorem charted_after (config : Config) (servers : List Server) (latency : Nat) (version : String)
    (events : List Event) :
    Charted ((fresh config servers latency version).records events)
      ((fresh config servers latency version).after events) :=
  (records_after (I := Charted) (P := fun _ => True) (fun _ _ _ _ _ hv h hb => h.turnPart hv hb)
    (fun _ _ _ _ hv h hw => h.watch hv hw) (fun _ _ _ _ _ hv h ho hc => h.outer hv ho hc)
    (fit_make config servers latency version) [] (charted_make config servers latency version)
    events fun _ _ => trivial).2

end Client

/-- In every run the state starts as `disconnected` and comes to what it is through the changes
that the records list.  Each is made in the work on a request, by the task that carries it out and
has the connection, and leads along the graph; one connect follows another without settling the
state only if the earlier one was cancelled.  So `connected` is entered from `connecting` or
`reconnecting` only, `disconnected` from `disconnecting` only, and `disconnecting` is never left
for another connect.  The published state is the state, and was published once for every change. -/
theorem graph_after (config : Config) (servers : List Server) (latency : Nat) (version : String)
    (events : List Event) :
    let start := Client.fresh config servers latency version
    let w := start.after events
    let ρ := start.records events
    StateChange.Chain .disconnected (changesIn ρ) w.session.state ∧
    (∀ pre x post, ρ = pre ++ x :: post → x.Lawful pre w) ∧
    (∀ s ∈ changesIn ρ, (s.new = .connected → s.old = .connecting ∨ s.old = .reconnecting) ∧
      (s.new = .disconnected → s.old = .disconnecting) ∧
      (s.old = .disconnecting → s.new ≠ .connecting ∧ s.new ≠ .reconnecting)) ∧
    w.published = w.session.state ∧ w.version = (changesIn ρ).length := by
  intro start w ρ
  have h : Client.Charted ρ w := Client.charted_after config servers latency version events
  refine ⟨h.chain, h.lawful, fun s hs => ?_, h.published, h.version⟩
  obtain ⟨x, hx, hsx⟩ := List.mem_flatMap.1 hs
  obtain ⟨pre, post, hρ⟩ := List.append_of_mem hx
  obtain ⟨-, -, -, -, hleads, -⟩ := h.lawful pre x post hρ s hsx
  exact ConnectionState.doors_of_leads hleads

end TunnelSession

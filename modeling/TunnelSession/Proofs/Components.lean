/-
  Whose step a turn is, and what becomes of favorites and servers.

  STRIDES.  A turn is a step of one component (`Client.strides`), except for that of a start whose
  servers have come: there the catalog's step ends, and one of the connection begins.  Each step
  keeps to its component's share.

  HISTORY.  So the favorites are what the toggles made of them, and the servers those of the last
  fetch that succeeded, whatever else happened in between.  Toggles and answers are read off the run
  (`Client.toggles`, `Client.answers`).
-/
import TunnelSession.Proofs.Dropping
import TunnelSession.Proofs.Shares

namespace TunnelSession

open Text (NameSet)

/-- Whose step a deed is in which nobody has a turn. -/
def Deed.component : Deed → Component
  | .event (.startPolling _) | .event .stopPolling => .telemetry
  | .event .openBridge | .event (.deactivate _) | .event (.dropSender _) | .event (.dropPages _)
  | .event (.takePages _) | .event (.send ..) => .bridge
  | _ => .reader

/-- The favorite that the task is going to toggle. -/
def Task.toggles? : Task → Option String
  | .command (.fresh (.toggleFavorite id)) => some id
  | _ => none

/-- The result, if there is one. -/
def Progress.result? {σ ρ : Type} : Progress σ ρ → Option ρ
  | .waiting _ => none
  | .done r => some r

namespace Client

variable {w w' v : Client} {t : TaskId} {d : Deed}

/-! ## Strides -/

/-- Who has a turn in a deed, and the client that it finds. -/
def turnOf (w : Client) : Deed → Option (Client × TaskId)
  | .event (.call c) => some ((w.spawn (.command (.fresh c))).2, w.tasks.length)
  | .event (.poll t) => some ({ w with ready := w.ready.erase t }, t)
  | _ => none

/-- The client when the servers were fetched, or are awaited. -/
def fetched (r : Client × Progress (Call (List Server)) (Except BackendError (List Server))) :
    Client :=
  match r with
  | (w, .waiting _) => w
  | (w, .done answer) => (w.commitCatalog answer).1

/-- The steps of a turn, each with the client after it.  A start whose servers have come goes on
with a connect in the same turn. -/
def turnStrides (w : Client) (t : TaskId) : List (Component × Client) :=
  match w.task? t with
  | some (.command (.fresh .start)) =>
    [(.catalog, fetched (w.startCall t .servers)), (.lifecycle, w.run t)]
  | some (.command (.loading true call)) =>
    [(.catalog, fetched (w.resumeCall t call)), (.lifecycle, w.run t)]
  | some task => [(task.component, w.run t)]
  | none => [(.reader, w.run t)]

/-- The steps of a deed; to give somebody the turn is no step of any component. -/
def strides (w : Client) (d : Deed) : List (Component × Client) :=
  match w.turnOf d with
  | some (v, t) => (.reader, v) :: v.turnStrides t
  | none => [(d.component, w.does d)]

/-- From `w`, each step keeps to its component's share, and the last one leads to `w'`. -/
def Strides : Client → List (Component × Client) → Client → Prop
  | w, [], w' => w' = w
  | w, (k, v) :: rest, w' => k.Keeps w v ∧ Strides v rest w'

/-- A deed in which a task has a turn is that turn, and what goes before it writes nothing. -/
theorem does_of_turnOf (h : w.turnOf d = some (v, t)) :
    w.does d = v.run t ∧ v.shared = w.shared := by
  cases d with
  | drop => cases h
  | event e =>
    cases e with
    | call | poll =>
      cases h
      exact ⟨rfl, rfl⟩
    | _ => cases h

theorem Strides.single {k : Component} (h : k.Keeps w w') : Strides w [(k, w')] w' := ⟨h, rfl⟩

/-! ### Turns -/

/-- To await the servers is the same for a fetch and for a start, up to where the command stands. -/
theorem fst_asLoad (t : TaskId)
    (r : Client × Progress (Call (List Server)) (Except BackendError (List Server))) :
    (asLoad t false r).1 = fetched r := by
  rcases r with ⟨v, call | answer⟩ <;> rfl

/-- The servers that come belong to the catalog. -/
theorem offCatalog_fetched
    {r : Client × Progress (Call (List Server)) (Except BackendError (List Server))}
    (h : r.1.shared = w.shared) : (fetched r).offCatalog = w.offCatalog := by
  rcases r with ⟨v, call | answer⟩
  · exact offCatalog_of_shared h
  · have hcommit : (v.commitCatalog answer).1.offCatalog = v.offCatalog :=
      (work_commitCatalog v 0 answer).keeps (k := .catalog)
    exact hcommit.trans (offCatalog_of_shared h)

/-- What a start does when its servers have come belongs to the connection. -/
theorem offConnection_asLoad (t : TaskId)
    (r : Client × Progress (Call (List Server)) (Except BackendError (List Server))) :
    (asLoad t true r).1.offConnection = (fetched r).offConnection := by
  rcases r with ⟨v, call | answer⟩
  · rfl
  · exact (reaches_continueStart (v.commitCatalog answer).1 t).work.keeps (k := .lifecycle)

theorem shared_startCall {α : Type} (w : Client) (t : TaskId) (ask : Ask α) :
    (w.startCall t ask).1.shared = w.shared :=
  (reaches_startCall w t ask).work.shared (List.nil_subset _)

theorem shared_resumeCall {α : Type} (w : Client) (t : TaskId) (call : Call α) :
    (w.resumeCall t call).1.shared = w.shared :=
  (reaches_resumeCall w t call).work.shared (List.nil_subset _)

/-- Writing where a command stands leaves the session alone. -/
theorem shared_runCommand (w : Client) (t : TaskId) (p : Point) :
    (w.runCommand t p).shared = (w.runPoint t p).1.shared := by
  unfold runCommand
  rcases w.runPoint t p with ⟨v, p' | r⟩ <;> rfl

/-- A run that is one step keeps to its component's share. -/
theorem keeps_runPoint (w : Client) (t : TaskId) {p : Point} (h : p.shares = p.component.shares) :
    p.component.Keeps w (w.runPoint t p).1 := by
  have hr := reaches_runPoint w t p
  rw [h] at hr
  exact hr.work.keeps

/-- A start whose turn it is: the catalog's step, and then the connection's. -/
theorem strides_start {p : Point}
    {r : Client × Progress (Call (List Server)) (Except BackendError (List Server))}
    (hp : w.runPoint t p = asLoad t true r) (hr : r.1.shared = w.shared) :
    Strides w [(.catalog, fetched r), (.lifecycle, w.runCommand t p)] (w.runCommand t p) := by
  refine ⟨offCatalog_fetched hr, .single ?_⟩
  refine (offConnection_of_shared (shared_runCommand w t p)).trans ?_
  rw [hp]
  exact offConnection_asLoad t r

/-- The turn of any other task is one step. -/
theorem shares_of_not_start {task : Task} (hstart : task ≠ .command (.fresh .start))
    (hload : ∀ call, task ≠ .command (.loading true call)) :
    task.shares = task.component.shares := by
  cases task with
  | command p =>
    -- only a start has two parts; any other command is one step of its component
    show p.shares = p.component.shares
    cases p with
    | fresh command =>
      cases command with
      | start => exact absurd rfl hstart
      | _ => rfl
    | loading starts call =>
      cases starts with
      | true => exact absurd rfl (hload call)
      | false => rfl
    | _ => rfl
  | poller | receiver | worker | ended => rfl

/-- A turn keeps to the shares of those whose steps it is made of. -/
theorem strides_run (w : Client) (t : TaskId) : Strides w (w.turnStrides t) (w.run t) := by
  unfold turnStrides
  split
  · rename_i h
    rw [show w.run t = w.runCommand t (.fresh .start) by rw [run, h]]
    exact strides_start rfl (shared_startCall w t .servers)
  · rename_i call h
    rw [show w.run t = w.runCommand t (.loading true call) by rw [run, h]]
    exact strides_start rfl (shared_resumeCall w t call)
  · -- any other task: one step
    rename_i task hstart hload h
    have hturn := turnEnds_run h
    rw [shares_of_not_start hstart hload] at hturn
    exact .single hturn.keeps
  · rename_i h
    refine .single ?_
    unfold run
    rw [h]
    rfl

/-! ### Deeds -/

theorem shared_wakeAll (w : Client) (ts : List TaskId) : (w.wakeAll ts).shared = w.shared :=
  shared_of_core (by rw [core_wakeAll]) (by rw [core_wakeAll])

theorem shared_wake (w : Client) (t : TaskId) : (w.wake t).shared = w.shared :=
  shared_wakeAll w [t]

/-- Bridges are nothing that components share. -/
theorem BridgeWrite.shared (h : BridgeWrite w b w') : w'.shared = w.shared := by
  cases h with
  | nothing | change => rfl
  | rouse => exact shared_wake _ _

/-- Who gives up writes nothing. -/
theorem shared_abort (w : Client) (t : TaskId) : (w.abort t).shared = w.shared := by
  unfold abort
  split
  · exact (work_dropPoint w t _).shared (by decide)
  · rfl

/-- A deed in which nobody has a turn writes nothing that components share: it wakes or adds tasks,
lets time pass, or changes a bridge or the poller. -/
theorem shared_does (h : w.turnOf d = none) : (w.does d).shared = w.shared := by
  cases d with
  | drop t => exact shared_abort w t
  | event e =>
    cases e with
    | call | poll => cases h
    | go c => exact shared_wake (w.spawn (.command (.fresh c))).2 _
    | pass ms => exact shared_wakeAll _ _
    | fail | pin => rfl
    | startPolling period =>
      -- a poller that is started or stopped by hand changes what tasks wait for, and no session
      have hstart : Effect 0 [.line] w (w.startPolling period) := .start (.head _) period
      exact hstart.shared (by decide)
    | stopPolling =>
      have hstop : Effect 0 [.line] w w.stopPolling := .stop (.head _)
      exact hstop.shared (by decide)
    | openBridge =>
      have h := shared_wake (w.spawn (.worker w.bridges.length none)).2 w.tasks.length
      exact (shared_wake (Client.spawn _ (.receiver w.bridges.length)).2 _).trans h
    | deactivate | dropSender | dropPages | takePages | send =>
      exact (bridgeWrite_happen w rfl).shared

/-- Every deed keeps to the shares of those whose steps it is made of. -/
theorem strides_does (w : Client) (d : Deed) : Strides w (w.strides d) (w.does d) := by
  unfold strides
  cases h : w.turnOf d with
  | some r =>
    obtain ⟨v, t⟩ := r
    obtain ⟨hrun, hs⟩ := does_of_turnOf h
    rw [hrun]
    exact ⟨hs, strides_run v t⟩
  | none =>
    refine .single ?_
    exact d.component.keeps_of_shared (shared_does h)

/-! ## History -/

/-- The answer that a command gets to its fetch of the servers when it runs. -/
def pointAnswer (w : Client) (t : TaskId) : Point → Option (Except BackendError (List Server))
  | .fresh .start | .fresh .fetchServers => (w.startCall t .servers).2.result?
  | .loading _ call => (w.resumeCall t call).2.result?
  | _ => none

/-- The answer to a fetch of the servers that comes in a turn. -/
def turnAnswer (w : Client) (t : TaskId) : Option (Except BackendError (List Server)) :=
  match w.task? t with
  | some (.command p) => w.pointAnswer t p
  | _ => none

/-- The answer to a fetch of the servers that comes in a deed. -/
def answer? (w : Client) (d : Deed) : Option (Except BackendError (List Server)) :=
  (w.turnOf d).bind fun r => r.1.turnAnswer r.2

/-- The favorite that is toggled in a deed, with the task that does it. -/
def toggled? (w : Client) (d : Deed) : Option (TaskId × String) :=
  (w.turnOf d).bind fun r => ((r.1.task? r.2).bind Task.toggles?).map (r.2, ·)

/-- The answers to fetches of the servers in a run, in order. -/
def answers (w : Client) : List Deed → List (Except BackendError (List Server))
  | [] => []
  | d :: deeds => (w.answer? d).toList ++ (w.does d).answers deeds

/-- The favorites that were toggled in a run, in order. -/
def toggles (w : Client) : List Deed → List String
  | [] => []
  | d :: deeds => ((w.toggled? d).map (·.2)).toList ++ (w.does d).toggles deeds

/-- The servers and the favorites. -/
def known (w : Client) : List Server × NameSet := (w.session.catalog, w.session.favorites)

/-- The servers after an answer. -/
def refreshed (l : List Server) : Except BackendError (List Server) → List Server
  | .ok servers => servers
  | .error _ => l

/-- The servers and the favorites after an answer and a toggle, if there are any. -/
def learn (k : List Server × NameSet) (a : Option (Except BackendError (List Server)))
    (id : Option String) : List Server × NameSet :=
  (a.elim k.1 (refreshed k.1), id.elim k.2 k.2.toggle)

theorem known_of_shared (h : w'.shared = w.shared) : w'.known = w.known :=
  congrArg (fun p : Session × KillSwitch => (p.1.catalog, p.1.favorites)) h

theorem known_of_offConnection (h : w'.offConnection = w.offConnection) : w'.known = w.known :=
  congrArg (fun p : Settings × List Server × NameSet × Bool => (p.2.1, p.2.2.1)) h

/-- Whether the catalog of servers is known is the catalog's to say: work of any other component
leaves it as it is. -/
theorem known_of_keeps {k : Component} (hk : k ≠ .catalog) (h : k.Keeps w w') :
    w'.known = w.known := by
  cases k with
  | catalog => exact absurd rfl hk
  | lifecycle | bridge | telemetry => exact known_of_offConnection h
  | settings =>
    exact congrArg (fun p : ConnectionState × Option Server × Option Stats × Recents ×
      List Server × NameSet => (p.2.2.2.2.1, p.2.2.2.2.2)) h
  | reader => exact known_of_shared h

/-- A fetch that was answered refreshes the servers. -/
theorem known_fetched
    {r : Client × Progress (Call (List Server)) (Except BackendError (List Server))}
    (h : r.1.shared = w.shared) : (fetched r).known = learn w.known r.2.result? none := by
  rcases r with ⟨v, call | answer⟩
  · exact known_of_shared h
  · have hv : v.known = w.known := known_of_shared h
    rw [← hv]
    cases answer with
    | ok servers =>
      show ((v.update fun s => { s with catalog := servers }).say _).known = _
      unfold known
      rw [show ∀ (u : Client) n, (u.say n).session = u.session from fun _ _ => rfl, session_update]
      rfl
    | error e => rfl

/-- A toggle changes the favorites, and nothing else of what is known. -/
theorem known_toggleFavorite (w : Client) (id : String) :
    (w.toggleFavorite id).1.known = learn w.known none (some id) := by
  unfold known toggleFavorite
  dsimp only
  rw [show ∀ (u : Client) n, (u.say n).session = u.session from fun _ _ => rfl, session_update]
  rfl

/-- What the run of a command does to the servers and the favorites is what its answer and its
toggle say. -/
theorem known_runPoint (w : Client) (t : TaskId) (p : Point) :
    (w.runPoint t p).1.known =
      learn w.known (w.pointAnswer t p) (Task.command p).toggles? := by
  -- a command of another component, which leaves both alone
  have hkeep : p.component ≠ .catalog → p.shares = p.component.shares →
      (w.runPoint t p).1.known = w.known := fun hp hs =>
    known_of_keeps hp (keeps_runPoint w t hs)
  cases p with
  | fresh command =>
    cases command with
    | start =>
      refine (known_of_offConnection (offConnection_asLoad t _)).trans ?_
      exact known_fetched (shared_startCall w t .servers)
    | fetchServers =>
      refine (congrArg known (fst_asLoad t _)).trans ?_
      exact known_fetched (shared_startCall w t .servers)
    | toggleFavorite id => exact known_toggleFavorite w id
    | _ => exact hkeep nofun rfl
  | loading starts call =>
    cases starts with
    | true =>
      refine (known_of_offConnection (offConnection_asLoad t _)).trans ?_
      exact known_fetched (shared_resumeCall w t call)
    | false =>
      refine (congrArg known (fst_asLoad t _)).trans ?_
      exact known_fetched (shared_resumeCall w t call)
  | _ => exact hkeep nofun rfl

/-- What a turn does to the servers and the favorites. -/
theorem known_run (w : Client) (t : TaskId) :
    (w.run t).known = learn w.known (w.turnAnswer t) ((w.task? t).bind Task.toggles?) := by
  unfold run turnAnswer
  cases h : w.task? t with
  | none => rfl
  | some task =>
    have hturn := turnEnds_run h
    unfold run at hturn
    rw [h] at hturn
    cases task with
    | command p => exact (known_of_shared (shared_runCommand w t p)).trans (known_runPoint w t p)
    | poller p => exact known_of_offConnection (hturn.keeps (k := .telemetry))
    | receiver b | worker b current => exact known_of_offConnection (hturn.keeps (k := .bridge))
    | ended how => rfl

/-- What a deed does to them. -/
theorem known_does (w : Client) (d : Deed) :
    (w.does d).known = learn w.known (w.answer? d) ((w.toggled? d).map (·.2)) := by
  unfold answer? toggled?
  cases h : w.turnOf d with
  | none => exact known_of_shared (shared_does h)
  | some r =>
    obtain ⟨hrun, hs⟩ := does_of_turnOf h
    have hid : ∀ o : Option String, (o.map (r.2, ·)).map (·.2) = o := fun o => by
      cases o <;> rfl
    rw [hrun, known_run, known_of_shared hs, Option.bind_some, Option.bind_some, hid]

/-- The servers are refreshed by every answer, and by nothing else. -/
theorem catalog_doing (w : Client) (deeds : List Deed) :
    (w.doing deeds).session.catalog = (w.answers deeds).foldl refreshed w.session.catalog := by
  induction deeds generalizing w with
  | nil => rfl
  | cons d deeds ih =>
    have hd : (w.does d).session.catalog = _ := congrArg Prod.fst (known_does w d)
    have hrest : (w.doing (d :: deeds)).session.catalog = _ := ih (w.does d)
    rw [hrest, hd, answers, List.foldl_append]
    cases w.answer? d <;> rfl

/-- The favorites are changed by every toggle, and by nothing else. -/
theorem favorites_doing (w : Client) (deeds : List Deed) :
    (w.doing deeds).session.favorites =
      (w.toggles deeds).foldl NameSet.toggle w.session.favorites := by
  induction deeds generalizing w with
  | nil => rfl
  | cons d deeds ih =>
    have hd : (w.does d).session.favorites = _ := congrArg Prod.snd (known_does w d)
    have hrest : (w.doing (d :: deeds)).session.favorites = _ := ih (w.does d)
    rw [hrest, hd, toggles, List.foldl_append]
    cases (w.toggled? d).map (·.2) <;> rfl

/-- A toggle replies whether the favorite is one now: it is told in the very turn. -/
theorem reply_of_toggled? {id : String} (h : w.toggled? d = some (t, id)) :
    (w.does d).task? t = some
      (.ended (.replied (.truth (decide (id ∈ (w.does d).session.favorites))))) := by
  obtain ⟨⟨v, u⟩, hv, h⟩ := Option.bind_eq_some_iff.1 h
  obtain ⟨id', hid, he⟩ := Option.map_eq_some_iff.1 h
  cases he
  obtain ⟨task, htask, htog⟩ := Option.bind_eq_some_iff.1 hid
  -- only a toggle that runs for the first time toggles
  have hfresh : task = .command (.fresh (.toggleFavorite id)) := by
    unfold Task.toggles? at htog
    split at htog <;> cases htog
    rfl
  subst hfresh
  have hrun : v.run u = (v.toggleFavorite id).1.setTask u
      (.ended (.replied (.truth (v.toggleFavorite id).2))) := by
    rw [run, htask]
    rfl
  have hlt : u < (v.toggleFavorite id).1.core.size := by
    show u < ((v.update _).say _).core.size
    rw [core_say, core_update]
    exact (List.getElem?_eq_some_iff.1 htask).1
  rw [(does_of_turnOf hv).1, hrun, task?_setTask _ _ _ hlt, if_pos rfl]
  rfl

end Client

/-! ## Parity and the last answer -/

namespace Text

/-- A name that was toggled an odd number of times has changed sides. -/
theorem NameSet.mem_foldl_toggle (s : NameSet) (l : List String) (x : String) :
    x ∈ l.foldl NameSet.toggle s ↔ if l.count x % 2 = 1 then ¬ x ∈ s else x ∈ s := by
  induction l generalizing s with
  | nil => simp
  | cons y l ih =>
    rw [List.foldl_cons, ih, List.count_cons, mem_toggle]
    by_cases hy : y = x
    · subst hy
      rcases Nat.mod_two_eq_zero_or_one (l.count y) with h | h <;> simp [Nat.add_mod, h]
    · have hcount : (l.count x + if (y == x) = true then 1 else 0) = l.count x := by simp [hy]
      rw [hcount, if_neg (Ne.symm hy)]

end Text

/-- The last list that came, if one did. -/
theorem foldl_refreshed (l : List Server) (as : List (Except BackendError (List Server))) :
    as.foldl Client.refreshed l = (as.filterMap Except.toOption).getLast?.getD l := by
  induction as generalizing l with
  | nil => rfl
  | cons a as ih =>
    rw [List.foldl_cons, ih]
    cases a with
    | error e => rfl
    | ok servers =>
      show _ = (servers :: as.filterMap Except.toOption).getLast?.getD l
      cases as.filterMap Except.toOption with
      | nil => rfl
      | cons s more => rw [List.getLast?_cons_cons, List.getLast?_cons]; rfl

open Client in
/-- Every step keeps to its component's share; so a name is a favorite if it was toggled an odd
number of times, which each toggle replied, and the servers are those of the last fetch that
succeeded. -/
theorem shares_doing (config : Config) (servers : List Server) (latency : Nat) (version : String)
    (deeds : List Deed) :
    let start := Client.fresh config servers latency version
    let w := start.doing deeds
    (∀ d, Strides w (w.strides d) (w.does d)) ∧
    (∀ id, id ∈ w.session.favorites ↔ (start.toggles deeds).count id % 2 = 1) ∧
    (∀ d t id, w.toggled? d = some (t, id) → (w.does d).task? t = some
      (.ended (.replied (.truth (decide (id ∈ (w.does d).session.favorites)))))) ∧
    w.session.catalog = ((start.answers deeds).filterMap Except.toOption).getLast?.getD [] := by
  intro start w
  -- the favorites start empty, and every toggle changes the sides of its name
  refine ⟨strides_does w, fun id => ?_, fun d t id => reply_of_toggled?, ?_⟩
  · have hnone : ¬ id ∈ start.session.favorites := List.not_mem_nil
    rw [favorites_doing, NameSet.mem_foldl_toggle, iff_false_intro hnone]
    split <;> simp [*]
  · rw [catalog_doing, foldl_refreshed]
    rfl

/-- The second toggle of a name replies that it is no favorite any more, while a fetch is under
way. -/
theorem shares_doing_toggled :
    let start := Client.fresh Config.default [] 5 "1"
    let w := start.doing [.event (.call .fetchServers), .event (.call (.toggleFavorite "a"))]
    (w.does (.event (.call (.toggleFavorite "a")))).task? 2 =
      some (.ended (.replied (.truth false))) :=
  (shares_doing Config.default [] 5 "1"
    [.event (.call .fetchServers), .event (.call (.toggleFavorite "a"))]).2.2.1
      (.event (.call (.toggleFavorite "a"))) 2 "a" rfl

end TunnelSession

/-
  The recently used servers.

  LIST.  After any pushes the list holds the first five distinct ids of the pushes read backwards
  (`latest`).  An id beyond the fifth place is forgotten, and would not have come back either: a
  push takes one id at most out of the places before it (`take_filter_take`).

  COMMITS.  A connect commits its server in the stretch of work in which it gets its tunnel
  (`Leg.commit?`): it then waits for the first statistics, or is through at once.  Nothing else
  pushes an id (`Leg.Remembers`).

  RUNS.  So the recently used servers are those of the commits of the run, whatever failed, was
  superseded or was given up in between.
-/
import Mathlib.Data.Finset.Card
import Mathlib.Data.List.Dedup
import TunnelSession.Proofs.Attempts
import TunnelSession.Proofs.Dropping

namespace TunnelSession

/-! ## The first distinct members of a list -/

section Distinct

variable {α : Type} [DecidableEq α]

/-- It does not matter whether members are taken out before or after the repetitions. -/
theorem eraseDups_filter (p : α → Bool) (l : List α) :
    (l.filter p).eraseDups = l.eraseDups.filter p := by
  -- the induction is on the length, as the rest is filtered before it is looked at again
  induction hn : l.length using Nat.strongRecOn generalizing l with
  | _ n ih =>
    cases l with
    | nil => rfl
    | cons a l =>
      have hrest := ih _ (hn ▸ Nat.lt_succ_of_le (List.length_filter_le _ l))
        (l.filter fun b => !b == a) rfl
      rw [List.eraseDups_cons, List.filter_cons, List.filter_cons, ← hrest]
      by_cases ha : p a = true
      · rw [if_pos ha, if_pos ha, List.eraseDups_cons, List.filter_filter, List.filter_filter]
        simp only [Bool.and_comm]
      · -- what is taken out holds no `a`
        rw [if_neg ha, if_neg ha, List.filter_filter]
        congr 1
        refine List.filter_congr fun b _ => ?_
        by_cases hb : b = a
        · subst hb
          simp [ha]
        · simp [hb]

/-- A list without its repetitions has none. -/
theorem nodup_eraseDups (l : List α) : l.eraseDups.Nodup := by
  induction hn : l.length using Nat.strongRecOn generalizing l with
  | _ n ih =>
    cases l with
    | nil => exact .nil
    | cons a l =>
      rw [List.eraseDups_cons, List.nodup_cons, List.mem_eraseDups, List.mem_filter]
      exact ⟨by simp, ih _ (hn ▸ Nat.lt_succ_of_le (List.length_filter_le _ l)) _ rfl⟩

/-- Taking one member out of a list without repetitions moves the others one place at most. -/
theorem take_filter_take {l : List α} (h : l.Nodup) (n : Nat) (a : α) :
    ((l.take (n + 1)).filter (· ≠ a)).take n = (l.filter (· ≠ a)).take n := by
  have hsplit : l.filter (· ≠ a) =
      (l.take (n + 1)).filter (· ≠ a) ++ (l.drop (n + 1)).filter (· ≠ a) := by
    rw [← List.filter_append, List.take_append_drop]
  rw [hsplit]
  rcases Nat.lt_or_ge n l.length with hl | hl
  · -- there are more than `n`: of the first `n + 1` at least `n` are left, and the rest does not
    -- matter
    refine (List.take_append_of_le_length ?_).symm
    have hone : (l.take (n + 1)).erase a = (l.take (n + 1)).filter (· ≠ a) :=
      ((h.sublist (List.take_sublist _ _)).erase_eq_filter a).trans
        (List.filter_congr fun b _ => by simp [bne, beq_eq_decide])
    have hlen := List.length_erase (a := a) (l := l.take (n + 1))
    rw [hone, List.length_take, Nat.min_eq_left hl] at hlen
    rw [hlen]
    split <;> omega
  · -- there is no rest
    rw [List.drop_eq_nil_of_le (by omega), List.filter_nil, List.append_nil]

end Distinct

namespace Recents

/-- The first five distinct ids of a history read backwards. -/
def latest (ids : List String) : List String := ids.reverse.eraseDups.take 5

/-- Push ids, one after the other. -/
def pushAll (r : Recents) (ids : List String) : Recents := ids.foldl push r

/-- A push puts its id first, takes it out of the places behind, and forgets what is then beyond the
fifth. -/
theorem latest_concat (ids : List String) (id : String) :
    latest (ids ++ [id]) = (id :: (latest ids).filter (· ≠ id)).take 5 := by
  have hne : (fun other : String => !other == id) = fun other => decide (other ≠ id) := by
    funext other
    simp [beq_eq_decide]
  unfold latest
  rw [List.reverse_concat, List.eraseDups_cons, hne, eraseDups_filter, List.take_succ_cons,
    List.take_succ_cons, take_filter_take (nodup_eraseDups _)]

theorem ids_pushAll (ids : List String) : (empty.pushAll ids).ids = latest ids := by
  induction ids using List.reverseRecOn with
  | nil => rfl
  | append_singleton ids id ih =>
    rw [pushAll, List.foldl_concat, latest_concat, ← ih]
    rfl

theorem pushAll_append (r : Recents) (ids more : List String) :
    r.pushAll (ids ++ more) = (r.pushAll ids).pushAll more :=
  List.foldl_append

theorem nodup_latest (ids : List String) : (latest ids).Nodup :=
  (nodup_eraseDups _).sublist (List.take_sublist _ _)

/-- There are as many distinct ids in a history as members without repetitions. -/
theorem card_eq_length_eraseDups (ids : List String) :
    ids.toFinset.card = ids.reverse.eraseDups.length := by
  rw [← List.toFinset_card_of_nodup (nodup_eraseDups _)]
  congr 1
  ext id
  simp

theorem latest_eq_take (ids : List String) :
    latest ids = ids.reverse.eraseDups.take (min 5 ids.toFinset.card) := by
  rw [card_eq_length_eraseDups, ← List.take_eq_take_min]
  rfl

/-- There are five latest ids, or as many as there are distinct ids. -/
theorem length_latest (ids : List String) :
    (latest ids).length = min 5 ids.toFinset.card := by
  rw [card_eq_length_eraseDups]
  exact List.length_take

end Recents

/-! ## Commits -/

/-- The server that a request has its tunnel to, if it is a connect and got so far. -/
def Progress.arrived? : Progress Lifecycle Settled → Option Server
  | .waiting (.sampling _ server _) | .done (.ok (some server)) => some server
  | _ => none

/-- The server that a connect commits in a stretch of work: it has its tunnel now, and had none
before. -/
def Leg.commit? (l : Leg) : Option Server :=
  match l.start with
  | some (.sampling ..) => none
  | _ => l.result.arrived?

/-- The server that is committed in an act. -/
def Act.commit? : Act → Option Server
  | .leg l => l.commit?
  | _ => none

/-- The ids of the servers that are committed, in order. -/
def committed (acts : List Act) : List String := (acts.filterMap Act.commit?).map (·.id)

/-- A stretch of work pushes the id of the server that it commits, and pushes nothing else. -/
structure Leg.Remembers (l : Leg) : Prop where
  recents : l.session'.recents = l.session.recents.pushAll (committed [.leg l])
  /-- What is committed is connected. -/
  connected : ∀ server, l.commit? = some server →
    l.session'.state = .connected ∧ l.session'.server = some server
  /-- Nothing that was committed fails, or is committed again. -/
  settled : ∀ ticket server call, l.start = some (.sampling ticket server call) →
    l.commit? = none ∧ l.result.arrived? = some server

namespace Core

variable {t : TaskId} {c c' : Core} {p : Progress Lifecycle Settled} {a : Lifecycle} {s : Source}

/-- A connect that has its tunnel keeps it, and is through with the recently used servers. -/
theorem Travel.arrived (h : Travel t c p c') {ticket : Nat} {server : Server} {call : Call Stats}
    (hs : c.stage t = some (.sampling ticket server call)) :
    p.arrived? = some server ∧ c'.session.recents = c.session.recents ∧
      c'.session.state = c.session.state ∧ c'.session.server = c.session.server := by
  -- the induction is on the moves; a connect with a tunnel only looks at the statistics and settles
  induction h generalizing ticket server call with
  | stay hk =>
    cases hk.symm.trans hs
    exact ⟨rfl, rfl, rfl, rfl⟩
  | settle h =>
    cases h with
    | arrive _ hk =>
      cases hk.symm.trans hs
      exact ⟨rfl, rfl, rfl, rfl⟩
    | drop hk | noServer hk | abort hk | refuse hk | close hk | fail hk => cases hk.symm.trans hs
  | move h _ ih =>
    cases h with
    | look _ hl =>
      have hsame := hl.sameLink
      obtain ⟨hp, hr, hst, hv⟩ := ih ((congrFun hl.stage_eq t).trans hs)
      exact ⟨hp, hr.trans hsame.recents, hst.trans hsame.state, hv.trans hsame.server⟩
    | dial hk | connect hk | hangUp hk => cases hk.symm.trans hs

/-- Moves that do not begin with a tunnel: whoever gets one pushes its server, and is then shown as
connected to it. The induction is on the moves. -/
theorem Travel.remembers (h : Travel t c p c') (ha : c.stage t = some a)
    (hn : ∀ ticket server call, a ≠ .sampling ticket server call) :
    c'.session.recents = c.session.recents.pushAll (p.arrived?.toList.map (·.id)) ∧
      ∀ server, p.arrived? = some server →
        c'.session.state = .connected ∧ c'.session.server = some server := by
  -- the induction is on the moves, from a stage without a tunnel
  induction h generalizing a with
  | @stay _ l hk =>
    cases hk.symm.trans ha
    cases l with
    | sampling => exact absurd rfl (hn _ _ _)
    | queued | dialing | leaving | hangingUp => exact ⟨rfl, nofun⟩
  | settle h =>
    cases h with
    | arrive _ hk =>
      cases hk.symm.trans ha
      exact absurd rfl (hn _ _ _)
    | drop | noServer | abort | refuse | close | fail => exact ⟨rfl, nofun⟩
  | move h ht ih =>
    cases h with
    | dial | hangUp => exact ih (put_stage_self _ _ _) nofun
    | @connect ticket ask due server b =>
      -- the move that gets the tunnel: from here on nothing more is pushed
      obtain ⟨hp, hr, hst, hv⟩ := ht.arrived (put_stage_self _ _ _)
      rw [hp]
      refine ⟨hr, fun server' he => ?_⟩
      cases he
      exact ⟨hst, hv⟩
    | look hk =>
      cases hk.symm.trans ha
      exact absurd rfl (hn _ _ _)

/-- Every stretch of work pushes what it commits. -/
theorem Stretch.remembers {start : Start} (h : Stretch t c start p c') :
    (c.leg c' s start.stage? p).Remembers := by
  cases h with
  | refuse => exact ⟨rfl, nofun, nofun⟩
  | connect _ _ ht | disconnect _ ht =>
    obtain ⟨hr, hc⟩ := ht.remembers (put_stage_self _ _ _) fun _ _ _ he => by cases he
    exact ⟨hr, hc, fun _ _ _ he => by cases he⟩
  | @resume l _ _ hs ht =>
    cases l with
    | sampling ticket server call =>
      -- the tunnel was committed in an earlier stretch
      obtain ⟨hp, hr, -⟩ := ht.arrived hs
      refine ⟨hr, nofun, fun _ _ _ he => ?_⟩
      cases he
      exact ⟨rfl, hp⟩
    | queued | dialing | leaving | hangingUp =>
      obtain ⟨hr, hc⟩ := ht.remembers hs fun _ _ _ he => by cases he
      exact ⟨hr, hc, fun _ _ _ he => by cases he⟩

end Core

/-- The recently used servers after acts know what these committed, and knew the others before. -/
structure Remembered (r : Recents) (acts : List Act) (r' : Recents) : Prop where
  recents : r' = r.pushAll (committed acts)
  legs : ∀ l, Act.leg l ∈ acts → l.Remembers

theorem Remembered.nil (r : Recents) : Remembered r [] r where
  recents := rfl
  legs _ hl := nomatch hl

theorem Remembered.trans {r r₁ r' : Recents} {acts more : List Act} (h : Remembered r acts r₁)
    (h' : Remembered r₁ more r') : Remembered r (acts ++ more) r' where
  recents := by
    unfold committed
    rw [h'.recents, h.recents, List.filterMap_append, List.map_append, Recents.pushAll_append]
    rfl
  legs l hl := (List.mem_append.1 hl).elim (h.legs l) (h'.legs l)

/-- Who only asks has done nothing yet. -/
theorem remembered_ask (r : Recents) {act : Act} (hn : act.commit? = none)
    (hl : ∀ l, act ≠ .leg l) : Remembered r [act] r where
  recents := by
    unfold committed
    rw [List.filterMap_cons_none hn]
    rfl
  legs l hm := absurd (List.mem_singleton.1 hm).symm (hl l)

/-- One stretch of work is done. -/
theorem Leg.Remembers.remembered {l : Leg} (h : l.Remembers) :
    Remembered l.session.recents [.leg l] l.session'.recents where
  recents := h.recents
  legs k hk := by
    cases List.mem_singleton.1 hk
    exact h

namespace Core

variable {c c' : Core} {acts : List Act}

/-- Every step of a run. -/
theorem Step.remembered (h : Step c acts c') :
    Remembered c.session.recents acts c'.session.recents := by
  cases h with
  | aside h => exact h.sameLink.recents ▸ .nil _
  | turn | retire => exact .nil _
  | takeAsk | takeLeave => exact remembered_ask _ rfl fun _ he => by cases he
  | ask _ _ hs | leave _ hs =>
    -- a request is issued first, which pushes nothing, and then worked on
    exact (remembered_ask _ rfl fun _ he => by cases he).trans
      (Leg.Remembers.remembered (hs.remembers (s := .call _)))
  | resume _ _ hs => exact (hs.remembers (s := .call _)).remembered
  | carry _ hs => exact (hs.remembers (s := .bridge _)).remembered
  | @begin _ b _ job _ _ _ _ _ _ hs =>
    have h := hs.remembers (s := .bridge b)
    rw [Job.stage?_start] at h
    exact h.remembered

theorem Steps.remembered (h : Steps c acts c') :
    Remembered c.session.recents acts c'.session.recents := by
  induction h with
  | refl => exact .nil _
  | head h _ ih => exact h.remembered.trans ih

theorem Drop.recents_eq {t : TaskId} (h : Drop t c c') :
    c'.session.recents = c.session.recents := by
  cases h <;> rfl

end Core

/-! ## Runs -/

namespace Client

open TunnelSession.Core

variable {w : Client}

/-- The acts of a deed; who gives up does nothing for the connection. -/
def deedActs (w : Client) : Deed → List Act
  | .event e => w.acts e
  | .drop _ => []

/-- The acts of a run whose callers may give up, in order. -/
def history (w : Client) : List Deed → List Act
  | [] => []
  | d :: deeds => w.deedActs d ++ (w.does d).history deeds

/-- Every deed. -/
theorem remembered_does (hs : w.core.Sound) (hm : w.core.Mirrors) (d : Deed) :
    Remembered w.session.recents (w.deedActs d) (w.does d).session.recents := by
  cases d with
  | event e =>
    obtain ⟨c, hc, hsteps⟩ := steps_happen hs e
    -- the change from outside pushes nothing, and then come the steps
    have hmid : c.session.recents = w.session.recents := by
      rcases hc with rfl | hout
      · rfl
      · exact hout.sameLink.recents
    exact hmid ▸ hsteps.remembered
  | drop t =>
    have hkeep : (w.abort t).core.session.recents = w.session.recents := by
      rcases core_abort hs hm.orderly t with ⟨h, -⟩ | h
      · rw [h]
        rfl
      · exact h.recents_eq
    show Remembered _ [] (w.abort t).core.session.recents
    rw [hkeep]
    exact .nil _

/-- The run itself. -/
theorem remembered_doing (hs : w.core.Sound) (hm : w.core.Mirrors) (deeds : List Deed) :
    Remembered w.session.recents (w.history deeds) (w.doing deeds).session.recents := by
  induction deeds generalizing w with
  | nil => exact .nil _
  | cons d deeds ih =>
    obtain ⟨hs', hm'⟩ := kept_does hs hm d
    exact (remembered_does hs hm d).trans (ih hs' hm')

end Client

/-- Who ends without a server has committed none in the end. -/
theorem Leg.Remembers.nothing {l : Leg} (h : l.Remembers)
    (hl : l.result = .done (.ok none) ∨ ∃ e, l.result = .done (.error e)) :
    l.commit? = none ∧ l.session'.recents = l.session.recents := by
  have hn : l.result.arrived? = none := by
    rcases hl with he | ⟨e, he⟩ <;> rw [he] <;> rfl
  have hc : l.commit? = none := by
    unfold commit?
    split
    · rfl
    · exact hn
  refine ⟨hc, h.recents.trans ?_⟩
  unfold committed
  rw [List.filterMap_cons_none (show (Act.leg l).commit? = none from hc)]
  rfl

/-- Pushed one by one, the ids in the list are the first five distinct ones of the pushes read
backwards.  In every run they are those of the servers that were committed: only a stretch of work
in which a connect gets its tunnel commits a server, which the session then is connected to, and
only that one pushes an id; a request that comes to a failure, to a cancellation or to no server has
pushed none. -/
theorem recents_doing :
    (∀ ids : List String,
      (ids.foldl Recents.push .empty).ids =
        ids.reverse.eraseDups.take (min 5 ids.toFinset.card) ∧
      (ids.foldl Recents.push .empty).ids.Nodup ∧
      (ids.foldl Recents.push .empty).ids.length = min 5 ids.toFinset.card) ∧
    ∀ (config : Config) (servers : List Server) (latency : Nat) (version : String)
      (deeds : List Deed),
      let start := Client.fresh config servers latency version
      (start.doing deeds).session.recents.ids =
        ((committed (start.history deeds)).foldl Recents.push .empty).ids ∧
      ∀ l, .leg l ∈ start.history deeds → l.Remembers ∧
        (l.result = .done (.ok none) ∨ (∃ e, l.result = .done (.error e)) →
          l.commit? = none ∧ l.session'.recents = l.session.recents) := by
  refine ⟨fun ids => ?_, fun config servers latency version deeds => ?_⟩
  · -- the list, for any pushes
    have hids := Recents.ids_pushAll ids
    have hlength := Recents.length_latest ids
    refine ⟨?_, ?_, (congrArg List.length hids).trans hlength⟩
    · exact hids.trans (Recents.latest_eq_take ids)
    · exact Eq.mpr (congrArg List.Nodup hids) (Recents.nodup_latest ids)
  · -- the pushes, for any run
    have hfresh := Client.sound_make config (Backend.prompt_make servers latency version)
    have h := Client.remembered_doing hfresh (Core.mirrors_make config _) deeds
    exact ⟨congrArg Recents.ids h.recents,
      fun l hl => ⟨h.legs l hl, (h.legs l hl).nothing⟩⟩

/-- The first connect is given up after its commit, the second is cancelled by a disconnect. -/
theorem recents_doing_cancelled :
    let start := Client.fresh Config.default
      [Server.make "a" "" "" "" "", Server.make "b" "" "" "" ""] 2 "1"
    let deeds : List Deed := [.event (.call (.connect "a")), .event (.pass 2), .event (.poll 0),
      .drop 0, .event (.call (.connect "b")), .event (.call .disconnect), .event (.poll 1)]
    committed (start.history deeds) = ["a"] ∧ (start.doing deeds).session.recents.ids = ["a"] ∧
      ∃ l, .leg l ∈ start.history deeds ∧ l.result = .done (.error .cancelled) ∧
        l.session'.recents = l.session.recents := by
  intro start deeds
  have h := recents_doing.2 Config.default
    [Server.make "a" "" "" "" "", Server.make "b" "" "" "" ""] 2 "1" deeds
  -- the commits are read off the run
  have hids : committed (start.history deeds) = ["a"] := by decide +kernel
  obtain ⟨l, hl, hr⟩ : ∃ l, (start.history deeds)[7]? = some (.leg l) ∧
      l.result = .done (.error .cancelled) := by
    dsimp only [start, deeds]
    exact ⟨_, rfl, rfl⟩
  refine ⟨hids, ?_, l, List.mem_of_getElem? hl, hr, ?_⟩
  · rw [h.1, hids]
    rfl
  · exact ((h.2 l (List.mem_of_getElem? hl)).2 (.inr ⟨_, hr⟩)).2

end TunnelSession

/-
  Changes of the settings, in the order in which they were issued.

  SPECIFICATION.  `Write.settle` is what a change comes to that nothing overlaps: its reply, and
  what is stored then.  A patch is applied, and a flag takes the value that the backend
  acknowledges; a change that fails does nothing.

  LIST.  `changes` lists the changes of a run in the order in which they were issued, that is in
  which they had their first turn, each with its fate: it is pending, it was settled, or its caller
  dropped it.  A change is settled in the turn in which its task ends, by the backend as it is then.

  FOLD.  `Core.Listed` says how the list and the client belong together.  The pending changes are
  those in line, in order; whoever has called the backend is the first of them, and asked for what
  it comes to with the settings as they are.  So what is stored is the fold of the settled changes,
  and each of them got the reply of its place in the fold.
-/
import Mathlib.Data.List.Nodup
import TunnelSession.Proofs.Dropping
import TunnelSession.Proofs.Talk

namespace TunnelSession

/-- What the settings are, and what the backend saved last. -/
structure Store where
  settings : Settings
  persisted : Option Settings
  deriving DecidableEq

/-- The operation of a change. -/
def Write.operation : Write → Operation
  | .patch _ => .updateSettings
  | .toggle flag => flag.operation

/-- What a change comes to that the backend answers, and what is stored then. -/
def Write.settle (x : Write) (b : Backend) (s : Store) : Reply × Store :=
  match b.failures.get x.operation, x with
  | e :: _, _ => (.failed (.backend e), s)
  | [], .patch p => (.saved (p.apply s.settings), ⟨p.apply s.settings, some (p.apply s.settings)⟩)
  | [], .toggle flag =>
    let value := (b.pins.get flag.operation).getD !s.settings.flag flag
    (.toggled value, { s with settings := s.settings.setFlag value flag })

/-- What became of a change. -/
inductive Fate where
  | pending
  /-- The backend, as it is then, answered it. -/
  | settled (b : Backend)
  /-- Its caller gave up. -/
  | dropped

/-- A change of the settings that was issued. -/
structure Change where
  task : TaskId
  write : Write
  fate : Fate

namespace Change

/-- Who issued what. -/
def issue (ch : Change) : TaskId × Write := (ch.task, ch.write)

/-- Is nothing known of the change yet? -/
def isPending (ch : Change) : Bool :=
  match ch.fate with
  | .pending => true
  | _ => false

/-- What is stored after a change: only those that were settled count. -/
def store (s : Store) (ch : Change) : Store :=
  match ch.fate with
  | .settled b => (ch.write.settle b s).2
  | _ => s

end Change

/-- What is stored after some changes. -/
def replay (s : Store) (L : List Change) : Store := L.foldl Change.store s

/-- The tasks whose changes are pending, in order. -/
def lineOf (L : List Change) : List TaskId := (L.filter Change.isPending).map Change.task

/-- The property holds of every change in a list, with those before it. -/
def Each (P : List Change → Change → Prop) (L : List Change) : Prop :=
  ∀ A ch B, L = A ++ ch :: B → P A ch

/-- The pending change of a task meets its fate. -/
def mark (t : TaskId) (f : Fate) (L : List Change) : List Change :=
  L.map fun ch => if ch.task = t ∧ ch.isPending then { ch with fate := f } else ch

namespace Client

/-- What is stored. -/
def store (w : Client) : Store := ⟨w.session.settings, w.backend.persisted⟩

/-- The changes after a turn: one that had its first turn is issued, and one whose task has ended is
settled. -/
def noteTurn (w : Client) (t : TaskId) (L : List Change) : List Change :=
  let L :=
    match w.task? t with
    | some (.command (.fresh (.write x))) => L ++ [⟨t, x, .pending⟩]
    | _ => L
  if (w.run t).hasEnded t then mark t (.settled w.backend) L else L

/-- The changes after a deed. -/
def note (w : Client) (L : List Change) : Deed → List Change
  | .event (.call c) => (w.spawn (.command (.fresh c))).2.noteTurn w.tasks.length L
  | .event (.poll t) => { w with ready := w.ready.erase t }.noteTurn t L
  | .event _ => L
  | .drop t => mark t .dropped L

/-- The changes after deeds. -/
def changes (w : Client) (L : List Change) : List Deed → List Change
  | [] => L
  | d :: deeds => (w.does d).changes (w.note L d) deeds

end Client

/-- The task of a change is where its fate says, if these settings were stored before it. -/
def Client.Shows (w : Client) (s : Store) (ch : Change) : Prop :=
  match ch.fate with
  | .pending => ∃ p, w.task? ch.task = some (.command (.writing p))
  | .settled b => w.task? ch.task = some (.ended (.replied (ch.write.settle b s).1))
  | .dropped => w.task? ch.task = some (.ended .aborted)

/-- The change asked the backend for what it comes to with these settings. -/
def Writing.Asks (x : Write) (s : Settings) : Writing → Prop
  | .queued _ => False
  | .saving merged _ => ∃ p, x = .patch p ∧ merged = p.apply s
  | .toggling flag requested _ => x = .toggle flag ∧ requested = !s.flag flag

theorem Writing.Asks.isCalled {x : Write} {s : Settings} {p : Writing} (h : p.Asks x s) :
    p.IsCalled := by
  cases p with
  | queued y => cases h
  | saving | toggling => trivial

/-! ## Lists of changes -/

section Lists

variable {t : TaskId} {f : Fate} {L A B : List Change} {ch : Change} {s : Store}

/-- What is stored after two stretches of changes is what the second makes of the first. -/
theorem replay_append (s : Store) (A B : List Change) :
    replay s (A ++ B) = replay (replay s A) B := List.foldl_append

/-- Changes that were not settled store nothing. -/
theorem replay_of_unsettled (s : Store) (h : ∀ ch ∈ L, ∀ b, ch.fate ≠ .settled b) :
    replay s L = s := by
  induction L with
  | nil => rfl
  | cons ch L ih =>
    have hch : ch.store s = s := by
      unfold Change.store
      cases hf : ch.fate with
      | settled b => exact absurd hf (h ch List.mem_cons_self b)
      | pending | dropped => rfl
    show replay (ch.store s) L = s
    rw [hch]
    exact ih fun ch' hm => h ch' (List.mem_cons_of_mem _ hm)

theorem Change.isPending_iff : ch.isPending = true ↔ ch.fate = .pending := by
  unfold isPending
  cases ch.fate <;> simp

/-- Nobody else has the task of a change. -/
theorem ne_of_nodup (hn : ((A ++ ch :: B).map Change.task).Nodup) {x : Change}
    (hx : x ∈ A ∨ x ∈ B) : x.task ≠ ch.task := by
  rw [List.map_append, List.map_cons, List.nodup_append, List.nodup_cons] at hn
  obtain ⟨-, ⟨hB, -⟩, hA⟩ := hn
  rcases hx with hx | hx
  · exact hA _ (List.mem_map_of_mem hx) _ List.mem_cons_self
  · intro hxt
    exact hB (hxt ▸ List.mem_map_of_mem hx)

/-- Who has nothing pending meets no fate. -/
theorem mark_of_none (h : ∀ ch ∈ L, ch.task = t → ch.fate ≠ .pending) : mark t f L = L := by
  unfold mark
  rw [List.map_congr_left (g := id), List.map_id]
  intro ch hm
  refine if_neg fun hc => h ch hm hc.1 ?_
  exact Change.isPending_iff.1 hc.2

/-- One change meets its fate, and the others stay as they are. -/
theorem mark_eq (hn : ((A ++ ch :: B).map Change.task).Nodup) (hp : ch.fate = .pending) :
    mark ch.task f (A ++ ch :: B) = A ++ { ch with fate := f } :: B := by
  have hmark : ∀ M : List Change, (∀ x ∈ M, x.task ≠ ch.task) → mark ch.task f M = M :=
    fun M hM => mark_of_none fun x hx he => absurd he (hM x hx)
  have hmarkA := hmark A fun x hx => ne_of_nodup hn (.inl hx)
  have hmarkB := hmark B fun x hx => ne_of_nodup hn (.inr hx)
  unfold mark at hmarkA hmarkB ⊢
  rw [List.map_append, List.map_cons, hmarkA, hmarkB, if_pos ⟨rfl, Change.isPending_iff.2 hp⟩]

/-- To meet a fate changes neither whose the change is nor what it is. -/
theorem map_issue_mark (t : TaskId) (f : Fate) (L : List Change) :
    (mark t f L).map Change.issue = L.map Change.issue := by
  unfold mark
  rw [List.map_map]
  refine List.map_congr_left fun ch _ => ?_
  show Change.issue (if _ then _ else _) = _
  split <;> rfl

section Each

variable {P Q : List Change → Change → Prop}

theorem each_nil (P : List Change → Change → Prop) : Each P [] := by
  intro A ch B h
  simp at h

theorem Each.imp (h : Each P L) (hi : ∀ A ch, ch ∈ L → P A ch → Q A ch) : Each Q L := by
  rintro A ch B rfl
  exact hi A ch (by simp) (h A ch B rfl)

/-- One change, and those before and behind it. -/
theorem each_append_cons :
    Each P (A ++ ch :: B) ↔ Each P A ∧ P A ch ∧ Each (fun C => P (A ++ ch :: C)) B := by
  constructor
  · intro h
    refine ⟨?_, h A ch B rfl, ?_⟩
    · rintro C x D rfl
      exact h C x (D ++ ch :: B) (by simp)
    · rintro C x D rfl
      exact h (A ++ ch :: C) x D (by simp)
  · rintro ⟨hA, hch, hB⟩ C x D h
    -- the change that is asked about is before this one, is this one, or is behind it
    rcases List.append_eq_append_iff.1 h with ⟨M, rfl, hM⟩ | ⟨M, rfl, hM⟩
    · rcases M with _ | ⟨y, M⟩
      · cases hM
        rwa [List.append_nil]
      · cases hM
        exact hB M x D rfl
    · rcases M with _ | ⟨y, M⟩
      · cases hM
        rwa [List.append_nil] at hch
      · cases hM
        exact hA C x M rfl

end Each

theorem lineOf_append (A B : List Change) : lineOf (A ++ B) = lineOf A ++ lineOf B := by
  unfold lineOf
  rw [List.filter_append, List.map_append]

theorem lineOf_cons_of_pending (hp : ch.fate = .pending) (B : List Change) :
    lineOf (ch :: B) = ch.task :: lineOf B := by
  unfold lineOf
  rw [List.filter_cons_of_pos (Change.isPending_iff.2 hp), List.map_cons]

theorem lineOf_cons_of_ne (hp : ch.fate ≠ .pending) (B : List Change) :
    lineOf (ch :: B) = lineOf B := by
  unfold lineOf
  rw [List.filter_cons_of_neg fun h => hp (Change.isPending_iff.1 h)]

theorem mem_lineOf : t ∈ lineOf L ↔ ∃ ch ∈ L, ch.task = t ∧ ch.fate = .pending := by
  unfold lineOf
  simp only [List.mem_map, List.mem_filter, Change.isPending_iff]
  tauto

theorem lineOf_sublist (L : List Change) : (lineOf L).Sublist (L.map Change.task) :=
  List.filter_sublist.map _

/-- Who meets its fate is not pending any more, and the others stay in order. -/
theorem lineOf_meet (hn : ((A ++ ch :: B).map Change.task).Nodup) (hp : ch.fate = .pending)
    (hf : f ≠ .pending) :
    lineOf (A ++ { ch with fate := f } :: B) =
      (lineOf (A ++ ch :: B)).filter (· != ch.task) := by
  have hkeep : ∀ M : List Change, (∀ x ∈ M, x.task ≠ ch.task) →
      (lineOf M).filter (· != ch.task) = lineOf M := by
    intro M hM
    refine List.filter_eq_self.2 fun u hu => ?_
    obtain ⟨x, hx, rfl, -⟩ := mem_lineOf.1 hu
    simpa using hM x hx
  have hmet : lineOf ({ ch with fate := f } :: B) = lineOf B := lineOf_cons_of_ne hf B
  rw [lineOf_append, lineOf_append, hmet, lineOf_cons_of_pending hp, List.filter_append,
    List.filter_cons_of_neg (by simp),
    hkeep A fun x hx => ne_of_nodup hn (.inl hx), hkeep B fun x hx => ne_of_nodup hn (.inr hx)]

end Lists

/-! ## Issues -/

namespace Client

variable {w : Client} {t : TaskId} {L : List Change}

/-- What is issued in a turn comes last: the task had a change to begin, and this was its first
turn. -/
theorem map_issue_noteTurn (w : Client) (t : TaskId) (L : List Change) :
    (w.noteTurn t L).map Change.issue = L.map Change.issue ++
      match w.task? t with
      | some (.command (.fresh (.write x))) => [(t, x)]
      | _ => [] := by
  have hsettle : ∀ (b : Bool) M, (if b then mark t (.settled w.backend) M else M).map Change.issue =
      M.map Change.issue := by
    intro b M
    split
    · exact map_issue_mark _ _ _
    · rfl
  unfold noteTurn
  dsimp only
  rw [hsettle]
  split
  · rw [List.map_append]
    rfl
  · rw [List.append_nil]

/-- No deed takes an issue back. -/
theorem issue_note (w : Client) (L : List Change) (d : Deed) :
    L.map Change.issue <+: (w.note L d).map Change.issue := by
  cases d with
  | event e =>
    cases e with
    | call command | poll t =>
      unfold note
      rw [map_issue_noteTurn]
      exact List.prefix_append _ _
    | _ => exact List.prefix_refl _
  | drop t =>
    exact ⟨[], (List.append_nil _).trans (map_issue_mark t .dropped L).symm⟩

theorem issue_changes (w : Client) (L : List Change) (deeds : List Deed) :
    L.map Change.issue <+: (w.changes L deeds).map Change.issue := by
  induction deeds generalizing w L with
  | nil => exact List.prefix_refl _
  | cons d deeds ih => exact (issue_note w L d).trans (ih _ _)

/-- The changes of two stretches of deeds are those of the second, noted after those of the
first. -/
theorem changes_append (w : Client) (L : List Change) (deeds more : List Deed) :
    w.changes L (deeds ++ more) = (w.doing deeds).changes (w.changes L deeds) more := by
  induction deeds generalizing w L with
  | nil => rfl
  | cons d deeds ih => exact ih _ _

/-- A change is issued when it is called, behind those that were issued before. -/
theorem issue_call (w : Client) (L : List Change) (pre : List Deed) (x : Write) (post : List Deed) :
    (w.changes L pre).map Change.issue ++ [((w.doing pre).tasks.length, x)] <+:
      (w.changes L (pre ++ .event (.call (.write x)) :: post)).map Change.issue := by
  have hissue : ∀ (v : Client) (M : List Change),
      (v.note M (.event (.call (.write x)))).map Change.issue =
        M.map Change.issue ++ [(v.tasks.length, x)] := by
    intro v M
    unfold note
    rw [map_issue_noteTurn, task?_spawn, if_pos rfl]
  rw [changes_append, ← hissue]
  exact issue_changes _ _ post

end Client

namespace Scene

/-- Nothing happened to the settings, their lock and those who change them. -/
structure Calm (s s' : Scene) : Prop where
  settings : s'.session.settings = s.session.settings
  persisted : s'.backend.persisted = s.backend.persisted
  writes : s'.writes = s.writes
  writing : ∀ t p, s'.changing t = some (.writing p) ↔ s.changing t = some (.writing p)

variable {s s' : Scene}

theorem SameSettings.calm (h : SameSettings s s') : Calm s s' :=
  ⟨h.settings, h.persisted, h.writes, fun t p => by rw [h.changing]⟩

/-- Nothing from outside touches the settings, and a call that is made has nothing under way yet. -/
theorem Nudge.calm (h : Nudge s s') : Calm s s' := by
  cases h with
  | @spawn t ht command =>
    refine ⟨rfl, rfl, rfl, fun u p => ?_⟩
    by_cases hu : u = t
    · -- whoever begins has nothing under way
      subst hu
      dsimp only
      rw [Function.update_self, ht]
      cases command <;> exact ⟨nofun, nofun⟩
    · dsimp only
      rw [Function.update_of_ne hu]
  | _ => exact ⟨rfl, rfl, rfl, fun _ _ => Iff.rfl⟩

end Scene

namespace Core

/-- What is stored. -/
def store (c : Core) : Store := ⟨c.session.settings, c.backend.persisted⟩

/-- The change is where its fate says, if this was stored before it: while it is pending it is in
line, or has the settings and asked for what it comes to with them. -/
def Stands (c : Core) (s : Store) (ch : Change) : Prop :=
  match ch.fate with
  | .pending => ∃ p, c.entry ch.task = some (.command (.writing p)) ∧ (p = .queued ch.write ∨
      p.Asks ch.write c.session.settings ∧ c.writes.holder = some ch.task)
  | .settled b => c.entry ch.task = some (.ended (.replied (ch.write.settle b s).1))
  | .dropped => c.entry ch.task = some (.ended .aborted)

/-- The list says how the changes of the settings stand. -/
structure Listed (start : Store) (L : List Change) (c : Core) : Prop where
  wellFormed : c.writes.WellFormed
  queue : c.writes.queue = lineOf L
  nodup : (L.map Change.task).Nodup
  /-- Nobody is settled behind somebody who is pending. -/
  ordered : L.Pairwise fun a b => a.fate = .pending → ∀ r, b.fate ≠ .settled r
  listed : ∀ t p, c.entry t = some (.command (.writing p)) →
    ∃ ch ∈ L, ch.task = t ∧ ch.fate = .pending
  store : c.store = replay start L
  stands : Each (fun A ch => c.Stands (replay start A) ch) L

variable {start s s' : Store} {L A B : List Change} {c c' : Core} {t u : TaskId} {ch : Change}
  {f : Fate}

/-! ### Where a change stands -/

/-- The task of a change goes on with it, or has ended. -/
theorem Stands.entry (h : c.Stands s ch) :
    (∃ p, c.entry ch.task = some (.command (.writing p))) ∨
      ∃ how, c.entry ch.task = some (.ended how) := by
  unfold Stands at h
  split at h
  · obtain ⟨p, hp, -⟩ := h
    exact .inl ⟨p, hp⟩
  · exact .inr ⟨_, h⟩
  · exact .inr ⟨_, h⟩

/-- Nothing happens to its task, and the settings stay with it as they are if it has them. -/
theorem Stands.frame (h : c.Stands s ch) (he : c'.entry ch.task = c.entry ch.task)
    (hh : c.writes.holder = some ch.task →
      c'.writes.holder = some ch.task ∧ c'.session.settings = c.session.settings) :
    c'.Stands s ch := by
  unfold Stands at h ⊢
  rw [he]
  split at h
  · obtain ⟨p, hp, hq⟩ := h
    refine ⟨p, hp, hq.imp id ?_⟩
    rintro ⟨ha, hholder⟩
    obtain ⟨hholder', hset⟩ := hh hholder
    exact ⟨hset ▸ ha, hholder'⟩
  · exact h
  · exact h

/-- What was stored before it matters only to a change that was settled. -/
theorem Stands.of_unsettled (h : c.Stands s ch) (hf : ∀ r, ch.fate ≠ .settled r) :
    c.Stands s' ch := by
  unfold Stands at h ⊢
  split at h
  · exact h
  · rename_i b hb
    exact absurd hb (hf b)
  · exact h

/-- A pending change waits in line, or has the settings and asked the backend for what it comes
to. -/
theorem Listed.waiting (h : Listed start L c) (hm : ch ∈ L) (hp : ch.fate = .pending) :
    ∃ p, c.entry ch.task = some (.command (.writing p)) ∧ (p = .queued ch.write ∨
      p.Asks ch.write c.session.settings ∧ c.writes.holder = some ch.task) := by
  obtain ⟨A, B, rfl⟩ := List.append_of_mem hm
  have hst : c.Stands (replay start A) ch := h.stands A ch B rfl
  unfold Stands at hst
  rw [hp] at hst
  exact hst

/-- Whoever has a change under way is listed, and is in line or has the settings. -/
theorem Listed.writing (h : Listed start L c) {p : Writing}
    (ho : c.entry t = some (.command (.writing p))) :
    ∃ ch ∈ L, ch.task = t ∧ ch.fate = .pending ∧ (p = .queued ch.write ∨
      p.Asks ch.write c.session.settings ∧ c.writes.holder = some t) := by
  obtain ⟨ch, hm, rfl, hp⟩ := h.listed t p ho
  obtain ⟨q, hq, hwait⟩ := h.waiting hm hp
  rw [ho] at hq
  cases hq
  exact ⟨ch, hm, rfl, hp, hwait⟩

/-- Who has called the backend has the settings. -/
theorem Listed.holder_of_isCalled (h : Listed start L c) {p : Writing}
    (ho : c.entry t = some (.command (.writing p))) (hp : p.IsCalled) :
    c.writes.holder = some t := by
  obtain ⟨ch, -, -, -, rfl | ⟨-, hh⟩⟩ := h.writing ho
  · cases hp
  · exact hh

/-- Whoever is listed has begun. -/
theorem Listed.begun (h : Listed start L c) (hm : ch ∈ L) (command : Command) :
    c.entry ch.task ≠ some (.command (.fresh command)) := by
  obtain ⟨A, B, rfl⟩ := List.append_of_mem hm
  intro hent
  rcases (h.stands A ch B rfl).entry with ⟨p, hp⟩ | ⟨how, hhow⟩
  · rw [hp] at hent
    cases hent
  · rw [hhow] at hent
    cases hent

/-! ### What can happen to the list -/

/-- The scene shows a change that is under way just where the core has it. -/
theorem changing_writing {p : Writing} :
    c.scene.changing t = some (.writing p) ↔ c.entry t = some (.command (.writing p)) := by
  show (c.entry t).bind Task.change? = _ ↔ _
  constructor
  · intro h
    obtain ⟨task, ht, hk⟩ := Option.bind_eq_some_iff.1 h
    rw [ht]
    cases task with
    | command q =>
      cases q with
      | fresh command => cases command <;> cases hk
      | writing q =>
        cases hk
        rfl
      | _ => cases hk
    | _ => cases hk
  · intro h
    rw [h]
    rfl

/-- Nothing happens to the settings, their lock and those who change them, and who has ended stays
so: then the list still says how the changes stand. -/
theorem Listed.calm (h : Listed start L c) (hs : Scene.Calm c.scene c'.scene)
    (he : ∀ t how, c.entry t = some (.ended how) → c'.entry t = some (.ended how)) :
    Listed start L c' := by
  have hset : c'.session.settings = c.session.settings := hs.settings
  have hper : c'.backend.persisted = c.backend.persisted := hs.persisted
  have hl : c'.writes = c.writes := hs.writes
  have hw : ∀ t p, c'.entry t = some (.command (.writing p)) ↔
      c.entry t = some (.command (.writing p)) := by
    intro t p
    rw [← changing_writing, ← changing_writing]
    exact hs.writing t p
  refine ⟨hl ▸ h.wellFormed, hl ▸ h.queue, h.nodup, h.ordered, ?_, ?_, ?_⟩
  · exact fun t p hent => h.listed t p ((hw t p).1 hent)
  · rw [← h.store]
    unfold Core.store
    rw [hset, hper]
  · refine h.stands.imp fun A x _ hst => hst.frame ?_ fun hh => ⟨hl ▸ hh, hset⟩
    -- its task goes on with it as it was, or has ended for good
    rcases hst.entry with ⟨p, hp⟩ | ⟨how, hhow⟩
    · rw [hp, (hw _ p).2 hp]
    · rw [hhow, he _ _ hhow]

/-- The list depends on what is stored, on the lock and on the tasks only. -/
theorem Listed.congr (h : Listed start L c) (hs : c'.store = c.store) (hl : c'.writes = c.writes)
    (he : c'.entry = c.entry) : Listed start L c' := by
  refine h.calm ⟨congrArg Store.settings hs, congrArg Store.persisted hs, hl, fun t p => ?_⟩ ?_
  · rw [changing_writing, changing_writing, he]
  · intro t how ht
    rw [he]
    exact ht

/-- A change is issued: it joins the line, behind all that were issued before, and its task has
begun. Nothing is settled by that, so the store stays what the list makes of the start. -/
theorem Listed.issue (h : Listed start L c) {x : Write}
    (ht : c.entry t = some (.command (.fresh (.write x)))) (hs : c'.store = c.store)
    (hl : c'.writes = c.writes.request t)
    (he : c'.entry = Function.update c.entry t (some (.command (.writing (.queued x))))) :
    Listed start (L ++ [⟨t, x, .pending⟩]) c' := by
  have hne : ∀ ch ∈ L, ch.task ≠ t := by
    rintro ch hm rfl
    exact h.begun hm _ ht
  have hother : ∀ u, u ≠ t → c'.entry u = c.entry u := fun u hu => by
    rw [he, Function.update_of_ne hu]
  have hset : c'.session.settings = c.session.settings := congrArg Store.settings hs
  -- who has the settings keeps them, whoever joins the line
  have hholder : ∀ v, c.writes.holder = some v → c'.writes.holder = some v := by
    intro v hv
    rw [hl]
    unfold Lock.request
    rw [hv]
  refine ⟨hl ▸ Lock.wellFormed_request _ _, ?_, ?_, ?_, ?_, ?_, ?_⟩
  · rw [hl, Lock.queue_request h.wellFormed, h.queue, lineOf_append]
    rfl
  · rw [List.map_append, List.map_singleton, ← List.concat_eq_append]
    refine List.Nodup.concat (fun hm => ?_) h.nodup
    obtain ⟨ch, hm, he⟩ := List.mem_map.1 hm
    exact hne ch hm he
  · refine List.pairwise_append.2 ⟨h.ordered, List.pairwise_singleton _ _, ?_⟩
    intro a _ b hb _ r
    rw [List.mem_singleton.1 hb]
    exact nofun
  · -- the new task is listed last; the others were listed before
    intro u p hu
    by_cases hut : u = t
    · exact ⟨_, List.mem_append_right _ List.mem_cons_self, hut.symm, rfl⟩
    · rw [hother u hut] at hu
      obtain ⟨ch, hm, hch⟩ := h.listed u p hu
      exact ⟨ch, List.mem_append_left _ hm, hch⟩
  · rw [replay_append, hs]
    exact h.store
  · refine each_append_cons.2 ⟨?_, ?_, each_nil _⟩
    · exact h.stands.imp fun A ch hm hst =>
        hst.frame (hother _ (hne ch hm)) fun hh => ⟨hholder _ hh, hset⟩
    · exact ⟨_, by rw [he, Function.update_self], .inl rfl⟩

/-- A pending change meets its fate: it leaves the line, and nobody behind it was settled. The store
is then what the list makes of the start with that fate written in. -/
theorem Listed.meet (h : Listed start (A ++ ch :: B) c) (hp : ch.fate = .pending) {how : Ending}
    (hl : c'.writes = c.writes.withdraw ch.task)
    (he : c'.entry = Function.update c.entry ch.task (some (.ended how)))
    (hset : c.writes.holder = some ch.task ∨ c'.session.settings = c.session.settings)
    (hs : c'.store = replay start (A ++ { ch with fate := f } :: B)) (hf : f ≠ .pending)
    (hsettled : ∀ b, f = .settled b → ∀ a ∈ A, a.fate ≠ .pending)
    (hst : c'.Stands (replay start A) { ch with fate := f }) :
    Listed start (A ++ { ch with fate := f } :: B) c' := by
  have hn := h.nodup
  have hne : ∀ x, x ∈ A ∨ x ∈ B → x.task ≠ ch.task := fun x hx => ne_of_nodup hn hx
  have hother : ∀ u, u ≠ ch.task → c'.entry u = c.entry u := fun u hu => by
    rw [he, Function.update_of_ne hu]
  -- everybody else stands where they stood
  have hframe : ∀ s x, x ∈ A ∨ x ∈ B → c.Stands s x → c'.Stands s x := by
    intro s x hx hxs
    refine hxs.frame (hother _ (hne x hx)) fun hh => ?_
    have hholder : c.writes.holder ≠ some ch.task := by
      rw [hh]
      exact fun he => hne x hx (Option.some.inj he)
    rw [hl, Lock.holder_withdraw_of_ne hholder]
    exact ⟨hh, hset.resolve_left hholder⟩
  obtain ⟨hordA, hordB, hordAB⟩ := List.pairwise_append.1 h.ordered
  rw [List.pairwise_cons] at hordB
  obtain ⟨hstA, -, hstB⟩ := each_append_cons.1 h.stands
  refine ⟨hl ▸ Lock.wellFormed_withdraw h.wellFormed _, ?_, ?_, ?_, ?_, hs, ?_⟩
  · have hnodup : c.writes.queue.Nodup := h.queue ▸ hn.sublist (lineOf_sublist _)
    rw [hl, Lock.queue_withdraw hnodup, h.queue, lineOf_meet hn hp hf]
  · rw [List.map_append, List.map_cons] at hn ⊢
    exact hn
  · refine List.pairwise_append.2 ⟨hordA, List.pairwise_cons.2 ⟨?_, hordB.2⟩, ?_⟩
    · exact fun _ _ hf' => absurd hf' hf
    · intro a ha b hb hap r hbr
      rcases List.mem_cons.1 hb with rfl | hb
      · exact hsettled r hbr a ha hap
      · exact hordAB a ha b (List.mem_cons_of_mem _ hb) hap r hbr
  · intro u p hu
    have hut : u ≠ ch.task := by
      rintro rfl
      rw [he, Function.update_self] at hu
      cases hu
    rw [hother u hut] at hu
    obtain ⟨x, hx, hxt, hxp⟩ := h.listed u p hu
    have hxc : x ≠ ch := fun he => hut (hxt ▸ he ▸ rfl)
    refine ⟨x, ?_, hxt, hxp⟩
    simp only [List.mem_append, List.mem_cons] at hx ⊢
    tauto
  · refine each_append_cons.2 ⟨?_, hst, ?_⟩
    · exact hstA.imp fun _ x hx hxs => hframe _ x (.inl hx) hxs
    · exact hstB.imp fun _ x hx hxs =>
        (hframe _ x (.inr hx) hxs).of_unsettled fun r => hordB.1 x hx hp r

/-- Who holds the settings calls the backend, or goes on waiting for it: the list stays as it is. -/
theorem Listed.call (h : Listed start L c) (hm : ch ∈ L) (hp : ch.fate = .pending) {p : Writing}
    (ha : p.Asks ch.write c.session.settings) (hh : c.writes.holder = some ch.task)
    (hs : c'.store = c.store) (hl : c'.writes = c.writes)
    (he : c'.entry = Function.update c.entry ch.task (some (.command (.writing p)))) :
    Listed start L c' := by
  have hset : c'.session.settings = c.session.settings := congrArg Store.settings hs
  have hother : ∀ u, u ≠ ch.task → c'.entry u = c.entry u := fun u hu => by
    rw [he, Function.update_of_ne hu]
  refine ⟨hl ▸ h.wellFormed, hl ▸ h.queue, h.nodup, h.ordered, ?_, hs.trans h.store, ?_⟩
  · intro u q hu
    by_cases hut : u = ch.task
    · exact ⟨ch, hm, hut.symm, hp⟩
    · rw [hother u hut] at hu
      exact h.listed u q hu
  · refine h.stands.imp fun A x hx hst => ?_
    -- the change that called shows it now, and has the settings; the others stay as they are
    by_cases hxt : x.task = ch.task
    · obtain rfl : x = ch := List.inj_on_of_nodup_map h.nodup hx hm hxt
      unfold Stands
      rw [hp, he, hset, hl]
      exact ⟨p, Function.update_self _ _ _, .inr ⟨ha, hh⟩⟩
    · exact hst.frame (hother _ hxt) fun hholder => ⟨hl ▸ hholder, hset⟩

/-- Who holds the settings is the first that is pending. -/
theorem Listed.first (h : Listed start (A ++ ch :: B) c) (hp : ch.fate = .pending)
    (hh : c.writes.holder = some ch.task) : ∀ a ∈ A, a.fate ≠ .pending := by
  have hq := h.queue
  rw [Lock.queue_release hh, lineOf_append, lineOf_cons_of_pending hp] at hq
  intro a ha hap
  have hmem : a.task ∈ lineOf A := mem_lineOf.2 ⟨a, ha, rfl, hap⟩
  cases hA : lineOf A with
  | nil =>
    rw [hA] at hmem
    cases hmem
  | cons u rest =>
    rw [hA] at hq
    obtain ⟨x, hx, hxt, -⟩ := mem_lineOf.1 (hA ▸ List.mem_cons_self : u ∈ lineOf A)
    exact ne_of_nodup h.nodup (.inl hx) (hxt.trans (List.cons.inj hq).1.symm)

/-- The first that is pending holds the settings. -/
theorem Listed.holder_of_first (h : Listed start (A ++ ch :: B) c) (hp : ch.fate = .pending)
    (hA : ∀ a ∈ A, a.fate ≠ .pending) : c.writes.holder = some ch.task := by
  have hnil : lineOf A = [] := by
    refine List.eq_nil_iff_forall_not_mem.2 fun u hu => ?_
    obtain ⟨a, ha, -, hap⟩ := mem_lineOf.1 hu
    exact hA a ha hap
  rw [← Lock.head?_queue h.wellFormed, h.queue, lineOf_append, hnil, lineOf_cons_of_pending hp]
  rfl

/-- Nobody behind a pending change stores anything. -/
theorem Listed.replay_cons (h : Listed start (A ++ ch :: B) c) (hp : ch.fate = .pending)
    (x : Change) : replay start (A ++ x :: B) = x.store (replay start A) := by
  have hB := (List.pairwise_cons.1 (List.pairwise_append.1 h.ordered).2.1).1
  rw [replay_append]
  exact replay_of_unsettled _ fun b hb r => hB b hb hp r

/-- The change of who holds the settings is settled, by the backend as it is: what is stored then is
one more step of the fold. -/
theorem Listed.settle (h : Listed start L c) (hm : ch ∈ L) (hp : ch.fate = .pending)
    (hh : c.writes.holder = some ch.task) {b : Backend}
    (hs : c'.store = (ch.write.settle b c.store).2) (hl : c'.writes = c.writes.release)
    (he : c'.entry = Function.update c.entry ch.task
      (some (.ended (.replied (ch.write.settle b c.store).1)))) :
    Listed start (mark ch.task (.settled b) L) c' := by
  obtain ⟨A, B, rfl⟩ := List.append_of_mem hm
  have hstore : c.store = replay start A := by
    rw [h.store, h.replay_cons hp]
    unfold Change.store
    rw [hp]
  rw [hstore] at hs he
  rw [mark_eq h.nodup hp]
  -- it is the first that is pending, so what is stored is what it is settled on
  refine h.meet hp (by rw [hl, Lock.withdraw_of_holder hh]) he (.inl hh) ?_ nofun
    (fun _ _ => h.first hp hh) ?_
  · rw [hs, h.replay_cons hp]
    rfl
  · show c'.entry ch.task = _
    rw [he, Function.update_self]

/-- A change is given up. -/
theorem Listed.giveUp (h : Listed start L c) (hm : ch ∈ L) (hp : ch.fate = .pending)
    (hs : c'.store = c.store) (hl : c'.writes = c.writes.withdraw ch.task)
    (he : c'.entry = Function.update c.entry ch.task (some (.ended .aborted))) :
    Listed start (mark ch.task .dropped L) c' := by
  obtain ⟨A, B, rfl⟩ := List.append_of_mem hm
  rw [mark_eq h.nodup hp]
  refine h.meet hp hl he (.inr (congrArg Store.settings hs)) ?_ nofun
    (fun b hb => Fate.noConfusion hb) ?_
  · rw [hs, h.store, h.replay_cons hp, h.replay_cons hp]
    unfold Change.store
    rw [hp]
  · show c'.entry ch.task = _
    rw [he, Function.update_self]

end Core

end TunnelSession

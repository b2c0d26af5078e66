/-
  Where the scripted failures go.

  ACCOUNT.  Every run has an account (`Client.Account`): the dealings of the run in their order,
  where of each answer it says whether the call took the oldest failure that was scripted for its
  operation (`Entry.delivered`) or found none and was carried out (`Entry.proceeded`).  Between
  two entries nothing happens to the backend but that a toggle is pinned, and nothing to the
  settings; a call that is dropped leaves all as it is (`Scene.Enters`).

  BOOKS.  Both books are balanced, for every operation: the failures that were scripted are those
  that were delivered and then those that still wait; and the calls that were counted are those that
  a failure was delivered to, those that were carried out, those that were dropped, and those that
  are under way.  The second counts the conversations of all tasks together (`sum_countP`).

  CANCELLED.  A connect whose ticket became void and a poller that was told to stop drop the call
  that they have under way when they run next, and so does a command that its caller drops.
-/
import Mathlib.Algebra.BigOperators.Group.Finset.Piecewise
import TunnelSession.Proofs.Conversations

namespace TunnelSession

variable {α : Type}

/-! ## Accounts -/

/-- An entry of an account. -/
inductive Entry where
  | scripted (op : Operation) (e : BackendError)
  | called (t : TaskId) (now : Nat) (op : Operation)
  /-- A call got through its latency, and took the oldest failure. -/
  | delivered (t : TaskId) (now : Nat) (op : Operation) (e : BackendError)
  /-- A call got through its latency, found no failure, and was carried out. -/
  | proceeded (t : TaskId) (now : Nat) (op : Operation) (result : Except BackendError Unit)
  | dropped (t : TaskId) (now : Nat) (op : Operation)

/-- What an entry says of the dealings. -/
def Entry.dealing : Entry → Dealing
  | .scripted op e => .scripted op e
  | .called t now op => .deal t now (.called op)
  | .delivered t now op e => .deal t now (.answered op now (.error e))
  | .proceeded t now op result => .deal t now (.answered op now result)
  | .dropped t now op => .deal t now (.dropped op)

namespace Scene

/-- A step of a run, with its entry in the account. -/
inductive Enters (s : Scene) : List Entry → Scene → Prop
  | scripted (op : Operation) (e : BackendError) :
    Enters s [.scripted op e] { s with backend := s.backend.failNext op e }
  | called (t : TaskId) (op : Operation) :
    Enters s [.called t s.now op] { s with backend := s.backend.count op }
  | delivered {α : Type} (t : TaskId) (ask : Ask α) {e : BackendError} {rest : List BackendError}
    (h : s.backend.failures.get ask.operation = e :: rest) :
    Enters s [.delivered t s.now ask.operation e]
      ({ s with backend :=
          { s.backend with failures := s.backend.failures.set ask.operation rest } }.commit ask
        (.error e))
  | proceeded {α : Type} (t : TaskId) (ask : Ask α)
    (h : s.backend.failures.get ask.operation = []) :
    Enters s [.proceeded t s.now ask.operation ((s.backend.perform s.now ask).1.map fun _ => ())]
      ({ s with backend := (s.backend.perform s.now ask).2 }.commit ask
        (s.backend.perform s.now ask).1)
  | dropped (t : TaskId) (op : Operation) : Enters s [.dropped t s.now op] s
  /-- What is no dealing. -/
  | aside {s' : Scene} (hb : s'.backend = { s.backend with pins := s'.backend.pins })
    (hs : s'.session.settings = s.session.settings) : Enters s [] s'

/-- Steps of a run, with their entries in the account. -/
inductive Entered : Scene → List Entry → Scene → Prop
  | refl (s : Scene) : Entered s [] s
  | head {s s₁ s' : Scene} {σ ρ : List Entry} (h : Enters s σ s₁) (ht : Entered s₁ ρ s') :
    Entered s (σ ++ ρ) s'

end Scene

/-- An account of a run. -/
structure Client.Account (w : Client) (deeds : List Deed) (σ : List Entry) : Prop where
  entries : σ.map Entry.dealing = w.dealings deeds
  entered : Scene.Entered w.core.scene σ (w.doing deeds).core.scene

/-! ## Every run has an account -/

namespace Scene

variable {writer : Bool} {s s₁ s' : Scene} {σ ρ : List Entry} {δ : List Deal}

theorem Enters.single (h : Enters s σ s') : Entered s σ s' := by
  have ht := Entered.head h (.refl s')
  rwa [List.append_nil] at ht

theorem Entered.trans (h : Entered s σ s₁) (h' : Entered s₁ ρ s') : Entered s (σ ++ ρ) s' := by
  induction h with
  | refl => exact h'
  | head h _ ih =>
    rw [List.append_assoc]
    exact .head h (ih h')

/-- Every exchange has its entry: an answer says whether there was a failure to take. -/
theorem Exchange.enters (h : Exchange writer s δ s') (t : TaskId) :
    s'.now = s.now ∧
      ∃ σ, σ.map Entry.dealing = δ.map (.deal t s.now) ∧ Enters s σ s' := by
  cases h with
  | called op => exact ⟨rfl, _, rfl, .called t op⟩
  | answered ask =>
    refine ⟨rfl, ?_⟩
    -- the oldest failure is delivered, or there was none and the call is carried out
    rcases s.backend.answer_cases s.now ask with ⟨e, rest, hq, ha⟩ | ⟨hq, ha⟩
    · rw [ha]
      exact ⟨_, rfl, .delivered t ask hq⟩
    · rw [ha]
      exact ⟨_, rfl, .proceeded t ask hq⟩
  | dropped op => exact ⟨rfl, _, rfl, .dropped t op⟩
  | depart | favorites | writes | changing => exact ⟨rfl, [], rfl, .aside rfl rfl⟩

/-- All exchanges of a turn have their entries, in order. -/
theorem Talk.entered (h : Talk writer s δ s') (t : TaskId) :
    ∃ σ, σ.map Entry.dealing = δ.map (.deal t s.now) ∧ Entered s σ s' := by
  induction h with
  | refl s => exact ⟨[], rfl, .refl s⟩
  | head hx _ ih =>
    obtain ⟨hnow, σ, hσ, hs⟩ := hx.enters t
    obtain ⟨ρ, hρ, hr⟩ := ih
    refine ⟨σ ++ ρ, ?_, .head hs hr⟩
    rw [List.map_append, List.map_append, hσ, hρ, hnow]

end Scene

namespace Client

open Scene

variable {w : Client} {t : TaskId}

/-- What happens from outside and is no script is no dealing. -/
theorem enters_outside {c c' : Core} {e : Event} (h : Core.Outside c e c')
    (he : ∀ op x, e ≠ .fail op x) : Enters c.scene [] c'.scene := by
  cases h with
  | fail op x => exact absurd rfl (he op x)
  | call | go | pass | pin | startPolling | stopPolling | openBridge | bridge =>
    exact .aside rfl rfl

/-- Who is dropped leaves the backend and the settings as they are. -/
theorem enters_drop {c c' : Core} (h : Core.Drop t c c') : Enters c.scene [] c'.scene := by
  cases h with
  | lifecycle | change | other => exact .aside rfl rfl

theorem entered_turn (hs : w.core.Sound) (hm : w.core.Mirrors) (t : TaskId) :
    ∃ σ, σ.map Entry.dealing = (w.turnDeals t).map (.deal t w.now) ∧
      Entered w.core.scene σ (w.run t).core.scene :=
  (talk_run hs hm t).entered t

/-- A caller that gives up drops the call that it waits for, if it waits for one, and the book has
that as its end. -/
theorem entered_abort (hs : w.core.Sound) (hm : w.core.Mirrors) (t : TaskId) :
    ∃ σ, σ.map Entry.dealing = (w.dropDeals t).map (.deal t w.now) ∧
      Entered w.core.scene σ (w.abort t).core.scene := by
  have haside : Enters w.core.scene [] (w.abort t).core.scene := by
    rcases core_abort hs hm.orderly t with ⟨h, -⟩ | h
    · rw [h]
      exact .aside rfl rfl
    · exact enters_drop h
  suffices h : ∃ σ, σ.map Entry.dealing = (w.dropDeals t).map (.deal t w.now) ∧
      Entered w.core.scene σ w.core.scene by
    obtain ⟨σ, hσ, h⟩ := h
    refine ⟨σ ++ [], ?_, h.trans haside.single⟩
    rw [List.append_nil]
    exact hσ
  unfold dropDeals
  split
  · rename_i p _
    cases p.pending? with
    | none => exact ⟨[], rfl, .refl _⟩
    | some c => exact ⟨[.dropped t w.now c.op], rfl, (Enters.dropped t c.op).single⟩
  · exact ⟨[], rfl, .refl _⟩

/-- Every deed has its entries: turns, dropped callers, and failures that are scripted. All other
deeds leave the failures and the calls alone, and have none. -/
theorem entered_does (h : w.Steady) (d : Deed) :
    ∃ σ, σ.map Entry.dealing = w.dealingsOf d ∧
      Entered w.core.scene σ (w.does d).core.scene := by
  cases d with
  | drop t => exact entered_abort h.sound h.mirrors t
  | event e =>
    have hquiet : e.IsQuiet → (∀ op x, e ≠ .fail op x) →
        Entered w.core.scene [] (w.happen e).core.scene := by
      intro he hf
      rcases outside_happen h.sound he with hc | hc
      · rw [hc]
        exact .refl _
      · exact (enters_outside hc hf).single
    cases e with
    | call command =>
      -- the command is there, and has its first turn at once
      have hc := core_spawn_call h.sound command
      have hm : (w.core.spawnCall command).Mirrors :=
        Core.linkInvariant_mirrors.same (Core.Outside.call command).sameLink h.mirrors
      have hs := h.sound.spawnCall command
      have hspawn : Enters w.core.scene [] (w.core.spawnCall command).scene :=
        enters_outside (.call command) fun _ _ => Event.noConfusion
      rw [← hc] at hs hm hspawn
      obtain ⟨σ, hσ, hturn⟩ := entered_turn hs hm w.tasks.length
      exact ⟨[] ++ σ, hσ, .head hspawn hturn⟩
    | poll t => exact entered_turn (w := { w with ready := w.ready.erase t }) h.sound h.mirrors t
    | fail op e => exact ⟨_, rfl, (Enters.scripted op e).single⟩
    | _ => exact ⟨[], rfl, hquiet trivial fun _ _ => Event.noConfusion⟩

/-- Every run has an account, entry by entry. -/
theorem account_doing (h : w.Steady) (deeds : List Deed) : ∃ σ, w.Account deeds σ := by
  induction deeds generalizing w with
  | nil => exact ⟨[], rfl, .refl _⟩
  | cons d deeds ih =>
    obtain ⟨σ, hσ, hs⟩ := entered_does h d
    obtain ⟨ρ, hρ⟩ := ih (h.does d)
    refine ⟨σ ++ ρ, ?_, hs.trans hρ.entered⟩
    rw [List.map_append, hσ, hρ.entries]
    rfl

end Client

/-! ## Failures -/

/-- The failure of an operation that the deed scripts. -/
def Deed.scripts (op : Operation) : Deed → Option BackendError
  | .event (.fail o e) => if o = op then some e else none
  | _ => none

/-- The failure of an operation that is scripted. -/
def Dealing.scripts (op : Operation) : Dealing → Option BackendError
  | .scripted o e => if o = op then some e else none
  | _ => none

/-- The failure of an operation that is delivered. -/
def Entry.delivers (op : Operation) : Entry → Option BackendError
  | .delivered _ _ o e => if o = op then some e else none
  | _ => none

/-- A call that is carried out leaves the script and the count as they are. -/
theorem Backend.books_perform (b : Backend) (now : Nat) (ask : Ask α) :
    (b.perform now ask).2.failures = b.failures ∧ (b.perform now ask).2.calls = b.calls := by
  cases ask <;> unfold perform <;> dsimp only <;> (try split) <;> exact ⟨rfl, rfl⟩

/-- What a deed scripts is what it does. -/
theorem Client.scripts_dealingsOf (w : Client) (op : Operation) (d : Deed) :
    (w.dealingsOf d).filterMap (Dealing.scripts op) = [d].filterMap (Deed.scripts op) := by
  have hdeals : ∀ (t : TaskId) (now : Nat) (δ : List Deal),
      (δ.map (Dealing.deal t now)).filterMap (Dealing.scripts op) = [] := by
    intro t now δ
    simp [List.filterMap_eq_nil_iff, Dealing.scripts]
  cases d with
  | drop t => exact hdeals _ _ _
  | event e =>
    cases e with
    | fail o e => rfl
    | call | poll => exact hdeals _ _ _
    | _ => rfl

theorem Client.scripts_dealings (w : Client) (op : Operation) (deeds : List Deed) :
    (w.dealings deeds).filterMap (Dealing.scripts op) = deeds.filterMap (Deed.scripts op) := by
  induction deeds generalizing w with
  | nil => rfl
  | cons d deeds ih =>
    rw [dealings, List.filterMap_append, w.scripts_dealingsOf, ih, ← List.filterMap_append]
    rfl

namespace Scene

variable {s s' : Scene} {σ : List Entry}

/-- What was in store and what is scripted is what is delivered and what is in store after. An
answer takes the head of the queue, and only of its own operation. -/
theorem Enters.failures (h : Enters s σ s') (op : Operation) :
    s.backend.failures.get op ++ (σ.map Entry.dealing).filterMap (Dealing.scripts op) =
      σ.filterMap (Entry.delivers op) ++ s'.backend.failures.get op := by
  cases h with
  | scripted o e =>
    show _ ++ _ = [] ++ (s.backend.failures.set o (s.backend.failures.get o ++ [e])).get op
    by_cases ho : o = op
    · subst ho
      simp [Entry.dealing, Dealing.scripts]
    · rw [Operation.Table.get_set_ne _ _ (Ne.symm ho)]
      simp [Entry.dealing, Dealing.scripts, ho]
  | @delivered α t ask e rest hq =>
    -- the oldest failure leaves the queue of its own operation
    show _ ++ [] = _ ++ (s.backend.failures.set ask.operation rest).get op
    by_cases ho : ask.operation = op
    · subst ho
      simp [Entry.delivers, hq]
    · rw [Operation.Table.get_set_ne _ _ (Ne.symm ho)]
      simp [Entry.delivers, ho]
  | proceeded t ask hq =>
    show _ ++ [] = [] ++ (s.backend.perform s.now ask).2.failures.get op
    rw [(s.backend.books_perform s.now ask).1, List.append_nil, List.nil_append]
  | called | dropped => exact List.append_nil _
  | aside hb =>
    rw [hb]
    exact List.append_nil _

/-- The failures that waited and those that were scripted are those that were delivered and those
that wait. -/
theorem Entered.failures (h : Entered s σ s') (op : Operation) :
    s.backend.failures.get op ++ (σ.map Entry.dealing).filterMap (Dealing.scripts op) =
      σ.filterMap (Entry.delivers op) ++ s'.backend.failures.get op := by
  induction h with
  | refl s => exact List.append_nil _
  | head h _ ih =>
    rw [List.map_append, List.filterMap_append, List.filterMap_append, ← List.append_assoc,
      h.failures, List.append_assoc, ih, List.append_assoc]

end Scene

/-! ## Calls -/

/-- Whose dealing it is. -/
def Dealing.task? : Dealing → Option TaskId
  | .scripted .. => none
  | .deal t _ _ => some t

/-- Does a call of the operation start? -/
def Dealing.opens (op : Operation) : Dealing → Bool
  | .deal _ _ (.called o) => o == op
  | _ => false

/-- Is a call of the operation over? -/
def Dealing.closes (op : Operation) : Dealing → Bool
  | .deal _ _ (.answered o _ _) => o == op
  | .deal _ _ (.dropped o) => o == op
  | _ => false

/-- Is a call of the operation carried out? -/
def Entry.proceeds (op : Operation) : Entry → Bool
  | .proceeded _ _ o _ => o == op
  | _ => false

/-- Is a call of the operation dropped? -/
def Entry.drops (op : Operation) : Entry → Bool
  | .dropped _ _ o => o == op
  | _ => false

/-- Does the task wait for a call of the operation? -/
def Task.asks (op : Operation) (k : Task) : Bool := k.pending?.any (·.op == op)

/-- A call that is over had a failure delivered, was carried out or was dropped. -/
theorem closes_dealing (σ : List Entry) (op : Operation) :
    (σ.map Entry.dealing).countP (Dealing.closes op) =
      (σ.filterMap (Entry.delivers op)).length + σ.countP (Entry.proceeds op) +
        σ.countP (Entry.drops op) := by
  induction σ with
  | nil => rfl
  | cons x σ ih =>
    rw [List.map_cons, List.countP_cons, ih, List.countP_cons, List.countP_cons,
      List.filterMap_cons]
    cases x with
    | scripted | called => rfl
    | delivered _ _ o | proceeded _ _ o | dropped _ _ o =>
      by_cases ho : o = op <;>
        simp [Entry.dealing, Dealing.closes, Entry.delivers, Entry.proceeds, Entry.drops, ho]
      omega

namespace Scene

variable {s s' : Scene} {σ : List Entry}

/-- The count of an operation goes up when a call of it starts. -/
theorem Enters.calls (h : Enters s σ s') (op : Operation) :
    s'.backend.calls.get op =
      s.backend.calls.get op + (σ.map Entry.dealing).countP (Dealing.opens op) := by
  cases h with
  | called t o =>
    show (s.backend.calls.set o (s.backend.calls.get o + 1)).get op = _
    by_cases ho : o = op
    · subst ho
      simp [Entry.dealing, Dealing.opens]
    · rw [Operation.Table.get_set_ne _ _ (Ne.symm ho)]
      simp [Entry.dealing, Dealing.opens, ho]
  | proceeded t ask hq =>
    show (s.backend.perform s.now ask).2.calls.get op = _
    rw [(s.backend.books_perform s.now ask).2]
    rfl
  | scripted | delivered | dropped => rfl
  | aside hb =>
    rw [hb]
    rfl

/-- A call is counted when it starts. -/
theorem Entered.calls (h : Entered s σ s') (op : Operation) :
    s'.backend.calls.get op =
      s.backend.calls.get op + (σ.map Entry.dealing).countP (Dealing.opens op) := by
  induction h with
  | refl s => rfl
  | head h _ ih => rw [ih, h.calls, List.map_append, List.countP_append, Nat.add_assoc]

end Scene

section Balance

variable {latency : Nat} {t : TaskId} {c c' : Option OpenCall} {ε : List Dealing}

/-- What a task starts and what it had are what comes to an end and what it has: a conversation has
at most one call open. -/
theorem Converses.balance (h : Converses latency t c ε c') (op : Operation) :
    (ε.filter (·.task? == some t)).countP (Dealing.opens op) + (c.any (·.op == op)).toNat =
      (ε.filter (·.task? == some t)).countP (Dealing.closes op) +
        (c'.any (·.op == op)).toNat := by
  have hown : ∀ (now : Nat) (d : Deal) (ε : List Dealing),
      (Dealing.deal t now d :: ε).filter (·.task? == some t) =
        .deal t now d :: ε.filter (·.task? == some t) := by
    intro now d ε
    simp [Dealing.task?]
  -- the induction is on the conversation: a call that starts is open until its answer or its end
  induction h with
  | nil => rfl
  | @called now o ε c h ih =>
    rw [hown]
    cases ho : o == op <;> simp [Dealing.opens, Dealing.closes, ho] at ih ⊢ <;> omega
  | @answered now due o result ε c hd h ih =>
    rw [hown]
    cases ho : o == op <;> simp [Dealing.opens, Dealing.closes, ho] at ih ⊢ <;> omega
  | @dropped now due o ε c h ih =>
    rw [hown]
    cases ho : o == op <;> simp [Dealing.opens, Dealing.closes, ho] at ih ⊢ <;> omega
  | scripted _ ih => exact ih
  | @other u now d ε c c' hu h ih =>
    -- what others deal is not counted here
    have hother : (Dealing.deal u now d :: ε).filter (·.task? == some t) =
        ε.filter (·.task? == some t) := by
      simp [Dealing.task?, hu]
    rw [hother]
    exact ih

/-- Every dealing is of one task, so the tasks' counts add up to the count of the whole run. -/
theorem sum_countP (S : Finset TaskId) {P : Dealing → Bool}
    (h : ∀ d ∈ ε, P d = true → ∃ t ∈ S, d.task? = some t) :
    ∑ t ∈ S, (ε.filter (·.task? == some t)).countP P = ε.countP P := by
  induction ε with
  | nil => simp
  | cons d ε ih =>
    have hrest := ih fun x hx => h x (List.mem_cons_of_mem d hx)
    have hhead : ∀ t, ((d :: ε).filter (·.task? == some t)).countP P =
        (ε.filter (·.task? == some t)).countP P +
          if d.task? = some t ∧ P d = true then 1 else 0 := by
      intro t
      by_cases ht : d.task? = some t <;> simp [ht, List.countP_cons]
    simp only [hhead]
    rw [Finset.sum_add_distrib, hrest, List.countP_cons]
    congr 1
    by_cases hp : P d = true
    · obtain ⟨t, ht, hd⟩ := h d List.mem_cons_self hp
      simp [hp, hd, ht]
    · simp [hp]

end Balance

namespace Client

variable {w : Client} {t : TaskId}

/-- The calls of all tasks together. -/
theorem sum_underWay (w : Client) (op : Operation) :
    ∑ t ∈ Finset.range w.tasks.length, ((w.underWay t).any (·.op == op)).toNat =
      w.tasks.countP (Task.asks op) := by
  have h : ∀ l : List Task, ∑ t ∈ Finset.range l.length,
      ((l[t]?.bind Task.pending?).any (·.op == op)).toNat = l.countP (Task.asks op) := by
    intro l
    induction l with
    | nil => rfl
    | cons k l ih =>
      rw [List.length_cons, Finset.sum_range_succ', List.countP_cons]
      simp only [List.getElem?_cons_succ, List.getElem?_cons_zero, ih]
      show _ + (Task.asks op k).toNat = _
      cases Task.asks op k <;> rfl
  exact h w.tasks

/-- The calls that were started are those that came to an end and those that are under way. It holds
for each task by its own conversation, and is summed over the tasks that deal. -/
theorem balance_tasks {latency : Nat} {ε : List Dealing}
    (h : ∀ t, Converses latency t none ε (w.underWay t)) (op : Operation) :
    ε.countP (Dealing.opens op) =
      ε.countP (Dealing.closes op) + w.tasks.countP (Task.asks op) := by
  -- the tasks that are there, and those that deal
  let S : Finset TaskId := Finset.range w.tasks.length ∪ (ε.filterMap Dealing.task?).toFinset
  have hmem : ∀ d ∈ ε, ∀ t, d.task? = some t → t ∈ S := by
    intro d hd t ht
    exact Finset.mem_union_right _ (List.mem_toFinset.2 (List.mem_filterMap.2 ⟨d, hd, ht⟩))
  have hopens : ∀ d ∈ ε, Dealing.opens op d = true → ∃ t ∈ S, d.task? = some t := by
    intro d hd hp
    cases d with
    | scripted => cases hp
    | deal t now d => exact ⟨t, hmem _ hd t rfl, rfl⟩
  have hcloses : ∀ d ∈ ε, Dealing.closes op d = true → ∃ t ∈ S, d.task? = some t := by
    intro d hd hp
    cases d with
    | scripted => cases hp
    | deal t now d => exact ⟨t, hmem _ hd t rfl, rfl⟩
  have hsum : ∑ t ∈ S, ((w.underWay t).any (·.op == op)).toNat =
      w.tasks.countP (Task.asks op) := by
    rw [← w.sum_underWay op]
    refine (Finset.sum_subset Finset.subset_union_left fun t _ ht => ?_).symm
    have hnone : w.task? t = none :=
      List.getElem?_eq_none (Nat.le_of_not_lt fun hlt => ht (Finset.mem_range.2 hlt))
    rw [underWay, hnone]
    rfl
  rw [← sum_countP S hopens, ← sum_countP S hcloses, ← hsum, ← Finset.sum_add_distrib]
  refine Finset.sum_congr rfl fun t _ => ?_
  exact (h t).balance op

/-! ## Who is cancelled -/

/-- The connect of the task was superseded, or the task is a poller that was told to stop. -/
def IsCancelled (w : Client) (t : TaskId) : Prop :=
  (∃ l ticket, w.stage t = some l ∧ l.ticket? = some ticket ∧ w.isVoid ticket = true) ∨
    ∃ p, w.task? t = some (.poller p) ∧ p.cancelled = true

theorem dropDeals_of_pending? {call : Call α} {c : OpenCall} (h : call.pending? = some c) :
    call.dropDeals = [.dropped c.op] := by
  cases call with
  | running ask due hold =>
    cases h
    rfl
  | held => cases h

/-- A connect that was superseded drops its call, be it at the backend or at its first look. -/
theorem lifecycleDeals_void {l : Lifecycle} {ticket : Nat} {c : OpenCall}
    (hl : l.ticket? = some ticket) (hv : w.isVoid ticket = true) (hc : l.pending? = some c) :
    w.lifecycleDeals t l = [.dropped c.op] := by
  cases l with
  | queued => cases hc
  | leaving | hangingUp => cases hl
  | dialing k call =>
    cases hl
    unfold lifecycleDeals
    dsimp only
    rw [if_pos hv]
    exact dropDeals_of_pending? hc
  | sampling k server call =>
    cases hl
    unfold lifecycleDeals
    dsimp only
    rw [if_pos hv]
    exact dropDeals_of_pending? hc

/-- A poller that was told to stop drops its look. -/
theorem pollerDeals_cancelled {p : Poller} {c : OpenCall} (hp : p.period = 0 → p.call = none)
    (hx : p.cancelled = true) (hc : p.call.bind Call.pending? = some c) :
    w.pollerDeals t p = [.dropped c.op] := by
  obtain ⟨call, hcall, hpending⟩ := Option.bind_eq_some_iff.1 hc
  have h0 : p.period ≠ 0 := by
    intro h0
    cases hcall.symm.trans (hp h0)
  unfold pollerDeals
  dsimp only
  rw [if_neg h0, if_pos hx, hcall]
  exact dropDeals_of_pending? hpending

/-- Who is cancelled during a call drops it first of all when it runs next, whatever it does after
that. -/
theorem dealings_cancelled (hp : w.Paced) {c : OpenCall} (hc : w.underWay t = some c)
    (hx : w.IsCancelled t) :
    ∃ ε, w.dealingsOf (.event (.poll t)) = .deal t w.now (.dropped c.op) :: ε := by
  suffices h : ∃ δ, ({ w with ready := w.ready.erase t } : Client).turnDeals t =
      .dropped c.op :: δ by
    obtain ⟨δ, h⟩ := h
    refine ⟨δ.map (.deal t w.now), ?_⟩
    show (({ w with ready := w.ready.erase t } : Client).turnDeals t).map _ = _
    rw [h]
    rfl
  unfold turnDeals
  rw [show ({ w with ready := w.ready.erase t } : Client).task? t = w.task? t from rfl]
  unfold underWay at hc
  unfold IsCancelled stage at hx
  cases hk : w.task? t with
  | none =>
    rw [hk] at hc
    cases hc
  | some k =>
    rw [hk] at hc hx
    rcases hx with ⟨l, ticket, hl, hticket, hv⟩ | ⟨p, hp', hcancelled⟩
    · -- a connect with a void ticket, be it that of a command or of a worker's job
      cases k with
      | command p =>
        cases p with
        | lifecycle l' | starting l' =>
          cases hl
          exact ⟨[], lifecycleDeals_void hticket hv hc⟩
        | fresh | loading | writing | sampling | asking => cases hl
      | worker b current =>
        cases current with
        | none => cases hl
        | some current =>
          obtain ⟨job, l'⟩ := current
          cases hl
          unfold workerDeals
          dsimp only
          rw [lifecycleDeals_void (w := { w with ready := w.ready.erase t }) hticket hv hc]
          exact ⟨_, rfl⟩
      | poller | receiver | ended => cases hl
    · -- a poller that was told to stop
      cases hp'
      exact ⟨[], pollerDeals_cancelled (hp t p hk) hcancelled hc⟩

end Client

/-- In every run over a simulated backend, the failures that were scripted for an operation are
those that were delivered, in order, and then those that wait; and its calls are those that a
failure was delivered to, those that were carried out, those that were dropped, and those under way.
An answer is made when the latency of its call is over, and takes the oldest failure if there is
one; a call has one end, so a failure never goes to one that was dropped.  Who is cancelled during a
call drops it. -/
theorem failures_doing (config : Config) (servers : List Server) (latency : Nat)
    (version : String) (deeds : List Deed) :
    let start := Client.fresh config servers latency version
    let w := start.doing deeds
    (∃ σ, start.Account deeds σ ∧ ∀ op : Operation,
      deeds.filterMap (Deed.scripts op) =
        σ.filterMap (Entry.delivers op) ++ w.backend.failures.get op ∧
      w.backend.calls.get op =
        (σ.filterMap (Entry.delivers op)).length + σ.countP (Entry.proceeds op) +
          σ.countP (Entry.drops op) + w.tasks.countP (Task.asks op)) ∧
    ∀ t, Converses latency t none (start.dealings deeds) (w.underWay t) ∧
      ∀ c, w.underWay t = some c → w.IsCancelled t →
        ∃ ε, w.dealingsOf (.event (.poll t)) = .deal t w.now (.dropped c.op) :: ε := by
  intro start w
  have hsteady : start.Steady :=
    Client.steady_make config (Backend.prompt_make servers latency version)
  have hpaced : start.Paced := fun t p hp => by cases hp
  have hconverses : ∀ t, Converses latency t none (start.dealings deeds) (w.underWay t) :=
    Client.converses_doing hsteady hpaced deeds
  constructor
  · obtain ⟨σ, hσ⟩ := Client.account_doing hsteady deeds
    refine ⟨σ, hσ, fun op => ⟨?_, ?_⟩⟩
    · -- the book of the failures
      have h := hσ.entered.failures op
      have h0 : start.core.scene.backend.failures.get op = [] := Operation.Table.get_const [] op
      rw [hσ.entries, Client.scripts_dealings, h0] at h
      exact h
    · -- the book of the calls
      have h := hσ.entered.calls op
      rw [hσ.entries, Client.balance_tasks hconverses op, ← hσ.entries, closes_dealing] at h
      have h0 : start.core.scene.backend.calls.get op = 0 := Operation.Table.get_const 0 op
      rw [h0, Nat.zero_add] at h
      exact h
  · -- each task's own conversation, and what it drops first when it is cancelled
    intro t
    exact ⟨hconverses t, fun c hc hx =>
      Client.dealings_cancelled (Client.paced_doing hsteady hpaced deeds) hc hx⟩

-- a disconnect cancels the first connect on the backend; the failure waits for the second one
example :
    let start := Client.fresh Config.default [Server.make "a" "" "" "" ""] 5 "1"
    let deeds : List Deed := [.event (.fail .connect (.unavailable "down")),
      .event (.call (.connect "a")), .event (.pass 2), .event (.call .disconnect),
      .event (.poll 0), .event (.poll 1), .event (.pass 5), .event (.poll 1),
      .event (.call (.connect "a")), .event (.pass 5), .event (.poll 2)]
    start.dealings deeds = [.scripted .connect (.unavailable "down"),
      .deal 0 0 (.called .connect), .deal 0 2 (.dropped .connect),
      .deal 1 2 (.called .disconnect), .deal 1 7 (.answered .disconnect 7 (.ok ())),
      .deal 2 7 (.called .connect),
      .deal 2 12 (.answered .connect 12 (.error (.unavailable "down")))] := by
  rfl

end TunnelSession

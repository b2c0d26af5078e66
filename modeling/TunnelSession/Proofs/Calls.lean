/-
  Calls to a backend that holds nothing back.

  A call of a simulated backend is answered as soon as its latency is over, so there are two cases
  everywhere: it waits, or the backend answered it (`startCall_cases`, `resumeCall_cases`).  A task
  is `Sound` if the call it waits for is the one that its stage says.
-/
import TunnelSession.Proofs.Moves

namespace TunnelSession

variable {α : Type}

/-- The call is under way, and its answer will not be held back. -/
def Call.Runs (call : Call α) (ask : Ask α) : Prop := ∃ due, call = .running ask due 0

/-- The request asks for a tunnel. -/
def Ask.IsDial (ask : Ask Server) : Prop := (∃ id, ask = .connect id) ∨ ask = .quickConnect

/-- The stage waits for the call that belongs to it. -/
def Lifecycle.Sound : Lifecycle → Prop
  | .dialing _ call => ∃ ask, ask.IsDial ∧ call.Runs ask
  | .sampling _ _ call => call.Runs .stats
  | .hangingUp call => call.Runs .disconnect
  | .queued .. | .leaving => True

/-- The change waits for the call that belongs to it. -/
def Writing.Sound : Writing → Prop
  | .queued _ => True
  | .saving merged call => call.Runs (.save merged)
  | .toggling flag requested call => call.Runs (.toggle flag requested)

/-- The task waits for the call that belongs to its stage. -/
def Task.Sound : Task → Prop
  | .command (.lifecycle l) => l.Sound
  | .command (.starting l) => l.Sound
  | .command (.writing p) => p.Sound
  | .command (.loading _ call) => call.Runs .servers
  | .command (.sampling call) => call.Runs .stats
  | .command (.asking call) => call.Runs .version
  | .worker _ (some (_, l)) => l.Sound
  | _ => True

/-- The backend holds no answer back. -/
def Backend.Prompt (b : Backend) : Prop := b.holds = .const []

namespace Backend

theorem prompt_make (servers : List Server) (latency : Nat) (version : String) :
    (make servers latency version).Prompt := rfl

theorem Prompt.hold {b : Backend} (h : b.Prompt) (op : Operation) : b.hold op = 0 := by
  unfold Backend.hold
  rw [show b.holds = .const [] from h, Operation.Table.get_const]
  rfl

/-- A call takes the next time that an answer is held back; there is none to take. -/
theorem Prompt.dropHold {b : Backend} (h : b.Prompt) (op : Operation) : b.dropHold op = b := by
  unfold Backend.dropHold
  rw [show b.holds = .const [] from h, Operation.Table.get_const]
  cases b
  -- the table is constant, so every entry of it is empty
  cases op <;> cases h <;> rfl

theorem Prompt.count {b : Backend} (h : b.Prompt) (op : Operation) : (b.count op).Prompt := h

/-- An answer is the oldest failure, or what the request does. -/
theorem answer_cases (b : Backend) (now : Nat) (ask : Ask α) :
    (∃ e rest, b.failures.get ask.operation = e :: rest ∧
      b.answer now ask = (.error e, { b with failures := b.failures.set ask.operation rest })) ∨
    (b.failures.get ask.operation = [] ∧ b.answer now ask = b.perform now ask) := by
  unfold answer
  split
  · rename_i e rest h
    exact .inl ⟨e, rest, h, rfl⟩
  · rename_i h
    exact .inr ⟨h, rfl⟩

/-- An answer leaves what is held back, the servers, the latency, the version and the pins. -/
theorem answer_frame (b : Backend) (now : Nat) (ask : Ask α) :
    (b.answer now ask).2.holds = b.holds ∧ (b.answer now ask).2.servers = b.servers ∧
      (b.answer now ask).2.latency = b.latency ∧ (b.answer now ask).2.version = b.version ∧
      (b.answer now ask).2.pins = b.pins ∧ (b.answer now ask).2.calls = b.calls := by
  unfold answer
  split
  · exact ⟨rfl, rfl, rfl, rfl, rfl, rfl⟩
  · cases ask <;> unfold perform <;> dsimp only <;> (try split) <;>
      exact ⟨rfl, rfl, rfl, rfl, rfl, rfl⟩

theorem Prompt.answer {b : Backend} (h : b.Prompt) (now : Nat) (ask : Ask α) :
    (b.answer now ask).2.Prompt :=
  (answer_frame b now ask).1.trans h

end Backend

namespace Client

/-- A call that starts waits for the latency, or is answered. It is answered at once only if there
is no latency. -/
theorem startCall_cases (w : Client) (t : TaskId) (ask : Ask α) (hw : w.backend.Prompt) :
    (∃ w', w.startCall t ask = (w', .waiting (.running ask w.core.due 0)) ∧
      w.core.now < w.core.due ∧
      w'.core = { w.core with backend := w.core.backend.count ask.operation }) ∨
    (∃ w' a b, w.startCall t ask = (w', .done a) ∧ w.core.due ≤ w.core.now ∧
      (w.core.backend.count ask.operation).answer w.core.now ask = (a, b) ∧
      w'.core = { w.core with backend := b }) := by
  unfold startCall
  dsimp only
  rw [hw.hold, hw.dropHold]
  -- is the latency zero?
  split
  · rename_i h
    right
    exact ⟨_, _, _, rfl, Nat.le_of_eq (congrArg (w.now + ·) h), rfl, rfl⟩
  · rename_i h
    left
    exact ⟨_, rfl, Nat.lt_add_of_pos_right (Nat.pos_of_ne_zero h), core_arm _ _ _⟩

/-- A call that goes on waits as before, or is answered. -/
theorem resumeCall_cases (w : Client) (t : TaskId) {call : Call α} {ask : Ask α}
    (hc : call.Runs ask) :
    (∃ w', w.resumeCall t call = (w', .waiting call) ∧ w.core.now < call.due ∧
      w'.core = w.core) ∨
    (∃ w' a b, w.resumeCall t call = (w', .done a) ∧ call.due ≤ w.core.now ∧
      w.core.backend.answer w.core.now ask = (a, b) ∧ w'.core = { w.core with backend := b }) := by
  obtain ⟨due, rfl⟩ := hc
  unfold resumeCall
  split
  · rename_i h
    left
    exact ⟨_, rfl, h, core_arm _ _ _⟩
  · rename_i h
    right
    exact ⟨_, _, _, rfl, Nat.le_of_not_lt h, rfl, rfl⟩

end Client

end TunnelSession

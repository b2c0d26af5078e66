/-
  The best server of a list, and the backend that picks it.

  KEY.  Servers compare by load, and among equal loads by latency; one that does not know its
  latency has the largest of 32 bits, which another may really have (`Server.key`, in the
  lexicographic order).  The comparison of ranks is this order (`Server.rankLt_iff`).

  FIRST OF THE LEAST.  A server takes the place of the best so far only if it is below it, so the
  best of a list is its first least member (`Server.best?_eq_argmin`).  It stands at the first place
  whose server no other is below (`Server.isLeast_of_best`).

  BACKEND.  A quick connect that no scripted failure meets is refused if there are no servers, and
  brings the tunnel up to the server of that place otherwise (`Backend.Picks`); nothing else
  changes.
-/
import Mathlib.Data.List.MinMax
import Mathlib.Data.Prod.Lex
import Mathlib.Order.Bounds.Basic
import TunnelSession.Proofs.Calls

namespace TunnelSession

namespace Server

/-- What servers are ordered by: the load, then the latency, with the largest of 32 bits for an
unknown one. -/
def key (s : Server) : Nat ×ₗ Nat := toLex (s.load.toNat, s.latency.elim 4294967295 UInt32.toNat)

/-- The places of a list at which a server stands that no server of the list is below. -/
def unbeaten (servers : List Server) : Set Nat :=
  {i | ∃ s, servers[i]? = some s ∧ ∀ other ∈ servers, ¬ other.key < s.key}

variable {r s : Server} {servers : List Server}

theorem toLex_rank (s : Server) : toLex s.rank = s.key := by
  unfold rank key
  cases s.latency <;> rfl

theorem rankLt_iff : rankLt r.rank s.rank = true ↔ r.key < s.key := by
  rw [← toLex_rank, ← toLex_rank, Prod.Lex.toLex_lt_toLex]
  simp [rankLt]

/-- The last server is the best if it is below the best of the others. -/
theorem bestFrom_concat (best : Server) (rest : List Server) (s : Server) :
    bestFrom best (rest ++ [s]) =
      if s.key < (bestFrom best rest).key then s else bestFrom best rest := by
  induction rest generalizing best with
  | nil => exact if_congr rankLt_iff rfl rfl
  | cons r rest ih => exact ih _

/-- The best server is the first that has the least key. -/
theorem best?_eq_argmin (servers : List Server) : best? servers = servers.argmin key := by
  cases servers with
  | nil => rfl
  | cons best rest =>
    show some (bestFrom best rest) = _
    -- from the end, where either side compares the next server with the best before it
    induction rest using List.reverseRecOn with
    | nil => rfl
    | append_singleton rest s ih =>
      rw [bestFrom_concat, ← List.cons_append, List.argmin_concat, ← ih]
      exact apply_ite some _ _ _

theorem best?_eq_none_iff : best? servers = none ↔ servers = [] := by
  rw [best?_eq_argmin, List.argmin_eq_none]

/-- The best server has the first unbeaten place. -/
theorem isLeast_of_best (h : best? servers = some s) :
    servers[servers.idxOf s]? = some s ∧ IsLeast (unbeaten servers) (servers.idxOf s) := by
  rw [best?_eq_argmin, List.argmin_eq_some_iff] at h
  obtain ⟨hmem, hle, hfirst⟩ := h
  have hget := List.getElem?_idxOf hmem
  refine ⟨hget, ⟨s, hget, fun other ho => (hle other ho).not_gt⟩, ?_⟩
  rintro j ⟨r, hr, hbest⟩
  have hrs : r.key ≤ s.key := not_lt.1 (hbest s hmem)
  -- where `r` is first is at or behind `s`, and `j` is no earlier
  refine (hfirst r (List.mem_of_getElem? hr) hrs).trans (not_lt.1 fun hj => ?_)
  obtain ⟨hlt, rfl⟩ := List.getElem?_eq_some_iff.1 hr
  simpa using List.not_of_lt_findIdx hj

end Server

namespace Backend

variable {b : Backend} {now : Nat}

/-- What a quick connect comes to that is answered at some time.  Without servers it is refused, and
changes nothing.  Otherwise it reaches the server of the first unbeaten place: the tunnel leads
there from now on, with all counters at zero. -/
structure Picks (b : Backend) (now : Nat) (answer : Except BackendError Server) (b' : Backend) :
    Prop where
  fails : (∃ e, answer = .error e) ↔ b.servers = []
  refused : b.servers = [] → answer = .error (.rejected "no servers available") ∧ b' = b
  reached : b.servers ≠ [] → ∃ i server, IsLeast (Server.unbeaten b.servers) i ∧
    b.servers[i]? = some server ∧ answer = .ok server ∧
    b' = { b with tunnel := some ⟨server.id, now, 0, 0, now⟩ }

/-- A quick connect that is carried out picks the best server, if there is one. -/
theorem picks_perform (b : Backend) (now : Nat) :
    Picks b now (b.perform now .quickConnect).1 (b.perform now .quickConnect).2 := by
  unfold perform
  dsimp only
  cases hbest : Server.best? b.servers with
  | none =>
    -- without servers it is refused, and nothing changes
    have hnil : b.servers = [] := Server.best?_eq_none_iff.1 hbest
    exact {
      fails := ⟨fun _ => hnil, fun _ => ⟨_, rfl⟩⟩
      refused := fun _ => ⟨rfl, rfl⟩
      reached := fun hne => absurd hnil hne }
  | some server =>
    have hne : b.servers ≠ [] := fun hnil => by
      rw [Server.best?_eq_none_iff.2 hnil] at hbest
      cases hbest
    obtain ⟨hget, hleast⟩ := Server.isLeast_of_best hbest
    exact {
      fails := ⟨fun ⟨_, he⟩ => (nomatch he), fun hnil => absurd hnil hne⟩
      refused := fun hnil => absurd hnil hne
      reached := fun _ => ⟨_, server, hleast, hget, rfl, rfl⟩ }

theorem picks_answer (h : b.failures.get .quickConnect = []) :
    Picks b now (b.answer now .quickConnect).1 (b.answer now .quickConnect).2 := by
  rcases b.answer_cases now .quickConnect with ⟨e, rest, hf, -⟩ | ⟨-, heq⟩
  · cases h.symm.trans hf
  · rw [heq]
    exact picks_perform b now

/-- When no failure is scripted for it, a quick connect fails exactly if there are no servers, and
then is rejected and leaves the tunnel; otherwise it comes to the server at the first place whose
load and latency no other server is below, and the tunnel leads there with its counters at zero.
That is so for a call whose latency is over, whatever happened meanwhile, and for one that nothing
else overlaps, which besides is counted and takes the latency. -/
theorem quickConnect_picks_best (b : Backend) (now : Nat)
    (h : b.failures.get .quickConnect = []) :
    Picks b now (b.answer now .quickConnect).1 (b.answer now .quickConnect).2 ∧
    let call := b.callAlone now .quickConnect
    call.2.2 = now + b.latency ∧
      Picks (b.count .quickConnect) (now + b.latency) call.1 call.2.1 :=
  ⟨picks_answer h, rfl, picks_answer h⟩

/-- Two servers of the same load, the first without a latency and the other with the largest one; a
failure that is scripted for connects does not matter, nor does the tunnel that is up. -/
theorem quickConnect_picks_best_tied :
    let first := (Server.make "a" "" "" "" "").withLoad 4
    let servers := [(Server.make "far" "" "" "" "").withLoad 5 |>.withLatency 1, first,
      (Server.make "b" "" "" "" "").withLoad 4 |>.withLatency 4294967295]
    let b := { Backend.make servers 5 "1" with
      tunnel := some ⟨"far", 1, 262144, 32768, 3⟩ }.failNext .connect (.rejected "no")
    b.failures.get .quickConnect = [] ∧
    (∃ i, servers[i]? = some first ∧ IsLeast (Server.unbeaten servers) i) ∧
    (b.callAlone 7 .quickConnect).1 = .ok first ∧
    (b.callAlone 7 .quickConnect).2.1.tunnel = some ⟨"a", 12, 0, 0, 12⟩ := by
  intro first servers b
  have hanswer : (b.callAlone 7 .quickConnect).1 = .ok first := rfl
  obtain ⟨i, server, hleast, hget, hok, hb⟩ :=
    (quickConnect_picks_best b 7 rfl).2.2.reached (List.cons_ne_nil _ _)
  cases hanswer.symm.trans hok
  exact ⟨rfl, ⟨i, hget, hleast⟩, rfl, congrArg Backend.tunnel hb⟩

end Backend

end TunnelSession

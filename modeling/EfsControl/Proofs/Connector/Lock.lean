/-
# Who holds the exchange lock

The lock is a queue whose first party holds it. A call is in it from its
arrival to its end, so a call whose command is on its way holds the lock and
there is at most one of them. The worker is in it while it hands over a
connection or takes one away.

Key definitions: `Lock.parties`, `Orderly`.
Key theorems: `Move.orderly`, `Orderly.busy_unique`.
-/
import EfsControl.Proofs.Connector.Calls
import Mathlib.Data.List.Nodup
import Mathlib.Tactic.Common

namespace EfsControl
namespace Connector

namespace Lock

variable {l : Lock} {p : Party}

/-- Who holds the lock and who waits for it, in order. -/
def parties (l : Lock) : List Party := l.holder.toList ++ l.queue

theorem parties_request (hf : l.holder = none → l.queue = []) :
    (l.request p).parties = l.parties ++ [p] := by
  unfold request parties
  cases h : l.holder with
  | none => simp [hf h]
  | some q => simp

theorem parties_release (l : Lock) : l.release.parties = l.queue := by
  unfold release parties
  cases l.queue <;> rfl

theorem parties_of_holder (h : l.holder = some p) : l.parties = p :: l.queue := by
  simp [parties, h]

theorem holder_mem (h : l.holder = some p) : p ∈ l.parties := by simp [parties, h]

theorem parties_leave (hn : l.parties.Nodup) : (l.leave p).parties = l.parties.filter (· != p) := by
  unfold leave
  split
  · rename_i h
    rw [parties_of_holder h, List.nodup_cons] at hn
    rw [parties_release, parties_of_holder h]
    have : ∀ q ∈ l.queue, (q != p) = true := fun q hq => by
      have hne : q ≠ p := fun he => hn.1 (he ▸ hq)
      simpa using hne
    simpa using (List.filter_eq_self.mpr this).symm
  · rename_i h
    cases hh : l.holder with
    | none => simp [parties, hh]
    | some q =>
      have hq : q ≠ p := fun he => h (he ▸ hh)
      simp [parties, hh, hq]

/-- The lock is free only when nobody waits for it. -/
theorem request_free : (l.request p).holder = none → (l.request p).queue = [] := by
  unfold request
  cases h : l.holder <;> simp

theorem release_free : l.release.holder = none → l.release.queue = [] := by
  unfold release
  cases l.queue <;> simp

theorem leave_free (hf : l.holder = none → l.queue = []) :
    (l.leave p).holder = none → (l.leave p).queue = [] := by
  unfold leave
  split
  · exact release_free
  · intro h
    simp [hf h]

/-- Asking for the lock takes it from nobody. -/
theorem holder_request {q : Party} (h : l.holder = some q) : (l.request p).holder = some q := by
  simp [request, h]

/-- Who has left does not hold the lock. -/
theorem holder_leave_ne (hn : l.parties.Nodup) : (l.leave p).holder ≠ some p := fun h => by
  have hm := holder_mem h
  rw [parties_leave hn, List.mem_filter] at hm
  simp at hm

/-- Someone else's leaving takes the lock from nobody. -/
theorem holder_leave {q : Party} (h : l.holder = some q) (hq : q ≠ p) :
    (l.leave p).holder = some q := by
  simp [leave, h, hq]

end Lock

/-! ### The order -/

/-- Whether the worker asks for the lock or has it. -/
def Worker.waits : Worker → Bool
  | .installing _ | .disconnecting _ => true
  | _ => false

/-- Who holds the lock and who waits for it, in a state that can come about. -/
structure Orderly (s : State) : Prop where
  /-- The lock is free only when nobody waits for it. -/
  free : s.lock.holder = none → s.lock.queue = []
  nodup : s.lock.parties.Nodup
  /-- Only calls that have not come to their end are at the lock. -/
  member : ∀ id, .call id ∈ s.lock.parties → ∃ p, s.phase? id = some p ∧ p.isOver = false
  /-- A call whose command is on its way holds the lock. -/
  busy : ∀ id p, s.phase? id = some p → p.isBusy = true → s.lock.holder = some (.call id)
  worker : .worker ∈ s.lock.parties → s.worker.waits = true

variable {id : Nat} {p q : Phase}

namespace Orderly

theorem init : Orderly {} where
  free _ := rfl
  nodup := by simp [Lock.parties]
  member := by simp [Lock.parties]
  busy := by simp [State.phase?]
  worker := by simp [Lock.parties]

/-- Only one call's command is on its way. -/
theorem busy_unique (h : Orderly s) {i j : Nat} (hi : s.phase? i = some p)
    (hj : s.phase? j = some q) (bi : p.isBusy = true) (bj : q.isBusy = true) : i = j := by
  have he := (h.busy i p hi bi).symm.trans (h.busy j q hj bj)
  simpa using he

/-- While the worker has the lock, no command is on its way. -/
theorem not_busy (h : Orderly s) (hl : s.lock.holder = some .worker) (hp : s.phase? id = some p) :
    p.isBusy = false := by
  by_contra hb
  have := (h.busy id p hp (by simpa using hb)).symm.trans hl
  cases this

/-- While a call that has not begun has the lock, no command is on its way. -/
theorem not_busy_of_queued (h : Orderly s) (hl : s.lock.holder = some (.call id))
    (hq : s.phase? id = some .queued) {i : Nat} (hp : s.phase? i = some p) : p.isBusy = false := by
  by_contra hb
  have he := (h.busy i p hp (by simpa using hb)).symm.trans hl
  obtain rfl : i = id := by simpa using he
  rw [hq] at hp
  cases hp
  exact hb rfl

/-- The worker is not at the lock while it does something else. -/
theorem worker_not_mem (h : Orderly s) (hw : s.worker.waits = false) : .worker ∉ s.lock.parties :=
  fun hm => by simp [h.worker hm] at hw

/-- Nothing that the order speaks of has changed. -/
theorem congr (h : Orderly s) (hl : s'.lock = s.lock) (hp : ∀ i, s'.phase? i = s.phase? i)
    (hw : s.worker.waits = true → s'.worker.waits = true) : Orderly s' where
  free := hl ▸ h.free
  nodup := hl ▸ h.nodup
  member i hi := by rw [hp]; exact h.member i (hl ▸ hi)
  busy i p hi hb := by rw [hl]; exact h.busy i p (hp i ▸ hi) hb
  worker hm := hw (h.worker (hl ▸ hm))

/-- The call that has the lock goes on. -/
theorem advance (h : Orderly s) (hl : s.lock.holder = some (.call id)) (hp : s.phase? id = some p)
    (hq : q.isOver = false) : Orderly (s.onCall id fun c => { c with phase := q }) where
  free := h.free
  nodup := h.nodup
  member i hi := by
    rw [State.phase?_onCall hp]
    split
    · exact ⟨q, rfl, hq⟩
    · exact h.member i hi
  busy i p' hi hb := by
    rw [State.phase?_onCall hp] at hi
    split at hi
    · rename_i he
      exact he ▸ hl
    · exact h.busy i p' hi hb
  worker := h.worker

/-- The call that has the lock ends and gives it back. -/
theorem finish (h : Orderly s) (hl : s.lock.holder = some (.call id)) (hp : s.phase? id = some p)
    (result : ExchangeResult) : Orderly (s.finish id result).1 := by
  have hn := h.nodup
  rw [Lock.parties_of_holder hl, List.nodup_cons] at hn
  have hq : (s.finish id result).1.lock.parties = s.lock.queue := Lock.parties_release _
  have hmem : ∀ x, x ∈ s.lock.queue → x ∈ s.lock.parties := fun x hx => by
    rw [Lock.parties_of_holder hl]
    exact List.mem_cons_of_mem _ hx
  refine ⟨Lock.release_free, hq ▸ hn.2, fun i hi => ?_, fun i p' hi hb => ?_, fun hm => ?_⟩
  · rw [hq] at hi
    have hne : i ≠ id := fun he => hn.1 (he ▸ hi)
    rw [State.phase?_finish hp, if_neg hne]
    exact h.member i (hmem _ hi)
  · rw [State.phase?_finish hp] at hi
    split at hi
    · cases hi
      simp [Phase.isBusy] at hb
    · rename_i hne
      have he := (h.busy i p' hi hb).symm.trans hl
      exact absurd (by simpa using he) hne
  · rw [hq] at hm
    exact h.worker (hmem _ hm)

/-- A new call asks for the lock. -/
theorem arrive (h : Orderly s) (subcommand : String) (args : List Arg) :
    Orderly { s with
      calls := s.calls ++ [{ subcommand := subcommand, args := args }]
      lock := s.lock.request (.call s.calls.length) } := by
  set t : State := { s with
    calls := s.calls ++ [{ subcommand := subcommand, args := args }]
    lock := s.lock.request (.call s.calls.length) } with ht
  have hpar : t.lock.parties = s.lock.parties ++ [.call s.calls.length] :=
    Lock.parties_request h.free
  have hph : ∀ i, t.phase? i = if i = s.calls.length then some .queued else s.phase? i :=
    State.phase?_arrive subcommand args
  have hne : ∀ i, .call i ∈ s.lock.parties → i ≠ s.calls.length := fun i hm he => by
    obtain ⟨p, hp, -⟩ := h.member i hm
    exact Nat.lt_irrefl _ (he ▸ State.phase?_lt hp)
  refine ⟨Lock.request_free, ?_, fun i hi => ?_, fun i p hi hb => ?_, fun hm => ?_⟩
  · rw [hpar]
    have hnot : .call s.calls.length ∉ s.lock.parties := fun hm => hne _ hm rfl
    exact List.Nodup.append h.nodup (List.nodup_singleton _) (List.disjoint_singleton.mpr hnot)
  · rw [hpar, List.mem_append, List.mem_singleton] at hi
    rcases hi with hi | hi
    · rw [hph, if_neg (hne i hi)]
      exact h.member i hi
    · cases hi
      exact ⟨.queued, by rw [hph, if_pos rfl], rfl⟩
  · rw [hph] at hi
    split at hi
    · cases hi
      cases hb
    · exact Lock.holder_request (h.busy i p hi hb)
  · rw [hpar, List.mem_append, List.mem_singleton] at hm
    rcases hm with hm | hm
    · exact h.worker hm
    · cases hm

/-- A caller goes away. -/
theorem drop (h : Orderly s) (hp : s.phase? id = some p) :
    Orderly (State.onCall { s with lock := s.lock.leave (.call id) } id
      fun c => { c with phase := .dropped }) := by
  set t : State := { s with lock := s.lock.leave (.call id) } with ht
  have hph : ∀ i, (t.onCall id fun c => { c with phase := .dropped }).phase? i =
      if i = id then some .dropped else s.phase? i := State.phase?_onCall (s := t) hp .dropped
  have hpar : t.lock.parties = s.lock.parties.filter (· != .call id) := Lock.parties_leave h.nodup
  refine ⟨Lock.leave_free h.free, ?_, fun i hi => ?_, fun i p' hi hb => ?_, fun hm => ?_⟩
  · exact hpar ▸ h.nodup.filter _
  · change .call i ∈ t.lock.parties at hi
    rw [hpar, List.mem_filter] at hi
    have hne : i ≠ id := by simpa using hi.2
    rw [hph, if_neg hne]
    exact h.member i hi.1
  · rw [hph] at hi
    split at hi
    · cases hi
      simp [Phase.isBusy] at hb
    · rename_i hne
      exact Lock.holder_leave (h.busy i p' hi hb) (by simpa using hne)
  · change .worker ∈ t.lock.parties at hm
    rw [hpar, List.mem_filter] at hm
    exact h.worker hm.1

/-- The worker asks for the lock. -/
theorem request (h : Orderly s) (hw : .worker ∉ s.lock.parties)
    (hl : s'.lock = s.lock.request .worker) (hp : ∀ i, s'.phase? i = s.phase? i)
    (hk : s'.worker.waits = true) : Orderly s' := by
  have hpar : s'.lock.parties = s.lock.parties ++ [.worker] := hl ▸ Lock.parties_request h.free
  refine ⟨hl ▸ Lock.request_free, ?_, fun i hi => ?_, fun i p hi hb => ?_, fun _ => hk⟩
  · rw [hpar]
    exact List.Nodup.append h.nodup (List.nodup_singleton _) (List.disjoint_singleton.mpr hw)
  · rw [hpar, List.mem_append, List.mem_singleton] at hi
    rcases hi with hi | hi
    · rw [hp]
      exact h.member i hi
    · cases hi
  · rw [hl]
    exact Lock.holder_request (h.busy i p (hp i ▸ hi) hb)

/-- The worker gives the lock back. -/
theorem release (h : Orderly s) (hl : s.lock.holder = some .worker)
    (hl' : s'.lock = s.lock.release) (hp : ∀ i, s'.phase? i = s.phase? i) : Orderly s' := by
  have hn := h.nodup
  rw [Lock.parties_of_holder hl, List.nodup_cons] at hn
  have hpar : s'.lock.parties = s.lock.queue := hl' ▸ Lock.parties_release _
  refine ⟨hl' ▸ Lock.release_free, hpar ▸ hn.2, fun i hi => ?_, fun i p hi hb => ?_, fun hm => ?_⟩
  · rw [hp]
    refine h.member i ?_
    rw [Lock.parties_of_holder hl]
    exact List.mem_cons_of_mem _ (hpar ▸ hi)
  · simp [h.not_busy hl (hp i ▸ hi)] at hb
  · exact absurd (hpar ▸ hm) hn.1

/-- The worker gives up waiting for the lock. -/
theorem leave (h : Orderly s) : Orderly { s with lock := s.lock.leave .worker } := by
  set t : State := { s with lock := s.lock.leave .worker } with ht
  have hpar : t.lock.parties = s.lock.parties.filter (· != .worker) := Lock.parties_leave h.nodup
  refine ⟨Lock.leave_free h.free, ?_, fun i hi => ?_, fun i p hi hb => ?_, fun hm => ?_⟩
  · exact hpar ▸ h.nodup.filter _
  · rw [hpar, List.mem_filter] at hi
    exact h.member i hi.1
  · exact Lock.holder_leave (h.busy i p hi hb) (by simp)
  · rw [hpar, List.mem_filter] at hm
    simp at hm

/-- The worker stops using a connection or trying to get one, and asks for the lock. -/
theorem tearDown (h : Orderly s) (hw : s.worker.waits = false) (final : Bool) :
    Orderly (s.tearDown final) :=
  h.request (h.worker_not_mem hw) rfl (State.phase?_tearDown s final) rfl

theorem onConn (h : Orderly s) (c : Nat) (f : Connection → Connection) : Orderly (s.onConn c f) :=
  h.congr rfl (fun _ => rfl) fun hw => hw

theorem cancel (h : Orderly s) (i : Nat) (seq : Option UInt32) : Orderly (s.cancel i seq) :=
  h.congr rfl (State.phase?_cancel s i seq) fun hw => hw

/-- The worker stops reading a connection. -/
theorem endReading {conn : Nat} (h : Orderly s) (hw : s.worker = .reading conn) (final : Bool) :
    Orderly ((s.abandonConn conn).tearDown final) := by
  have hs : (s.abandonConn conn).worker.waits = false := by
    show s.worker.waits = false
    simp [hw, Worker.waits]
  exact (h.onConn _ _).tearDown hs final

end Orderly

/-- Every move keeps the order at the lock. -/
theorem Move.orderly {a : Action} (hm : Move setup s a s' ns) (h : Orderly s) : Orderly s' := by
  cases hm with
  | arrive subcommand args => exact h.arrive subcommand args
  | refuse hc hp hl _ => exact h.finish hl (hp ▸ State.phase?_eq hc) _
  | reject hc hp hl _ _ =>
    have hs : Orderly { s with nextSeq := (takeSeq setup.config s).2.nextSeq } :=
      h.congr rfl (fun _ => rfl) fun hw => hw
    exact hs.finish hl (hp ▸ State.phase?_eq hc) _
  | @register i _ _ _ hc hp hl _ _ _ =>
    have hs : Orderly { s with
        nextSeq := (takeSeq setup.config s).2.nextSeq
        correlator := { s.correlator with
          pending := s.correlator.pending ++ [⟨(takeSeq setup.config s).1, [], i⟩] } } :=
      h.congr rfl (fun _ => rfl) fun hw => hw
    exact hs.advance hl (hp ▸ State.phase?_eq hc) rfl
  | write hc hp _ _ =>
    have hq := hp ▸ State.phase?_eq hc
    exact (h.onConn _ _).advance (h.busy _ _ hq rfl) hq rfl
  | send hc hp _ _ =>
    have hq := hp ▸ State.phase?_eq hc
    exact (h.onConn _ _).advance (h.busy _ _ hq rfl) hq rfl
  | writeFail _ hc hp =>
    have hq := hp ▸ State.phase?_eq hc
    exact (h.cancel _ _).finish (h.busy _ _ hq rfl) ((State.phase?_cancel ..).trans hq) _
  | sever hc hp _ =>
    have hq := hp ▸ State.phase?_eq hc
    exact h.finish (h.busy _ _ hq rfl) hq _
  | fail hc hp _ =>
    have hq := hp ▸ State.phase?_eq hc
    exact h.finish (h.busy _ _ hq rfl) hq _
  | answer hc hp _ =>
    have hq := hp ▸ State.phase?_eq hc
    exact h.finish (h.busy _ _ hq rfl) hq _
  | expire hc hp _ _ =>
    have hq := hp ▸ State.phase?_eq hc
    exact h.advance (h.busy _ _ hq rfl) hq rfl
  | giveUp hc hp _ =>
    have hq := hp ▸ State.phase?_eq hc
    exact (h.cancel _ _).finish (h.busy _ _ hq rfl) ((State.phase?_cancel ..).trans hq) _
  | @giveUpLate i _ _ _ hc hp _ _ =>
    have hq := hp ▸ State.phase?_eq hc
    have hs : Orderly { s.cancel i none with connected := false, writer := none } :=
      (h.cancel i none).congr rfl (fun _ => rfl) fun hw => hw
    exact hs.finish (h.busy _ _ hq rfl) ((State.phase?_cancel ..).trans hq) _
  | @close i _ conn' _ _ hc hp _ _ =>
    have hq := hp ▸ State.phase?_eq hc
    have hs : Orderly (State.sealConn
        { s.cancel i none with connected := false, writer := none } conn') :=
      (h.cancel i none).congr rfl (fun _ => rfl) fun hw => hw
    exact hs.advance (h.busy _ _ hq rfl) ((State.phase?_cancel ..).trans hq) rfl
  | notify hc hp _ =>
    have hq := hp ▸ State.phase?_eq hc
    have hs : Orderly { s with resync := true } := h.congr rfl (fun _ => rfl) fun hw => hw
    exact hs.finish (h.busy _ _ hq rfl) hq _
  | drop hc _ _ _ => exact h.drop (State.phase?_eq hc)
  | start hw => exact h.congr rfl (fun _ => rfl) (by simp [hw, Worker.waits])
  | connect hw =>
    exact h.request (h.worker_not_mem (by simp [hw, Worker.waits])) rfl (fun _ => rfl) rfl
  | connectFail _ hw => exact h.tearDown (by simp [hw, Worker.waits]) false
  | install _ hl => exact h.release hl rfl fun _ => rfl
  | «open» hw => exact h.congr rfl (fun _ => rfl) (by simp [hw, Worker.waits])
  | skip _ => exact h.onConn _ _
  | hear _ _ _ => exact h.onConn _ _
  | reply _ _ =>
    refine (h.onConn _ _).congr (routeReply_lock ..) (fun i => routeReply_phase? ..) fun hw => ?_
    rw [routeReply_worker]
    exact hw
  | readEnd hw => exact h.endReading hw false
  | readFail _ hw => exact h.endReading hw false
  | resync hw _ =>
    have hr : Orderly { s with resync := false } := h.congr rfl (fun _ => rfl) fun hw => hw
    exact hr.endReading hw false
  | disconnect _ hl =>
    exact h.release hl (removeConn_lock ..) fun _ => removeConn_phase? ..
  | wake hw => exact h.congr rfl (fun _ => rfl) (by simp [hw, Worker.waits])
  | signal => exact h.congr rfl (fun _ => rfl) fun hw => hw
  | stop hw => exact h.tearDown (by rcases hw with hw | hw <;> simp [hw, Worker.waits]) true
  | stopInstalling hw =>
    refine h.leave.request ?_ rfl (State.phase?_tearDown _ true) rfl
    intro hm
    rw [Lock.parties_leave h.nodup, List.mem_filter] at hm
    simp at hm
  | stopReading hw => exact h.endReading hw true
  | deliver _ _ => exact h.onConn _ _
  | finish _ => exact h.onConn _ _
  | breakOff _ => exact h.onConn _ _

end Connector
end EfsControl

/-
# Which connection is in use

Only the newest connection is in use. Callers may write to it from the time
the worker has handed it over until a caller closes it or the worker takes it
away; calls are taken while the worker reads it. A call that is linked to a
connection is linked to the one that callers may write to.

Key definitions: `Worker.conn?`, `Wired`.
Key theorems: `Move.wired`, `Wired.reading_of_writer`.
-/
import EfsControl.Proofs.Connector.Lock

namespace EfsControl
namespace Connector

variable {setup : Setup} {s s' : State} {ns : List Note} {id conn : Nat} {p q : Phase}

/-- The connection that the worker is about to hand over or reads. -/
def Worker.conn? : Worker → Option Nat
  | .installing conn | .opening conn | .reading conn => some conn
  | _ => none

/-- How worker, writing side, pending calls and calls hang together in a state that can come
about. -/
structure Wired (s : State) : Prop where
  writer : ∀ c, s.writer = some c →
    s.worker = .opening c ∨ s.worker = .reading c ∨ ∃ final, s.worker = .disconnecting final
  reading : s.correlator.isOpen = true ↔ ∃ c, s.worker = .reading c
  /-- Nobody waits while calls are refused. -/
  closed : s.correlator.isOpen = false → s.correlator = {}
  newest : ∀ c, s.worker.conn? = some c → c + 1 = s.conns.length
  link : ∀ i p l, s.phase? i = some p → p.link? = some l → s.writer = some l.2

namespace Wired

theorem init : Wired {} where
  writer c hc := by cases hc
  reading := by simp
  closed _ := rfl
  newest c hc := by cases hc
  link i p l hp := by simp [State.phase?] at hp

/-- While calls are taken, callers may write to no other connection than the one that is read. -/
theorem reading_of_writer (h : Wired s) (hw : s.writer = some conn)
    (ho : s.correlator.isOpen = true) : s.worker = .reading conn := by
  obtain ⟨c, hc⟩ := h.reading.mp ho
  rcases h.writer conn hw with hk | hk | ⟨_, hk⟩
  · simp [hk] at hc
  · exact hk
  · simp [hk] at hc

/-- The links of a calm move are those that were there. -/
theorem link_calm (h : Wired s) (hp : Calm s s') (hw : s'.writer = s.writer) :
    ∀ i p l, s'.phase? i = some p → p.link? = some l → s'.writer = some l.2 := fun i q l hq hl => by
  obtain ⟨p, hp, hl⟩ := (hq ▸ hp i).link hl
  rw [hw]
  exact h.link i p l hp hl

/-- Callers move, and at most the pending calls change with them. -/
theorem calm (h : Wired s) (hp : Calm s s') (hw : s'.writer = s.writer) (hk : s'.worker = s.worker)
    (hn : s'.conns.length = s.conns.length) (ho : s'.correlator.isOpen = s.correlator.isOpen)
    (he : s.correlator = {} → s'.correlator = {}) : Wired s' where
  writer c hc := by rw [hk]; exact h.writer c (hw ▸ hc)
  reading := by rw [ho, hk]; exact h.reading
  closed hc := he (h.closed (ho ▸ hc))
  newest c hc := by rw [hn]; exact h.newest c (hk ▸ hc)
  link := h.link_calm hp hw

/-- A call ends, and at most the pending calls change with it. -/
theorem finish {t : State} (h : Wired s) (hp : s.phase? id = some p) (result : ExchangeResult)
    (ht : ∀ i, t.phase? i = s.phase? i) (hw : t.writer = s.writer) (hk : t.worker = s.worker)
    (hn : t.conns = s.conns) (ho : t.correlator.isOpen = s.correlator.isOpen)
    (he : s.correlator = {} → t.correlator = {}) : Wired (t.finish id result).1 :=
  h.calm (Calm.finish hp ht result) hw hk (congrArg List.length hn) ho he

/-- A linked call goes on with the same link. -/
theorem advance (h : Wired s) (hp : s.phase? id = some p) (hq : q.link? = p.link?) :
    Wired (s.onCall id fun c => { c with phase := q }) where
  writer := h.writer
  reading := h.reading
  closed := h.closed
  newest := h.newest
  link i p' l hi hl := by
    rw [State.phase?_onCall hp] at hi
    split at hi
    · cases hi
      exact h.link id p l hp (hq ▸ hl)
    · exact h.link i p' l hi hl

theorem onConn (h : Wired s) (c : Nat) (f : Connection → Connection) : Wired (s.onConn c f) :=
  h.calm (.of_eq fun _ => rfl) rfl rfl (by simp [State.onConn]) rfl fun he => he

/-- Giving up a call opens and closes nothing. -/
theorem cancel (h : Wired s) (i : Nat) (seq : Option UInt32) : Wired (s.cancel i seq) := by
  refine h.calm (.of_eq fun _ => State.phase?_cancel ..) rfl rfl rfl ?_ fun he => ?_
  · exact Correlator.cancel_isOpen s.correlator seq
  · change (s.correlator.cancel seq).1 = {}
    rw [he, Correlator.cancel_empty]

/-- The worker stops using a connection or trying to get one. -/
theorem tearDown (h : Wired s) (final : Bool) : Wired (s.tearDown final) where
  writer _ _ := .inr (.inr ⟨final, rfl⟩)
  reading := by
    constructor
    · intro ho
      cases ho
    · rintro ⟨c, hc⟩
      cases hc
  closed _ := rfl
  newest c hc := by cases hc
  link := h.link_calm (.of_eq fun _ => State.phase?_tearDown ..) rfl

/-- The worker, without a connection in use, goes on to another place without one. -/
theorem idle (h : Wired s) (hw : s.writer = none) (hk : ∀ c, s.worker ≠ .reading c)
    (hp : ∀ i, s'.phase? i = s.phase? i) (hw' : s'.writer = none)
    (hc : s'.correlator = s.correlator) (hk' : ∀ c, s'.worker ≠ .reading c)
    (hn : ∀ c, s'.worker.conn? = some c → c + 1 = s'.conns.length) : Wired s' where
  writer c hc := by simp [hw'] at hc
  reading := by
    rw [hc, h.reading]
    exact iff_of_false (not_exists.mpr hk) (not_exists.mpr hk')
  closed ho := by rw [hc]; exact h.closed (hc ▸ ho)
  newest := hn
  link := h.link_calm (.of_eq hp) (hw'.trans hw.symm)

end Wired

/-- Nobody may write while the worker has no connection in use. -/
theorem Wired.writer_none (h : Wired s) (ho : ∀ c, s.worker ≠ .opening c)
    (hr : ∀ c, s.worker ≠ .reading c) (hd : ∀ f, s.worker ≠ .disconnecting f) :
    s.writer = none := by
  cases hw : s.writer with
  | none => rfl
  | some c =>
    rcases h.writer c hw with hk | hk | ⟨f, hk⟩
    · exact absurd hk (ho c)
    · exact absurd hk (hr c)
    · exact absurd hk (hd f)

/-- Every move keeps to the wiring. -/
theorem Move.wired {a : Action} (hm : Move setup s a s' ns) (ho : Orderly s) (h : Wired s) :
    Wired s' := by
  cases hm with
  | arrive subcommand args =>
    exact h.calm (Calm.arrive subcommand args) rfl rfl rfl rfl fun he => he
  | refuse hc _ _ _ =>
    exact h.finish (State.phase?_eq hc) _ (fun _ => rfl) rfl rfl rfl rfl fun he => he
  | reject hc _ _ _ _ =>
    exact h.finish (State.phase?_eq hc) _ (fun _ => rfl) rfl rfl rfl rfl fun he => he
  | @register id conn call command hc hp hl hw hopen _ =>
    refine ⟨h.writer, h.reading, fun hcl => ?_, h.newest, fun i p l hi hlk => ?_⟩
    · exact absurd (hopen.symm.trans hcl) (by simp)
    · change State.phase? (s.onCall id _) i = some p at hi
      rw [State.phase?_onCall (State.phase?_eq hc)] at hi
      split at hi
      · cases hi
        cases hlk
        exact hw
      · exact h.link i p l hi hlk
  | write hc hp _ _ => exact (h.onConn _ _).advance (State.phase?_eq hc) (by rw [hp]; rfl)
  | send hc hp _ _ => exact (h.onConn _ _).advance (State.phase?_eq hc) (by rw [hp]; rfl)
  | writeFail _ hc hp =>
    exact (h.cancel _ _).finish ((State.phase?_cancel ..).trans (State.phase?_eq hc)) _
      (fun _ => rfl) rfl rfl rfl rfl fun he => he
  | sever hc _ _ =>
    exact h.finish (State.phase?_eq hc) _ (fun _ => rfl) rfl rfl rfl rfl fun he => he
  | fail hc _ _ =>
    exact h.finish (State.phase?_eq hc) _ (fun _ => rfl) rfl rfl rfl rfl fun he => he
  | answer hc _ _ =>
    exact h.finish (State.phase?_eq hc) _ (fun _ => rfl) rfl rfl rfl rfl fun he => he
  | expire hc hp _ _ => exact h.advance (State.phase?_eq hc) (by rw [hp]; rfl)
  | giveUp hc hp _ =>
    exact (h.cancel _ _).finish ((State.phase?_cancel ..).trans (State.phase?_eq hc)) _
      (fun _ => rfl) rfl rfl rfl rfl fun he => he
  | @giveUpLate id _ _ _ hc hp _ hw =>
    exact (h.cancel id none).finish ((State.phase?_cancel ..).trans (State.phase?_eq hc)) _
      (fun _ => rfl) hw.symm rfl rfl rfl fun he => he
  | @close id conn conn' call _ hc hp _ hw =>
    have hb : s.phase? id = some (.expired none conn) := hp ▸ State.phase?_eq hc
    have hd := h.cancel id none
    refine ⟨fun c hc => ?_, hd.reading, hd.closed, fun c hk => ?_, fun i p l hi hlk => ?_⟩
    · cases hc
    · exact (hd.newest c hk).trans (by simp [State.sealConn, State.onConn, State.onCall])
    -- No other call is linked while this one has the lock.
    · change State.phase? ((s.cancel id none).onCall id _) i = some p at hi
      rw [State.phase?_onCall ((State.phase?_cancel ..).trans hb), State.phase?_cancel] at hi
      split at hi
      · cases hi
        cases hlk
      · rename_i hne
        exact absurd (ho.busy_unique hi hb (Phase.busy_of_link hlk) rfl) hne
  | notify hc _ _ =>
    exact h.finish (State.phase?_eq hc) _ (fun _ => rfl) rfl rfl rfl rfl fun he => he
  | drop hc _ _ _ =>
    exact h.calm (.of_turn (State.phase?_eq hc) .drop (State.phase?_onCall (State.phase?_eq hc) _))
      rfl rfl rfl rfl fun he => he
  | start hw =>
    refine h.idle (h.writer_none ?_ ?_ ?_) ?_ (fun _ => rfl) (h.writer_none ?_ ?_ ?_) rfl ?_ ?_ <;>
      simp [hw, Worker.conn?]
  | connect hw =>
    refine h.idle (h.writer_none ?_ ?_ ?_) ?_ (fun _ => rfl) (h.writer_none ?_ ?_ ?_) rfl ?_ ?_ <;>
      simp [hw, Worker.conn?]
  | connectFail _ _ => exact h.tearDown false
  | @install conn hw hl =>
    refine ⟨fun c hc => .inl (by cases hc; rfl), ?_, h.closed, fun c hc => ?_,
      fun i p l hi hlk => ?_⟩
    · exact h.reading.trans (iff_of_false (by simp [hw]) (by simp [installConn]))
    · cases hc
      exact h.newest conn (by rw [hw]; rfl)
    · have := ho.not_busy hl hi
      simp [Phase.busy_of_link hlk] at this
  | @«open» conn hw =>
    refine ⟨fun c hc => ?_, ⟨fun _ => ⟨conn, rfl⟩, fun _ => rfl⟩, fun hc => ?_, fun c hc => ?_,
      h.link⟩
    · rcases h.writer c hc with hk | hk | ⟨_, hk⟩
      · obtain rfl : conn = c := by simpa [hw] using hk
        exact .inr (.inl rfl)
      · simp [hw] at hk
      · simp [hw] at hk
    · cases hc
    · cases hc
      exact h.newest conn (by rw [hw]; rfl)
  | skip _ => exact h.onConn _ _
  | hear _ _ _ => exact h.onConn _ _
  | reply _ _ =>
    refine (h.onConn _ _).calm (.of_eq fun i => routeReply_phase? ..) (routeReply_writer ..)
      (routeReply_worker ..) (by rw [routeReply_conns]) (by simp) fun he => ?_
    rw [routeReply_correlator, he, Correlator.dispatch_empty]
  | readEnd _ => exact (h.onConn _ _).tearDown false
  | readFail _ _ => exact (h.onConn _ _).tearDown false
  | @resync conn _ _ =>
    have hr : Wired { s with resync := false } :=
      h.calm (.of_eq fun _ => rfl) rfl rfl rfl rfl fun he => he
    exact (hr.onConn conn _).tearDown false
  | @disconnect final hw hl =>
    have hn : ∀ c, s.worker ≠ .reading c := by simp [hw]
    have hb : ∀ i p l, s.phase? i = some p → p.link? ≠ some l := fun i p l hi hlk => by
      have := ho.not_busy hl hi
      simp [Phase.busy_of_link hlk] at this
    have hk : ∀ c, (if final = true then Worker.stopped else .sleeping) ≠ .reading c := fun c => by
      split <;> simp
    refine ⟨fun c hc => ?_, ?_, fun hc => ?_, fun c hc => ?_, fun i p l hi hlk => ?_⟩
    · simp at hc
    · rw [removeConn_correlator, removeConn_worker, h.reading]
      exact iff_of_false (not_exists.mpr hn) (not_exists.mpr hk)
    · rw [removeConn_correlator] at hc ⊢
      exact h.closed hc
    · rw [removeConn_worker] at hc
      split at hc <;> cases hc
    · rw [removeConn_phase?] at hi
      exact absurd hlk (hb i p l hi)
  | wake hw =>
    refine h.idle (h.writer_none ?_ ?_ ?_) ?_ (fun _ => rfl) (h.writer_none ?_ ?_ ?_) rfl ?_ ?_ <;>
      simp [hw, Worker.conn?]
  | signal => exact h.calm (.of_eq fun _ => rfl) rfl rfl rfl rfl fun he => he
  | stop _ => exact h.tearDown true
  | @stopInstalling conn hw =>
    have hl : Wired { s with lock := s.lock.leave .worker } :=
      h.calm (.of_eq fun _ => rfl) rfl rfl rfl rfl fun he => he
    exact ((hl.onConn conn _).onConn conn _).tearDown true
  | stopReading _ => exact (h.onConn _ _).tearDown true
  | deliver _ _ => exact h.onConn _ _
  | finish _ => exact h.onConn _ _
  | breakOff _ => exact h.onConn _ _

end Connector
end EfsControl

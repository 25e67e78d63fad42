/-
# What moves leave to others

An action of a caller changes no other call, and nobody's action gives
something to a call that is not pending. Whoever holds the lock keeps it, and
with it the next number and the writing side of the connection, through all
that others do. A call acts only between its beginning and its end.

Key definitions: `Action.caller?`, `Phase.rank`.
Key theorems: `Move.phase_other`, `Move.slot_other`, `Move.caller_of_held`,
`Move.held`, `Move.pending_forall`, `Move.not_over_of_caller`, `Move.rank_lt`,
`Move.phase_over`, `Move.returned_phase`, `run_silent_before`, `run_silent_after`.
-/
import EfsControl.Proofs.Connector.Answer

namespace EfsControl

namespace Correlator

variable {κ : Type} {c : Correlator κ} {P : Option UInt32 → κ → Prop}

/-- Giving a reply to the pending calls adds none, and changes neither their numbers nor their
callers. -/
theorem dispatch_forall (h : ∀ p ∈ c.pending, P p.seq p.caller) (r : Reply) :
    ∀ p ∈ (c.dispatch r).1.pending, P p.seq p.caller := by
  intro q hq
  obtain ⟨-, -, hd⟩ | ⟨-, -, hd⟩ | ⟨before, p, after, -, hl, hd⟩ := c.dispatch_cases r
  · rw [hd] at hq
    split at hq <;> exact h q hq
  · rw [hd] at hq
    exact h q hq
  · have hpend := (locate_eq_some_iff.mp hl).1
    rw [hd] at hq
    split at hq <;> simp only [List.mem_append, List.mem_cons] at hq
    · exact h q (by rcases hq with hq | hq <;> simp [hpend, hq])
    · rcases hq with hq | rfl | hq
      · exact h q (by simp [hpend, hq])
      · exact h p (by simp [hpend])
      · exact h q (by simp [hpend, hq])

/-- A reply completes a pending call. -/
theorem mem_callers_of_dispatch {r answer : Reply} {k : κ}
    (h : (c.dispatch r).2 = .completed k answer) : k ∈ c.callers := by
  obtain ⟨-, -, hd⟩ | ⟨-, -, hd⟩ | ⟨before, p, after, -, hl, hd⟩ := c.dispatch_cases r
  · rw [hd] at h
    cases h
  · rw [hd] at h
    cases h
  · rw [hd] at h
    split at h <;> cases h
    rw [callers, (locate_eq_some_iff.mp hl).1]
    simp

end Correlator

namespace Connector

/-- The caller whose action this is, if it is one of a caller. -/
def Action.caller? : Action → Option Nat
  | .begin id | .write id _ | .writeFails id _ | .receive id _ | .timeout id | .giveUp id
  | .notify id | .drop id => some id
  | _ => none

/-- Whether a new call arrives. -/
def Action.isCall : Action → Bool
  | .call .. => true
  | _ => false

namespace State

variable {s : State} {i id : Nat}

theorem phase?_onCall_ne (h : i ≠ id) (f : Call → Call) :
    (s.onCall id f).phase? i = s.phase? i := by
  simp [phase?, onCall, Ne.symm h]

/-- Giving up a pending call tells nobody else. -/
theorem slot?_cancel (id : Nat) (seq : Option UInt32) (hi : i ∉ s.correlator.callers) :
    (s.cancel id seq).slot? i = s.slot? i := by
  rw [cancel, slot?_fill, if_neg]
  · rfl
  · intro hm
    obtain ⟨hm, -⟩ := List.mem_filter.mp hm
    exact hi (Correlator.mem_callers_of_cancel (Option.mem_toList.mp hm))

/-- The end of a connection tells only those who wait. -/
theorem slot?_tearDown (final : Bool) (hi : i ∉ s.correlator.callers) :
    (s.tearDown final).slot? i = s.slot? i :=
  (slot?_fill ..).trans (if_neg hi)

end State

variable {setup : Setup} {s s' : State} {a : Action} {ns : List Note} {i : Nat}

/-- An action of somebody else does not change how far a call is, but a call may arrive. -/
theorem Move.phase_other_or (hm : Move setup s a s' ns) (ha : a.caller? ≠ some i) :
    s'.phase? i = s.phase? i ∨ i = s.calls.length ∧ s'.phase? i = some .queued := by
  have hne : ∀ {id : Nat}, a.caller? = some id → i ≠ id := fun h he => ha (he ▸ h)
  cases hm with
  | arrive =>
    rw [State.phase?_arrive]
    split
    · rename_i hi
      exact .inr ⟨hi, rfl⟩
    · exact .inl rfl
  | refuse | reject | register | write | send | sever | fail | answer | expire | notify | drop =>
    exact .inl (State.phase?_onCall_ne (hne rfl) _)
  | writeFail | giveUp | giveUpLate | close =>
    exact .inl ((State.phase?_onCall_ne (hne rfl) _).trans (State.phase?_cancel ..))
  | connectFail | readEnd | readFail | resync | stop | stopInstalling | stopReading =>
    exact .inl (State.phase?_tearDown ..)
  | disconnect => exact .inl (removeConn_phase? ..)
  | reply => exact .inl (routeReply_phase? ..)
  | _ => exact .inl rfl

/-- An action of somebody else does not change how far a call is. -/
theorem Move.phase_other (hm : Move setup s a s' ns) (ha : a.caller? ≠ some i)
    (hi : i < s.calls.length) : s'.phase? i = s.phase? i :=
  (hm.phase_other_or ha).resolve_right fun h => Nat.ne_of_lt hi h.1

/-- No other action makes a call. -/
theorem Move.calls_length (hm : Move setup s a s' ns) (ha : a.isCall = false) :
    s'.calls.length = s.calls.length := by
  cases hm with
  | arrive => cases ha
  | refuse | reject | register | write | send | sever | fail | answer | expire | notify | drop =>
    exact List.length_modify ..
  | writeFail | giveUp | giveUpLate | close =>
    exact (List.length_modify ..).trans (List.length_mapIdx ..)
  | connectFail | readEnd | readFail | resync | stop | stopInstalling | stopReading =>
    exact List.length_mapIdx ..
  | disconnect =>
    unfold removeConn
    cases s.writer <;> rfl
  | reply =>
    rw [routeReply_fst]
    split
    · exact List.length_mapIdx ..
    · rfl
  | _ => rfl

/-- A call that is not pending finds nothing new. -/
theorem Move.slot_other (hm : Move setup s a s' ns) (hi : i < s.calls.length)
    (hc : i ∉ s.correlator.callers) : s'.slot? i = s.slot? i := by
  cases hm with
  | arrive => rw [State.slot?_arrive, if_neg (Nat.ne_of_lt hi)]
  | refuse | reject | register | write | send | sever | fail | answer | expire | notify | drop =>
    exact State.slot?_onCall ..
  | writeFail | giveUp | giveUpLate | close =>
    exact (State.slot?_onCall ..).trans (State.slot?_cancel _ _ hc)
  | connectFail | readEnd | readFail | resync | stop | stopInstalling | stopReading =>
    exact State.slot?_tearDown _ hc
  | disconnect => exact removeConn_slot? ..
  | reply =>
    rw [routeReply_fst]
    split
    · rename_i id answer hd
      rw [State.slot?_fill, if_neg]
      · rfl
      · intro hm
        exact hc (List.mem_singleton.mp hm ▸ Correlator.mem_callers_of_dispatch hd)
    · rfl
  | _ => rfl

/-- While a call holds the lock, other callers can only go away. -/
theorem Move.caller_of_held (hm : Move setup s a s' ns) (ho : Orderly s)
    (hl : s.lock.holder = some (.call i)) :
    a.caller? = some i ∨ a.caller? = none ∨ ∃ id, a = .drop id := by
  have held : ∀ {id : Nat}, s.lock.holder = some (.call id) → some id = some i := fun h => by
    simpa using h.symm.trans hl
  have busy : ∀ {id : Nat} {call : Call}, s.calls[id]? = some call → call.phase.isBusy = true →
      some id = some i := fun hc hb => held (ho.busy _ _ (State.phase?_eq hc) hb)
  cases hm with
  | refuse _ _ h _ => exact .inl (held h)
  | reject _ _ h _ _ => exact .inl (held h)
  | register _ _ h _ _ _ => exact .inl (held h)
  | write hc hp _ _ => exact .inl (busy hc (by rw [hp]; rfl))
  | send hc hp _ _ => exact .inl (busy hc (by rw [hp]; rfl))
  | writeFail _ hc hp => exact .inl (busy hc (by rw [hp]; rfl))
  | sever hc hp _ => exact .inl (busy hc (by rw [hp]; rfl))
  | fail hc hp _ => exact .inl (busy hc (by rw [hp]; rfl))
  | answer hc hp _ => exact .inl (busy hc (by rw [hp]; rfl))
  | expire hc hp _ _ => exact .inl (busy hc (by rw [hp]; rfl))
  | giveUp hc hp _ => exact .inl (busy hc (by rw [hp]; rfl))
  | giveUpLate hc hp _ _ => exact .inl (busy hc (by rw [hp]; rfl))
  | close hc hp _ _ => exact .inl (busy hc (by rw [hp]; rfl))
  | notify hc hp _ => exact .inl (busy hc (by rw [hp]; rfl))
  | drop => exact .inr (.inr ⟨_, rfl⟩)
  | _ => exact .inr (.inl rfl)

/-- Whoever holds the lock keeps it while others act, and nobody else takes a number or the
connection. -/
theorem Move.held (hm : Move setup s a s' ns) (ho : Orderly s) (ha : a.caller? ≠ some i)
    (hl : s.lock.holder = some (.call i)) :
    s'.lock.holder = some (.call i) ∧ s'.nextSeq = s.nextSeq ∧ s'.writer = s.writer := by
  have hact := (hm.caller_of_held ho hl).resolve_left ha
  cases hm with
  | refuse | reject | register | write | send | writeFail | sever | fail | answer | expire | giveUp
  | giveUpLate | close | notify => simp [Action.caller?] at hact
  | @drop id =>
    have hid : i ≠ id := fun he => ha (he ▸ rfl)
    exact ⟨Lock.holder_leave hl (by simpa using hid), rfl, rfl⟩
  | arrive | connect | connectFail | readEnd | readFail | resync | stop | stopReading =>
    exact ⟨Lock.holder_request hl, rfl, rfl⟩
  | stopInstalling => exact ⟨Lock.holder_request (Lock.holder_leave hl (by simp)), rfl, rfl⟩
  | install _ h => simp [hl] at h
  | disconnect _ h => simp [hl] at h
  | reply => exact ⟨(routeReply_lock ..).symm ▸ hl, routeReply_nextSeq .., routeReply_writer ..⟩
  | _ => exact ⟨hl, rfl, rfl⟩

/-- What holds of the numbers and callers of all pending calls goes on to hold unless a call is
registered for which it does not. -/
theorem Move.pending_forall {P : Option UInt32 → Nat → Prop} (hm : Move setup s a s' ns)
    (hw : Wired s) (h : ∀ p ∈ s.correlator.pending, P p.seq p.caller)
    (hr : ∀ id, s.lock.holder = some (.call id) → s.phase? id = some .queued →
      s'.phase? id ≠ some .queued → P (takeSeq setup.config s).1 id) :
    ∀ p ∈ s'.correlator.pending, P p.seq p.caller := by
  cases hm.effect hw with
  | calm _ hc _ _ => exact hc ▸ h
  | cancel seq _ _ _ hc _ _ =>
    exact fun p hp => h p ((s.correlator.cancel_sublist seq).subset (hc ▸ hp))
  | close _ hc _ _ => simp [hc]
  | «open» _ _ _ hc _ _ => simp [hc]
  | register _ _ hl hq hp hc _ _ =>
    intro p hm
    rw [hc, List.mem_append, List.mem_singleton] at hm
    rcases hm with hm | rfl
    · exact h p hm
    · exact hr _ hl hq (by rw [hp, if_pos rfl]; simp)
  | send _ _ hc _ => exact hc ▸ h
  | hear _ hc _ _ _ _ => exact hc ▸ h
  | reply _ hc _ _ _ _ => exact hc ▸ Correlator.dispatch_forall h _

/-- A call that has begun does not become pending again. -/
theorem Move.not_pending (hm : Move setup s a s' ns) (hw : Wired s) {p : Phase}
    (hp : s.phase? i = some p) (hne : p ≠ .queued) (hc : i ∉ s.correlator.callers) :
    i ∉ s'.correlator.callers := by
  have hall := hm.pending_forall (P := fun _ j => j ≠ i) hw
    (fun q hq he => hc (List.mem_map.mpr ⟨q, hq, he⟩)) fun id _ hq _ he => by
      rw [he, hp] at hq
      exact hne (Option.some.inj hq)
  intro hm
  obtain ⟨q, hq, he⟩ := List.mem_map.mp hm
  exact hall q hq he

/-- A call that acts has begun. -/
theorem Move.begun_of_caller (hm : Move setup s a s' ns) (ha : a.caller? = some i) :
    ∃ p, s'.phase? i = some p ∧ p ≠ .queued := by
  cases hm with
  | refuse hc | reject hc | register hc | write hc | send hc | sever hc | fail hc | answer hc
  | expire hc | notify hc | drop hc =>
    cases ha
    exact ⟨_, (State.phase?_onCall (State.phase?_eq hc) _ _).trans (if_pos rfl), nofun⟩
  | writeFail _ hc | giveUp hc | giveUpLate hc | close hc =>
    cases ha
    exact ⟨_, (State.phase?_onCall ((State.phase?_cancel ..).trans (State.phase?_eq hc)) _ _).trans
      (if_pos rfl), nofun⟩
  | _ => cases ha

/-- A call that acts has not come to its end. -/
theorem Move.not_over_of_caller (hm : Move setup s a s' ns) (ha : a.caller? = some i) :
    ∃ p, s.phase? i = some p ∧ p.isOver = false := by
  cases hm with
  | refuse hc h | reject hc h | register hc h | write hc h | send hc h | writeFail _ hc h
  | sever hc h | fail hc h | answer hc h | expire hc h | giveUp hc h | giveUpLate hc h
  | close hc h | notify hc h =>
    cases ha
    refine ⟨_, State.phase?_eq hc, ?_⟩
    rw [h]
    rfl
  | @drop _ call hc _ hf hd =>
    cases ha
    refine ⟨_, State.phase?_eq hc, ?_⟩
    cases hq : call.phase with
    | finished r => exact absurd hq (hf r)
    | dropped => exact absurd hq hd
    | _ => rfl
  | _ => cases ha

/-- How many steps a call has in front of it, if it writes its command at once. -/
def Phase.rank : Phase → Nat
  | .queued => 5
  | .writing .. => 4
  | .awaiting .. => 3
  | .expired .. => 2
  | .closing => 1
  | .finished _ | .dropped => 0

/-- An action of a call takes it further, unless it writes. -/
theorem Move.rank_lt (hm : Move setup s a s' ns) (ha : a.caller? = some i)
    (hw : a.isWrite = false) :
    ∃ p q, s.phase? i = some p ∧ s'.phase? i = some q ∧ q.rank < p.rank := by
  cases hm with
  | write | send => cases hw
  | refuse hc hp | reject hc hp | register hc hp | sever hc hp | fail hc hp | answer hc hp
  | expire hc hp | notify hc hp =>
    cases ha
    refine ⟨_, _, State.phase?_eq hc,
      (State.phase?_onCall (State.phase?_eq hc) _ _).trans (if_pos rfl), ?_⟩
    simp [hp, Phase.rank]
  | writeFail _ hc hp | giveUp hc hp | giveUpLate hc hp | close hc hp =>
    cases ha
    refine ⟨_, _, State.phase?_eq hc,
      (State.phase?_onCall ((State.phase?_cancel ..).trans (State.phase?_eq hc)) _ _).trans
        (if_pos rfl), ?_⟩
    simp [hp, Phase.rank]
  | @drop _ call hc _ hf hd =>
    cases ha
    refine ⟨_, _, State.phase?_eq hc,
      (State.phase?_onCall (State.phase?_eq hc) _ _).trans (if_pos rfl), ?_⟩
    cases hq : call.phase with
    | finished r => exact absurd hq (hf r)
    | dropped => exact absurd hq hd
    | _ => simp [Phase.rank]
  | _ => cases ha

theorem Phase.rank_le (p : Phase) : p.rank ≤ 5 := by
  cases p <;> simp [rank]

/-- A call whose caller goes away has no result. -/
theorem Move.phase_drop (hm : Move setup s (.drop i) s' ns) : s'.phase? i = some .dropped := by
  cases hm with
  | drop hc => exact (State.phase?_onCall (State.phase?_eq hc) _ _).trans (if_pos rfl)

/-- Nothing else that a call does makes its caller go away. -/
theorem Move.phase_ne_dropped (hm : Move setup s a s' ns) (ha : a.caller? = some i)
    (hd : a ≠ .drop i) : s'.phase? i ≠ some .dropped := by
  have becomes {t : State} {p q : Phase} (ht : t.phase? i = some p) (hq : q ≠ .dropped) :
      (t.onCall i fun c => { c with phase := q }).phase? i ≠ some .dropped := by
    rw [State.phase?_onCall ht, if_pos rfl]
    exact fun h => hq (Option.some.inj h)
  cases hm with
  | refuse hc | reject hc | register hc | write hc | send hc | sever hc | fail hc | answer hc
  | expire hc | notify hc =>
    cases ha
    exact becomes (State.phase?_eq hc) nofun
  | writeFail _ hc | giveUp hc | giveUpLate hc | close hc =>
    cases ha
    exact becomes ((State.phase?_cancel ..).trans (State.phase?_eq hc)) nofun
  | drop =>
    cases ha
    exact absurd rfl hd
  | _ => cases ha

/-- A call that has written goes on to write or waits for the reply. -/
theorem Move.rank_write {count : Nat} (hm : Move setup s (.write i count) s' ns) :
    ∃ p, s'.phase? i = some p ∧ 3 ≤ p.rank := by
  cases hm with
  | write hc | send hc =>
    exact ⟨_, (State.phase?_onCall (State.phase?_eq hc) _ _).trans (if_pos rfl),
      by simp [Phase.rank]⟩

/-- A call that has come to its end stays as it is. -/
theorem Move.phase_over {p : Phase} (hm : Move setup s a s' ns) (hp : s.phase? i = some p)
    (ho : p.isOver = true) : s'.phase? i = some p := by
  have hother : a.caller? ≠ some i := fun ha => by
    obtain ⟨q, hq, hno⟩ := hm.not_over_of_caller ha
    rw [Option.some.inj (hq.symm.trans hp), ho] at hno
    cases hno
  rw [hm.phase_other hother (State.phase?_lt hp), hp]

/-- A call that has ended with a result keeps it. -/
theorem Move.phase_finished {result : ExchangeResult} (hm : Move setup s a s' ns)
    (hp : s.phase? i = some (.finished result)) : s'.phase? i = some (.finished result) :=
  hm.phase_over hp rfl

/-- A result is returned by the call that ends with it. -/
theorem Move.returned_phase {result : ExchangeResult} (hm : Move setup s a s' ns)
    (hr : .returned i result ∈ ns) : s'.phase? i = some (.finished result) := by
  have finished : ∀ {t : State} {id : Nat} {call : Call} {r : ExchangeResult} {l : List LogEntry},
      s.calls[id]? = some call → t.phase? id = s.phase? id →
      .returned i result ∈ l.map Note.log ++ [.returned id r] →
      (t.finish id r).1.phase? i = some (.finished result) := fun hc ht hr => by
    obtain ⟨rfl, rfl⟩ := returned_elim hr
    rw [State.phase?_finish (ht.trans (State.phase?_eq hc)), if_pos rfl]
  have hnews := hm.news
  cases hm with
  | refuse hc => exact finished (l := []) hc rfl hr
  | reject hc => exact finished (l := []) hc rfl hr
  | writeFail _ hc => exact finished (l := [_]) hc (State.phase?_cancel ..) hr
  | sever hc | fail hc | answer hc => exact finished hc rfl hr
  | giveUp hc => exact finished (l := [_]) hc (State.phase?_cancel ..) hr
  | giveUpLate hc => exact finished (l := [_]) hc (State.phase?_cancel ..) hr
  | notify hc => exact finished (l := []) hc rfl hr
  | hear | reply | disconnect => cases hnews (by simp) _ hr
  | _ => simp at hr

/-! ### The actions of a call in a run -/

/-- A call that has come to its end does not act any more. -/
theorem run_silent_after {as : List Action} {p : Phase} (h : run setup s as = some (s', ns))
    (hp : s.phase? i = some p) (ho : p.isOver = true) : ∀ a ∈ as, a.caller? ≠ some i := by
  induction as generalizing s ns with
  | nil => simp
  | cons b as ih =>
    obtain ⟨u, _, _, hb, hr, -⟩ := run_cons.mp h
    have hm := step_move hb
    refine List.forall_mem_cons.mpr ⟨fun ha => ?_, ih hr (hm.phase_over hp ho)⟩
    obtain ⟨q, hq, hno⟩ := hm.not_over_of_caller ha
    rw [Option.some.inj (hq.symm.trans hp), ho] at hno
    cases hno

/-- A call that has not begun has not acted. -/
theorem run_silent_before {as : List Action} (h : run setup {} as = some (s, ns))
    (hq : ∀ p, s.phase? i = some p → p = .queued) : ∀ a ∈ as, a.caller? ≠ some i := by
  induction as using List.reverseRecOn generalizing s ns with
  | nil => simp
  | append_singleton as b ih =>
    obtain ⟨t, ns₁, ns₂, ht, hb, -⟩ := run_snoc.mp h
    have hm := step_move hb
    have hbefore : ∀ p, t.phase? i = some p → p = .queued := fun p hp => by
      by_contra hne
      obtain ⟨q, hq', hqne⟩ := hm.begun (run_sound ht).wired hp hne
      exact hqne (hq q hq')
    intro a ha hown
    rcases List.mem_append.mp ha with ha | ha
    · exact ih ht hbefore a ha hown
    · obtain rfl := List.mem_singleton.mp ha
      obtain ⟨q, hq', hqne⟩ := hm.begun_of_caller hown
      exact hqne (hq q hq')

end Connector
end EfsControl

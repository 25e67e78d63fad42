/-
# After the worker has stopped

The worker stops with the lock in its hands and takes its connection away for
good. From then on nobody can write, no call is taken, and whoever gets the
lock is refused at once. Every call that was registered has come to its end:
it has returned an answer of the daemon that was given to it, or a failure, or
its caller went away.

Key definitions: `Resolved`, `Answered`, `Shut`, `Phase.Turned`.
Key theorems: `run_answered`, `run_shut`, `run_shut_from`, `step_begin_shut`.
-/
import EfsControl.Proofs.Connector.Connected
import EfsControl.Proofs.Connector.Pieces

namespace EfsControl
namespace Connector

variable {setup : Setup} {s s' : State} {notes ns : List Note} {as bs : List Action} {a : Action}
  {id conn : Nat}

/-! ### Results that were returned -/

/-- Whether a result is one that a call may have come to: a failure of the exchange, or the answer
of the daemon that was given to the call. -/
def Resolved (notes : List Note) (id : Nat) (result : ExchangeResult) : Prop :=
  fromDaemon result = true → ∃ conn reply answer,
    .routed conn reply (.completed id answer) ∈ notes ∧ result = resultOf answer

theorem Resolved.append (h : Resolved notes id result) (ns : List Note) :
    Resolved (notes ++ ns) id result := fun hd => by
  obtain ⟨conn, reply, answer, hr, he⟩ := h hd
  exact ⟨conn, reply, answer, List.mem_append_left ns hr, he⟩

/-- A call that comes to its end with a result returns it. -/
theorem Move.finished_cases {result : ExchangeResult} (hm : Move setup s a s' ns)
    (hf : s'.phase? id = some (.finished result)) :
    s.phase? id = some (.finished result) ∨ .returned id result ∈ ns := by
  have ends : ∀ {t : State} {i : Nat} {call : Call} {r : ExchangeResult} {ms : List Note},
      s.calls[i]? = some call → (∀ j, t.phase? j = s.phase? j) →
      (t.finish i r).1.phase? id = some (.finished result) → .returned i r ∈ ms →
      s.phase? id = some (.finished result) ∨ .returned id result ∈ ms :=
    fun hc ht hf hr => by
      rw [State.phase?_finish ((ht _).trans (State.phase?_eq hc))] at hf
      split at hf
      · rename_i he
        cases hf
        exact .inr (he ▸ hr)
      · exact .inl (ht _ ▸ hf)
  have turns : ∀ {i : Nat} {call : Call} {q : Phase}, s.calls[i]? = some call →
      q ≠ .finished result →
      (s.onCall i fun c => { c with phase := q }).phase? id = some (.finished result) →
      s.phase? id = some (.finished result) := fun hc hq hf => by
    rw [State.phase?_onCall (State.phase?_eq hc)] at hf
    split at hf
    · exact absurd (Option.some.inj hf) hq
    · exact hf
  cases hm with
  | arrive =>
    rw [State.phase?_arrive] at hf
    split at hf
    · cases hf
    · exact .inl hf
  | refuse hc => exact ends hc (fun _ => rfl) hf (by simp)
  | reject hc => exact ends hc (fun _ => rfl) hf (by simp)
  | register hc => exact .inl (turns hc (by simp) hf)
  | write hc => exact .inl (turns hc (by simp) hf)
  | send hc => exact .inl (turns hc (by simp) hf)
  | writeFail _ hc => exact ends hc (fun _ => State.phase?_cancel ..) hf (by simp)
  | sever hc => exact ends hc (fun _ => rfl) hf (by simp)
  | fail hc => exact ends hc (fun _ => rfl) hf (by simp)
  | answer hc => exact ends hc (fun _ => rfl) hf (by simp)
  | expire hc => exact .inl (turns hc (by simp) hf)
  | giveUp hc => exact ends hc (fun _ => State.phase?_cancel ..) hf (by simp)
  | giveUpLate hc => exact ends hc (fun _ => State.phase?_cancel ..) hf (by simp)
  | @close i _ conn' call _ hc =>
    have hcancel : (s.cancel i none).phase? i = some call.phase :=
      (State.phase?_cancel ..).trans (State.phase?_eq hc)
    change ((s.cancel i none).onCall i fun c => { c with phase := .closing }).phase? id = _ at hf
    rw [State.phase?_onCall hcancel] at hf
    split at hf
    · cases hf
    · exact .inl (State.phase?_cancel .. ▸ hf)
  | notify hc => exact ends hc (fun _ => rfl) hf (by simp)
  | drop hc => exact .inl (turns hc (by simp) hf)
  | connectFail | readEnd | readFail | resync | stop | stopInstalling | stopReading =>
    rw [State.phase?_tearDown] at hf
    exact .inl hf
  | disconnect => exact .inl ((removeConn_phase? ..).symm.trans hf)
  | reply =>
    rw [routeReply_phase?] at hf
    exact .inl hf
  | _ => exact .inl hf

/-- What the notes of a run say of the results of calls. -/
structure Answered (notes : List Note) (s : State) : Prop where
  returned : ∀ i result, s.phase? i = some (.finished result) → .returned i result ∈ notes
  resolved : ∀ i result, .returned i result ∈ notes → Resolved notes i result

theorem Answered.init : Answered [] {} where
  returned i r h := by simp [State.phase?] at h
  resolved := by simp

theorem Move.answered (hm : Move setup s a s' ns) (ht : Told notes s) (h : Answered notes s) :
    Answered (notes ++ ns) s' where
  returned i result hf := by
    rcases hm.finished_cases hf with hf | hr
    · exact List.mem_append_left ns (h.returned i result hf)
    · exact List.mem_append_right notes hr
  resolved i result hr := by
    rcases List.mem_append.mp hr with hr | hr
    · exact (h.resolved i result hr).append ns
    · intro hd
      obtain ⟨_, _, answer, -, hslot, rfl⟩ := hm.returned ht hr hd
      rcases ht i _ hslot with he | ⟨conn, reply, _, he, hn⟩
      · cases he
      · cases he
        exact ⟨conn, reply, answer, List.mem_append_left ns hn, rfl⟩

theorem run_answered (h : run setup {} as = some (s, notes)) : Answered notes s :=
  (sound_induction (P := Answered) .init (fun hs ha hm => hm.answered hs.told ha) h).2

/-! ### Nothing is left -/

/-- The worker has stopped and left nothing behind. -/
structure Shut (s : State) : Prop where
  worker : s.worker = .stopped
  disconnected : s.connected = false
  noWriter : s.writer = none
  noPending : s.correlator.pending = []

/-- Once the worker has stopped it stays so. -/
theorem Move.stopped (hm : Move setup s a s' ns) (hk : s.worker = .stopped) :
    s'.worker = .stopped := by
  have other : ∀ {w : Worker}, s.worker = w → w ≠ .stopped → s'.worker = .stopped :=
    fun hw hne => absurd (hw.symm.trans hk) hne
  cases hm with
  | start hw | connect hw | connectFail _ hw | wake hw | stopInstalling hw | stopReading hw
  | readEnd hw | readFail _ hw | resync hw | install hw | «open» hw => exact other hw (by simp)
  | disconnect hw => exact other hw (by simp)
  | stop hw => rcases hw with hw | hw <;> exact other hw (by simp)
  | reply hw => exact other hw (by simp)
  | _ => exact hk

/-- A worker that has stopped has left nothing behind. -/
theorem shut_of_stopped (hw : Wired s) (ht : Truthful s) (hk : s.worker = .stopped) : Shut s := by
  obtain ⟨hwriter, hempty⟩ := hw.cleared (by rw [hk]; rfl)
  refine ⟨hk, ?_, hwriter, by rw [hempty]⟩
  rw [← Bool.not_eq_true, ht.flag]
  exact fun h => h.1 hwriter

/-- Where nobody may write before and after a step, nothing is registered and nothing written. -/
theorem step_silent (h : step setup s a = some (s', ns)) (hw : Wired s) (hw' : Wired s')
    (hn : s.writer = none) (hn' : s'.writer = none) :
    (∀ n ∈ ns, n.isInk = false) ∧ ∀ c, s'.output c = s.output c := by
  have unlinked : ∀ {t : State} {i : Nat} {p : Phase} {l : Option UInt32 × Nat}, Wired t →
      t.writer = none → t.phase? i = some p → p.link? ≠ some l := fun ht hnone hp hl => by
    have := ht.link _ _ _ hp hl
    rw [hnone] at this
    cases this
  cases step_ink h with
  | none hn _ ho => exact ⟨hn, ho⟩
  | register _ hp _ => exact absurd rfl (unlinked hw' hn' hp)
  | write hp => exact absurd rfl (unlinked hw hn hp)
  | send hp _ => exact absurd rfl (unlinked hw hn hp)

/-- A call that gets the lock after the worker has stopped is refused, and nothing is written. -/
theorem step_begin_shut (hs : Shut s) {call : Call} (hc : s.calls[id]? = some call)
    (hp : call.phase = .queued) (hl : s.lock.holder = some (.call id)) :
    step setup s (.begin id) = some (s.finish id (.error .notConnected)) := by
  simp only [step, hc, hp, if_pos hl, beginCall, hs.noWriter]

/-- A run after which the worker has stopped leaves nothing behind: nobody may write, no call is
pending, and each command that was written has been answered or has failed, unless its caller went
away. -/
theorem run_shut (h : run setup {} as = some (s, notes)) (hk : s.worker = .stopped) :
    Shut s ∧ ∀ i c, .sent i c ∈ notes → s.phase? i = some .dropped ∨
      ∃ result, s.phase? i = some (.finished result) ∧ .returned i result ∈ notes ∧
        Resolved notes i result := by
  have hs := run_sound h
  have ht := run_truthful h
  have ha := run_answered h
  refine ⟨shut_of_stopped hs.wired ht hk, fun i c hsent => ?_⟩
  obtain ⟨x, hx, he⟩ := List.mem_map.mp (hs.history.order.subset (mem_commands.mpr hsent))
  simp only [Prod.mk.injEq] at he
  obtain ⟨p, hp, hover, -⟩ := hs.history.over_of_idle hx (ht.quiet (by rw [hk]; rfl) x.id)
  rw [he.1] at hp
  cases p with
  | dropped => exact .inl hp
  | finished result =>
    have hr := ha.returned i result hp
    exact .inr ⟨result, hp, hr, ha.resolved i result hr⟩
  | _ => cases hover

/-- How far a call can be that has not begun by the time the worker has stopped. -/
def Phase.Turned : Phase → Prop
  | .queued | .dropped => True
  | .finished result => result = .error .notConnected
  | _ => False

/-- Where nobody may write, a call that has not begun comes to no other end than being refused. -/
theorem Move.turned (hm : Move setup s a s' ns) (hw : s.writer = none)
    (h : ∀ p, s.phase? id = some p → p.Turned) : ∀ p, s'.phase? id = some p → p.Turned := by
  by_cases ha : a.caller? = some id
  · have begun : ∀ {call : Call} {p : Phase}, s.calls[id]? = some call → call.phase = p →
        p.Turned := fun hc hp => hp ▸ h _ (State.phase?_eq hc)
    intro p hp
    cases hm with
    | refuse hc =>
      cases ha
      rw [State.phase?_finish (State.phase?_eq hc), if_pos rfl] at hp
      cases hp
      rfl
    | reject _ _ _ hx | register _ _ _ hx => cases hw.symm.trans hx
    | drop hc =>
      cases ha
      cases ((State.phase?_onCall (State.phase?_eq hc) _ _).trans (if_pos rfl)).symm.trans hp
      trivial
    | write hc hq | send hc hq | writeFail _ hc hq | sever hc hq | fail hc hq | answer hc hq
    | expire hc hq | giveUp hc hq | giveUpLate hc hq | close hc hq | notify hc hq =>
      cases ha
      exact (begun hc hq).elim
    | _ => cases ha
  · rcases hm.phase_other_or ha with he | ⟨-, he⟩
    · exact he ▸ h
    · intro p hp
      cases he.symm.trans hp
      trivial

/-- Whatever happens after the worker has stopped, nothing more is written, nothing changes about
what is left, and a call that has not begun before returns nothing but that there is no
connection. -/
theorem run_shut_from (h : run setup {} as = some (s, notes)) (hk : s.worker = .stopped)
    (hb : run setup s bs = some (s', ns)) :
    Shut s' ∧ (∀ n ∈ ns, n.isInk = false) ∧ (∀ c, s'.output c = s.output c) ∧
      ∀ i, (∀ p, s.phase? i = some p → p = .queued) →
        (∀ p, s'.phase? i = some p → p.Turned) ∧
        ∀ result, .returned i result ∈ ns → result = .error .notConnected := by
  induction bs using List.reverseRecOn generalizing s' ns with
  | nil =>
    cases hb
    refine ⟨(run_shut h hk).1, by simp, fun _ => rfl, fun i hq => ⟨fun p hp => ?_, by simp⟩⟩
    rw [hq p hp]
    trivial
  | append_singleton bs b ih =>
    obtain ⟨t, ns₁, ns₂, hb₁, hb₂, rfl⟩ := run_snoc.mp hb
    obtain ⟨ht, hink, hout, hturned⟩ := ih hb₁
    have hrun := run_append.mpr ⟨s, notes, ns₁, h, hb₁, rfl⟩
    have hsound := run_sound hrun
    have hm := step_move hb₂
    have hwired := hm.wired hsound.orderly hsound.wired
    have hshut := shut_of_stopped hwired
      (hm.truthful hsound.orderly hsound.wired (run_truthful hrun)) (hm.stopped ht.worker)
    obtain ⟨hink', hout'⟩ := step_silent hb₂ hsound.wired hwired ht.noWriter hshut.noWriter
    refine ⟨hshut, fun n hn => ?_, fun c => (hout' c).trans (hout c), fun i hq => ?_⟩
    · exact (List.mem_append.mp hn).elim (hink n) (hink' n)
    · obtain ⟨hphase, hreturned⟩ := hturned i hq
      have hphase' := hm.turned ht.noWriter hphase
      refine ⟨hphase', fun result hr => ?_⟩
      rcases List.mem_append.mp hr with hr | hr
      · exact hreturned result hr
      · exact hphase' _ (hm.returned_phase hr)

end Connector
end EfsControl

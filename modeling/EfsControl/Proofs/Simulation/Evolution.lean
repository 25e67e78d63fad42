/-
# A simulation runs the connector

Whatever turns the tasks of a simulation take, the connector only takes steps
of its own: the state that comes about is the end of a run. The setup stays,
callers keep their errands, and a call is made by one caller only, for the
command of its errand. In the turn of a task only one caller acts, if it is the
turn of a caller, and all others stay as they are.

Key definitions: `Simulation.Alike`, `Simulation.Evolves`, `Simulation.Works`,
`Simulation.Drive`, `Task.caller?`.
Key theorems: `Simulation.works_act`, `works_turn`, `evolves_settle`,
`evolves_waitFor`.
-/
import EfsControl.Proofs.Connector.Bystander
import EfsControl.Simulation.Service

namespace EfsControl

/-- The caller whose turn it is, if it is one of a caller. -/
def Task.caller? : Task → Option Nat
  | .job k => some k
  | _ => none

/-- The turn of another task is not one of the caller. -/
theorem Task.caller?_ne {t : Task} {k : Nat} (h : t ≠ .job k) : t.caller? ≠ some k := by
  intro hk
  cases t with
  | job j => exact h (congrArg Task.job (Option.some.inj hk))
  | worker | link => cases hk

namespace Simulation

open Connector (Action Note Party Move State request_of_run run run_append run_calls_le step_move)

/-- The errand of a caller. -/
def errand? (w : Simulation) (k : Nat) : Option Errand := (w.jobs[k]?).map (·.errand)

/-- The call that a caller has made. -/
def call? (w : Simulation) (k : Nat) : Option Nat := (w.jobs[k]?).bind (·.call)

/-- Whether a caller is to go away. -/
def doomed? (w : Simulation) (k : Nat) : Option Bool := (w.jobs[k]?).map (·.doomed)

/-! ### What concerns neither the connector nor the callers -/

/-- Two simulations with the same setup, the same connector, the same callers and the same time,
where everyone who had something to do still has. -/
structure Alike (w w' : Simulation) : Prop where
  setup : w'.setup = w.setup
  state : w'.state = w.state
  jobs : w'.jobs = w.jobs
  now : w'.now = w.now
  ready : w.ready <+: w'.ready

namespace Alike

variable {w w' w'' : Simulation}

theorem refl (w : Simulation) : Alike w w := ⟨rfl, rfl, rfl, rfl, List.prefix_refl _⟩

theorem trans (h : Alike w w') (h' : Alike w' w'') : Alike w w'' :=
  ⟨h'.setup.trans h.setup, h'.state.trans h.state, h'.jobs.trans h.jobs, h'.now.trans h.now,
    h.ready.trans h'.ready⟩

theorem foldl {α : Type} {f : Simulation → α → Simulation} (hf : ∀ w a, Alike w (f w a))
    (as : List α) (w : Simulation) : Alike w (as.foldl f w) := by
  induction as generalizing w with
  | nil => exact refl w
  | cons a as ih => exact (hf w a).trans (ih _)

end Alike

/-- Some more have something to do, and nothing else has changed. -/
def Woken (w w' : Simulation) : Prop := ∃ ts, w' = { w with ready := w.ready ++ ts }

namespace Woken

variable {w w' w'' : Simulation}

theorem refl (w : Simulation) : Woken w w := ⟨[], by rw [List.append_nil]⟩

theorem trans (h : Woken w w') (h' : Woken w' w'') : Woken w w'' := by
  obtain ⟨ts, rfl⟩ := h
  obtain ⟨us, rfl⟩ := h'
  exact ⟨ts ++ us, by simp only [List.append_assoc]⟩

theorem foldl {α : Type} {f : Simulation → α → Simulation} (hf : ∀ w a, Woken w (f w a))
    (as : List α) (w : Simulation) : Woken w (as.foldl f w) := by
  induction as generalizing w with
  | nil => exact refl w
  | cons a as ih => exact (hf w a).trans (ih _)

theorem alike (h : Woken w w') : Alike w w' := by
  obtain ⟨ts, rfl⟩ := h
  exact ⟨rfl, rfl, rfl, rfl, List.prefix_append _ ts⟩

theorem links (h : Woken w w') : w'.links = w.links := by
  obtain ⟨ts, rfl⟩ := h
  rfl

end Woken

theorem woken_wake (w : Simulation) (t : Task) : Woken w (w.wake t) := by
  unfold wake
  split
  · exact .refl w
  · exact ⟨[t], rfl⟩

theorem mem_ready_wake (w : Simulation) (t : Task) : t ∈ (w.wake t).ready := by
  unfold wake
  split
  · rename_i h
    exact List.contains_iff_mem.mp h
  · simp

theorem woken_wakeCall (w : Simulation) (id : Nat) : Woken w (w.wakeCall id) := by
  unfold wakeCall
  split
  · exact woken_wake w _
  · exact .refl w

theorem woken_wakeHolder (w : Simulation) (before after : Option Party) :
    Woken w (w.wakeHolder before after) := by
  unfold wakeHolder
  split
  · exact .refl w
  · split
    · exact woken_wake w _
    · exact woken_wakeCall w _
    · exact .refl w

theorem woken_wakeWaiters (w : Simulation) : Woken w w.wakeWaiters :=
  .foldl (fun w _ => woken_wake w _) _ w

theorem woken_wakeWriter (w : Simulation) : Woken w w.wakeWriter := by
  unfold wakeWriter
  split
  · exact woken_wakeCall w _
  · exact .refl w

theorem alike_wake (w : Simulation) (t : Task) : Alike w (w.wake t) := (woken_wake w t).alike

theorem alike_record (w : Simulation) (n : Note) : Alike w (w.record n) := by
  cases n <;> exact ⟨rfl, rfl, rfl, rfl, List.prefix_refl _⟩

theorem alike_dial (w : Simulation) : Alike w w.dial := by
  unfold dial
  split
  · exact ⟨rfl, rfl, rfl, rfl, List.prefix_refl _⟩
  · exact .refl w

theorem alike_onLink (w : Simulation) (k : Nat) (f : Link → Link) : Alike w (w.onLink k f) :=
  ⟨rfl, rfl, rfl, rfl, List.prefix_refl _⟩

theorem alike_takeCommand (w : Simulation) (k count : Nat) (line : List UInt8) :
    Alike w (w.takeCommand k count line) := by
  unfold takeCommand
  simp only
  split <;> exact ⟨rfl, rfl, rfl, rfl, List.prefix_refl _⟩

theorem alike_exchange (w : Simulation) : Alike w w.exchange := by
  unfold exchange
  simp only
  refine .trans ?_ (Woken.foldl (fun w _ => woken_wake w _) _ _).alike
  refine .trans ?_ (woken_wakeWriter _).alike
  split
  · have hheard : Alike w { w with dialling := w.dialling.heard } :=
      ⟨rfl, rfl, rfl, rfl, List.prefix_refl _⟩
    exact hheard.trans (alike_wake _ _)
  · exact .refl w

/-! ### What concerns them -/

/-- What can become of a simulation. -/
structure Evolves (w w' : Simulation) : Prop where
  setup : w'.setup = w.setup
  ran : ∃ as notes, run w.setup w.state as = some (w'.state, notes)
  size : w'.jobs.length = w.jobs.length
  errand : ∀ k, w'.errand? k = w.errand? k
  call : ∀ {k id}, w.call? k = some id → w'.call? k = some id
  /-- A call that has been made on the way is new, and for the errand of the caller. -/
  own : ∀ {k id}, w'.call? k = some id → w.call? k = some id ∨ w.state.calls.length ≤ id ∧
    ∃ e c, w'.errand? k = some e ∧ commandOf? e = some c ∧ w'.state.request? id = some c
  /-- A new call has been made by a caller that had made none. -/
  made : ∀ {id}, w.state.calls.length ≤ id → id < w'.state.calls.length →
    ∃ k, w.call? k = none ∧ w'.call? k = some id

namespace Evolves

variable {w w' w'' : Simulation}

theorem of_eq (hs : w'.setup = w.setup) (ht : w'.state = w.state) (hj : w'.jobs = w.jobs) :
    Evolves w w' where
  setup := hs
  ran := ⟨[], [], by rw [ht]; rfl⟩
  size := congrArg List.length hj
  errand _ := by rw [errand?, errand?, hj]
  call hc := by rwa [call?, hj]
  own hc := .inl (by rwa [call?, hj] at hc)
  made hid hlt := absurd (ht ▸ hlt) (Nat.not_lt.mpr hid)

theorem of_alike (h : Alike w w') : Evolves w w' := of_eq h.setup h.state h.jobs

theorem refl (w : Simulation) : Evolves w w := of_alike (.refl w)

theorem calls_le (h : Evolves w w') : w.state.calls.length ≤ w'.state.calls.length := by
  obtain ⟨_, _, hr⟩ := h.ran
  exact run_calls_le hr

theorem trans (h : Evolves w w') (h' : Evolves w' w'') : Evolves w w'' where
  setup := h'.setup.trans h.setup
  ran := by
    obtain ⟨as, ns, hr⟩ := h.ran
    obtain ⟨bs, ns', hr'⟩ := h'.ran
    exact ⟨as ++ bs, ns ++ ns', run_append.mpr ⟨_, ns, ns', hr, h.setup ▸ hr', rfl⟩⟩
  size := h'.size.trans h.size
  errand k := (h'.errand k).trans (h.errand k)
  call hc := h'.call (h.call hc)
  own {k id} hc := by
    rcases h'.own hc with hc | ⟨hid, hnew⟩
    · rcases h.own hc with hc | ⟨hid, e, c, he, hcmd, hreq⟩
      · exact .inl hc
      · obtain ⟨bs, ns', hr'⟩ := h'.ran
        exact .inr ⟨hid, e, c, (h'.errand k).trans he, hcmd, request_of_run hr' hreq⟩
    · exact .inr ⟨h.calls_le.trans hid, hnew⟩
  made {id} hid hlt := by
    by_cases hmid : id < w'.state.calls.length
    · obtain ⟨k, hnone, hc⟩ := h.made hid hmid
      exact ⟨k, hnone, h'.call hc⟩
    · obtain ⟨k, hnone, hc⟩ := h'.made (Nat.not_lt.mp hmid) hlt
      refine ⟨k, Option.eq_none_iff_forall_ne_some.mpr fun i hi => ?_, hc⟩
      rw [h.call hi] at hnone
      cases hnone

end Evolves

/-- What can become of a simulation while nobody of the callers acts but `who`, if anyone. -/
structure Works (who : Option Nat) (w w' : Simulation) : Prop extends Evolves w w' where
  now : w'.now = w.now
  /-- Everyone who has something to do keeps the place in the order of turns. -/
  ready : w.ready <+: w'.ready
  /-- Nobody is sent away. -/
  doomed : ∀ k, w'.doomed? k = w.doomed? k
  job : ∀ {k}, who ≠ some k → w'.jobs[k]? = w.jobs[k]?
  phase : ∀ {id}, id < w.state.calls.length → (∀ k, who = some k → w.call? k ≠ some id) →
    w'.state.phase? id = w.state.phase? id

namespace Works

variable {who : Option Nat} {w w' w'' : Simulation}

theorem of_alike (h : Alike w w') : Works who w w' where
  toEvolves := .of_alike h
  now := h.now
  ready := h.ready
  doomed _ := by rw [doomed?, doomed?, h.jobs]
  job _ := by rw [h.jobs]
  phase _ _ := by rw [h.state]

theorem refl (w : Simulation) : Works who w w := of_alike (.refl w)

theorem trans (h : Works who w w') (h' : Works who w' w'') : Works who w w'' where
  toEvolves := h.toEvolves.trans h'.toEvolves
  now := h'.now.trans h.now
  ready := h.ready.trans h'.ready
  doomed k := (h'.doomed k).trans (h.doomed k)
  job hk := (h'.job hk).trans (h.job hk)
  phase {id} hlt hno := by
    refine (h'.phase (hlt.trans_le h.calls_le) fun k hk hc => ?_).trans (h.phase hlt hno)
    rcases h.own hc with hc | ⟨hid, -⟩
    · exact hno k hk hc
    · exact absurd hlt (Nat.not_lt.mpr hid)

end Works

/-- What is noted is kept, and nothing else changes. -/
theorem links_record (w : Simulation) (ns : List Note) : (ns.foldl record w).links = w.links := by
  induction ns generalizing w with
  | nil => rfl
  | cons n ns ih =>
    rw [List.foldl_cons, ih]
    cases n <;> rfl

/-- Where a step can be taken, an action takes it and wakes whom it concerns. -/
theorem woken_act {w : Simulation} {a : Action} {s : State} {notes : List Note}
    (h : Connector.step w.setup w.state a = some (s, notes)) :
    Woken (notes.foldl record { w with state := s }) (w.act a) := by
  have hresync (w' : Simulation) (b : Bool) : Woken w' (if b then w'.wake .worker else w') := by
    cases b
    · exact .refl w'
    · exact woken_wake w' _
  have honline (w' : Simulation) (b : Bool) : Woken w' (if b then w'.wakeWaiters else w') := by
    cases b
    · exact .refl w'
    · exact woken_wakeWaiters w'
  unfold act
  rw [h]
  exact (hresync _ _).trans <| (Woken.foldl woken_wakeCall _ _).trans <|
    (woken_wakeHolder _ _ _).trans (honline _ _)

theorem act_of_step {w : Simulation} {a : Action} {s : State} {notes : List Note}
    (h : Connector.step w.setup w.state a = some (s, notes)) :
    Alike { w with state := s } (w.act a) ∧ (w.act a).links = w.links := by
  have hrecord : Alike { w with state := s } (notes.foldl record { w with state := s }) :=
    .foldl alike_record _ _
  exact ⟨hrecord.trans (woken_act h).alike, (woken_act h).links.trans (links_record _ _)⟩

/-- An action of the connector is a step or nothing. -/
theorem act_cases (w : Simulation) (a : Action) :
    (Connector.step w.setup w.state a = none ∧ w.act a = w) ∨
    ∃ s notes, Connector.step w.setup w.state a = some (s, notes) ∧
      Alike { w with state := s } (w.act a) := by
  cases h : Connector.step w.setup w.state a with
  | none => exact .inl ⟨rfl, by rw [act, h]⟩
  | some next => exact .inr ⟨next.1, next.2, rfl, (act_of_step h).1⟩

/-- A step of the connector makes no call, and only a call of `who` goes on. -/
theorem works_act {who : Option Nat} (w : Simulation) {a : Action} (ha : a.isCall = false)
    (hc : ∀ id, a.caller? = some id → ∃ k, who = some k ∧ w.call? k = some id) :
    Works who w (w.act a) := by
  rcases w.act_cases a with ⟨-, h⟩ | ⟨s, notes, hs, h⟩
  · rw [h]
    exact .refl w
  · have hm := step_move hs
    have hlength : (w.act a).state.calls.length = w.state.calls.length := by
      rw [h.state]
      exact hm.calls_length ha
    refine ⟨⟨h.setup, ⟨[a], notes, ?_⟩, congrArg List.length h.jobs, fun k => ?_, fun hk => ?_,
      fun hk => .inl ?_, fun hid hlt => absurd (hlength ▸ hlt) (Nat.not_lt.mpr hid)⟩,
      h.now, h.ready, fun k => ?_, fun _ => by rw [h.jobs], fun hlt hno => ?_⟩
    · simp [run, hs, Connector.noting, h.state]
    · rw [errand?, errand?, h.jobs]
    · rwa [call?, h.jobs]
    · rwa [call?, h.jobs] at hk
    · rw [doomed?, doomed?, h.jobs]
    · rw [h.state]
      refine hm.phase_other (fun hcaller => ?_) hlt
      obtain ⟨k, hk, hcall⟩ := hc _ hcaller
      exact hno k hk hcall

/-- Nobody of the callers acts. -/
theorem works_act_none (w : Simulation) {a : Action} (ha : a.isCall = false)
    (hc : a.caller? = none) : Works none w (w.act a) :=
  works_act w ha fun id h => by
    rw [hc] at h
    cases h

/-! ### Callers -/

section
variable (w : Simulation) (k : Nat)

/-- A caller changes in nothing but how it goes on. -/
theorem evolves_onJob {f : Job → Job} (he : ∀ j, (f j).errand = j.errand)
    (hc : ∀ j, (f j).call = j.call) : Evolves w (w.onJob k f) := by
  have herrand (i : Nat) : (w.onJob k f).errand? i = w.errand? i := by
    simp only [errand?, onJob, List.getElem?_modify]
    cases w.jobs[i]? with
    | none => rfl
    | some j => by_cases h : k = i <;> simp [h, he]
  have hcall (i : Nat) : (w.onJob k f).call? i = w.call? i := by
    simp only [call?, onJob, List.getElem?_modify]
    cases w.jobs[i]? with
    | none => rfl
    | some j => by_cases h : k = i <;> simp [h, hc]
  exact ⟨rfl, ⟨[], [], rfl⟩, List.length_modify .., herrand, fun h => (hcall _).trans h,
    fun h => .inl ((hcall _).symm.trans h), fun hid hlt => absurd hlt (Nat.not_lt.mpr hid)⟩

theorem works_onJob {f : Job → Job} (he : ∀ j, (f j).errand = j.errand)
    (hc : ∀ j, (f j).call = j.call) (hd : ∀ j, (f j).doomed = j.doomed) :
    Works (some k) w (w.onJob k f) := by
  refine ⟨evolves_onJob w k he hc, rfl, List.prefix_refl _, fun i => ?_, fun {i} hi => ?_,
    fun _ _ => rfl⟩
  · simp only [doomed?, onJob, List.getElem?_modify]
    cases w.jobs[i]? with
    | none => rfl
    | some j => by_cases h : k = i <;> simp [h, hd]
  · have hne : k ≠ i := fun h => hi (congrArg some h)
    simp [onJob, hne]

theorem works_endJob (report : Report) : Works (some k) w (w.endJob k report) :=
  works_onJob w k (fun _ => rfl) (fun _ => rfl) fun _ => rfl

variable {w k}

/-- An action of the call of a caller. -/
theorem works_act_call {id : Nat} (h : w.call? k = some id) {a : Action} (ha : a.isCall = false)
    (hc : a.caller? = some id) : Works (some k) w (w.act a) :=
  works_act w ha fun i hi => by
    rw [hc, Option.some.injEq] at hi
    exact ⟨k, rfl, hi ▸ h⟩

/-- A call writes, and its caller begins to wait for the reply. -/
theorem works_send {id : Nat} (h : w.call? k = some id) (count : Nat) (t : Option Nat) :
    Works (some k) w ((w.act (.write id count)).onJob k fun j => { j with deadline := t }) :=
  (works_act_call h rfl rfl).trans
    (works_onJob _ k (fun _ => rfl) (fun _ => rfl) fun _ => rfl)

/-- What a call does next in the turn of its caller. -/
inductive Drive (k id : Nat) (e : Errand) (w : Simulation) : Prop
  /-- It has to wait: not for the reply if its time has come. -/
  | waits (hp : ∀ p, w.state.phase? id = some p → 3 ≤ p.rank)
    (ht : ∀ seq conn, w.state.phase? id = some (.awaiting seq conn) →
      w.isDue ((w.jobs[k]?).bind (·.deadline)) = false)
    (h : ∀ fuel, driveCall k id e fuel w = w)
  /-- It takes a step, which it can where it has written and its time is limited. -/
  | acts {a : Action} {p : Connector.Phase} (ha : a.isCall = false) (hc : a.caller? = some id)
    (hw : a.isWrite = false) (hd : a ≠ .drop id) (hp : w.state.phase? id = some p)
    (ho : p.isOver = false) (hs : p.rank ≤ 3 → w.setup.config.commandTimeout.isSome = true →
      (Connector.step w.setup w.state a).isSome = true)
    (h : ∀ fuel, driveCall k id e (fuel + 1) w = driveCall k id e fuel (w.act a))
  /-- It writes a part of its command and has to wait. -/
  | writes {count conn : Nat} {seq : Option UInt32} {rest : List UInt8}
    (hp : w.state.phase? id = some (.writing seq conn rest))
    (h : ∀ fuel, driveCall k id e (fuel + 1) w = w.act (.write id count))
  /-- It writes all that is left of its command, and begins to wait for the reply. -/
  | sends {count conn : Nat} {seq : Option UInt32} {rest : List UInt8} {s : State}
    {notes : List Note} (hp : w.state.phase? id = some (.writing seq conn rest))
    (hs : Connector.step w.setup w.state (.write id count) = some (s, notes))
    (hs' : s.phase? id = some (.awaiting seq conn))
    (h : ∀ fuel, driveCall k id e (fuel + 1) w = driveCall k id e fuel
      ((w.act (.write id count)).onJob k fun j => { j with deadline := w.replyDeadline }))
  | ends {result : ExchangeResult} (hp : w.state.phase? id = some (.finished result))
    (h : ∀ fuel, driveCall k id e (fuel + 1) w =
      (w.logged (reportOf e result).2).endJob k (reportOf e result).1)
  | leaves (hp : w.state.phase? id = some .dropped)
    (h : ∀ fuel, driveCall k id e (fuel + 1) w = w.endJob k .aborted)

theorem drive (w : Simulation) (k id : Nat) (e : Errand) : Drive k id e w := by
  have always {v : Simulation} (h : ∀ fuel, driveCall k id e (fuel + 1) v = v) (fuel : Nat) :
      driveCall k id e fuel v = v := by
    cases fuel with
    | zero => rfl
    | succ fuel => exact h fuel
  cases hc : w.state.calls[id]? with
  | none =>
    have hnone : w.state.phase? id = none := by rw [State.phase?, hc, Option.map_none]
    exact .waits (fun p hp => by rw [hnone] at hp; cases hp)
      (fun seq conn hp => by rw [hnone] at hp; cases hp)
      (always fun fuel => by simp only [driveCall, hc])
  | some call =>
    obtain ⟨subcommand, args, phase, slot⟩ := call
    have hp : w.state.phase? id = some phase := State.phase?_eq hc
    have hwaits (hrank : 3 ≤ phase.rank) : ∀ p, w.state.phase? id = some p → 3 ≤ p.rank := by
      intro p hp'
      rwa [← Option.some.inj (hp.symm.trans hp')]
    have hother (hne : ∀ seq conn, phase ≠ .awaiting seq conn) (seq : Option UInt32) (conn : Nat)
        (hp' : w.state.phase? id = some (.awaiting seq conn)) :
        w.isDue ((w.jobs[k]?).bind (·.deadline)) = false :=
      absurd (Option.some.inj (hp.symm.trans hp')) (hne seq conn)
    cases phase with
    | queued =>
      by_cases hl : w.state.lock.holder = some (.call id)
      · refine .acts (a := .begin id) rfl rfl rfl (by simp) hp rfl (fun hrank => ?_) fun fuel => ?_
        · simp [Connector.Phase.rank] at hrank
        · simp only [driveCall, hc, if_pos hl]
      · exact .waits (hwaits (by decide)) (hother (by simp)) (always fun fuel => by
          simp only [driveCall, hc, if_neg hl])
    | writing seq conn rest =>
      cases hb : (w.state.conns[conn]?.map (·.broken)).getD true with
      | true =>
        refine .acts (a := .writeFails id ExchangeError.brokenPipe) rfl rfl rfl (by simp) hp rfl
          (fun hrank => ?_) fun fuel => ?_
        · simp [Connector.Phase.rank] at hrank
        · simp only [driveCall, hc, hb, if_true]
      | false =>
        by_cases hzero : w.room conn rest.length = 0
        · exact .waits (hwaits (by simp [Connector.Phase.rank])) (hother (by simp))
            (always fun fuel => by
              simp only [driveCall, hc, hb, Bool.false_eq_true, if_false, if_pos hzero])
        · by_cases hlt : w.room conn rest.length < rest.length
          · have hpart (fuel : Nat) : driveCall k id e (fuel + 1) w =
                w.act (.write id (w.room conn rest.length)) := by
              simp only [driveCall, hc, hb, Bool.false_eq_true, if_false, if_neg hzero, if_pos hlt]
            exact .writes hp hpart
          · refine .sends hp (Connector.step_write_some hc rfl hb (Nat.pos_of_ne_zero hzero)
              (Nat.not_lt.mp hlt)) ((State.phase?_onCall hp _ _).trans (if_pos rfl)) fun fuel => ?_
            simp only [driveCall, hc, hb, Bool.false_eq_true, if_false, if_neg hzero, if_neg hlt]
    | awaiting seq conn =>
      cases slot with
      | waiting =>
        cases hd : w.isDue ((w.jobs[k]?).bind (·.deadline)) with
        | true =>
          refine .acts (a := .timeout id) rfl rfl rfl (by simp) hp rfl (fun _ hlimit => ?_)
            fun fuel => ?_
          · obtain ⟨limit, hl⟩ := Option.isSome_iff_exists.mp hlimit
            simp [Connector.step, hc, hl]
          · simp only [driveCall, hc, hd, if_true]
        | false =>
          exact .waits (hwaits (by simp [Connector.Phase.rank])) (fun _ _ _ => hd)
            (always fun fuel => by
              simp only [driveCall, hc, hd, Bool.false_eq_true, if_false])
      | answered result =>
        refine .acts (a := .receive id (w.elapsed id)) rfl rfl rfl (by simp) hp rfl (fun _ _ => ?_)
          fun fuel => ?_
        · cases result <;> simp [Connector.step, hc, Connector.receiveAnswer, Connector.readSlot]
        · simp only [driveCall, hc]
      | severed =>
        refine .acts (a := .receive id (w.elapsed id)) rfl rfl rfl (by simp) hp rfl (fun _ _ => ?_)
          fun fuel => ?_
        · simp [Connector.step, hc, Connector.receiveAnswer, Connector.readSlot]
        · simp only [driveCall, hc]
    | expired =>
      refine .acts (a := .giveUp id) rfl rfl rfl (by simp) hp rfl (fun _ hlimit => ?_)
        fun fuel => ?_
      · obtain ⟨limit, hl⟩ := Option.isSome_iff_exists.mp hlimit
        simp [Connector.step, hc, hl]
      · simp only [driveCall, hc]
    | closing =>
      refine .acts (a := .notify id) rfl rfl rfl (by simp) hp rfl (fun _ hlimit => ?_)
        fun fuel => ?_
      · obtain ⟨limit, hl⟩ := Option.isSome_iff_exists.mp hlimit
        simp [Connector.step, hc, hl]
      · simp only [driveCall, hc]
    | finished result => exact .ends hp fun fuel => by simp only [driveCall, hc]
    | dropped => exact .leaves hp fun fuel => by simp only [driveCall, hc]

/-- A call goes on. -/
theorem works_driveCall {id : Nat} (h : w.call? k = some id) (errand : Errand) (fuel : Nat) :
    Works (some k) w (driveCall k id errand fuel w) := by
  induction fuel generalizing w with
  | zero => exact .refl w
  | succ fuel ih =>
    cases drive w k id errand with
    | waits _ _ hd =>
      rw [hd]
      exact .refl w
    | @acts a _ ha hc _ _ _ _ _ hd =>
      rw [hd]
      have hact : Works (some k) w (w.act a) := works_act_call h ha hc
      exact hact.trans (ih (hact.call h))
    | writes _ hd =>
      rw [hd]
      exact works_act_call h rfl rfl
    | @sends count _ _ _ _ _ _ _ _ hd =>
      rw [hd]
      have hsent := works_send h count w.replyDeadline
      exact hsent.trans (ih (hsent.call h))
    | @ends result _ hd =>
      rw [hd]
      have hlog : Alike w (w.logged (reportOf errand result).2) :=
        ⟨rfl, rfl, rfl, rfl, List.prefix_refl _⟩
      exact (Works.of_alike hlog).trans (works_endJob _ k _)
    | leaves _ hd =>
      rw [hd]
      exact works_endJob w k _

theorem works_turnWaiter (ms : Nat) (job : Job) : Works (some k) w (w.turnWaiter k ms job) := by
  unfold turnWaiter
  split
  · exact works_endJob w k _
  · simp only
    split
    · exact works_endJob w k _
    · exact works_onJob w k (fun _ => rfl) (fun _ => rfl) fun _ => rfl

/-- Asking for the lock is always possible. -/
theorem act_call (w : Simulation) (subcommand : String) (args : List Arg) :
    Alike { w with state := { w.state with
      calls := w.state.calls ++ [{ subcommand := subcommand, args := args }]
      lock := w.state.lock.request (.call w.state.calls.length) } }
      (w.act (.call subcommand args)) ∧ (w.act (.call subcommand args)).links = w.links := by
  have hstep : Connector.step w.setup w.state (.call subcommand args) = some (_, []) := rfl
  exact act_of_step hstep

/-- The call that a caller makes is the next one. -/
theorem call?_makeCall {job : Job} (hj : w.jobs[k]? = some job) (subcommand : String)
    (args : List Arg) (i : Nat) : (w.makeCall k subcommand args).call? i =
      if i = k then some w.state.calls.length else w.call? i := by
  have hjobs : (w.act (.call subcommand args)).jobs = w.jobs := (w.act_call _ _).1.jobs
  simp only [makeCall, call?, onJob, List.getElem?_modify, hjobs]
  by_cases h : k = i
  · subst h
    simp [hj]
  · simp [h, Ne.symm h]

/-- A caller makes the call that its errand asks for. -/
theorem works_makeCall {job : Job} {subcommand : String} {args : List Arg}
    (hj : w.jobs[k]? = some job) (hc : job.call = none)
    (he : commandOf? job.errand = some (subcommand, args)) :
    Works (some k) w (w.makeCall k subcommand args) := by
  have ha := (w.act_call subcommand args).1
  have hjobs : (w.act (.call subcommand args)).jobs = w.jobs := ha.jobs
  have hstate : (w.makeCall k subcommand args).state = _ := ha.state
  have hlength : (w.makeCall k subcommand args).state.calls.length = w.state.calls.length + 1 := by
    rw [hstate, List.length_append, List.length_singleton]
  have hreq : (w.makeCall k subcommand args).state.request? w.state.calls.length =
      some (subcommand, args) := by
    rw [hstate, State.request?, State.calls_arrive, if_pos rfl]
    rfl
  have herrand (i : Nat) : (w.makeCall k subcommand args).errand? i = w.errand? i := by
    simp only [makeCall, errand?, onJob, List.getElem?_modify, hjobs]
    cases w.jobs[i]? with
    | none => rfl
    | some j => by_cases h : k = i <;> simp [h]
  have hcall := call?_makeCall hj subcommand args
  have hnone : w.call? k = none := by rw [call?, hj, Option.bind_some, hc]
  refine ⟨⟨ha.setup, ⟨[.call subcommand args], [], ?_⟩, ?_, herrand, fun {i id} h => ?_,
    fun {i id} h => ?_, fun {id} hid hlt => ⟨k, hnone, ?_⟩⟩, ha.now, ha.ready, fun i => ?_,
    fun {i} hi => ?_, fun {id} hlt _ => ?_⟩
  · rw [hstate]
    rfl
  · rw [makeCall, onJob, List.length_modify, hjobs]
  · have hne : i ≠ k := fun hi => by
      rw [hi, hnone] at h
      cases h
    rw [hcall, if_neg hne, h]
  · rw [hcall] at h
    split at h
    · rename_i hi
      cases h
      refine .inr ⟨Nat.le_refl _, job.errand, _, ?_, he, hreq⟩
      rw [herrand, errand?, hi, hj]
      rfl
    · exact .inl h
  · rw [hcall, if_pos rfl]
    congr 1
    omega
  · simp only [doomed?, makeCall, onJob, List.getElem?_modify, hjobs]
    cases w.jobs[i]? with
    | none => rfl
    | some j => by_cases h : k = i <;> simp [h]
  · have hne : k ≠ i := fun h => hi (congrArg some h)
    simp [makeCall, onJob, hne, hjobs]
  · rw [hstate, State.phase?_arrive, if_neg (Nat.ne_of_lt hlt)]

theorem works_turnJob (w : Simulation) (k : Nat) : Works (some k) w (w.turnJob k) := by
  unfold turnJob
  split
  · exact .refl w
  · rename_i job hj
    have hown {id : Nat} (hc : job.call = some id) : w.call? k = some id := by
      rw [call?, hj, Option.bind_some, hc]
    split
    · exact .refl w
    split
    · refine .trans ?_ (works_endJob _ k _)
      split
      · rename_i id hc
        exact works_act_call (hown hc) rfl rfl
      · exact .refl w
    · split
      · exact works_turnWaiter _ _
      · exact .refl w
      · rename_i subcommand args he _
        split
        · rename_i id hc
          exact works_driveCall (hown hc) _ _
        · rename_i hc
          have hmake := works_makeCall hj hc he
          exact hmake.trans (works_driveCall ((call?_makeCall hj _ _ k).trans (if_pos rfl)) _ _)

end

/-! ### The worker and the far ends -/

/-- What the worker does next is nothing that a caller does. -/
theorem nextAction?_worker {w : Simulation} {a : Action} (h : w.nextAction? = some a) :
    a.isCall = false ∧ a.caller? = none := by
  unfold nextAction? at h
  split at h
  · cases h
    exact ⟨rfl, rfl⟩
  · split at h
    · cases h
      exact ⟨rfl, rfl⟩
    · split at h
      · cases h
        exact ⟨rfl, rfl⟩
      · cases h
      · obtain ⟨_, -, rfl⟩ := Option.map_eq_some_iff.mp h
        exact ⟨rfl, rfl⟩
    · split at h <;> cases h
      exact ⟨rfl, rfl⟩
    · cases h
      exact ⟨rfl, rfl⟩
    · split at h
      · cases h
        exact ⟨rfl, rfl⟩
      · split at h
        · cases h
          exact ⟨rfl, rfl⟩
        · split at h <;> cases h
          exact ⟨rfl, rfl⟩
    · split at h <;> cases h
      exact ⟨rfl, rfl⟩
    · split at h <;> cases h
      exact ⟨rfl, rfl⟩
    · cases h

theorem works_connect (w : Simulation) : Works none w w.connect := by
  have hdial : Alike w { w with dialling := .no } := ⟨rfl, rfl, rfl, rfl, List.prefix_refl _⟩
  have hact : Works none w (act { w with dialling := .no } .connect) :=
    (Works.of_alike hdial).trans (works_act_none _ rfl rfl)
  unfold connect
  simp only
  split
  · exact hact.trans (.of_alike ⟨rfl, rfl, rfl, rfl, List.prefix_refl _⟩)
  · exact hact

theorem works_actWorker (w : Simulation) {a : Action} (ha : a.isCall = false)
    (hc : a.caller? = none) : Works none w (w.actWorker a) := by
  unfold actWorker
  split
  · exact works_connect w
  · exact (works_act_none w rfl rfl).trans
      (.of_alike ⟨rfl, rfl, rfl, rfl, List.prefix_refl _⟩)
  · have hdial : Alike w { w with dialling := .no } := ⟨rfl, rfl, rfl, rfl, List.prefix_refl _⟩
    exact (Works.of_alike hdial).trans (works_act_none _ rfl rfl)
  · exact works_act_none w ha hc

theorem works_turnWorker (fuel : Nat) (w : Simulation) : Works none w (turnWorker fuel w) := by
  induction fuel generalizing w with
  | zero => exact .refl w
  | succ fuel ih =>
    unfold turnWorker
    split
    · rename_i a ha
      obtain ⟨hcall, hcaller⟩ := nextAction?_worker ha
      exact (works_actWorker w hcall hcaller).trans (ih _)
    · exact .of_alike (alike_dial w)

theorem works_writeLine (w : Simulation) (k : Nat) (link : Link) (text : String) :
    Works none w (w.writeLine k link text) := by
  unfold writeLine
  split
  · exact .of_alike (alike_onLink w k _)
  · exact works_act_none w rfl rfl

theorem works_react (w : Simulation) (k : Nat) (link : Link) (r : Reaction) :
    Works none w (w.react k link r) := by
  cases r with
  | reply code text => exact works_writeLine w k link _
  | line text => exact works_writeLine w k link _
  | pause ms => exact .of_alike (alike_onLink w k _)
  | hangUp =>
    have hshut := alike_onLink w k fun l => { l with isAlive := false, isShut := true }
    refine (Works.of_alike hshut).trans (works_act_none _ ?_ ?_) <;>
      · split <;> rfl

theorem works_turnLink (k fuel : Nat) (w : Simulation) : Works none w (turnLink k fuel w) := by
  induction fuel generalizing w with
  | zero => exact .refl w
  | succ fuel ih =>
    unfold turnLink
    split
    · exact .refl w
    split
    · exact .refl w
    split
    · exact (Works.of_alike (alike_onLink w k _)).trans <| (works_react _ k _ _).trans (ih _)
    · refine (Works.of_alike (alike_onLink w k fun l => { l with wakeAt := none })).trans ?_
      simp only
      split
      · exact (Works.of_alike (alike_takeCommand _ k _ _)).trans (ih _)
      · split
        · exact .of_alike (alike_onLink _ k _)
        · exact .refl _

/-! ### All of them -/

theorem works_turn (w : Simulation) (t : Task) : Works t.caller? w (w.turn t) := by
  cases t with
  | job k => exact works_turnJob w k
  | worker => exact works_turnWorker _ w
  | link k => exact works_turnLink k _ w

theorem evolves_settleWithin (fuel : Nat) (w : Simulation) : Evolves w (settleWithin fuel w) := by
  induction fuel generalizing w with
  | zero => exact .refl w
  | succ fuel ih =>
    unfold settleWithin
    split
    · rename_i t ts _
      have hready : Evolves w { w with ready := ts } := .of_eq rfl rfl rfl
      exact hready.trans <| (works_turn _ t).toEvolves.trans (ih _)
    · refine (Evolves.of_alike (alike_exchange w)).trans ?_
      simp only
      split
      · exact .refl _
      · exact ih _

theorem evolves_settle (w : Simulation) : Evolves w w.settle := evolves_settleWithin _ w

/-- The clock moves on, and some tasks have something to do. -/
theorem evolves_jump (w : Simulation) (ms : Nat) : Evolves w (w.jump ms) := by
  have hnow : Evolves w { w with now := w.now + ms } := .of_eq rfl rfl rfl
  exact hnow.trans (.of_alike ((alike_exchange _).trans (.foldl alike_wake _ _)))

theorem evolves_advance (w : Simulation) (ms : Nat) : Evolves w (w.advance ms) :=
  (evolves_jump w ms).trans (evolves_settle _)

theorem evolves_waitFor (k ticks : Nat) (w : Simulation) : Evolves w (waitFor k ticks w) := by
  induction ticks generalizing w with
  | zero => exact .refl w
  | succ ticks ih =>
    unfold waitFor
    split
    · exact .refl w
    · exact (evolves_advance w tick).trans (ih _)

theorem evolves_start (w : Simulation) : Evolves w w.start := by
  have hstarted : Alike w { w with isStarted := true } :=
    ⟨rfl, rfl, rfl, rfl, List.prefix_refl _⟩
  exact .of_alike (hstarted.trans (alike_wake _ _))

theorem evolves_shutDown (w : Simulation) : Evolves w w.shutDown := by
  unfold shutDown
  split
  · exact (works_act_none w rfl rfl).toEvolves.trans (.of_alike (alike_wake _ _))
  · exact .refl w

theorem evolves_abort (w : Simulation) (k : Nat) : Evolves w (w.abort k) := by
  unfold abort
  split
  · refine .trans ?_ (.of_alike (alike_wake _ _))
    exact evolves_onJob w k (f := fun j => { j with doomed := true }) (fun _ => rfl) fun _ => rfl
  · exact .refl w

/-- A new caller comes behind the others, and nothing else happens. -/
theorem alike_spawn (w : Simulation) (errand : Errand) :
    Alike { w with jobs := w.jobs ++ [{ errand := errand }] } (w.spawn errand).1 := alike_wake _ _

theorem errand?_spawn (w : Simulation) (errand : Errand) (k : Nat) :
    (w.spawn errand).1.errand? k = if k = w.jobs.length then some errand else w.errand? k := by
  rw [errand?, (alike_spawn w errand).jobs, List.getElem?_append]
  split
  · rename_i hk
    rw [if_neg (Nat.ne_of_lt hk), errand?]
  · rename_i hk
    split
    · rename_i he
      simp [he]
    · rename_i hne
      have hlong : w.jobs.length + 1 ≤ k := by omega
      rw [errand?, List.getElem?_eq_none (by simp; omega), List.getElem?_eq_none (by omega)]

/-- The new caller has made no call. -/
theorem call?_spawn {w : Simulation} {errand : Errand} {k id : Nat}
    (h : (w.spawn errand).1.call? k = some id) : k < w.jobs.length := by
  by_contra hk
  obtain ⟨j, hj, hc⟩ := Option.bind_eq_some_iff.mp h
  rw [(alike_spawn w errand).jobs, List.getElem?_append_right (Nat.not_lt.mp hk)] at hj
  obtain rfl := List.mem_singleton.mp (List.mem_of_getElem? hj)
  cases hc

end Simulation
end EfsControl

/-
# Turns of a caller

The call of a caller goes on in the turns of this caller alone. A turn goes on
until the call has to wait or is over; then the caller reports what came of it.
Everyone who has something to do when the tasks begin to take turns gets one.

Key definitions: `Simulation.Linked`, `Simulation.Owns`, `Simulation.Faithful`.
Key theorems: `Simulation.driveCall_faithful`, `turnJob_faithful`,
`settleWithin_induction`, `settleWithin_reaches`.
-/
import EfsControl.Proofs.Simulation.Evolution

namespace EfsControl
namespace Simulation

open Connector (Action Note Phase State step_move)

variable {w w' : Simulation} {k id : Nat} {e : Errand}

/-! ### Whose call it is -/

/-- Every call that a caller has made is one of the connector. -/
def Linked (w : Simulation) : Prop := ∀ k id, w.call? k = some id → id < w.state.calls.length

theorem Linked.evolves (h : w.Linked) (hw : Evolves w w') : w'.Linked := by
  intro k id hc
  rcases hw.own hc with hc | ⟨-, _, _, -, -, hreq⟩
  · exact (h k id hc).trans_le hw.calls_le
  · obtain ⟨call, hcall, -⟩ := Option.map_eq_some_iff.mp hreq
    exact (List.getElem?_eq_some_iff.mp hcall).1

theorem Linked.spawn (h : w.Linked) (e : Errand) : (w.spawn e).1.Linked := by
  intro k id hc
  have hk := call?_spawn hc
  rw [call?, (alike_spawn w e).jobs, List.getElem?_append_left hk] at hc
  rw [(alike_spawn w e).state]
  exact h k id hc

/-- The call of a caller with an errand, and of nobody else. -/
structure Owns (w : Simulation) (k id : Nat) (e : Errand) : Prop where
  call : w.call? k = some id
  errand : w.errand? k = some e
  alone : ∀ {j}, w.call? j = some id → j = k
  there : id < w.state.calls.length

namespace Owns

theorem evolves (h : Owns w k id e) (hw : Evolves w w') : Owns w' k id e where
  call := hw.call h.call
  errand := (hw.errand k).trans h.errand
  alone hj := by
    rcases hw.own hj with hj | ⟨hid, -⟩
    · exact h.alone hj
    · exact absurd h.there (Nat.not_lt.mpr hid)
  there := h.there.trans_le hw.calls_le

theorem job (h : Owns w k id e) : ∃ j, w.jobs[k]? = some j ∧ j.call = some id ∧ j.errand = e := by
  obtain ⟨j, hj, hc⟩ := Option.bind_eq_some_iff.mp h.call
  have he := h.errand
  rw [errand?, hj, Option.map_some, Option.some.injEq] at he
  exact ⟨j, hj, hc, he⟩

theorem lt (h : Owns w k id e) : k < w.jobs.length := by
  obtain ⟨j, hj, -⟩ := h.job
  exact (List.getElem?_eq_some_iff.mp hj).1

theorem phase (h : Owns w k id e) : ∃ p, w.state.phase? id = some p :=
  ⟨_, State.phase?_eq (List.getElem?_eq_getElem h.there)⟩

/-- In the turn of somebody else the call stays as it is. -/
theorem phase_other {who : Option Nat} (h : Owns w k id e) (hw : Works who w w')
    (hk : who ≠ some k) : w'.state.phase? id = w.state.phase? id :=
  hw.phase h.there fun _ hj hc => hk (h.alone hc ▸ hj)

end Owns

/-! ### What a caller reports -/

theorem report?_of_jobs (h : w'.jobs[k]? = w.jobs[k]?) : w'.report? k = w.report? k := by
  rw [report?, report?, h]

theorem report?_act (w : Simulation) (a : Action) (k : Nat) :
    (w.act a).report? k = w.report? k := by
  rcases w.act_cases a with ⟨-, h⟩ | ⟨s, notes, -, h⟩
  · rw [h]
  · exact report?_of_jobs (by rw [h.jobs])

theorem report?_endJob (hk : k < w.jobs.length) (r : Report) :
    (w.endJob k r).report? k = some r := by
  simp [report?, endJob, onJob, hk]

/-- A caller who has not been sent away reports what its call has come to, and as soon as it has. -/
structure Faithful (w : Simulation) (k id : Nat) (e : Errand) : Prop where
  told : ∀ r, w.report? k = some r → (r = .aborted ∧ w.doomed? k = some true) ∨
    ∃ result, w.state.phase? id = some (.finished result) ∧ r = (reportOf e result).1
  tells : ∀ result, w.state.phase? id = some (.finished result) →
    w.report? k = some (reportOf e result).1
  /-- Nobody else goes away. -/
  left : w.state.phase? id = some .dropped → w.doomed? k = some true

namespace Faithful

theorem of_eq (h : Faithful w k id e) (hr : w'.report? k = w.report? k)
    (hd : w.doomed? k = some true → w'.doomed? k = some true)
    (hp : w'.state.phase? id = w.state.phase? id) : Faithful w' k id e where
  told r hr' := by
    rw [hp]
    exact (h.told r (hr ▸ hr')).imp_left fun ⟨ha, hdoomed⟩ => ⟨ha, hd hdoomed⟩
  tells result hp' := hr ▸ h.tells result (hp ▸ hp')
  left hp' := hd (h.left (hp ▸ hp'))

/-- Nothing that concerns the caller and its call has changed. -/
theorem of_same (h : Faithful w k id e) (hj : w'.jobs[k]? = w.jobs[k]?)
    (hp : w'.state.phase? id = w.state.phase? id) : Faithful w' k id e :=
  h.of_eq (report?_of_jobs hj) (fun hd => by rwa [doomed?, hj]) hp

/-- Neither is the call over nor has its caller reported. -/
theorem of_open (hr : w.report? k = none) {p : Phase} (hp : w.state.phase? id = some p)
    (ho : p.isOver = false) : Faithful w k id e where
  told r hr' := by
    rw [hr] at hr'
    cases hr'
  tells result hp' := by
    rw [Option.some.inj (hp.symm.trans hp')] at ho
    cases ho
  left hp' := by
    rw [Option.some.inj (hp.symm.trans hp')] at ho
    cases ho

theorem of_rank (hr : w.report? k = none) {p : Phase} (hp : w.state.phase? id = some p)
    (hrank : 3 ≤ p.rank) : Faithful w k id e := by
  refine of_open hr hp ?_
  cases p with
  | finished | dropped => simp [Phase.rank] at hrank
  | _ => rfl

end Faithful

/-- A step that cannot happen is tried again in vain. -/
theorem driveCall_stuck (h : ∀ fuel, driveCall k id e (fuel + 1) w = driveCall k id e fuel w)
    (fuel : Nat) : driveCall k id e fuel w = w := by
  induction fuel with
  | zero => rfl
  | succ fuel ih => rw [h, ih]

/-- A call that goes on is over only with the report of its caller. -/
theorem driveCall_faithful (fuel : Nat) (h : Owns w k id e) (hr : w.report? k = none)
    (hleft : w.state.phase? id = some .dropped → w.doomed? k = some true)
    (hrank : ∀ p, w.state.phase? id = some p → p.rank < fuel) :
    Faithful (driveCall k id e fuel w) k id e := by
  induction fuel generalizing w with
  | zero =>
    obtain ⟨p, hp⟩ := h.phase
    exact absurd (hrank p hp) (Nat.not_lt_zero _)
  | succ fuel ih =>
    cases drive w k id e with
    | waits hp _ hd =>
      rw [hd]
      obtain ⟨p, hp'⟩ := h.phase
      exact .of_rank hr hp' (hp p hp')
    | @acts a p ha hc hw hdrop hp ho _ hd =>
      rcases w.act_cases a with ⟨-, hstay⟩ | ⟨s, notes, hs, hact⟩
      · rw [hstay] at hd
        rw [driveCall_stuck hd]
        exact .of_open hr hp ho
      · rw [hd]
        obtain ⟨p', q, hp', hq, hlt⟩ := (step_move hs).rank_lt hc hw
        refine ih (h.evolves (works_act_call h.call ha hc).toEvolves) ?_ (fun hq' => ?_)
          fun q' hq' => ?_
        · rw [report?_act, hr]
        · rw [hact.state] at hq'
          exact absurd hq' ((step_move hs).phase_ne_dropped hc hdrop)
        · rw [hact.state] at hq'
          have hp' := hrank p' hp'
          rw [← Option.some.inj (hq.symm.trans hq')]
          omega
    | @writes count conn seq rest hp hd =>
      rw [hd]
      have hr' : (w.act (.write id count)).report? k = none := by rw [report?_act, hr]
      rcases w.act_cases (.write id count) with ⟨-, hstay⟩ | ⟨s, notes, hs, hact⟩
      · rw [hstay]
        exact .of_rank hr hp (by simp [Phase.rank])
      · obtain ⟨q, hq, hlt⟩ := (step_move hs).rank_write
        have hstate : (w.act (.write id count)).state = s := hact.state
        exact .of_rank hr' (hstate ▸ hq) hlt
    | @sends count conn seq rest s notes hp hs hs' hd =>
      rw [hd]
      have hsent := works_send h.call count w.replyDeadline
      have hstate : (w.act (.write id count)).state = s := (act_of_step hs).1.state
      refine ih (h.evolves hsent.toEvolves) ?_ (fun hq => ?_) fun q hq => ?_
      · have hjobs : (w.act (.write id count)).jobs = w.jobs := (act_of_step hs).1.jobs
        obtain ⟨j, hj, -⟩ := h.job
        rw [report?, hj] at hr
        simpa [report?, onJob, hjobs, hj] using hr
      · cases hs'.symm.trans (hstate ▸ hq : s.phase? id = some .dropped)
      · have hq' : s.phase? id = some q := hstate ▸ hq
        have hlt := hrank _ hp
        rw [← Option.some.inj (hs'.symm.trans hq')]
        simp only [Phase.rank] at hlt ⊢
        omega
    | @ends result hp hd =>
      rw [hd]
      have hreport :=
        report?_endJob (w := w.logged (reportOf e result).2) h.lt (reportOf e result).1
      refine ⟨fun r hr' => .inr ⟨result, hp, Option.some.inj (hr'.symm.trans hreport)⟩,
        fun result' hp' => ?_, fun hp' => by cases hp.symm.trans hp'⟩
      obtain rfl : result = result' := by
        have heq := Option.some.inj (hp.symm.trans hp')
        cases heq
        rfl
      exact hreport
    | leaves hp hd =>
      rw [hd]
      have hdoomed : (w.endJob k .aborted).doomed? k = some true :=
        ((works_endJob w k .aborted).doomed k).trans (hleft hp)
      exact ⟨fun r hr' => .inl ⟨Option.some.inj (hr'.symm.trans (report?_endJob h.lt _)), hdoomed⟩,
        fun result hp' => (by cases hp.symm.trans hp'), fun _ => hdoomed⟩

/-- The turn of a caller leaves it faithful. -/
theorem turnJob_faithful (h : Owns w k id e) (he : (commandOf? e).isSome = true)
    (hf : Faithful w k id e) : Faithful (w.turnJob k) k id e := by
  obtain ⟨job, hj, hcall, herrand⟩ := h.job
  unfold turnJob
  simp only [hj]
  split
  · exact hf
  · rename_i hnone
    have hr : w.report? k = none := by
      rw [report?, hj, Option.bind_some]
      simpa using hnone
    split
    · rename_i hd
      have hdrop := works_act_call (a := .drop id) h.call rfl rfl
      have hlt : k < (w.act (.drop id)).jobs.length := hdrop.size ▸ h.lt
      have hdoomed : ((w.act (.drop id)).endJob k .aborted).doomed? k = some true := by
        rw [(works_endJob _ k _).doomed, hdrop.doomed, doomed?, hj, Option.map_some, hd]
      simp only [hcall]
      refine ⟨fun r hr' =>
          .inl ⟨Option.some.inj (hr'.symm.trans (report?_endJob hlt _)), hdoomed⟩,
        fun result hp => ?_, fun _ => hdoomed⟩
      -- A call that is over has been reported, and one that goes away has no result.
      rcases w.act_cases (.drop id) with ⟨-, hstay⟩ | ⟨s, notes, hs, hact⟩
      · rw [hstay] at hp
        have htell := hf.tells result hp
        rw [hr] at htell
        cases htell
      · have hstate : (w.act (.drop id)).state = s := hact.state
        have hp' : s.phase? id = some (.finished result) := hstate ▸ hp
        cases hp'.symm.trans (step_move hs).phase_drop
    · rw [herrand, hcall]
      obtain ⟨⟨subcommand, args⟩, hc⟩ := Option.isSome_iff_exists.mp he
      rw [hc]
      have hdrive : Faithful (driveCall k id e phaseLimit w) k id e :=
        driveCall_faithful phaseLimit h hr hf.left fun p _ => p.rank_le.trans_lt (by decide)
      cases e with
      | execute => exact hdrive
      | perform => exact hdrive
      | awaitConnection => cases hc

/-! ### Everyone's turn -/

/-- What every turn and every exchange keeps holds when all have taken their turns. -/
theorem settleWithin_induction {P : Simulation → Prop}
    (hturn : ∀ {w t ts}, w.ready = t :: ts → P w → P (turn { w with ready := ts } t))
    (hexchange : ∀ {w}, P w → P w.exchange) (fuel : Nat) {w : Simulation} (h : P w) :
    P (settleWithin fuel w) := by
  induction fuel generalizing w with
  | zero => exact h
  | succ fuel ih =>
    unfold settleWithin
    split
    · rename_i hready
      exact ih (hturn hready h)
    · simp only
      split
      · exact hexchange h
      · exact ih (hexchange h)

/-- A task that has something to do takes a turn: what others keep until then holds at its turn, and
what its turn brings about and all keep holds in the end. -/
theorem settleWithin_reaches {P Q : Simulation → Prop} {t : Task}
    (hother : ∀ {w u ts}, u ≠ t → w.ready = u :: ts → P w → P (turn { w with ready := ts } u))
    (hown : ∀ {w ts}, w.ready = t :: ts → P w → Q (turn { w with ready := ts } t))
    (hturn : ∀ {w u ts}, w.ready = u :: ts → Q w → Q (turn { w with ready := ts } u))
    (hexchange : ∀ {w}, Q w → Q w.exchange) (fuel : Nat) {w : Simulation} (h : P w)
    (ht : t ∈ w.ready.take fuel) : Q (settleWithin fuel w) := by
  induction fuel generalizing w with
  | zero => simp at ht
  | succ fuel ih =>
    unfold settleWithin
    split
    · rename_i u ts hready
      by_cases hu : u = t
      · subst hu
        exact settleWithin_induction hturn hexchange fuel (hown hready h)
      · refine ih (hother hu hready h) ?_
        -- Those who were woken in between come behind.
        rw [hready, List.take_succ_cons, List.mem_cons, eq_comm, or_iff_right hu] at ht
        obtain ⟨more, hmore⟩ := (works_turn { w with ready := ts } u).ready
        rw [← hmore]
        rw [List.take_append]
        exact List.mem_append_left _ ht
    · rename_i hready
      rw [hready] at ht
      simp at ht

theorem settle_reaches {P Q : Simulation → Prop} {t : Task}
    (hother : ∀ {w u ts}, u ≠ t → w.ready = u :: ts → P w → P (turn { w with ready := ts } u))
    (hown : ∀ {w ts}, w.ready = t :: ts → P w → Q (turn { w with ready := ts } t))
    (hturn : ∀ {w u ts}, w.ready = u :: ts → Q w → Q (turn { w with ready := ts } u))
    (hexchange : ∀ {w}, Q w → Q w.exchange) {w : Simulation} (h : P w) (ht : t ∈ w.ready) :
    Q w.settle :=
  settleWithin_reaches hother hown hturn hexchange _ h
    (by rwa [List.take_of_length_le (Nat.le_add_left _ _)])

/-- The clock stands still while all take their turns. -/
theorem settleWithin_now (fuel : Nat) (w : Simulation) : (settleWithin fuel w).now = w.now :=
  settleWithin_induction (P := fun v => v.now = w.now)
    (fun {v t ts} _ h => (works_turn { v with ready := ts } t).now.trans h)
    (fun {v} h => (alike_exchange v).now.trans h) fuel rfl

/-- Nobody is sent away while all take their turns. -/
theorem doomed?_settleWithin (fuel : Nat) (w : Simulation) (k : Nat) :
    (settleWithin fuel w).doomed? k = w.doomed? k :=
  settleWithin_induction (P := fun v => v.doomed? k = w.doomed? k)
    (fun {v t ts} _ h => ((works_turn { v with ready := ts } t).doomed k).trans h)
    (fun {v} h => by rwa [doomed?, (alike_exchange v).jobs]) fuel rfl

theorem jump_now (w : Simulation) (ms : Nat) : (w.jump ms).now = w.now + ms :=
  (Woken.foldl woken_wake _ _).alike.now.trans (alike_exchange { w with now := w.now + ms }).now

theorem jump_jobs (w : Simulation) (ms : Nat) : (w.jump ms).jobs = w.jobs :=
  (Woken.foldl woken_wake _ _).alike.jobs.trans (alike_exchange { w with now := w.now + ms }).jobs

theorem doomed?_waitFor (k ticks : Nat) (w : Simulation) (i : Nat) :
    (waitFor k ticks w).doomed? i = w.doomed? i := by
  induction ticks generalizing w with
  | zero => rfl
  | succ ticks ih =>
    unfold waitFor
    split
    · rfl
    · rw [ih, advance, settle, doomed?_settleWithin, doomed?, jump_jobs, doomed?]

theorem advance_now (w : Simulation) (ms : Nat) : (w.advance ms).now = w.now + ms :=
  (settleWithin_now _ _).trans (jump_now w ms)

/-! ### A caller from the first turn on -/

/-- A caller has made its call and is faithful. -/
structure Attends (w : Simulation) (k id : Nat) (e : Errand) : Prop where
  owns : Owns w k id e
  faithful : Faithful w k id e

namespace Attends

theorem of_alike (h : Attends w k id e) (hw : Alike w w') : Attends w' k id e where
  owns := h.owns.evolves (.of_alike hw)
  faithful := h.faithful.of_same (by rw [hw.jobs]) (by rw [hw.state])

/-- The fields that tell about callers and their calls stay. -/
theorem of_eq (h : Attends w k id e) (hs : w'.setup = w.setup) (ht : w'.state = w.state)
    (hj : w'.jobs = w.jobs) : Attends w' k id e where
  owns := h.owns.evolves (.of_eq hs ht hj)
  faithful := h.faithful.of_same (by rw [hj]) (by rw [ht])

theorem turn (h : Attends w k id e) (he : (commandOf? e).isSome = true) (t : Task) :
    Attends (w.turn t) k id e := by
  refine ⟨h.owns.evolves (works_turn w t).toEvolves, ?_⟩
  by_cases ht : t = .job k
  · subst ht
    exact turnJob_faithful h.owns he h.faithful
  · have hcaller : t.caller? ≠ some k := Task.caller?_ne ht
    exact h.faithful.of_same ((works_turn w t).job hcaller)
      (h.owns.phase_other (works_turn w t) hcaller)

variable (he : (commandOf? e).isSome = true)
include he

theorem next (h : Attends w k id e) (t : Task) (ts : List Task) :
    Attends (Simulation.turn { w with ready := ts } t) k id e := by
  have hstill : Attends { w with ready := ts } k id e := h.of_eq rfl rfl rfl
  exact hstill.turn he t

theorem settleWithin (h : Attends w k id e) (fuel : Nat) :
    Attends (Simulation.settleWithin fuel w) k id e :=
  settleWithin_induction (P := fun v => Attends v k id e)
    (fun {_ t ts} _ h => h.next he t ts) (fun h => h.of_alike (alike_exchange _)) fuel h

theorem advance (h : Attends w k id e) (ms : Nat) : Attends (w.advance ms) k id e := by
  have hnow : Attends { w with now := w.now + ms } k id e := h.of_eq rfl rfl rfl
  have hjump : Attends (w.jump ms) k id e :=
    hnow.of_alike ((alike_exchange _).trans (Woken.foldl woken_wake _ _).alike)
  exact hjump.settleWithin he _

theorem waitFor (h : Attends w k id e) (ticks : Nat) :
    Attends (Simulation.waitFor k ticks w) k id e := by
  induction ticks generalizing w with
  | zero => exact h
  | succ ticks ih =>
    unfold Simulation.waitFor
    split
    · exact h
    · exact ih (h.advance he tick)

end Attends

/-- In its first turn a caller makes a call, which goes on at once. -/
theorem turnJob_fresh {subcommand : String} {args : List Arg}
    (hj : w.jobs[k]? = some { errand := e }) (he : commandOf? e = some (subcommand, args)) :
    w.turnJob k = driveCall k w.state.calls.length e phaseLimit
      (w.makeCall k subcommand args) := by
  unfold turnJob
  simp only [hj, he, Option.isSome_none, Bool.false_eq_true, if_false]
  cases e with
  | execute | perform => rfl
  | awaitConnection => cases he

/-- The call that a caller makes is its own. -/
theorem owns_makeCall {subcommand : String} {args : List Arg} (hl : w.Linked)
    (hj : w.jobs[k]? = some { errand := e }) (he : commandOf? e = some (subcommand, args)) :
    Owns (w.makeCall k subcommand args) k w.state.calls.length e := by
  have hcall := call?_makeCall hj subcommand args
  have hmake : Works (some k) w (w.makeCall k subcommand args) := works_makeCall hj rfl he
  have hstate : (w.makeCall k subcommand args).state = _ := (w.act_call subcommand args).1.state
  refine ⟨(hcall k).trans (if_pos rfl), ?_, fun {j} hc => ?_, ?_⟩
  · rw [hmake.errand, errand?, hj]
    rfl
  · by_contra hne
    rw [hcall, if_neg hne] at hc
    exact Nat.lt_irrefl _ (hl j _ hc)
  · rw [hstate, List.length_append]
    exact Nat.lt_succ_self _

/-- A caller who comes makes its call in the first turn. -/
theorem turnJob_attends {subcommand : String} {args : List Arg} (hl : w.Linked)
    (hj : w.jobs[k]? = some { errand := e }) (he : commandOf? e = some (subcommand, args)) :
    Attends (w.turnJob k) k w.state.calls.length e := by
  have howns := owns_makeCall hl hj he
  have hr : (w.makeCall k subcommand args).report? k = none := by
    have hjobs : (w.act (.call subcommand args)).jobs = w.jobs := (w.act_call _ _).1.jobs
    simp [report?, makeCall, onJob, hjobs, hj]
  have hp : (w.makeCall k subcommand args).state.phase? w.state.calls.length = some .queued := by
    have hstate : (w.makeCall k subcommand args).state = _ := (w.act_call subcommand args).1.state
    rw [hstate, State.phase?_arrive, if_pos rfl]
  rw [turnJob_fresh hj he]
  exact ⟨howns.evolves (works_driveCall howns.call e _).toEvolves,
    driveCall_faithful _ howns hr (fun hdropped => by cases hp.symm.trans hdropped)
      fun p _ => p.rank_le.trans_lt (by decide)⟩

/-- A caller who has something to do for the first time has made its call when all have taken their
turns. -/
theorem settle_attends (hl : w.Linked) (hj : w.jobs[k]? = some { errand := e })
    (he : (commandOf? e).isSome = true) (ht : Task.job k ∈ w.ready) :
    ∃ id, w.state.calls.length ≤ id ∧ Attends w.settle k id e := by
  obtain ⟨⟨subcommand, args⟩, hc⟩ := Option.isSome_iff_exists.mp he
  refine settle_reaches (t := .job k)
    (P := fun v => v.Linked ∧ v.jobs[k]? = some { errand := e } ∧
      w.state.calls.length ≤ v.state.calls.length)
    (Q := fun v => ∃ id, w.state.calls.length ≤ id ∧ Attends v k id e)
    (fun {v u ts} hu _ h => ?_) (fun {v ts} _ h => ?_) (fun {v u ts} _ h => ?_)
    (fun {v} h => ?_) ⟨hl, hj, Nat.le_refl _⟩ ht
  · obtain ⟨hl, hj, hle⟩ := h
    have hworks := works_turn { v with ready := ts } u
    have hcaller : u.caller? ≠ some k := Task.caller?_ne hu
    have hstill : Evolves v { v with ready := ts } := .of_eq rfl rfl rfl
    exact ⟨hl.evolves (hstill.trans hworks.toEvolves), (hworks.job hcaller).trans hj,
      hle.trans hworks.calls_le⟩
  · obtain ⟨hl, hj, hle⟩ := h
    exact ⟨_, hle, turnJob_attends (w := { v with ready := ts }) hl hj hc⟩
  · obtain ⟨id, hid, h⟩ := h
    exact ⟨id, hid, h.next he u ts⟩
  · obtain ⟨id, hid, h⟩ := h
    exact ⟨id, hid, h.of_alike (alike_exchange v)⟩

/-! ### Callers who are sent away -/

/-- A caller goes away without a result. -/
def Leaves (w : Simulation) (k : Nat) : Prop :=
  ∃ j, w.jobs[k]? = some j ∧ (j.report = some .aborted ∨ j.report = none ∧ j.doomed = true)

namespace Leaves

theorem of_jobs (h : Leaves w k) (hj : w'.jobs[k]? = w.jobs[k]?) : Leaves w' k := by
  unfold Leaves
  rw [hj]
  exact h

theorem turn (h : Leaves w k) (t : Task) : Leaves (w.turn t) k := by
  by_cases ht : t = .job k
  · subst ht
    obtain ⟨j, hj, hr⟩ := h
    change Leaves (w.turnJob k) k
    unfold turnJob
    simp only [hj]
    rcases hr with hr | ⟨hr, hd⟩
    · simp only [hr, Option.isSome_some, if_true]
      exact ⟨j, hj, .inl hr⟩
    · simp only [hr, hd, Option.isSome_none, Bool.false_eq_true, if_false, if_true]
      have ends {v : Simulation} (hv : v.jobs[k]? = some j) : Leaves (v.endJob k .aborted) k := by
        refine ⟨{ j with report := some .aborted }, ?_, .inl rfl⟩
        rw [endJob, onJob, List.getElem?_modify_eq, hv]
        rfl
      cases j.call with
      | none => exact ends hj
      | some id =>
        rcases w.act_cases (.drop id) with ⟨-, hstay⟩ | ⟨s, notes, -, hact⟩
        · exact ends ((congrArg (·.jobs[k]?) hstay).trans hj)
        · exact ends ((congrArg (·[k]?) hact.jobs).trans hj)
  · have hcaller : t.caller? ≠ some k := Task.caller?_ne ht
    exact h.of_jobs ((works_turn w t).job hcaller)

theorem settle (h : Leaves w k) : Leaves w.settle k := by
  refine settleWithin_induction (P := fun v => Leaves v k) (fun {v t ts} _ h => ?_)
    (fun {v} h => h.of_jobs (by rw [(alike_exchange v).jobs])) _ h
  have hstill : Leaves { v with ready := ts } k := h
  exact hstill.turn t

end Leaves

/-- A caller who has not reported goes away when it is sent away. -/
theorem abort_leaves (hk : k < w.jobs.length)
    (hr : w.report? k = none ∨ w.report? k = some .aborted) : Leaves (w.abort k) k := by
  obtain ⟨j, hj⟩ : ∃ j, w.jobs[k]? = some j := ⟨_, List.getElem?_eq_getElem hk⟩
  rw [report?, hj, Option.bind_some] at hr
  obtain ⟨errand, call, deadline, doomed, report⟩ := j
  obtain rfl | rfl : report = none ∨ report = some .aborted := hr
  · refine ⟨⟨errand, call, deadline, true, none⟩, ?_, .inr ⟨rfl, rfl⟩⟩
    simp only [abort, hj]
    rw [(woken_wake _ _).alike.jobs, onJob, List.getElem?_modify_eq, hj]
    rfl
  · exact ⟨⟨errand, call, deadline, doomed, some .aborted⟩, by simp only [abort, hj], .inl rfl⟩

end Simulation
end EfsControl

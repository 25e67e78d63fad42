/-
# Time limits are kept

Where the time for an answer is limited, a caller whose command has been
written waits for the reply until its time is up, and has reported by then,
however the tasks take turns and whatever the daemon does.

Key definitions: `Simulation.Reported`, `Simulation.Waits`, `Simulation.Expects`.
Key theorems: `Simulation.driveCall_ends`, `turnJob_ends`, `Expects.advance_due`,
`Expects.waitFor`, `waitFor_ends`.
-/
import EfsControl.Proofs.Simulation.Turns

namespace EfsControl
namespace Simulation

open Connector (Phase State step_move)

variable {w w' : Simulation} {k id limit : Nat} {e : Errand}

/-! ### Reports stay -/

/-- What a caller has reported stays. -/
theorem report?_turn {r : Report} (h : w.report? k = some r) (t : Task) :
    (w.turn t).report? k = some r := by
  by_cases ht : t = .job k
  · subst ht
    obtain ⟨j, hj, hr⟩ := Option.bind_eq_some_iff.mp h
    change (w.turnJob k).report? k = some r
    unfold turnJob
    simp only [hj, hr, Option.isSome_some, if_true]
    exact h
  · have hcaller : t.caller? ≠ some k := Task.caller?_ne ht
    exact (report?_of_jobs ((works_turn w t).job hcaller)).trans h

theorem report?_settleWithin {r : Report} (h : w.report? k = some r) (fuel : Nat) :
    (settleWithin fuel w).report? k = some r :=
  settleWithin_induction (P := fun v => v.report? k = some r)
    (fun {v t ts} _ h => report?_turn (w := { v with ready := ts }) h t)
    (fun {v} h => (report?_of_jobs (by rw [(alike_exchange v).jobs])).trans h) fuel h

theorem report?_waitFor {r : Report} (h : w.report? k = some r) (ticks : Nat) :
    (waitFor k ticks w).report? k = some r := by
  cases ticks with
  | zero => exact h
  | succ ticks =>
    unfold waitFor
    rw [h, Option.isSome_some, Bool.true_or, if_pos rfl]
    exact h

/-- A caller has reported the result of its exchange. -/
def Reported (w : Simulation) (k : Nat) (e : Errand) : Prop :=
  ∃ result, w.report? k = some (reportOf e result).1

namespace Reported

theorem of_jobs (h : Reported w k e) (hj : w'.jobs = w.jobs) : Reported w' k e := by
  obtain ⟨result, hr⟩ := h
  exact ⟨result, (report?_of_jobs (by rw [hj])).trans hr⟩

theorem turn (h : Reported w k e) (t : Task) : Reported (w.turn t) k e := by
  obtain ⟨result, hr⟩ := h
  exact ⟨result, report?_turn hr t⟩

theorem settleWithin (h : Reported w k e) (fuel : Nat) :
    Reported (Simulation.settleWithin fuel w) k e := by
  obtain ⟨result, hr⟩ := h
  exact ⟨result, report?_settleWithin hr fuel⟩

theorem waitFor (h : Reported w k e) (ticks : Nat) :
    Reported (Simulation.waitFor k ticks w) k e := by
  obtain ⟨result, hr⟩ := h
  exact ⟨result, report?_waitFor hr ticks⟩

end Reported

/-! ### A call that is past writing -/

/-- Where its time is limited, a call that is past writing waits for the reply before its time is
up, or its caller reports in this turn. -/
theorem driveCall_ends (fuel : Nat) (h : Owns w k id e)
    (hlimit : w.setup.config.commandTimeout.isSome = true) {p : Phase}
    (hp : w.state.phase? id = some p) (hleft : p ≠ .dropped) (hrank : p.rank ≤ 3)
    (hfuel : p.rank < fuel) :
    Reported (driveCall k id e fuel w) k e ∨
      driveCall k id e fuel w = w ∧ w.isDue ((w.jobs[k]?).bind (·.deadline)) = false ∧
        p.rank = 3 := by
  induction fuel generalizing w p with
  | zero => exact absurd hfuel (Nat.not_lt_zero _)
  | succ fuel ih =>
    cases drive w k id e with
    | waits hp' ht hstay =>
      have hthree : p.rank = 3 := Nat.le_antisymm hrank (hp' p hp)
      cases p with
      | awaiting seq conn => exact .inr ⟨hstay _, ht seq conn hp, rfl⟩
      | queued | writing | expired | closing | finished | dropped => cases hthree
    | @acts a p' ha hc hw hdrop hp' ho hs hd =>
      obtain rfl := Option.some.inj (hp.symm.trans hp')
      obtain ⟨⟨s, notes⟩, hstep⟩ := Option.isSome_iff_exists.mp (hs hrank hlimit)
      obtain ⟨p₁, q, hp₁, hq, hlt⟩ := (step_move hstep).rank_lt hc hw
      obtain rfl := Option.some.inj (hp.symm.trans hp₁)
      have hact := (act_of_step hstep).1
      have hlimit' : (w.act a).setup.config.commandTimeout.isSome = true := by
        rw [hact.setup]
        exact hlimit
      have hq' : (w.act a).state.phase? id = some q := by rw [hact.state, hq]
      rw [hd]
      have hqd : q ≠ .dropped := fun he =>
        (step_move hstep).phase_ne_dropped hc hdrop (hq.trans (congrArg some he))
      rcases ih (h.evolves (works_act_call h.call ha hc).toEvolves) hlimit' hq' hqd (by omega)
        (by omega) with hr | ⟨-, -, hthree⟩
      · exact .inl hr
      · omega
    | @writes _ _ _ _ hp' =>
      rw [Option.some.inj (hp.symm.trans hp')] at hrank
      simp [Phase.rank] at hrank
    | @sends _ _ _ _ _ _ hp' =>
      rw [Option.some.inj (hp.symm.trans hp')] at hrank
      simp [Phase.rank] at hrank
    | @ends result _ hd =>
      rw [hd]
      exact .inl ⟨result, report?_endJob (w := w.logged (reportOf e result).2) h.lt _⟩
    | leaves hp' =>
      exact absurd (Option.some.inj (hp.symm.trans hp')) hleft

/-- The turn of a caller who goes on is the turn of its call. -/
theorem turnJob_eq {j : Job} (hj : w.jobs[k]? = some j) (hr : j.report = none)
    (hd : j.doomed = false) (hc : j.call = some id) (he : (commandOf? j.errand).isSome = true) :
    w.turnJob k = driveCall k id j.errand phaseLimit w := by
  obtain ⟨⟨subcommand, args⟩, hcmd⟩ := Option.isSome_iff_exists.mp he
  unfold turnJob
  simp only [hj, hr, hd, hc, hcmd, Option.isSome_none, Bool.false_eq_true, if_false]
  cases herr : j.errand with
  | execute | perform => rfl
  | awaitConnection =>
    rw [herr] at hcmd
    cases hcmd

/-! ### Until the time is up -/

/-- A caller has reported, or waits for the reply to its call until its time is up. -/
def Waits (w : Simulation) (k id : Nat) (e : Errand) (limit : Nat) : Prop :=
  Reported w k e ∨
    ∃ j, w.jobs[k]? = some j ∧ j.report = none ∧ j.doomed = false ∧ j.deadline = some limit ∧
      ∃ seq conn, w.state.phase? id = some (.awaiting seq conn)

/-- A caller with a call of its own waits, with a limited time for answers. -/
structure Expects (w : Simulation) (k id : Nat) (e : Errand) (limit : Nat) : Prop where
  owns : Owns w k id e
  asks : (commandOf? e).isSome = true
  limited : w.setup.config.commandTimeout.isSome = true
  waits : Waits w k id e limit

namespace Expects

theorem of_eq (h : Expects w k id e limit) (hs : w'.setup = w.setup) (ht : w'.state = w.state)
    (hj : w'.jobs = w.jobs) : Expects w' k id e limit where
  owns := h.owns.evolves (.of_eq hs ht hj)
  asks := h.asks
  limited := hs ▸ h.limited
  waits := by
    have hw := h.waits
    rw [Waits, Reported, report?, ← hj, ← ht] at hw
    exact hw

theorem of_alike (h : Expects w k id e limit) (hw : Alike w w') : Expects w' k id e limit :=
  h.of_eq hw.setup hw.state hw.jobs

/-- In its own turn the caller reports, or goes on waiting because there is time left. -/
theorem own (h : Expects w k id e limit) : Reported (w.turnJob k) k e ∨
    w.turnJob k = w ∧ w.now < limit := by
  rcases h.waits with hr | ⟨j, hj, hr, hd, hl, seq, conn, hp⟩
  · exact .inl (hr.turn (.job k))
  · obtain ⟨j', hj', hc, he⟩ := h.owns.job
    obtain rfl := Option.some.inj (hj.symm.trans hj')
    rw [turnJob_eq hj hr hd hc (he ▸ h.asks), he]
    refine (driveCall_ends phaseLimit h.owns h.limited hp nofun (Nat.le_refl _)
      (by decide : 3 < 8)).imp_right fun ⟨hstay, hdue, _⟩ => ⟨hstay, ?_⟩
    rw [hj, Option.bind_some, hl] at hdue
    simpa [isDue] using hdue

theorem turn (h : Expects w k id e limit) (t : Task) : Expects (w.turn t) k id e limit where
  owns := h.owns.evolves (works_turn w t).toEvolves
  asks := h.asks
  limited := (works_turn w t).setup ▸ h.limited
  waits := by
    by_cases ht : t = .job k
    · subst ht
      rcases h.own with hr | ⟨hstay, -⟩
      · exact .inl hr
      · have hturn : w.turn (.job k) = w := hstay
        rw [hturn]
        exact h.waits
    · have hcaller : t.caller? ≠ some k := Task.caller?_ne ht
      have hwaits := h.waits
      rw [Waits, Reported, report?, ← (works_turn w t).job hcaller,
        ← h.owns.phase_other (works_turn w t) hcaller] at hwaits
      exact hwaits

theorem next (h : Expects w k id e limit) (t : Task) (ts : List Task) :
    Expects (Simulation.turn { w with ready := ts } t) k id e limit := by
  have hstill : Expects { w with ready := ts } k id e limit := h.of_eq rfl rfl rfl
  exact hstill.turn t

theorem settleWithin (h : Expects w k id e limit) (fuel : Nat) :
    Expects (Simulation.settleWithin fuel w) k id e limit :=
  settleWithin_induction (P := fun v => Expects v k id e limit)
    (fun {_ t ts} _ h => h.next t ts) (fun h => h.of_alike (alike_exchange _)) fuel h

theorem jump (h : Expects w k id e limit) (ms : Nat) : Expects (w.jump ms) k id e limit := by
  have hnow : Expects { w with now := w.now + ms } k id e limit := h.of_eq rfl rfl rfl
  exact hnow.of_alike ((alike_exchange _).trans (Woken.foldl woken_wake _ _).alike)

theorem advance (h : Expects w k id e limit) (ms : Nat) : Expects (w.advance ms) k id e limit :=
  (h.jump ms).settleWithin _

/-- A caller who waits is among those who wait for the clock. -/
theorem mem_timers (h : Expects w k id e limit) (hr : ¬ Reported w k e) :
    (limit, Task.job k) ∈ w.timers := by
  rcases h.waits with hreported | ⟨j, hj, hnone, -, hl, -⟩
  · exact absurd hreported hr
  · unfold timers
    refine List.mem_append_left _ (List.mem_append_left _ (List.mem_filterMap.mpr
      ⟨(j, k), List.mk_mem_zipIdx_iff_getElem?.mpr hj, ?_⟩))
    simp [hnone, hl]

end Expects

theorem mem_foldl_wake {t : Task} {ts : List Task} (ht : t ∈ ts) (w : Simulation) :
    t ∈ (ts.foldl wake w).ready := by
  induction ts generalizing w with
  | nil => cases ht
  | cons u ts ih =>
    rcases List.mem_cons.mp ht with rfl | ht
    · exact (Woken.foldl woken_wake ts _).alike.ready.subset (mem_ready_wake w t)
    · exact ih ht _

theorem mem_dueTasks {t : Task} {time : Nat} (h : (time, t) ∈ w.timers) (hdue : time ≤ w.now) :
    t ∈ w.dueTasks := by
  unfold dueTasks
  refine List.mem_map.mpr ⟨(time, t), List.mem_mergeSort.mpr ?_, rfl⟩
  exact List.mem_filter.mpr ⟨h, by simpa using hdue⟩

/-- When the clock has moved past the time of a caller, it has reported. -/
theorem Expects.advance_due (h : Expects w k id e limit) {ms : Nat} (hdue : limit ≤ w.now + ms) :
    Reported (w.advance ms) k e := by
  by_cases hr : Reported w k e
  · exact (hr.of_jobs (jump_jobs w ms)).settleWithin _
  have hnow : Expects ({ w with now := w.now + ms }.exchange) k id e limit := by
    have hlater : Expects { w with now := w.now + ms } k id e limit := h.of_eq rfl rfl rfl
    exact hlater.of_alike (alike_exchange _)
  have hmem : Task.job k ∈ (w.jump ms).ready := by
    refine mem_foldl_wake (mem_dueTasks (hnow.mem_timers fun hrep => hr ?_) ?_) _
    · exact hrep.of_jobs (alike_exchange { w with now := w.now + ms }).jobs.symm
    · exact hdue.trans (alike_exchange { w with now := w.now + ms }).now.ge
  refine settle_reaches (t := .job k) (w := w.jump ms)
    (P := fun v => Expects v k id e limit ∧ limit ≤ v.now) (Q := fun v => Reported v k e)
    (fun {v u ts} _ _ h => ⟨h.1.next u ts, ?_⟩) (fun {v ts} _ h => ?_)
    (fun {v u ts} _ h => Reported.turn (w := { v with ready := ts }) h u)
    (fun {v} h => h.of_jobs (alike_exchange v).jobs) ⟨h.jump ms, hdue.trans (jump_now w ms).ge⟩ hmem
  · exact h.2.trans (works_turn { v with ready := ts } u).now.ge
  · have hstill : Expects { v with ready := ts } k id e limit := h.1.of_eq rfl rfl rfl
    exact hstill.own.resolve_right fun ⟨_, hlt⟩ => Nat.not_lt.mpr h.2 hlt

/-- A caller who waits reports in time. -/
theorem Expects.waitFor (h : Expects w k id e limit)
    (hnow : Reported w k e ∨ w.now < limit) {ticks : Nat}
    (hticks : limit ≤ w.now + ticks * tick) : Reported (Simulation.waitFor k ticks w) k e := by
  induction ticks generalizing w with
  | zero => exact hnow.resolve_right fun hlt => by omega
  | succ ticks ih =>
    by_cases hr : Reported w k e
    · exact hr.waitFor _
    unfold Simulation.waitFor
    split
    · rename_i hstop
      -- Whoever still waits has not reported and waits for the clock.
      rcases h.waits with hreported | ⟨j, hj, hnone, -⟩
      · exact absurd hreported hr
      · have hmem := h.mem_timers hr
        rw [report?, hj, Option.bind_some, hnone, Option.isSome_none, Bool.false_or,
          List.isEmpty_iff] at hstop
        rw [hstop] at hmem
        cases hmem
    · refine ih (h.advance tick) ?_ ?_
      · by_cases hdue : limit ≤ w.now + tick
        · exact .inl (h.advance_due hdue)
        · exact .inr (by rw [advance_now]; omega)
      · rw [advance_now]
        rw [Nat.succ_mul] at hticks
        omega

/-- Who waits for a caller waits until it has reported, until nothing is left that waits for the
clock, or for as long as it is there. -/
theorem waitFor_ends (k ticks : Nat) (w : Simulation) :
    ((waitFor k ticks w).report? k).isSome = true ∨ (waitFor k ticks w).timers = [] ∨
      (waitFor k ticks w).now = w.now + ticks * tick := by
  induction ticks generalizing w with
  | zero => exact .inr (.inr (by simp [waitFor]))
  | succ ticks ih =>
    unfold waitFor
    split
    · rename_i hstop
      rw [Bool.or_eq_true, List.isEmpty_iff] at hstop
      exact hstop.imp_right .inl
    · rcases ih (w.advance tick) with hr | ht | hn
      · exact .inl hr
      · exact .inr (.inl ht)
      · refine .inr (.inr ?_)
        rw [hn, advance_now, Nat.succ_mul]
        omega

end Simulation
end EfsControl

/-
# What performing an operation comes to

One call is made for an operation, by a caller of its own. Its command is
registered once at most; what the call comes to decides about the code, and
there is a code if and only if the call has come to an end with a result. Where
nobody else has anything to do and there is a connection that takes the
command, it is registered and written at once; and where the time for answers
is limited, there is a code in time.

Key definitions: `Simulation.Idle`, `Simulation.Takes`, `Simulation.Performed`.
Key theorems: `Simulation.attends_awaitOne`, `Simulation.code_performOne_iff`,
`Simulation.begun_cases`, `Simulation.performed`.
-/
import EfsControl.Proofs.Connector.Marks
import EfsControl.Proofs.Daemon.Arrival
import EfsControl.Proofs.Outcome
import EfsControl.Proofs.Simulation.Deadline

namespace EfsControl
namespace Simulation

open Connector (Marks Move Note Phase Registration State begin_move commandsOf registrationsOf run
  run_append run_marks run_marks_of_link step_move takeSeq)

variable {w w' : Simulation} {op : Operation} {patience : Nat}

/-! ### Any simulation -/

/-- Whoever waits for an operation. -/
theorem awaitOne_eq (w : Simulation) (op : Operation) (patience : Nat) :
    (w.awaitOne op patience).1 =
      waitFor w.jobs.length patience (w.spawn (.perform op)).1.settle := rfl

/-- The caller of an operation makes a call, and reports what it comes to. -/
theorem attends_awaitOne (hl : w.Linked) (op : Operation) (patience : Nat) :
    ∃ id, w.state.calls.length ≤ id ∧
      Attends (w.awaitOne op patience).1 w.jobs.length id (.perform op) := by
  have hspawn := alike_spawn w (.perform op)
  have hjob : (w.spawn (.perform op)).1.jobs[w.jobs.length]? = some { errand := .perform op } := by
    rw [hspawn.jobs, List.getElem?_concat_length]
  obtain ⟨id, hid, h⟩ := settle_attends (hl.spawn _) hjob rfl (mem_ready_wake _ _)
  rw [hspawn.state] at hid
  exact ⟨id, hid, h.waitFor rfl patience⟩

theorem evolves_awaitOne (w : Simulation) (op : Operation) (patience : Nat) :
    Evolves (w.spawn (.perform op)).1 (w.awaitOne op patience).1 :=
  (evolves_settle _).trans (evolves_waitFor _ _ _)

/-- Nobody sends the caller away while it waits. -/
theorem doomed?_awaitOne (w : Simulation) (op : Operation) (patience : Nat) :
    (w.awaitOne op patience).1.doomed? w.jobs.length = some false := by
  rw [awaitOne_eq, doomed?_waitFor, settle, doomed?_settleWithin, doomed?,
    (alike_spawn w (.perform op)).jobs, List.getElem?_concat_length]
  rfl

theorem performOne_of_coded {code : Int32}
    (h : (w.awaitOne op patience).1.report? w.jobs.length = some (.coded code)) :
    w.performOne op patience = ((w.awaitOne op patience).1, some code) := by
  have hk : (w.awaitOne op patience).2 = w.jobs.length := rfl
  simp only [performOne, hk, h]

theorem performOne_of_not_coded
    (h : ∀ code, (w.awaitOne op patience).1.report? w.jobs.length ≠ some (.coded code)) :
    w.performOne op patience =
      (((w.awaitOne op patience).1.abort w.jobs.length).settle, none) := by
  have hk : (w.awaitOne op patience).2 = w.jobs.length := rfl
  simp only [performOne, hk]

/-- Where a caller reports the result of its exchange, its code is that of the operation. -/
theorem performOne_of_report {result : ExchangeResult}
    (h : (w.awaitOne op patience).1.report? w.jobs.length =
      some (reportOf (.perform op) result).1) :
    w.performOne op patience = ((w.awaitOne op patience).1,
      some (Outcome.decode op.resultKind result).code) := performOne_of_coded h

theorem evolves_performOne (w : Simulation) (op : Operation) (patience : Nat) :
    Evolves (w.awaitOne op patience).1 (w.performOne op patience).1 := by
  by_cases h : ∃ code, (w.awaitOne op patience).1.report? w.jobs.length = some (.coded code)
  · obtain ⟨code, h⟩ := h
    rw [performOne_of_coded h]
    exact .refl _
  · rw [performOne_of_not_coded fun code hcode => h ⟨code, hcode⟩]
    exact (evolves_abort _ _).trans (evolves_settle _)

/-- A caller who is sent away is as faithful as before. -/
theorem Attends.abort {k id : Nat} {e : Errand} (h : Attends w k id e) :
    Attends (w.abort k) k id e := by
  refine ⟨h.owns.evolves (evolves_abort w k), h.faithful.of_eq ?_ (fun hd => ?_) ?_⟩
  · unfold Simulation.abort
    split
    · rename_i hj
      rw [report?_of_jobs (w := w.onJob k _) (by rw [(woken_wake _ _).alike.jobs])]
      simp [report?, onJob, hj]
    · rfl
  · unfold Simulation.abort
    split
    · rename_i hj
      rw [doomed?, (woken_wake _ _).alike.jobs]
      simp [onJob, hj]
    · exact hd
  · unfold Simulation.abort
    split
    · rw [(woken_wake _ _).alike.state]
      rfl
    · rfl

theorem abort_now (w : Simulation) (k : Nat) : (w.abort k).now = w.now := by
  unfold Simulation.abort
  split
  · exact (woken_wake _ _).alike.now
  · rfl

/-- There is a code if and only if the call has ended with a result, and it is the code of this
result. -/
theorem code_performOne_iff {id : Nat}
    (h : Attends (w.awaitOne op patience).1 w.jobs.length id (.perform op)) (code : Int32) :
    (w.performOne op patience).2 = some code ↔
      ∃ result, (w.performOne op patience).1.state.phase? id = some (.finished result) ∧
        code = (Outcome.decode op.resultKind result).code := by
  by_cases hcoded : ∃ c, (w.awaitOne op patience).1.report? w.jobs.length = some (.coded c)
  · obtain ⟨c, hc⟩ := hcoded
    obtain ⟨haborted, -⟩ | ⟨result, hp, hr⟩ := h.faithful.told _ hc
    · cases haborted
    obtain rfl : c = (Outcome.decode op.resultKind result).code := by
      cases hr
      rfl
    rw [performOne_of_coded hc, Option.some.injEq]
    constructor
    · rintro rfl
      exact ⟨result, hp, rfl⟩
    · rintro ⟨result', hp', rfl⟩
      have hsame := Option.some.inj (hp.symm.trans hp')
      cases hsame
      rfl
  · have hnot : ∀ c, (w.awaitOne op patience).1.report? w.jobs.length ≠ some (.coded c) :=
      fun c hc => hcoded ⟨c, hc⟩
    rw [performOne_of_not_coded hnot]
    refine ⟨nofun, fun ⟨result, hp, _⟩ => ?_⟩
    -- Who has been sent away has not reported a result, so the call has none.
    have hreport : (w.awaitOne op patience).1.report? w.jobs.length = none ∨
        (w.awaitOne op patience).1.report? w.jobs.length = some .aborted := by
      cases hr : (w.awaitOne op patience).1.report? w.jobs.length with
      | none => exact .inl rfl
      | some r =>
        obtain ⟨rfl, -⟩ | ⟨result, -, rfl⟩ := h.faithful.told r hr
        · exact .inr rfl
        · exact absurd hr (hnot _)
    have htells := (h.abort.settleWithin rfl _).faithful.tells result hp
    obtain ⟨j, hj, hleft⟩ := (abort_leaves h.owns.lt hreport).settle
    have hleft' : j.report = some (reportOf (.perform op) result).1 := by
      have hreported := htells
      rw [report?] at hreported
      exact (congrArg (·.bind Job.report) hj).symm.trans hreported
    rw [hleft'] at hleft
    rcases hleft with hleft | ⟨hleft, -⟩ <;> cases hleft

/-! ### Where nobody else has anything to do -/

/-- Nobody has anything to do, and nobody holds the lock. -/
structure Idle (w : Simulation) : Prop where
  ready : w.ready = []
  lock : w.state.lock = {}

/-- The number that the next command gets. -/
def nextNumber (w : Simulation) : Option UInt32 := (takeSeq w.setup.config w.state).1

/-- Whether nothing can be written to a connection. -/
def isBroken (w : Simulation) (conn : Nat) : Bool := (w.state.conns[conn]?.map (·.broken)).getD true

/-- The command of an operation is taken: there is a connection on which calls are taken, and the
texts of the operation can be sent. -/
structure Takes (w : Simulation) (op : Operation) (conn : Nat) (command : EncodedCommand) :
    Prop where
  writer : w.state.writer = some conn
  isOpen : w.state.correlator.isOpen = true
  encoded : op.encode w.nextNumber w.setup.config.commandPrefix = .ok command

/-- The connection has room for a command. -/
structure Fits (w : Simulation) (conn : Nat) (command : EncodedCommand) : Prop where
  works : w.isBroken conn = false
  room : w.room conn (command.frame w.setup.config.framing).length =
    (command.frame w.setup.config.framing).length

/-- A caller has come for an operation and has asked for the lock. -/
def asked (w : Simulation) (op : Operation) : Simulation :=
  makeCall { w with ready := [], jobs := w.jobs ++ [{ errand := .perform op }] } w.jobs.length
    op.subcommand op.args

/-- It has begun its call. -/
def begun (w : Simulation) (op : Operation) : Simulation :=
  (w.asked op).act (.begin w.state.calls.length)

/-- The state in which a caller for an operation has asked for the lock. -/
def askedState (w : Simulation) (op : Operation) : State :=
  { w.state with
    calls := w.state.calls ++ [{ subcommand := op.subcommand, args := op.args }]
    lock := w.state.lock.request (.call w.state.calls.length) }

section
variable (w : Simulation) (op : Operation)

theorem setup_asked : (w.asked op).setup = w.setup := (act_call _ _ _).1.setup

theorem state_asked : (w.asked op).state = w.askedState op := (act_call _ _ _).1.state

theorem now_asked : (w.asked op).now = w.now := (act_call _ _ _).1.now

theorem links_asked : (w.asked op).links = w.links := (act_call _ _ _).2

theorem calls_asked : (w.askedState op).calls[w.state.calls.length]? =
    some { subcommand := op.subcommand, args := op.args } := List.getElem?_concat_length

/-- Asking for the lock takes no number. -/
theorem nextNumber_asked : (takeSeq w.setup.config (w.askedState op)).1 = w.nextNumber := by
  unfold nextNumber takeSeq
  split <;> rfl

theorem job_asked : (w.asked op).jobs[w.jobs.length]? =
    some { errand := .perform op, call := some w.state.calls.length } := by
  have hjobs := (act_call { w with
    ready := [], jobs := w.jobs ++ [{ errand := .perform op }] } op.subcommand op.args).1.jobs
  simp only [asked, makeCall, onJob, List.getElem?_modify_eq, hjobs, List.getElem?_concat_length]
  rfl

theorem evolves_asked : Evolves (w.spawn (.perform op)).1 (w.asked op) := by
  have hspawn := alike_spawn w (.perform op)
  have hready : Evolves (w.spawn (.perform op)).1 { w with
      ready := [], jobs := w.jobs ++ [{ errand := .perform op }] } :=
    .of_eq hspawn.setup.symm hspawn.state.symm hspawn.jobs.symm
  exact hready.trans (works_makeCall List.getElem?_concat_length rfl rfl).toEvolves

end

theorem owns_asked (hl : w.Linked) (op : Operation) :
    Owns (w.asked op) w.jobs.length w.state.calls.length (.perform op) := by
  have hspawn := alike_spawn w (.perform op)
  have hlinked : Linked { w with
      ready := [], jobs := w.jobs ++ [{ errand := .perform op }] } :=
    (hl.spawn (.perform op)).evolves
      (.of_eq hspawn.setup.symm hspawn.state.symm hspawn.jobs.symm)
  exact owns_makeCall hlinked List.getElem?_concat_length rfl

/-- The lock is free, so the call begins at once. -/
theorem step_begin (h : w.Idle) (op : Operation) : ∃ s notes,
    Connector.step w.setup (w.askedState op) (.begin w.state.calls.length) = some (s, notes) := by
  have hlock : (w.askedState op).lock.holder = some (.call w.state.calls.length) := by
    rw [askedState, h.lock]
    rfl
  simp only [Connector.step, calls_asked, hlock, if_true]
  exact ⟨_, _, rfl⟩

/-- A call that has begun is refused, or registered and about to write its command. -/
theorem begun_cases (h : w.Idle) (op : Operation) :
    (∃ e, (w.begun op).state.phase? w.state.calls.length = some (.finished (.error e)) ∧
      (Outcome.decode op.resultKind (.error e)).code = Outcome.internalErrorCode ∧
      ∀ conn command, ¬ w.Takes op conn command) ∨
    ∃ conn command, w.Takes op conn command ∧
      (w.begun op).state.phase? w.state.calls.length = some (.writing w.nextNumber conn
        (command.frame w.setup.config.framing)) ∧
      (w.begun op).state.conns = w.state.conns := by
  obtain ⟨s, notes, hs⟩ := step_begin h op
  have hstep : Connector.step (w.asked op).setup (w.asked op).state
      (.begin w.state.calls.length) = some (s, notes) := by rw [setup_asked, state_asked, hs]
  have hbegun : (w.begun op).state = s := (act_of_step hstep).1.state
  have becomes {t : State} {q : Phase} (ht : t.calls = (w.askedState op).calls) :
      (t.onCall w.state.calls.length fun c => { c with phase := q }).phase? w.state.calls.length =
        some q := by
    have hp : t.phase? w.state.calls.length = some .queued :=
      State.phase?_eq (by rw [ht, calls_asked])
    exact (State.phase?_onCall hp _ _).trans (if_pos rfl)
  rw [hbegun]
  cases step_move hs with
  | refuse _ _ _ hw =>
    refine .inl ⟨_, becomes rfl, rfl, fun conn command ht => ?_⟩
    cases ht.writer.symm.trans hw
  | reject hc _ _ hw he =>
    obtain rfl := Option.some.inj ((calls_asked w op).symm.trans hc)
    rw [nextNumber_asked] at he
    refine .inl ⟨_, becomes rfl, ?_, fun conn command ht => ?_⟩
    · obtain ⟨x, rfl, -⟩ | ⟨rfl, -⟩ := he <;> rfl
    · obtain ⟨x, -, hx⟩ | ⟨-, hclosed, -⟩ := he
      · cases ht.encoded.symm.trans hx
      · cases ht.isOpen.symm.trans hclosed
  | @register _ conn _ command hc _ _ hw ho he =>
    obtain rfl := Option.some.inj ((calls_asked w op).symm.trans hc)
    rw [nextNumber_asked] at he ⊢
    exact .inr ⟨conn, command, ⟨hw, ho, he⟩, becomes rfl, rfl⟩

theorem evolves_begun (hl : w.Linked) (op : Operation) : Evolves (w.asked op) (w.begun op) :=
  (works_act_call (owns_asked hl op).call rfl rfl).toEvolves

/-- Whoever is alone takes a turn at once. -/
theorem settle_of_ready {t : Task} (h : w.ready = [t]) :
    w.settle = settleWithin turnLimit (turn { w with ready := [] } t) := by
  unfold settle
  rw [h, List.length_singleton, settleWithin, h]

/-- Where nobody else has anything to do, the call for an operation begins at once. -/
theorem awaitOne_of_idle (h : w.Idle) (op : Operation) (patience : Nat) :
    (w.awaitOne op patience).1 = waitFor w.jobs.length patience (settleWithin turnLimit
      (driveCall w.jobs.length w.state.calls.length (.perform op) 7 (w.begun op))) := by
  have hspawn : (w.spawn (.perform op)).1 = { w with
      ready := [.job w.jobs.length], jobs := w.jobs ++ [{ errand := .perform op }] } := by
    simp only [spawn, wake, h.ready]
    rfl
  have hlock : (w.asked op).state.lock.holder = some (.call w.state.calls.length) := by
    rw [state_asked, askedState, h.lock]
    rfl
  have hcall : (w.asked op).state.calls[w.state.calls.length]? =
      some { subcommand := op.subcommand, args := op.args } := by rw [state_asked, calls_asked]
  have hturn : turnJob { w with ready := [], jobs := w.jobs ++ [{ errand := .perform op }] }
      w.jobs.length = driveCall w.jobs.length w.state.calls.length (.perform op) phaseLimit
        (w.asked op) := turnJob_fresh List.getElem?_concat_length rfl
  have hbegin : driveCall w.jobs.length w.state.calls.length (.perform op) phaseLimit
      (w.asked op) = driveCall w.jobs.length w.state.calls.length (.perform op) 7 (w.begun op) := by
    rw [phaseLimit, driveCall]
    simp only [hcall, hlock, if_true]
    rfl
  rw [awaitOne_eq, hspawn, settle_of_ready rfl, ← hbegin, ← hturn]
  rfl

/-! ### From the first turn on -/

section
variable {k id : Nat} {e : Errand} {seq : Option UInt32} {conn : Nat} {rest : List UInt8}

/-- A call that is over is reported. -/
theorem report?_driveCall {result : ExchangeResult} (hk : k < w.jobs.length)
    (hp : w.state.phase? id = some (.finished result)) (fuel : Nat) :
    (driveCall k id e (fuel + 1) w).report? k = some (reportOf e result).1 := by
  obtain ⟨call, hc, hphase⟩ := Option.map_eq_some_iff.mp hp
  have hdrive : driveCall k id e (fuel + 1) w =
      (w.logged (reportOf e result).2).endJob k (reportOf e result).1 := by
    simp only [driveCall, hc, hphase]
  rw [hdrive, report?_endJob (w := w.logged _) hk]

/-- A call whose connection is broken fails. -/
theorem driveCall_broken (hp : w.state.phase? id = some (.writing seq conn rest))
    (hb : w.isBroken conn = true) (fuel : Nat) :
    driveCall k id e (fuel + 1) w =
        driveCall k id e fuel (w.act (.writeFails id ExchangeError.brokenPipe)) ∧
      (w.act (.writeFails id ExchangeError.brokenPipe)).state.phase? id =
        some (.finished (.error (.io ExchangeError.brokenPipe))) := by
  obtain ⟨⟨subcommand, args, phase, slot⟩, hc, hphase⟩ := Option.map_eq_some_iff.mp hp
  obtain rfl : phase = _ := hphase
  rw [isBroken] at hb
  refine ⟨by simp only [driveCall, hc, hb, if_true], ?_⟩
  obtain ⟨s, notes, hs⟩ : ∃ s notes, Connector.step w.setup w.state
      (.writeFails id ExchangeError.brokenPipe) = some (s, notes) := by
    simp only [Connector.step, hc]
    exact ⟨_, _, rfl⟩
  rw [(act_of_step hs).1.state]
  cases step_move hs with
  | writeFail =>
    exact (State.phase?_finish ((State.phase?_cancel ..).trans hp) _ _).trans (if_pos rfl)

/-- Where there is room for it, a command is written in full, and its call waits for the reply. -/
theorem driveCall_fits (hp : w.state.phase? id = some (.writing seq conn rest))
    (hb : w.isBroken conn = false) (hroom : w.room conn rest.length = rest.length)
    (hpos : 0 < rest.length) (fuel : Nat) :
    driveCall k id e (fuel + 1) w = driveCall k id e fuel ((w.act (.write id rest.length)).onJob k
        fun j => { j with deadline := w.replyDeadline }) ∧
      (w.act (.write id rest.length)).state.phase? id = some (.awaiting seq conn) ∧
      Alike { w with state := (w.act (.write id rest.length)).state }
        (w.act (.write id rest.length)) := by
  obtain ⟨call, hc, hphase⟩ := Option.map_eq_some_iff.mp hp
  have hstep : Connector.step w.setup w.state (.write id rest.length) = some _ :=
    Connector.step_write_some hc hphase hb hpos (Nat.le_refl _)
  have hact := (act_of_step hstep).1
  refine ⟨?_, ?_, hact.state ▸ hact⟩
  · rw [isBroken] at hb
    simp only [driveCall, hc, hphase, hb, hroom, Bool.false_eq_true, if_false,
      if_neg (Nat.ne_of_gt hpos), if_neg (Nat.lt_irrefl _)]
  · rw [hact.state]
    exact (State.phase?_onCall hp _ _).trans (if_pos rfl)

end

/-- Where no connection takes the command, or only one to which nothing can be written, there is a
code at once. -/
theorem performOne_refused (hl : w.Linked) (h : w.Idle)
    (hnone : ∀ conn command, w.Takes op conn command → w.isBroken conn = true) (patience : Nat) :
    (w.performOne op patience).2 = some Outcome.internalErrorCode := by
  have howns := (owns_asked hl op).evolves (evolves_begun hl op)
  have code_of {e : ExchangeError}
      (hcode : (Outcome.decode op.resultKind (.error e)).code = Outcome.internalErrorCode)
      (hr : (driveCall w.jobs.length w.state.calls.length (.perform op) 7 (w.begun op)).report?
        w.jobs.length = some (reportOf (.perform op) (.error e)).1) :
      (w.performOne op patience).2 = some Outcome.internalErrorCode := by
    have hawait : (w.awaitOne op patience).1.report? w.jobs.length =
        some (reportOf (.perform op) (.error e)).1 := by
      rw [awaitOne_of_idle h]
      exact report?_waitFor (report?_settleWithin hr _) _
    rw [performOne_of_report hawait, hcode]
  obtain ⟨e, hp, hcode, -⟩ | ⟨conn, command, htakes, hp, hconns⟩ := begun_cases h op
  · exact code_of hcode (report?_driveCall howns.lt hp _)
  · have hbroken : (w.begun op).isBroken conn = true := by
      rw [isBroken, hconns]
      exact hnone conn command htakes
    obtain ⟨hdrive, hfailed⟩ :=
      driveCall_broken (k := w.jobs.length) (e := .perform op) hp hbroken 6
    rw [hdrive] at code_of
    have hsize := (works_act_call howns.call (a := .writeFails w.state.calls.length
      ExchangeError.brokenPipe) rfl rfl).size
    exact code_of rfl (report?_driveCall (hsize ▸ howns.lt) hfailed 5)

/-- One command is taken, on one connection. -/
theorem Takes.eq {conn conn' : Nat} {command command' : EncodedCommand}
    (h : w.Takes op conn command) (h' : w.Takes op conn' command') :
    conn = conn' ∧ command = command' := by
  have hconn := h.writer.symm.trans h'.writer
  have hcommand := h.encoded.symm.trans h'.encoded
  cases hconn
  cases hcommand
  exact ⟨rfl, rfl⟩

/-- Beginning a call changes neither the clock nor the callers nor the far ends. -/
theorem begun_alike (h : w.Idle) (op : Operation) :
    (w.begun op).setup = w.setup ∧ (w.begun op).now = w.now ∧ (w.begun op).links = w.links ∧
      (w.begun op).jobs = (w.asked op).jobs := by
  obtain ⟨s, notes, hs⟩ := step_begin h op
  have hstep : Connector.step (w.asked op).setup (w.asked op).state
      (.begin w.state.calls.length) = some (s, notes) := by rw [setup_asked, state_asked, hs]
  obtain ⟨hact, hlinks⟩ := act_of_step hstep
  exact ⟨hact.setup.trans (setup_asked w op), hact.now.trans (now_asked w op),
    hlinks.trans (links_asked w op), hact.jobs⟩

/-- Once the command of an operation has been written, its caller waits for the reply. -/
theorem sent_of_fits (hl : w.Linked) (h : w.Idle) {conn : Nat} {command : EncodedCommand}
    (htakes : w.Takes op conn command) (hfits : w.Fits conn command) :
    ∃ v, Evolves (w.begun op) v ∧
      v.state.phase? w.state.calls.length = some (.awaiting w.nextNumber conn) ∧
      v.now = w.now ∧
      v.jobs[w.jobs.length]? = some {
        errand := .perform op
        call := some w.state.calls.length
        deadline := w.replyDeadline } ∧
      driveCall w.jobs.length w.state.calls.length (.perform op) 7 (w.begun op) =
        driveCall w.jobs.length w.state.calls.length (.perform op) 6 v := by
  obtain ⟨hsetup, hnow, hlinks, hjobs⟩ := begun_alike h op
  have howns := (owns_asked hl op).evolves (evolves_begun hl op)
  obtain ⟨_, -, -, hnone⟩ | ⟨conn', command', htakes', hp, hconns⟩ := begun_cases h op
  · exact absurd htakes (hnone conn command)
  obtain ⟨rfl, rfl⟩ := htakes.eq htakes'
  have hworks : (w.begun op).isBroken conn = false := by
    rw [isBroken, hconns]
    exact hfits.works
  have hroom : (w.begun op).room conn (command.frame w.setup.config.framing).length =
      (command.frame w.setup.config.framing).length := by
    have hsame (count : Nat) : (w.begun op).room conn count = w.room conn count := by
      simp only [room, unread, hlinks, hconns]
    rw [hsame, hfits.room]
  have hpos : 0 < (command.frame w.setup.config.framing).length := by
    simp [EncodedCommand.frame]
  obtain ⟨hdrive, hsent, hact⟩ := driveCall_fits (k := w.jobs.length) (e := .perform op) hp hworks
    hroom hpos 6
  refine ⟨((w.begun op).act (.write w.state.calls.length
    (command.frame w.setup.config.framing).length)).onJob w.jobs.length fun j =>
      { j with deadline := (w.begun op).replyDeadline },
    ?_, hsent, hact.now.trans hnow, ?_, hdrive⟩
  · exact (works_send howns.call _ _).toEvolves
  · have hdeadline : (w.begun op).replyDeadline = w.replyDeadline := by
      rw [replyDeadline, replyDeadline, hsetup, hnow]
    have hjob : (act (w.begun op) (.write w.state.calls.length
        (command.frame w.setup.config.framing).length)).jobs = (w.asked op).jobs :=
      hact.jobs.trans hjobs
    simp only [hdeadline, onJob, List.getElem?_modify_eq, hjob, job_asked]
    rfl

/-- Where the command has been written at once and the time for answers is limited, there is a code
in time. -/
theorem performOne_inTime (hl : w.Linked) (h : w.Idle) {conn : Nat} {command : EncodedCommand}
    (htakes : w.Takes op conn command) (hfits : w.Fits conn command) {limit : Duration}
    (hlimit : w.setup.config.commandTimeout = some limit)
    (hpatience : limit.millis ≤ patience * tick) : (w.performOne op patience).2.isSome = true := by
  obtain ⟨v, hv, hp, hnow, hjob, hdrive⟩ := sent_of_fits hl h htakes hfits
  have hdeadline : w.replyDeadline = some (w.now + limit.millis) := by
    rw [replyDeadline, hlimit]
    rfl
  have hasked := (evolves_begun hl op).trans hv
  have hexpects : Expects v w.jobs.length w.state.calls.length (.perform op)
      (w.now + limit.millis) := by
    refine ⟨(owns_asked hl op).evolves hasked, rfl, ?_,
      .inr ⟨_, hjob, rfl, rfl, hdeadline, _, _, hp⟩⟩
    rw [hasked.setup, setup_asked, hlimit]
    rfl
  -- The rest of the first turn, and everyone else's.
  let u := driveCall w.jobs.length w.state.calls.length (.perform op) 6 v
  have hworks : Works (some w.jobs.length) v u := works_driveCall hexpects.owns.call _ _
  obtain ⟨hu, hdue⟩ : Expects u w.jobs.length w.state.calls.length (.perform op)
        (w.now + limit.millis) ∧
      (Reported u w.jobs.length (.perform op) ∨ u.now < w.now + limit.millis) := by
    rcases driveCall_ends 6 hexpects.owns hexpects.limited hp nofun (Nat.le_refl _)
      (by decide : 3 < 6) with hr | ⟨hstay, hlater, -⟩
    · exact ⟨⟨hexpects.owns.evolves hworks.toEvolves, rfl, hworks.setup ▸ hexpects.limited,
        .inl hr⟩, .inl hr⟩
    · have hstay : u = v := hstay
      rw [hjob, Option.bind_some, hdeadline] at hlater
      rw [hstay]
      exact ⟨hexpects, .inr (by simpa [isDue] using hlater)⟩
  have hsettled := hu.settleWithin turnLimit
  have hstill : (settleWithin turnLimit u).now = u.now := settleWithin_now turnLimit u
  have hreported : Reported (w.awaitOne op patience).1 w.jobs.length (.perform op) := by
    rw [awaitOne_of_idle h, hdrive]
    refine hsettled.waitFor ?_ ?_
    · exact hdue.imp (fun hr => hr.settleWithin _) fun hlt => hstill ▸ hlt
    · rw [hstill, hworks.now, hnow]
      omega
  obtain ⟨result, hr⟩ := hreported
  rw [performOne_of_report hr]
  rfl

/-! ### All together -/

/-- What has come of performing an operation for someone who is there for `patience` ticks: the
simulation `w'`, perhaps a code, and `notes` about what the connector did in the meantime, with `id`
as the call for the operation. -/
structure Performed (w : Simulation) (op : Operation) (patience : Nat) (w' : Simulation)
    (code? : Option Int32) (id : Nat) (notes : List Note) : Prop where
  setup : w'.setup = w.setup
  linked : w'.Linked
  ran : ∃ as, run w.setup w.state as = some (w'.state, notes)
  /-- There is one more caller. -/
  errand : ∀ k, w'.errand? k = if k = w.jobs.length then some (.perform op) else w.errand? k
  /-- It has made the call. -/
  call : w'.call? w.jobs.length = some id
  request : w'.state.request? id = some (op.subcommand, op.args)
  /-- All other new calls have been made by those who were there before and had made none. -/
  others : ∀ {i}, w.state.calls.length ≤ i → i < w'.state.calls.length → i ≠ id →
    ∃ k < w.jobs.length, w.call? k = none ∧ w'.call? k = some i
  /-- What has been registered and written for the call. -/
  marks : ∃ p, w'.state.phase? id = some p ∧ Marks w.setup.config (op.subcommand, op.args) id p
    (registrationsOf id notes) (commandsOf id notes)
  /-- What is registered says the operation to the daemon. -/
  wire : ∀ x ∈ registrationsOf id notes, parseCommand x.seq.isSome x.command.wire =
    some ⟨x.seq, w.setup.config.commandPrefix, op.subcommand,
      op.args.map fun a => String.ofList a.chars, x.command.wire⟩
  /-- There is a code if and only if the call has ended with a result. -/
  code : ∀ c, code? = some c ↔ ∃ result, w'.state.phase? id = some (.finished result) ∧
    c = (Outcome.decode op.resultKind result).code
  /-- Behind every code but that of a failure is one command, registered once and written once. -/
  answered : ∀ c, code? = some c → c ≠ Outcome.internalErrorCode →
    ∃ seq conn command, registrationsOf id notes = [⟨id, seq, conn, command⟩] ∧
      commandsOf id notes = [(id, conn)]
  /-- A command that is taken is registered at once. -/
  takes : w.Idle → ∀ {conn command}, w.Takes op conn command →
    registrationsOf id notes = [⟨id, w.nextNumber, conn, command⟩]
  /-- It is written at once if there is room for it. -/
  fits : w.Idle → ∀ {conn command}, w.Takes op conn command → w.Fits conn command →
    commandsOf id notes = [(id, conn)]
  refused : w.Idle → (∀ conn command, w.Takes op conn command → w.isBroken conn = true) →
    code? = some Outcome.internalErrorCode
  inTime : w.Idle → ∀ {conn command limit}, w.Takes op conn command → w.Fits conn command →
    w.setup.config.commandTimeout = some limit → limit.millis ≤ patience * tick →
    code?.isSome = true
  /-- Whoever asks for the operation is there to the end, or until nothing is left that waits for
  the clock. -/
  waits : code? = none → w'.now = w.now + patience * tick ∨ (w.awaitOne op patience).1.timers = []

/-- The call that the caller of an operation has made asks for the command of the operation. -/
theorem request_of_call {u : Simulation} {id : Nat}
    (h : Evolves (w.spawn (.perform op)).1 u) (hc : u.call? w.jobs.length = some id) :
    u.state.request? id = some (op.subcommand, op.args) := by
  have hnone : (w.spawn (.perform op)).1.call? w.jobs.length ≠ some id := fun h =>
    Nat.lt_irrefl _ (call?_spawn h)
  obtain ⟨-, e, c, he, hc, hreq⟩ := (h.own hc).resolve_left hnone
  rw [h.errand, errand?_spawn, if_pos rfl] at he
  cases he
  cases hc
  exact hreq

/-- Only an answer of the daemon gives another code than that of a failure. -/
theorem answered_of_code {kind : ResultKind} {result : ExchangeResult}
    (h : (Outcome.decode kind result).code ≠ Outcome.internalErrorCode) :
    (∃ answer, result = .ok answer) ∨ ∃ status text, result = .error (.daemon status text) := by
  cases result with
  | ok answer => exact .inl ⟨answer, rfl⟩
  | error e =>
    obtain hbusy | hfailed := Outcome.decode_error kind e
    · obtain ⟨text, rfl⟩ := Outcome.decode_error_eq_busy_iff.mp hbusy
      exact .inr ⟨405, text, rfl⟩
    · rw [hfailed] at h
      exact absurd rfl h

/-- What is so of any run to the simulation in which an operation has been performed. -/
theorem performed_of_run (hl : w.Linked) (op : Operation) (patience : Nat) :
    ∃ id, w.state.calls.length ≤ id ∧
      (w.performOne op patience).1.call? w.jobs.length = some id ∧
      ∀ {as notes}, run w.setup w.state as = some ((w.performOne op patience).1.state, notes) →
        (w.Idle → ∀ {conn command}, w.Takes op conn command →
          registrationsOf id notes = [⟨id, w.nextNumber, conn, command⟩] ∧
          (w.Fits conn command → commandsOf id notes = [(id, conn)])) →
        Performed w op patience (w.performOne op patience).1 (w.performOne op patience).2 id
          notes := by
  obtain ⟨id, hid, hattends⟩ := attends_awaitOne hl op patience
  have hspawn := alike_spawn w (.perform op)
  have hperform := (evolves_awaitOne w op patience).trans (evolves_performOne w op patience)
  have howns := hattends.owns.evolves (evolves_performOne w op patience)
  have hcall := howns.call
  have hrequest := request_of_call hperform hcall
  refine ⟨id, hid, hcall, fun {as notes} hrun hfirst => ?_⟩
  obtain ⟨p, hp⟩ := howns.phase
  have hmarks := run_marks hrun hid hrequest hp
  exact {
    setup := hperform.setup.trans hspawn.setup
    linked := (hl.spawn _).evolves hperform
    ran := ⟨as, hrun⟩
    errand := fun k => (hperform.errand k).trans (errand?_spawn w _ k)
    call := hcall
    request := hrequest
    others := fun {i} hi hlt hne => by
      obtain ⟨k, hold, hnew⟩ := hperform.made (hspawn.state ▸ hi) hlt
      obtain ⟨j, hj, -⟩ := Option.bind_eq_some_iff.mp hnew
      have hk : k < w.jobs.length + 1 := by
        have := (List.getElem?_eq_some_iff.mp hj).1
        rw [hperform.size, hspawn.jobs, List.length_append] at this
        exact this
      have hother : k ≠ w.jobs.length := by
        rintro rfl
        exact hne (Option.some.inj (hnew.symm.trans hcall))
      refine ⟨k, by omega, ?_, hnew⟩
      rwa [call?, hspawn.jobs, List.getElem?_append_left (by omega)] at hold
    marks := ⟨p, hp, hmarks⟩
    wire := fun x hx => SentCommand.parseCommand_wire
      ⟨⟨x.seq, w.setup.config.commandPrefix, op.subcommand, op.args⟩, x.command, hmarks.encoded hx⟩
    code := code_performOne_iff hattends
    answered := fun c hc hne => by
      obtain ⟨result, hfinished, rfl⟩ := (code_performOne_iff hattends c).mp hc
      obtain rfl := Option.some.inj (hp.symm.trans hfinished)
      exact hmarks.of_answered (answered_of_code hne)
    takes := fun hidle {conn command} htakes => (hfirst hidle htakes).1
    fits := fun hidle {conn command} htakes hfits => (hfirst hidle htakes).2 hfits
    refused := fun hidle hbroken => performOne_refused hl hidle hbroken patience
    inTime := fun hidle {conn command limit} htakes hfits hlimit =>
      performOne_inTime hl hidle htakes hfits hlimit
    waits := fun hcode => by
      have hnot : ∀ c, (w.awaitOne op patience).1.report? w.jobs.length ≠ some (.coded c) := by
        intro c hc
        rw [performOne_of_coded hc] at hcode
        cases hcode
      rw [performOne_of_not_coded hnot]
      obtain hr | ht | hnow := waitFor_ends w.jobs.length patience
        (w.spawn (.perform op)).1.settle
      · obtain ⟨r, hr⟩ := Option.isSome_iff_exists.mp hr
        obtain ⟨rfl, hd⟩ | ⟨result, -, rfl⟩ := hattends.faithful.told r hr
        · rw [doomed?_awaitOne] at hd
          cases hd
        · exact absurd hr (hnot _)
      · exact .inr ht
      · refine .inl ?_
        rw [settle, settleWithin_now, abort_now]
        refine hnow.trans ?_
        rw [settle, settleWithin_now, (alike_spawn w _).now] }

/-- An operation is performed by a call of its own, however the tasks take turns. -/
theorem performed (hl : w.Linked) (op : Operation) (patience : Nat) :
    ∃ id notes, Performed w op patience (w.performOne op patience).1
      (w.performOne op patience).2 id notes := by
  obtain ⟨id, hid, hcall, hof⟩ := performed_of_run hl op patience
  have hspawn := alike_spawn w (.perform op)
  have hwhole := (evolves_awaitOne w op patience).trans (evolves_performOne w op patience)
  -- A call that is linked to a connection in between has been registered by then.
  have of_linked {u : Simulation} {conn : Nat} {command : EncodedCommand} {p : Phase}
      (hu : Evolves (w.spawn (.perform op)).1 u) (hu' : Evolves u (w.performOne op patience).1)
      (hc : u.call? w.jobs.length = some w.state.calls.length)
      (htakes : w.Takes op conn command) (hp : u.state.phase? w.state.calls.length = some p)
      (hlink : p.link? = some (w.nextNumber, conn))
      (hpast : w.Fits conn command → p.isPastWriting = true) :
      ∃ id notes, Performed w op patience (w.performOne op patience).1
        (w.performOne op patience).2 id notes := by
    obtain rfl := Option.some.inj (hcall.symm.trans (hu'.call hc))
    obtain ⟨as, ns, hrun⟩ := hu.ran
    obtain ⟨bs, ms, hrun'⟩ := hu'.ran
    rw [hspawn.setup, hspawn.state] at hrun
    rw [hu.setup, hspawn.setup] at hrun'
    obtain ⟨command', he, hregs, hcmds⟩ :=
      run_marks_of_link hrun hrun' hid (request_of_call hu hc) hp hlink
    obtain rfl : command = command' := by
      cases htakes.encoded.symm.trans he
      rfl
    refine ⟨_, ns ++ ms, hof (run_append.mpr ⟨_, ns, ms, hrun, hrun', rfl⟩)
      fun _ {conn' command'} htakes' => ?_⟩
    obtain ⟨rfl, rfl⟩ := htakes.eq htakes'
    exact ⟨hregs, fun hfits => hcmds (hpast hfits)⟩
  by_cases hidle : w.Idle
  · have hbegun := (evolves_asked w op).trans (evolves_begun hl op)
    have howns := (owns_asked hl op).evolves (evolves_begun hl op)
    have hrest {u : Simulation} {fuel : Nat}
        (hc : u.call? w.jobs.length = some w.state.calls.length)
        (hdrive : driveCall w.jobs.length w.state.calls.length (.perform op) 7 (w.begun op) =
          driveCall w.jobs.length w.state.calls.length (.perform op) fuel u) :
        Evolves u (w.performOne op patience).1 := by
      have hdriven := (works_driveCall hc (.perform op) fuel).toEvolves
      refine .trans ?_ (evolves_performOne w op patience)
      rw [awaitOne_of_idle hidle, hdrive]
      exact hdriven.trans ((evolves_settleWithin _ _).trans (evolves_waitFor _ _ _))
    obtain ⟨_, -, -, hnone⟩ | ⟨conn, command, htakes, hp, -⟩ := begun_cases hidle op
    · obtain ⟨as, notes, hrun⟩ := hwhole.ran
      rw [hspawn.setup, hspawn.state] at hrun
      exact ⟨id, notes, hof hrun fun _ {conn command} htakes => absurd htakes (hnone conn command)⟩
    · by_cases hfits : w.Fits conn command
      · obtain ⟨v, hv, hp, -, -, hdrive⟩ := sent_of_fits hl hidle htakes hfits
        have hc := hv.call howns.call
        exact of_linked (hbegun.trans hv) (hrest hc hdrive) hc htakes hp rfl fun _ => rfl
      · exact of_linked hbegun (hrest howns.call rfl) howns.call htakes hp rfl
          fun h => absurd h hfits
  · obtain ⟨as, notes, hrun⟩ := hwhole.ran
    rw [hspawn.setup, hspawn.state] at hrun
    exact ⟨id, notes, hof hrun fun h => absurd h hidle⟩

end Simulation
end EfsControl

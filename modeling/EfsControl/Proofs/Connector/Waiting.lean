/-
# From waiting for a reply to the result

A call that has the lock on an open connection is ready until it registers.
Then it waits. The first final reply with its number decides its result, or
the time limit or the end of the connection if they come first. Nothing that
happens afterwards changes the result, and before it is decided nothing else
that is read makes a difference.

Key definitions: `Action.cutsOff`, `Action.abandons`, `Ready`, `Own`,
`Waiting`, `Decided`.
Key theorems: `Ready.step`, `Ready.register`, `Move.own`, `Waiting.keep`,
`Waiting.cut`, `Decided.keep`, `Decided.progress`.
-/
import EfsControl.Proofs.Connector.Bystander
import EfsControl.Proofs.Connector.Numbered
import EfsControl.Proofs.Connector.Verdict
import EfsControl.Proofs.Correlator.Numbered

namespace EfsControl
namespace Connector

/-- Whether an action puts an end to the waiting of a call: its time is up, or the worker stops
reading. -/
def Action.cutsOff (id : Nat) : Action → Bool
  | .timeout i => i == id
  | .readEnd | .readFails _ | .resync | .stop => true
  | _ => false

/-- Whether a caller goes away, or fails to write its command. -/
def Action.abandons (id : Nat) : Action → Bool
  | .drop i | .writeFails i _ => i == id
  | _ => false

variable {setup : Setup} {s s' : State} {a : Action} {notes ns : List Note} {id conn : Nat}
  {n : UInt32} {answer : Option Reply}

/-- The worker goes on reading unless something puts an end to it. -/
theorem Move.reading (hm : Move setup s a s' ns) (hk : s.worker = .reading conn)
    (hc : a.cutsOff id = false) : s'.worker = .reading conn := by
  cases hm with
  | start h | connect h | connectFail _ h | install h | «open» h | disconnect h | wake h =>
    cases hk.symm.trans h
  | stop h => rcases h with h | h <;> cases hk.symm.trans h
  | readEnd | readFail | resync | stopInstalling | stopReading => cases hc
  | reply => exact (routeReply_worker ..).trans hk
  | _ => exact hk

/-! ### Before the command has a number -/

/-- The call has the lock and will take the number `n`, which no pending call has. -/
structure Ready (s : State) (id : Nat) (n : UInt32) (conn : Nat) : Prop where
  phase : s.phase? id = some .queued
  slot : s.slot? id = some .waiting
  holder : s.lock.holder = some (.call id)
  next : s.nextSeq = n
  writer : s.writer = some conn
  worker : s.worker = .reading conn
  fresh : ∀ p ∈ s.correlator.pending, p.seq ≠ some n ∧ p.caller ≠ id

/-- A call on an open connection finds the lock free. -/
theorem Ready.call (hs : Sound setup notes s)
    (hin : InOrder notes s) (hnew : ∀ x ∈ registrations notes, x.seq ≠ some s.nextSeq)
    (hw : s.writer = some conn) (ho : s.correlator.isOpen = true) (hl : s.lock.holder = none)
    (hlt : s.calls.length < 2 ^ 32) (subcommand : String) (args : List Arg) :
    Ready { s with
      calls := s.calls ++ [{ subcommand := subcommand, args := args }]
      lock := s.lock.request (.call s.calls.length) } s.calls.length s.nextSeq conn where
  phase := (State.phase?_arrive ..).trans (if_pos rfl)
  slot := (State.slot?_arrive ..).trans (if_pos rfl)
  holder := by simp [Lock.request, hl]
  next := rfl
  writer := hw
  worker := hs.wired.reading_of_writer hw ho
  fresh p hp := by
    have hk := hs.wired.reading_of_writer hw ho
    obtain ⟨m, command, pre, mid, hm, rfl, -⟩ :=
      (hin hlt).2.1.pending conn (by rw [hk]; rfl) p hp
    have hreg : ⟨p.caller, some m, conn, command⟩ ∈
        registrations (pre ++ .registered p.caller (some m) conn command :: mid) :=
      mem_registrations.mpr (by simp)
    obtain ⟨q, hq, -⟩ := hs.history.begun _ hreg
    exact ⟨hm ▸ hnew _ hreg, Nat.ne_of_lt (State.phase?_lt hq)⟩

/-- What others do leaves a call ready. -/
theorem Ready.step (h : Ready s id n conn) (hm : Move setup s a s' ns) (ho : Orderly s)
    (hw : Wired s) (ha : a.caller? ≠ some id) (hc : a.cutsOff id = false) : Ready s' id n conn := by
  have hid := State.phase?_lt h.phase
  have hnot : id ∉ s.correlator.callers := fun hi => by
    obtain ⟨p, hp, he⟩ := List.mem_map.mp hi
    exact (h.fresh p hp).2 he
  have hphase := (hm.phase_other ha hid).trans h.phase
  obtain ⟨hholder, hnext, hwriter⟩ := hm.held ho ha h.holder
  refine ⟨hphase, (hm.slot_other hid hnot).trans h.slot, hholder, hnext.trans h.next,
    hwriter.trans h.writer, hm.reading h.worker hc, ?_⟩
  refine hm.pending_forall (P := fun seq i => seq ≠ some n ∧ i ≠ id) hw h.fresh ?_
  intro i hl _ hq
  obtain rfl : id = i := by simpa using h.holder.symm.trans hl
  exact absurd hphase hq

/-! ### Until the result is decided -/

/-- The command of a call is being written or is written, and the caller has not given up. -/
inductive Phase.Underway (n : UInt32) (conn : Nat) : Phase → Prop
  | writing (rest : List UInt8) : Underway n conn (.writing (some n) conn rest)
  | awaiting : Underway n conn (.awaiting (some n) conn)

theorem Phase.Underway.link {p : Phase} (h : p.Underway n conn) :
    p.link? = some (some n, conn) := by
  cases h <;> rfl

theorem Phase.Underway.of_call {p : Phase} (hu : p.Underway n conn) (hp : s.phase? id = some p)
    {call : Call} (hc : s.calls[id]? = some call) {q : Phase} (hq : call.phase = q) :
    q.Underway n conn :=
  hq ▸ Option.some.inj ((State.phase?_eq hc).symm.trans hp) ▸ hu

/-- What the caller of a call whose command is under way does, unless it goes away or fails to
write. -/
inductive Own (setup : Setup) (s : State) (id : Nat) (n : UInt32) (conn : Nat) (a : Action)
    (s' : State) (ns : List Note) : Prop
  | write {p : Phase} (hp : s'.phase? id = some p) (hu : p.Underway n conn)
    (hs : s'.slot? id = s.slot? id) (hk : s'.worker = s.worker)
    (hc : s'.correlator = s.correlator) (hn : firstAnswer? n conn ns = none)
  | sever (hs : s.slot? id = some .severed)
  | expire {limit : Duration} (ha : a = .timeout id) (hs : s.slot? id = some .waiting)
    (hl : setup.config.commandTimeout = some limit)
    (hp : s'.phase? id = some (.expired (some n) conn))
  | finish {result : ExchangeResult} (hs : s.slot? id = some (.answered result))
    (hp : s'.phase? id = some (.finished (result.bind resultOf)))
    (hn : .returned id (result.bind resultOf) ∈ ns)

/-- One case for each move of the caller. -/
theorem Move.own (hm : Move setup s a s' ns) (ha : a.caller? = some id) {p : Phase}
    (hp : s.phase? id = some p) (hu : p.Underway n conn) (hk : a.abandons id = false) :
    Own setup s id n conn a s' ns := by
  cases hm with
  | refuse hx hq | reject hx hq | register hx hq | giveUp hx hq | giveUpLate hx hq | close hx hq
  | notify hx hq =>
    cases ha
    cases hu.of_call hp hx hq
  | write hx hq =>
    cases ha
    cases hu.of_call hp hx hq
    exact .write ((State.phase?_onCall (s := s.onConn conn _) hp _ _).trans (if_pos rfl))
      (.writing _) (State.slot?_onCall ..) rfl rfl rfl
  | send hx hq =>
    cases ha
    cases hu.of_call hp hx hq
    exact .write ((State.phase?_onCall (s := s.onConn conn _) hp _ _).trans (if_pos rfl))
      .awaiting (State.slot?_onCall ..) rfl rfl rfl
  | sever hx _ hs =>
    cases ha
    exact .sever (hs ▸ State.slot?_eq hx)
  | fail hx _ hs | answer hx _ hs =>
    cases ha
    exact .finish (hs ▸ State.slot?_eq hx) ((State.phase?_finish hp _ _).trans (if_pos rfl))
      (by simp [Except.bind])
  | expire hx hq hs hl =>
    cases ha
    cases hu.of_call hp hx hq
    exact .expire rfl (hs ▸ State.slot?_eq hx) hl ((State.phase?_onCall hp _ _).trans (if_pos rfl))
  | writeFail | drop =>
    cases ha
    simp [Action.abandons] at hk
  | _ => cases ha

/-- The call is pending, the only one with its number, and has found nothing yet. -/
structure Waiting (s : State) (id : Nat) (n : UInt32) (conn : Nat) : Prop where
  phase : ∃ p, s.phase? id = some p ∧ p.Underway n conn
  slot : s.slot? id = some .waiting
  worker : s.worker = .reading conn
  pending : s.correlator.Owned n id

/-- What the call returns is decided. -/
inductive Decided (setup : Setup) (notes : List Note) (s : State) (id : Nat) (n : UInt32)
    (conn : Nat) (answer : Option Reply) : Prop
  /-- It is in the slot, for the caller to find. -/
  | found {p : Phase} {result : ExchangeResult} (hp : s.phase? id = some p)
    (hu : p.Underway n conn) (hs : s.slot? id = some (.answered result))
    (hc : id ∉ s.correlator.callers) (hr : ComesFrom answer (result.bind resultOf))
  | expired {limit : Duration} (hp : s.phase? id = some (.expired (some n) conn))
    (hl : setup.config.commandTimeout = some limit)
    (hr : ComesFrom answer (.error (.timeout limit)))
  | returned {result : ExchangeResult} (hp : s.phase? id = some (.finished result))
    (hn : .returned id result ∈ notes) (hr : ComesFrom answer result)

/-- All results that a call is noted to have returned come from the answer. -/
def Returns (id : Nat) (answer : Option Reply) (notes : List Note) : Prop :=
  ∀ result, .returned id result ∈ notes → ComesFrom answer result

/-- The call that is ready registers, and waits. -/
theorem Ready.register (h : Ready s id n conn) (hw : Wired s)
    (hseq : setup.config.sequenceNumbers = true) {subcommand : String} {args : List Arg}
    {command : EncodedCommand} (hq : s.request? id = some (subcommand, args))
    (he : encode (some n) setup.config.commandPrefix subcommand args = .ok command)
    (hm : Move setup s (.begin id) s' ns) :
    ns = [.registered id (some n) conn command, .log (.sent command)] ∧ Waiting s' id n conn := by
  have hseq' : (takeSeq setup.config s).1 = some n := by simp [takeSeq, hseq, h.next]
  have same : ∀ {call : Call}, s.calls[id]? = some call →
      encode (takeSeq setup.config s).1 setup.config.commandPrefix call.subcommand call.args =
        .ok command := fun hc => by
    have hr := (State.request?_eq hc).symm.trans hq
    rw [Option.some.injEq, Prod.mk.injEq] at hr
    rw [hseq', hr.1, hr.2, he]
  cases hm with
  | refuse _ _ _ hnone =>
    rw [h.writer] at hnone
    cases hnone
  | reject hc _ _ _ hfail =>
    obtain ⟨_, -, hfail⟩ | ⟨-, hclosed, -⟩ := hfail
    · rw [same hc] at hfail
      cases hfail
    · have hopen := hw.reading.mpr ⟨conn, h.worker⟩
      rw [hclosed] at hopen
      cases hopen
  | register hc _ _ hwr _ hok =>
    rw [same hc] at hok
    cases hok
    rw [h.writer] at hwr
    cases hwr
    rw [hseq']
    exact ⟨rfl, ⟨_, (State.phase?_onCall (State.phase?_eq hc) _ _).trans (if_pos rfl), .writing _⟩,
      (State.slot?_onCall ..).trans h.slot, h.worker, Correlator.Owned.register h.fresh⟩

namespace Waiting

/-- Nothing of what concerns the call has changed. -/
theorem congr (h : Waiting s id n conn) (hp : s'.phase? id = s.phase? id)
    (hs : s'.slot? id = s.slot? id) (hk : s'.worker = s.worker)
    (hc : s'.correlator = s.correlator) : Waiting s' id n conn where
  phase := hp ▸ h.phase
  slot := hs.trans h.slot
  worker := hk.trans h.worker
  pending := hc ▸ h.pending

theorem holder (h : Waiting s id n conn) (ho : Orderly s) : s.lock.holder = some (.call id) := by
  obtain ⟨p, hp, hu⟩ := h.phase
  exact ho.busy id p hp (Phase.busy_of_link hu.link)

/-- What the caller itself does while its call waits and its time is not up leaves it waiting. -/
theorem own (h : Waiting s id n conn) (hm : Move setup s a s' ns) (ha : a.caller? = some id)
    (hc : a.cutsOff id = false) (hk : a.abandons id = false) :
    firstAnswer? n conn ns = none ∧ Waiting s' id n conn := by
  obtain ⟨p, hp, hu⟩ := h.phase
  cases hm.own ha hp hu hk with
  | write hp' hu' hs hw hcor hn =>
    exact ⟨hn, ⟨_, hp', hu'⟩, hs.trans h.slot, hw.trans h.worker, hcor ▸ h.pending⟩
  | sever hs | finish hs =>
    cases hs.symm.trans h.slot
  | expire he =>
    rw [he] at hc
    simp [Action.cutsOff] at hc

/-- A reply that is given to nobody, or to somebody else, leaves the call waiting. -/
theorem route (h : Waiting s id n conn) {raw : String} {r : Reply}
    (hown : (s.correlator.dispatch r).1.Owned n id)
    (hother : ∀ reply, (s.correlator.dispatch r).2 ≠ .completed id reply) :
    Waiting (routeReply s conn raw r).1 id n conn where
  phase := routeReply_phase? s conn raw r id ▸ h.phase
  slot := by
    rw [routeReply_fst]
    split
    · rename_i i reply hd
      have hne : id ≠ i := fun he => hother reply (he ▸ hd)
      rw [State.slot?_fill, if_neg (by simpa using hne)]
      exact h.slot
    · exact h.slot
  worker := (routeReply_worker ..).trans h.worker
  pending := (routeReply_correlator ..).symm ▸ hown

/-- The reply that answers the call is given to it. -/
theorem route_answer (h : Waiting s id n conn) {r : Reply} (raw : String) (hn : r.answers n = true)
    (ms : List Note) : Decided setup ms (routeReply s conn raw r).1 id n conn (some r) := by
  obtain ⟨p, hp, hu⟩ := h.phase
  rw [Reply.answers, Bool.and_eq_true, beq_iff_eq] at hn
  obtain ⟨hnot, cs, hd⟩ := h.pending.dispatch_final hn.1 hn.2
  have hslot : (routeReply s conn raw r).1.slot? id =
      some (.answered (.ok { r with continuations := cs })) := by
    rw [routeReply_fst, hd]
    refine (State.slot?_fill ..).trans ?_
    rw [if_pos (List.mem_singleton_self id)]
    exact congrArg (Option.map _) h.slot
  exact .found ((routeReply_phase? ..).trans hp) hu hslot
    (routeReply_correlator s conn raw r ▸ hnot) ⟨cs, rfl⟩

/-- A reply leaves the call waiting unless it answers it. -/
theorem route_other (h : Waiting s id n conn) {raw : String} {r : Reply}
    (hr : parseLine raw true = .ok (.reply r)) (hn : r.answers n = false) :
    Waiting (routeReply s conn raw r).1 id n conn := by
  obtain ⟨m, hm⟩ := Reply.seq_of_numbered hr
  by_cases he : m = n
  · have hf : r.isFinal = false := by simpa [Reply.answers, hm, he] using hn
    obtain ⟨hown, hd⟩ := h.pending.dispatch_continuing (he ▸ hm) hf
    exact h.route hown (by simp [hd])
  · obtain ⟨hown, hother⟩ := h.pending.dispatch_other hm he
    exact h.route hown hother

/-- Whatever happens while a call waits and nothing puts an end to it leaves it waiting, except the
first final reply with its number. -/
theorem keep (h : Waiting s id n conn) (hm : Move setup s a s' ns) (ho : Orderly s)
    (hseq : setup.config.sequenceNumbers = true) (hc : a.cutsOff id = false)
    (hk : a.abandons id = false) :
    (firstAnswer? n conn ns = none ∧ Waiting s' id n conn) ∨
      ∃ r, firstAnswer? n conn ns = some r ∧ Decided setup ns s' id n conn (some r) := by
  by_cases ha : a.caller? = some id
  · exact .inl (h.own hm ha hc hk)
  have hact := (hm.caller_of_held ho (h.holder ho)).resolve_left ha
  obtain ⟨p, hp, -⟩ := h.phase
  have hphase := hm.phase_other ha (State.phase?_lt hp)
  have hworker := (hm.reading h.worker hc).trans h.worker.symm
  have reads : ∀ {c : Nat}, s.worker = .reading c → c = conn := fun hw => by
    simpa using hw.symm.trans h.worker
  cases hm with
  | refuse | reject | register | write | send | writeFail | sever | fail | answer | expire | giveUp
  | giveUpLate | close | notify => simp [Action.caller?] at hact
  | arrive =>
    refine .inl ⟨rfl, h.congr hphase ?_ hworker rfl⟩
    rw [State.slot?_arrive, if_neg (Nat.ne_of_lt (State.phase?_lt hp))]
  | drop => exact .inl ⟨rfl, h.congr hphase (State.slot?_onCall ..) hworker rfl⟩
  | start hw | connect hw | connectFail _ hw | install hw | «open» hw | disconnect hw | wake hw =>
    cases h.worker.symm.trans hw
  | stop | stopInstalling | stopReading | readEnd | readFail | resync => cases hc
  | hear hw hr hn =>
    refine .inl ⟨?_, h.congr hphase rfl hworker rfl⟩
    rw [firstAnswer?, repliesOn_other (hseq ▸ hr)]
    refine firstAnswer?_quiet fun m hm => ?_
    obtain ⟨_, rfl⟩ | ⟨_, rfl⟩ := hn m hm <;> rfl
  | @reply c rest raw r hw hr =>
    obtain rfl := reads hw
    obtain ⟨entries, hns⟩ := routeReply_notes
      (s.onConn c fun x => { x with inbox := rest }) c raw r
    rw [hseq] at hr
    have hquiet : Quiet (entries.map .log) := .of_log
    have hrest : repliesOn true c
        (routeReply (s.onConn c fun x => { x with inbox := rest }) c raw r).2 = [] := by
      rw [hns]
      exact hquiet.repliesOn_eq true c
    have hwait : Waiting (s.onConn c fun x => { x with inbox := rest }) id n c :=
      h.congr rfl rfl rfl rfl
    rw [firstAnswer?_line hr hrest]
    by_cases hn : r.answers n = true
    · exact .inr ⟨r, if_pos hn, hwait.route_answer raw hn _⟩
    · exact .inl ⟨if_neg hn, hwait.route_other hr (Bool.eq_false_iff.mpr hn)⟩
  | _ => exact .inl ⟨rfl, h.congr hphase rfl hworker rfl⟩

/-- The time limit or the end of the connection decides the result of a call that waits. -/
theorem cut (h : Waiting s id n conn) (hm : Move setup s a s' ns) (hc : a.cutsOff id = true) :
    Decided setup ns s' id n conn none := by
  obtain ⟨p, hp, hu⟩ := h.phase
  have torn : ∀ {t : State} (final : Bool), t.phase? id = s.phase? id → t.slot? id = s.slot? id →
      t.correlator = s.correlator → Decided setup ns (t.tearDown final) id n conn none :=
      fun {t} final hph hsl hcor => by
    have hslot : (t.tearDown final).slot? id = some (.answered (.error .connectionLost)) := by
      have hmem : id ∈ t.correlator.callers := hcor ▸ h.pending.mem_callers
      refine (State.slot?_fill ..).trans ?_
      rw [if_pos hmem, hsl, h.slot]
      rfl
    have hnone : id ∉ (t.tearDown final).correlator.callers := by
      simp [State.tearDown, Correlator.closed, Correlator.callers]
    exact .found ((State.phase?_tearDown ..).trans (hph.trans hp)) hu hslot hnone rfl
  cases hm with
  | expire hx hph _ hl =>
    obtain rfl : _ = id := by simpa [Action.cutsOff] using hc
    cases hu.of_call hp hx hph
    exact .expired ((State.phase?_onCall hp _ _).trans (if_pos rfl)) hl rfl
  | stop hw => rcases hw with hw | hw <;> cases h.worker.symm.trans hw
  | stopInstalling hw => cases h.worker.symm.trans hw
  | readEnd | readFail | resync => exact torn false rfl rfl rfl
  | stopReading => exact torn true rfl rfl rfl
  | _ => cases hc

end Waiting

namespace Decided

/-- Nothing changes a result that is decided. -/
theorem keep (h : Decided setup notes s id n conn answer) (hm : Move setup s a s' ns)
    (hw : Wired s) (hk : a.abandons id = false) :
    Decided setup (notes ++ ns) s' id n conn answer := by
  cases h with
  | returned hp hn hr =>
    exact .returned (hm.phase_finished hp) (List.mem_append_left ns hn) hr
  | @expired limit hp hl hr =>
    by_cases ha : a.caller? = some id
    · have same : ∀ {call : Call}, s.calls[id]? = some call →
          call.phase = .expired (some n) conn :=
        fun hc => Option.some.inj ((State.phase?_eq hc).symm.trans hp)
      cases hm with
      | giveUp hc hq hl' =>
        cases ha
        cases hq.symm.trans (same hc)
        cases hl.symm.trans hl'
        exact .returned ((State.phase?_finish ((State.phase?_cancel ..).trans hp) _ _).trans
          (if_pos rfl)) (by simp) hr
      | refuse hc hq | reject hc hq | register hc hq | write hc hq | send hc hq
      | writeFail _ hc hq | sever hc hq | fail hc hq | answer hc hq | expire hc hq
      | giveUpLate hc hq | close hc hq | notify hc hq =>
        cases ha
        cases hq.symm.trans (same hc)
      | drop hc hq =>
        cases ha
        exact absurd (same hc) (hq _ _)
      | _ => cases ha
    · exact .expired ((hm.phase_other ha (State.phase?_lt hp)).trans hp) hl hr
  | @found p result hp hu hs hc hr =>
    have hne : p ≠ .queued := fun he => by
      rw [he] at hu
      cases hu
    have hlt := State.phase?_lt hp
    have hslot := (hm.slot_other hlt hc).trans hs
    have hc' := hm.not_pending hw hp hne hc
    by_cases ha : a.caller? = some id
    · cases hm.own ha hp hu hk with
      | write hp' hu' => exact .found hp' hu' hslot hc' hr
      | sever hs' | expire _ hs' => cases hs'.symm.trans hs
      | finish hs' hp' hn =>
        cases hs'.symm.trans hs
        exact .returned hp' (List.mem_append_right notes hn) hr
    · exact .found ((hm.phase_other ha hlt).trans hp) hu hslot hc' hr

/-- Only the decided result is returned. -/
theorem comesFrom (h : Decided setup notes s id n conn answer) {result : ExchangeResult}
    (hp : s.phase? id = some (.finished result)) : ComesFrom answer result := by
  cases h with
  | found hp' hu _ _ _ =>
    rw [hp] at hp'
    cases hp'
    cases hu
  | expired hp' _ _ =>
    rw [hp] at hp'
    cases hp'
  | returned hp' _ hr =>
    rw [hp] at hp'
    cases hp'
    exact hr

/-- No other result is returned. -/
theorem returns (h : Decided setup notes s id n conn answer) (hm : Move setup s a s' ns)
    (hw : Wired s) (hk : a.abandons id = false) (hret : Returns id answer notes) :
    Returns id answer (notes ++ ns) := by
  intro result hmem
  rcases List.mem_append.mp hmem with hmem | hmem
  · exact hret result hmem
  · exact (h.keep hm hw hk).comesFrom (hm.returned_phase hmem)

/-- The caller of a call whose command has been written has returned the decided result, or can do
so next. -/
theorem progress (h : Decided setup notes s id n conn answer)
    (hpast : ∀ p, s.phase? id = some p → p.isPastWriting = true) :
    ∃ result, ComesFrom answer result ∧ (.returned id result ∈ notes ∨
      ∀ elapsed, ∃ a ∈ [Action.receive id elapsed, .giveUp id], ∃ s' ns,
        step setup s a = some (s', ns) ∧ .returned id result ∈ ns) := by
  cases h with
  | returned _ hn hr => exact ⟨_, hr, .inl hn⟩
  | @expired limit hp hl hr =>
    obtain ⟨⟨sub, args, phase, slot⟩, hc, rfl⟩ := Option.map_eq_some_iff.mp hp
    refine ⟨_, hr, .inr fun _ => ⟨.giveUp id, by simp, (giveUpCall s id sub (some n) limit).1,
      (giveUpCall s id sub (some n) limit).2, ?_, ?_⟩⟩
    · simp only [step, hc, hl]
    · simp [giveUpCall, noting, State.finish]
  | @found p result hp hu hs _ hr =>
    obtain ⟨⟨sub, args, phase, slot⟩, hc, rfl⟩ := Option.map_eq_some_iff.mp hp
    obtain rfl : slot = .answered result := by
      rw [State.slot?_eq hc] at hs
      exact Option.some.inj hs
    cases hu with
    | writing rest => cases hpast _ hp
    | awaiting =>
      refine ⟨_, hr, .inr fun elapsed => ⟨.receive id elapsed, by simp, ?_⟩⟩
      -- The result comes last, after what is logged about the time and the answer.
      cases result with
      | error e =>
        exact ⟨_, _, by simp only [step, hc, receiveAnswer]; rfl,
          List.mem_append_right _ List.mem_cons_self⟩
      | ok reply =>
        exact ⟨_, _, by simp only [step, hc, receiveAnswer]; rfl,
          List.mem_append_right _ (List.mem_append_right _ List.mem_cons_self)⟩

end Decided

end Connector
end EfsControl

/-
# What the connected flag says

The flag is set by the worker and cleared by the worker and by callers whose
command without a number goes unanswered, together with the writing side or
with the pending calls. Who takes a connection away has the lock, and while
somebody has the lock no other command is on its way: between the moment at
which the worker has taken a connection away and the moment at which it reads
the next one, no command is on its way at all.

Key definitions: `Worker.serves`, `Truthful`, `Call.Refused`.
Key theorems: `Move.truthful`, `run_connected_iff`.
-/
import EfsControl.Proofs.Connector.Bystander

namespace EfsControl
namespace Connector

variable {setup : Setup} {s s' t : State} {notes ns : List Note} {a : Action} {id conn : Nat}

/-- Whether there may be commands on their way while the worker is there. -/
def Worker.serves : Worker → Bool
  | .reading _ | .disconnecting _ => true
  | _ => false

/-- What the flag, the writing side and the calls say of each other in a state that can come
about. -/
structure Truthful (s : State) : Prop where
  flag : s.connected = true ↔ s.writer ≠ none ∧ s.correlator.isOpen = true
  /-- The connection that the worker has handed over can be written to until it is read. -/
  opening : ∀ c, s.worker = .opening c → s.writer = some c
  quiet : s.worker.serves = false → ∀ i p, s.phase? i = some p → p.isBusy = false

/-! ### Commands on their way -/

/-- A command that is on its way was so before. -/
theorem Turn.busy {o : Option Phase} {q : Phase} (h : Turn o (some q)) (hq : q.isBusy = true) :
    ∃ p, o = some p ∧ p.isBusy = true := by
  cases h with
  | stay => exact ⟨q, rfl, hq⟩
  | write => exact ⟨_, rfl, rfl⟩
  | expire => exact ⟨_, rfl, rfl⟩
  | close => exact ⟨_, rfl, rfl⟩
  | come => cases hq
  | finish => cases hq
  | drop => cases hq

/-- A command gets on its way only while the worker reads. -/
theorem Move.busy (hm : Move setup s a s' ns) (hw : Wired s) {i : Nat} {q : Phase}
    (hq : s'.phase? i = some q) (hb : q.isBusy = true) :
    (∃ p, s.phase? i = some p ∧ p.isBusy = true) ∨ ∃ c, s.worker.reads? = some c := by
  cases hm.effect hw with
  | calm hc _ _ _ => exact .inl ((hq ▸ hc i).busy hb)
  | cancel _ _ _ hc _ _ _ => exact .inl ((hq ▸ hc i).busy hb)
  | close hc _ _ _ => exact .inl ((hq ▸ hc i).busy hb)
  | «open» _ hc _ _ _ _ => exact .inl ((hq ▸ hc i).busy hb)
  | register _ _ _ _ _ _ hk _ => exact .inr ⟨_, hk⟩
  | send hp hj _ _ =>
    rw [hj] at hq
    split at hq
    · rename_i hi
      exact .inl ⟨_, hi ▸ hp, rfl⟩
    · exact .inl ⟨q, hq, hb⟩
  | hear hc _ _ _ _ _ => exact .inl ((hq ▸ hc i).busy hb)
  | reply hc _ _ _ _ _ => exact .inl ((hq ▸ hc i).busy hb)

/-- The worker leaves the places where commands may be on their way with the lock in its hands. -/
theorem Move.serves (hm : Move setup s a s' ns) (hs : s.worker.serves = true)
    (hs' : s'.worker.serves = false) : s.lock.holder = some .worker := by
  have other : ∀ {w : Worker}, s.worker = w → w.serves = false → s.lock.holder = some .worker :=
    fun hw hf => by
      rw [hw, hf] at hs
      cases hs
  cases hm with
  | disconnect _ hl => exact hl
  | start hw => exact other hw rfl
  | connect hw => exact other hw rfl
  | install hw _ => exact other hw rfl
  | wake hw => exact other hw rfl
  | reply =>
    rw [routeReply_worker] at hs'
    exact absurd (hs.symm.trans hs') (by simp)
  | connectFail | «open» | readEnd | readFail | resync | stop | stopInstalling | stopReading =>
    cases hs'
  | _ => exact absurd (hs.symm.trans hs') (by simp)

/-! ### Kept by moves -/

namespace Truthful

theorem init : Truthful {} where
  flag := by simp
  opening c hc := by cases hc
  quiet _ i p hp := by simp [State.phase?] at hp

/-- Flag, writing side and pending calls stay as they are. -/
theorem flag_congr (h : Truthful s) (hf : s'.connected = s.connected) (hw : s'.writer = s.writer)
    (ho : s'.correlator.isOpen = s.correlator.isOpen) :
    s'.connected = true ↔ s'.writer ≠ none ∧ s'.correlator.isOpen = true := by
  rw [hf, hw, ho]
  exact h.flag

/-- The flag is off where calls are refused or nobody may write. -/
theorem flag_off (hf : s'.connected = false)
    (h : s'.writer = none ∨ s'.correlator.isOpen = false) :
    s'.connected = true ↔ s'.writer ≠ none ∧ s'.correlator.isOpen = true := by
  rw [hf]
  refine iff_of_false Bool.false_ne_true ?_
  rintro ⟨hw, ho⟩
  rcases h with h | h
  · exact hw h
  · rw [h] at ho
    cases ho

/-- Nobody's command is on its way while the worker has handed a connection over and does not read
it yet. -/
theorem not_opening (h : Truthful s) {p : Phase} (hp : s.phase? id = some p)
    (hb : p.isBusy = true) (c : Nat) : s.worker ≠ .opening c := by
  intro hk
  have := h.quiet (by rw [hk]; rfl) id p hp
  rw [hb] at this
  cases this

end Truthful

/-- Every move keeps the flag right. -/
theorem Move.flag (hm : Move setup s a s' ns) (hw : Wired s) (h : Truthful s) :
    s'.connected = true ↔ s'.writer ≠ none ∧ s'.correlator.isOpen = true := by
  cases hm with
  | register => exact h.flag_congr rfl rfl rfl
  | writeFail | giveUp => exact h.flag_congr rfl rfl (Correlator.cancel_isOpen ..)
  | giveUpLate => exact Truthful.flag_off rfl (.inl rfl)
  | close => exact Truthful.flag_off rfl (.inl rfl)
  | connectFail | readEnd | readFail | resync | stop | stopInstalling | stopReading =>
    exact Truthful.flag_off rfl (.inr rfl)
  | @install conn hk _ =>
    have hopen : s.correlator.isOpen = false := by
      rw [← Bool.not_eq_true, hw.reading]
      simp [hk]
    have hoff : s.connected = false := by
      rw [← Bool.not_eq_true, h.flag]
      simp [hopen]
    exact Truthful.flag_off hoff (.inr hopen)
  | @«open» conn hk =>
    have hwriter : s.writer = some conn := h.opening conn hk
    refine iff_of_true rfl ⟨?_, rfl⟩
    show s.writer ≠ none
    simp [hwriter]
  | reply =>
    refine h.flag_congr ?_ (routeReply_writer ..) ?_
    · rw [routeReply_fst]
      split <;> rfl
    · rw [routeReply_correlator, Correlator.dispatch_isOpen]
      rfl
  | @disconnect final hk _ =>
    have hopen : s.correlator.isOpen = false := by
      rw [← Bool.not_eq_true, hw.reading]
      simp [hk]
    have hoff : s.connected = false := by
      rw [← Bool.not_eq_true, h.flag]
      simp [hopen]
    refine Truthful.flag_off ?_ (.inl (removeConn_writer ..))
    unfold removeConn
    cases s.writer <;> exact hoff
  | _ => exact h.flag_congr rfl rfl rfl

/-- Every move leaves the connection that has just been handed over to those who may write. -/
theorem Move.opening (hm : Move setup s a s' ns) (h : Truthful s) :
    ∀ c, s'.worker = .opening c → s'.writer = some c := by
  intro c hc
  cases hm with
  | giveUpLate hx hp _ _ =>
    exact absurd hc (h.not_opening (hp ▸ State.phase?_eq hx) rfl c)
  | close hx hp _ _ =>
    exact absurd hc (h.not_opening (hp ▸ State.phase?_eq hx) rfl c)
  | install =>
    cases hc
    rfl
  | reply =>
    rw [routeReply_worker] at hc
    rw [routeReply_writer]
    exact h.opening c hc
  | @disconnect final =>
    rw [removeConn_worker] at hc
    split at hc <;> cases hc
  | start | connect | connectFail | «open» | readEnd | readFail | resync | wake | stop
  | stopInstalling | stopReading => cases hc
  | _ => exact h.opening c hc

/-- Every move keeps flag, writing side and calls in agreement. -/
theorem Move.truthful (hm : Move setup s a s' ns) (ho : Orderly s) (hw : Wired s)
    (h : Truthful s) : Truthful s' where
  flag := hm.flag hw h
  opening := hm.opening h
  quiet hs' i q hq := by
    by_contra hb
    have hb : q.isBusy = true := by simpa using hb
    by_cases hs : s.worker.serves = true
    -- The worker has just taken its connection away, and had the lock for that.
    · have hl := hm.serves hs hs'
      rcases hm.busy hw hq hb with ⟨p, hp, hbusy⟩ | ⟨c, hc⟩
      · have := ho.not_busy hl hp
        rw [hbusy] at this
        cases this
      · have hreads : s.worker = .reading c := by
          cases hk : s.worker <;> simp_all [Worker.reads?]
        have := ho.worker (Lock.holder_mem hl)
        rw [hreads] at this
        cases this
    · rcases hm.busy hw hq hb with ⟨p, hp, hbusy⟩ | ⟨c, hc⟩
      · have := h.quiet (by simpa using hs) i p hp
        rw [hbusy] at this
        cases this
      · cases hk : s.worker <;> simp_all [Worker.reads?, Worker.serves]

theorem run_truthful {as : List Action} (h : run setup {} as = some (s, notes)) : Truthful s :=
  (sound_induction (P := fun _ s => Truthful s) .init
    (fun hs ht hm => hm.truthful hs.orderly hs.wired ht) h).2

/-! ### Calls that are refused -/

/-- Why a call fails before anything of it is written: there is no connection, or its command cannot
be written. -/
def Call.Refused (cfg : DaemonConfig) (s : State) (c : Call) (e : ExchangeError) : Prop :=
  e = .notConnected ∨ ∃ x, e = .encode x ∧
    encode (takeSeq cfg s).1 cfg.commandPrefix c.subcommand c.args = .error x

/-- A call that gets the lock while the flag is off fails at once and leaves nothing behind. -/
theorem Truthful.begin_refused (h : Truthful s) (hoff : s.connected = false) {call : Call}
    (hc : s.calls[id]? = some call) (hp : call.phase = .queued)
    (hl : s.lock.holder = some (.call id)) :
    ∃ e s', step setup s (.begin id) = some (s', [.returned id (.error e)]) ∧
      call.Refused setup.config s e ∧ s'.phase? id = some (.finished (.error e)) ∧
      s'.conns = s.conns ∧ s'.correlator = s.correlator := by
  obtain ⟨s', ns, hstep⟩ : ∃ s' ns, step setup s (.begin id) = some (s', ns) := by
    refine ⟨(beginCall setup.config s id call).1, (beginCall setup.config s id call).2, ?_⟩
    simp only [step, hc, hp, if_pos hl]
  have hphase : ∀ {t : State} (r : ExchangeResult), t.phase? id = s.phase? id →
      (t.finish id r).1.phase? id = some (.finished r) := by
    intro t r ht
    rw [State.phase?_finish (ht.trans (State.phase?_eq hc)), if_pos rfl]
  rw [hstep]
  cases step_move hstep with
  | refuse => exact ⟨_, _, rfl, .inl rfl, hphase _ rfl, rfl, rfl⟩
  | @reject _ _ call' e hc' _ _ _ he =>
    obtain rfl : call = call' := Option.some.inj (hc.symm.trans hc')
    refine ⟨e, _, rfl, ?_, hphase _ rfl, rfl, rfl⟩
    rcases he with he | ⟨he, -, -⟩
    · exact .inr he
    · exact .inl he
  | register _ _ _ hw hopen _ =>
    have hon : s.connected = true := h.flag.mpr ⟨by simp [hw], hopen⟩
    rw [hoff] at hon
    cases hon

/-! ### After a connection -/

/-- Whether the worker waits to connect again or has stopped. -/
def Worker.rests : Worker → Bool
  | .sleeping | .stopped => true
  | _ => false

/-- A reply completes a pending call. -/
theorem Move.routed_pending (hm : Move setup s a s' ns) {c : Nat} {r answer : Reply}
    (hr : .routed c r (.completed id answer) ∈ ns) : id ∈ s.correlator.callers := by
  cases hm with
  | hear _ _ hn =>
    rcases List.mem_cons.mp hr with hr | hr
    · cases hr
    · obtain ⟨_, hr⟩ | ⟨_, hr⟩ := hn _ hr <;> cases hr
  | @reply conn rest raw x =>
    obtain ⟨entries, hns⟩ := routeReply_notes
      (s.onConn conn fun c => { c with inbox := rest }) conn raw x
    rw [hns] at hr
    simp only [List.mem_cons, List.mem_map, reduceCtorEq, and_false, exists_false, or_false,
      false_or, Note.routed.injEq] at hr
    exact Correlator.mem_callers_of_dispatch (c := s.correlator) hr.2.2.symm
  | @disconnect final => cases final <;> simp [removeConn] at hr
  | _ => simp at hr

/-- A call that has begun and is not pending is not completed by any reply that is still to come. -/
theorem run_not_completed {as : List Action} (hs : Sound setup notes s)
    (hrun : run setup s as = some (s', ns)) {p : Phase} (hp : s.phase? id = some p)
    (hne : p ≠ .queued) (hc : id ∉ s.correlator.callers) :
    ∀ c r answer, .routed c r (.completed id answer) ∉ ns := by
  have hall := run_sound_from (P := fun ms t => (∃ q, t.phase? id = some q ∧ q ≠ .queued) ∧
    id ∉ t.correlator.callers ∧ ∀ c r answer, .routed c r (.completed id answer) ∉ ms)
    hs ⟨⟨p, hp, hne⟩, hc, by simp⟩ (fun {ms t a t' xs} _ ht hP hm => ?_) hrun
  · exact hall.2.2.2
  · obtain ⟨⟨q, hq, hq'⟩, hpend, hnone⟩ := hP
    refine ⟨hm.begun ht.wired hq hq', hm.not_pending ht.wired hq hq' hpend, fun c r answer hr => ?_⟩
    rcases List.mem_append.mp hr with hr | hr
    · exact hnone c r answer hr
    · exact hpend (hm.routed_pending hr)

/-- A registered call whose command is not on its way has come to its end. -/
theorem History.over_of_idle (h : History notes s) {x : Registration}
    (hx : x ∈ registrations notes) (hidle : ∀ p, s.phase? x.id = some p → p.isBusy = false) :
    ∃ p, s.phase? x.id = some p ∧ p.isOver = true ∧ p ≠ .queued := by
  obtain ⟨p, hp, hne⟩ := h.begun x hx
  have hbusy := hidle p hp
  refine ⟨p, hp, ?_, hne⟩
  cases p with
  | queued => exact absurd rfl hne
  | writing | awaiting | expired | closing => cases hbusy
  | finished | dropped => rfl

/-- While the worker waits to connect again or has stopped, nothing is left of a connection. -/
theorem Wired.cleared (h : Wired s) (hk : s.worker.rests = true) :
    s.writer = none ∧ s.correlator = {} := by
  have hreads : ∀ c, s.worker ≠ .reading c := fun c hc => by
    rw [hc] at hk
    cases hk
  constructor
  · refine h.writer_none (fun c hc => ?_) hreads fun f hf => ?_
    · rw [hc] at hk
      cases hk
    · rw [hf] at hk
      cases hk
  · refine h.closed ?_
    rw [← Bool.not_eq_true, h.reading]
    exact not_exists.mpr hreads

/-- **The flag tells the truth and a closed connection leaves nothing behind.** In every state that
can come about the flag is on if and only if there is a connection to write to and calls are taken.
While it is off, a call that has the lock fails at once, because there is no connection or its
command cannot be written, and changes neither a connection nor the pending calls. While the worker
waits to connect again, and once it has stopped, nobody may write, no call is pending and no late
reply is expected; every call that has ever been registered has come to its end, and no reply that
is still to come completes it. -/
theorem run_connected_iff {as : List Action} (h : run setup {} as = some (s, notes)) :
    (s.connected = true ↔ s.writer ≠ none ∧ s.correlator.isOpen = true) ∧
    (s.connected = false → ∀ id call, s.calls[id]? = some call → call.phase = .queued →
      s.lock.holder = some (.call id) →
      ∃ e s', step setup s (.begin id) = some (s', [.returned id (.error e)]) ∧
        call.Refused setup.config s e ∧ s'.phase? id = some (.finished (.error e)) ∧
        s'.conns = s.conns ∧ s'.correlator = s.correlator) ∧
    (s.worker.rests = true →
      s.writer = none ∧ s.correlator.pending = [] ∧ s.correlator.stale = 0 ∧
      ∀ x ∈ registrations notes, (∃ p, s.phase? x.id = some p ∧ p.isOver = true) ∧
        ∀ bs s' ns, run setup s bs = some (s', ns) →
          ∀ c r answer, .routed c r (.completed x.id answer) ∉ ns) := by
  have hs := run_sound h
  have ht := run_truthful h
  refine ⟨ht.flag, fun hoff id call hc hp hl => ht.begin_refused hoff hc hp hl, fun hk => ?_⟩
  obtain ⟨hw, hc⟩ := hs.wired.cleared hk
  have hserves : s.worker.serves = false := by
    cases hx : s.worker <;> simp_all [Worker.rests, Worker.serves]
  refine ⟨hw, by rw [hc], by rw [hc], fun x hx => ?_⟩
  obtain ⟨p, hp, hover, hne⟩ := hs.history.over_of_idle hx (ht.quiet hserves x.id)
  refine ⟨⟨p, hp, hover⟩, fun bs s' ns hbs => ?_⟩
  exact run_not_completed hs hbs hp hne (by simp [hc, Correlator.callers])

/-- The connection ends while a call waits for its reply, and another call asks for the lock in the
meantime. -/
def lostExchange : List Action :=
  [.start, .connect, .install, .open, .call "status" [], .begin 0, .write 0 100,
    .call "lock" [.text "a\nb"], .finish 0, .readEnd, .receive 0 ⟨0⟩]

/-- After the end of a connection the second call is refused, and the first is over when the worker
waits to connect again. -/
theorem run_connected_iff_lost : ∃ s notes,
    run { config := {} } {} lostExchange = some (s, notes) ∧ s.connected = false ∧
    (∃ e s', step { config := {} } s (.begin 1) = some (s', [.returned 1 (.error e)]) ∧
      s'.conns = s.conns) ∧
    ∃ t ns, run { config := {} } {} (lostExchange ++ [.begin 1, .disconnect]) = some (t, ns) ∧
      t.worker.rests = true ∧ registrations ns ≠ [] ∧
      ∀ x ∈ registrations ns, ∃ p, t.phase? x.id = some p ∧ p.isOver = true := by
  have hrun : ((run { config := {} } {} lostExchange).map fun x =>
        decide (x.1.connected = false ∧ x.1.lock.holder = some (.call 1)) &&
          (x.1.calls[1]?.any fun c => !c.phase.isBusy && !c.phase.isOver))
      = some true := by
    decide +kernel
  have hend : ((run { config := {} } {} (lostExchange ++ [.begin 1, .disconnect])).map fun x =>
        x.1.worker.rests && !(registrations x.2).isEmpty) = some true := by
    decide +kernel
  obtain ⟨⟨s, notes⟩, hx, hd⟩ := Option.map_eq_some_iff.mp hrun
  obtain ⟨⟨t, ns⟩, hy, he⟩ := Option.map_eq_some_iff.mp hend
  simp only [Bool.and_eq_true, decide_eq_true_eq, Option.any_eq_true] at hd
  obtain ⟨⟨hoff, hl⟩, call, hc, hq⟩ := hd
  have hp : call.phase = .queued := by
    revert hq
    cases call.phase <;> simp [Phase.isBusy, Phase.isOver]
  simp only [Bool.and_eq_true, Bool.not_eq_true', List.isEmpty_eq_false_iff] at he
  obtain ⟨e, s', hstep, -, -, hconns, -⟩ := (run_connected_iff hx).2.1 hoff 1 call hc hp hl
  refine ⟨s, notes, hx, hoff, ⟨e, s', hstep, hconns⟩, t, ns, hy, he.1, he.2, fun x hx => ?_⟩
  exact (((run_connected_iff hy).2.2 he.1).2.2.2 x hx).1

end Connector
end EfsControl

/-
# How many commands are in flight

A call gives its place among the pending calls away before it gives back the
lock: a reply, the time limit, a failed write and the end of the connection all
take it out of the queue first. Only a caller that goes away leaves its entry
behind. So there is never more than one pending call, and it has the lock, as
long as no caller goes away while its call is pending; after the first that
does, a pending call stands without the lock, and the next one stands beside
it.

Key definitions: `OneInFlight`, `KeepsCallers`, `Single`.
Key theorems: `Move.single`, `run_oneInFlight_iff`, `abandoned_two_pending`.
-/
import EfsControl.Proofs.Connector.Answer

namespace EfsControl
namespace Connector

variable {setup : Setup} {s s' t : State} {notes ns : List Note} {id conn : Nat} {p q : Phase}
  {seq : Option UInt32}

/-- At most one call is pending, and its caller holds the lock. -/
def OneInFlight (s : State) : Prop :=
  s.correlator.pending.length ≤ 1 ∧
    ∀ x ∈ s.correlator.pending, s.lock.holder = some (.call x.caller)

/-- No caller goes away while its call is pending. -/
def KeepsCallers (setup : Setup) (as : List Action) : Prop :=
  ∀ bs id cs t ns, as = bs ++ .drop id :: cs → run setup {} bs = some (t, ns) →
    id ∉ t.correlator.callers

/-! ### The only pending call -/

/-- A call with this number is linked to a connection and has found nothing yet. -/
def State.Waits (s : State) (id : Nat) (seq : Option UInt32) : Prop :=
  s.slot? id = some .waiting ∧ ∃ p conn, s.phase? id = some p ∧ p.link? = some (seq, conn)

/-- The pending call, where there is one, belongs to a caller that waits for it. -/
structure Single (s : State) : Prop where
  alone : s.correlator.pending = [] ∨
    ∃ x, s.correlator.pending = [x] ∧ s.Waits x.caller x.seq
  /-- A call that has not begun has found nothing yet. -/
  fresh : ∀ i, s.phase? i = some .queued → s.slot? i = some .waiting

namespace Single

theorem init : Single {} where
  alone := .inl rfl
  fresh i hi := by simp [State.phase?] at hi

/-- A pending call belongs to a caller that waits for it. -/
theorem waits (h : Single s) (hm : id ∈ s.correlator.callers) :
    ∃ x, s.correlator.pending = [x] ∧ x.caller = id ∧ s.Waits id x.seq := by
  obtain ⟨x, hx, hid⟩ := List.mem_map.mp hm
  rcases h.alone with he | ⟨y, hy, hw⟩
  · simp [he] at hx
  · obtain rfl : x = y := by simpa [hy] using hx
    exact ⟨x, hy, hid, hid ▸ hw⟩

/-- A call that is not linked to a connection is not pending. -/
theorem not_mem_of_link (h : Single s) (hp : s.phase? id = some p) (hl : p.link? = none) :
    id ∉ s.correlator.callers := fun hm => by
  obtain ⟨x, -, -, -, q, conn, hq, hlink⟩ := h.waits hm
  rw [hp] at hq
  cases hq
  rw [hl] at hlink
  cases hlink

/-- A call that has found something is not pending. -/
theorem not_mem_of_slot (h : Single s) {slot : Slot} (hs : s.slot? id = some slot)
    (hn : slot ≠ .waiting) : id ∉ s.correlator.callers := fun hm => by
  obtain ⟨x, -, -, hw, -⟩ := h.waits hm
  rw [hs] at hw
  cases hw
  exact hn rfl

/-- Nothing that is given to pending calls reaches one that has not begun. -/
theorem slot?_fill (h : Single s) (slot : Slot) {ids : List Nat}
    (hids : ∀ i ∈ ids, i ∈ s.correlator.callers) {i : Nat} (hi : s.phase? i = some .queued) :
    (s.fill slot ids).slot? i = s.slot? i := by
  rw [State.slot?_fill, if_neg]
  intro hm
  exact h.not_mem_of_link hi rfl (hids i hm)

/-- The pending call is given up by its caller. -/
theorem cancel_pending (h : Single s) (ho : Orderly s) (hp : s.phase? id = some p)
    (hl : p.link? = some (seq, conn)) : (s.correlator.cancel seq).1.pending = [] := by
  rcases h.alone with he | ⟨x, hx, -, q, conn', hq, hlink⟩
  · have hsub := s.correlator.cancel_sublist seq
    rw [he] at hsub
    exact List.sublist_nil.mp hsub
  -- The pending call has the lock, as the one that is given up has.
  · obtain rfl : x.caller = id :=
      ho.busy_unique hq hp (Phase.busy_of_link hlink) (Phase.busy_of_link hl)
    rw [hp] at hq
    cases hq
    obtain ⟨rfl, -⟩ : seq = x.seq ∧ conn = conn' := by simpa [hl] using hlink
    exact Correlator.cancel_pending_of_single hx (.inr rfl)

/-! ### Kept by moves -/

/-- Nobody is pending any more. -/
theorem clear (h : Single s) (hc : s'.correlator.pending = [])
    (hf : ∀ i, s'.phase? i = some .queued →
      s.phase? i = some .queued ∧ s'.slot? i = s.slot? i) : Single s' where
  alone := .inl hc
  fresh i hi := by
    obtain ⟨hq, hs⟩ := hf i hi
    rw [hs]
    exact h.fresh i hq

/-- The same call is pending and waits as before. -/
theorem keep (h : Single s) (hc : s'.correlator.pending = s.correlator.pending)
    (hw : ∀ x ∈ s.correlator.pending, s.Waits x.caller x.seq → s'.Waits x.caller x.seq)
    (hf : ∀ i, s'.phase? i = some .queued →
      s.phase? i = some .queued ∧ s'.slot? i = s.slot? i) : Single s' where
  alone := by
    rw [hc]
    rcases h.alone with he | ⟨x, hx, hwait⟩
    · exact .inl he
    · exact .inr ⟨x, hx, hw x (by simp [hx]) hwait⟩
  fresh i hi := by
    obtain ⟨hq, hs⟩ := hf i hi
    rw [hs]
    exact h.fresh i hq

theorem congr (h : Single s) (hc : s'.correlator.pending = s.correlator.pending)
    (hp : ∀ i, s'.phase? i = s.phase? i) (hs : ∀ i, s'.slot? i = s.slot? i) : Single s' := by
  refine h.keep hc (fun x _ hw => ?_) fun i hi => ⟨(hp i).symm.trans hi, hs i⟩
  unfold State.Waits
  rw [hs, hp]
  exact hw

theorem onConn (h : Single s) (c : Nat) (f : Connection → Connection) : Single (s.onConn c f) :=
  h.congr rfl (fun _ => rfl) fun _ => rfl

/-- A call that is not pending goes on or ends. -/
theorem other (h : Single s) (hid : id ∉ s.correlator.callers) (hq : q ≠ .queued)
    (hc : s'.correlator.pending = s.correlator.pending)
    (hp : ∀ i, s'.phase? i = if i = id then some q else s.phase? i)
    (hs : ∀ i, s'.slot? i = s.slot? i) : Single s' := by
  refine h.keep hc (fun x hx hw => ?_) fun i hi => ⟨?_, hs i⟩
  · have hne : x.caller ≠ id := fun he => hid (he ▸ List.mem_map_of_mem hx)
    unfold State.Waits
    rw [hs, hp, if_neg hne]
    exact hw
  · rw [hp] at hi
    split at hi
    · exact absurd (Option.some.inj hi) hq
    · exact hi

/-- A linked call goes on with the same link. -/
theorem advance {l : Option UInt32 × Nat} (h : Single s) (hp : s.phase? id = some p)
    (hl : p.link? = some l) (hq : q.link? = some l)
    (hc : s'.correlator.pending = s.correlator.pending)
    (hp' : ∀ i, s'.phase? i = if i = id then some q else s.phase? i)
    (hs : ∀ i, s'.slot? i = s.slot? i) : Single s' := by
  refine h.keep hc ?_ fun i hi => ⟨?_, hs i⟩
  · rintro x - ⟨hw, r, conn, hr, hlink⟩
    refine ⟨(hs _).trans hw, ?_⟩
    by_cases hxi : x.caller = id
    · rw [hxi, hp] at hr
      cases hr
      exact ⟨q, conn, by rw [hp', if_pos hxi], hq.trans (hl.symm.trans hlink)⟩
    · exact ⟨r, conn, by rw [hp', if_neg hxi, hr], hlink⟩
  · rw [hp'] at hi
    split at hi
    · cases hi
      cases hq
    · exact hi

/-- A call gives up its place among the pending calls. -/
theorem cancel (h : Single s) (ho : Orderly s) (hp : s.phase? id = some p)
    (hl : p.link? = some (seq, conn)) (hq : q ≠ .queued)
    (hc : s'.correlator = (s.correlator.cancel seq).1)
    (hp' : ∀ i, s'.phase? i = if i = id then some q else (s.cancel id seq).phase? i)
    (hs : ∀ i, s'.slot? i = (s.cancel id seq).slot? i) : Single s' := by
  refine h.clear (hc ▸ h.cancel_pending ho hp hl) fun i hi => ?_
  rw [hp', State.phase?_cancel] at hi
  split at hi
  · cases hi
    exact absurd rfl hq
  · refine ⟨hi, (hs i).trans (h.slot?_fill .severed (fun j hj => ?_) hi)⟩
    obtain ⟨hj, -⟩ := List.mem_filter.mp hj
    exact Correlator.mem_callers_of_cancel (Option.mem_toList.mp hj)

/-- Everybody who is pending is told that the connection was lost. -/
theorem tearDown (h : Single s) (final : Bool) : Single (s.tearDown final) := by
  refine h.clear rfl fun i hi => ?_
  rw [State.phase?_tearDown] at hi
  exact ⟨hi, h.slot?_fill _ (fun j hj => hj) hi⟩

/-- A reply is given to the pending call. -/
theorem route (h : Single s) (conn : Nat) (raw : String) (r : Reply) :
    Single (routeReply s conn raw r).1 := by
  rw [routeReply_fst]
  obtain ⟨-, -, hd⟩ | ⟨-, -, hd⟩ | ⟨before, y, after, -, hl, hd⟩ := s.correlator.dispatch_cases r
  · rw [hd]
    refine h.congr ?_ (fun _ => rfl) fun _ => rfl
    dsimp only
    split <;> rfl
  · rw [hd]
    exact h.congr rfl (fun _ => rfl) fun _ => rfl
  obtain ⟨hpend, -, -⟩ := Correlator.locate_eq_some_iff.mp hl
  have hmem : y.caller ∈ s.correlator.callers := by simp [Correlator.callers, hpend]
  obtain ⟨x, hx, -, hw⟩ := h.waits hmem
  obtain ⟨rfl, rfl, rfl⟩ : before = [] ∧ y = x ∧ after = [] := by
    rw [hpend] at hx
    cases before <;> simp_all
  by_cases hf : r.isFinal = true
  · rw [hd, if_pos hf]
    refine h.clear rfl fun i hi => ?_
    have hi' : s.phase? i = some .queued := (State.phase?_fill ..).symm.trans hi
    refine ⟨hi', h.slot?_fill _ (fun j hj => ?_) hi'⟩
    rwa [List.mem_singleton.mp hj]
  · rw [hd, if_neg hf]
    exact ⟨.inr ⟨_, rfl, hw⟩, h.fresh⟩

/-- The pending call of a state that can come about has the lock. -/
theorem oneInFlight (h : Single s) (ho : Orderly s) : OneInFlight s := by
  unfold OneInFlight
  rcases h.alone with he | ⟨x, hx, -, q, conn, hq, hlink⟩
  · simp [he]
  · have hlock := ho.busy x.caller q hq (Phase.busy_of_link hlink)
    simpa [hx] using hlock

end Single

/-- Every move but the going away of a caller whose call is pending leaves one pending call at
most. -/
theorem Move.single {a : Action} (hm : Move setup s a s' ns) (ho : Orderly s) (h : Single s)
    (hd : ∀ id, a = .drop id → id ∉ s.correlator.callers) : Single s' := by
  cases hm with
  | arrive subcommand args =>
    have hph := State.phase?_arrive (s := s) subcommand args
      (l := s.lock.request (.call s.calls.length))
    have hsl := State.slot?_arrive (s := s) subcommand args
      (l := s.lock.request (.call s.calls.length))
    refine ⟨h.alone.imp_right ?_, fun i hi => ?_⟩
    · rintro ⟨x, hx, hw, q, conn, hq, hlink⟩
      have hne : x.caller ≠ s.calls.length := Nat.ne_of_lt (State.phase?_lt hq)
      refine ⟨x, hx, ?_, q, conn, ?_, hlink⟩
      · rw [hsl, if_neg hne]
        exact hw
      · rw [hph, if_neg hne]
        exact hq
    · rw [hph] at hi
      rw [hsl]
      split at hi
      · rw [if_pos (by assumption)]
      · rw [if_neg (by assumption)]
        exact h.fresh i hi
  | refuse hc hp _ _ =>
    have hq := hp ▸ State.phase?_eq hc
    exact h.other (h.not_mem_of_link hq rfl) (by simp) rfl (State.phase?_finish hq _)
      (fun _ => State.slot?_finish ..)
  | reject hc hp _ _ _ =>
    have hq := hp ▸ State.phase?_eq hc
    exact h.other (h.not_mem_of_link hq rfl) (by simp) rfl (State.phase?_finish hq _)
      (fun _ => State.slot?_finish ..)
  | @register id conn call command hc hp hl _ _ _ =>
    have hq := hp ▸ State.phase?_eq hc
    -- Whoever is pending has the lock, and this call has not begun.
    have hnone : s.correlator.pending = [] := by
      rcases h.alone with he | ⟨x, -, -, r, c, hr, hlink⟩
      · exact he
      · have := ho.not_busy_of_queued hl hq hr
        simp [Phase.busy_of_link hlink] at this
    refine ⟨.inr ⟨⟨(takeSeq setup.config s).1, [], id⟩, ?_, ?_, ?_⟩, fun i hi => ?_⟩
    · exact congrArg (· ++ [_]) hnone
    · exact (State.slot?_onCall ..).trans (h.fresh id hq)
    · exact ⟨_, conn, (State.phase?_onCall hq _ id).trans (if_pos rfl), rfl⟩
    · change State.phase? (s.onCall id _) i = _ at hi
      rw [State.phase?_onCall hq] at hi
      split at hi
      · cases hi
      · exact (State.slot?_onCall ..).trans (h.fresh i hi)
  | write hc hp _ _ =>
    have hq := hp ▸ State.phase?_eq hc
    exact h.advance hq rfl rfl rfl (State.phase?_onCall hq _) (fun _ => State.slot?_onCall ..)
  | send hc hp _ _ =>
    have hq := hp ▸ State.phase?_eq hc
    exact h.advance hq rfl rfl rfl (State.phase?_onCall hq _) (fun _ => State.slot?_onCall ..)
  | writeFail _ hc hp =>
    have hq := hp ▸ State.phase?_eq hc
    exact h.cancel ho hq rfl (by simp) rfl
      (State.phase?_finish ((State.phase?_cancel ..).trans hq) _) (fun _ => State.slot?_finish ..)
  | sever hc hp hs =>
    have hq := hp ▸ State.phase?_eq hc
    exact h.other (h.not_mem_of_slot (hs ▸ State.slot?_eq hc) (by simp)) (by simp) rfl
      (State.phase?_finish hq _) (fun _ => State.slot?_finish ..)
  | fail hc hp hs =>
    have hq := hp ▸ State.phase?_eq hc
    exact h.other (h.not_mem_of_slot (hs ▸ State.slot?_eq hc) (by simp)) (by simp) rfl
      (State.phase?_finish hq _) (fun _ => State.slot?_finish ..)
  | answer hc hp hs =>
    have hq := hp ▸ State.phase?_eq hc
    exact h.other (h.not_mem_of_slot (hs ▸ State.slot?_eq hc) (by simp)) (by simp) rfl
      (State.phase?_finish hq _) (fun _ => State.slot?_finish ..)
  | expire hc hp _ _ =>
    have hq := hp ▸ State.phase?_eq hc
    exact h.advance hq rfl rfl rfl (State.phase?_onCall hq _) (fun _ => State.slot?_onCall ..)
  | giveUp hc hp _ =>
    have hq := hp ▸ State.phase?_eq hc
    exact h.cancel ho hq rfl (by simp) rfl
      (State.phase?_finish ((State.phase?_cancel ..).trans hq) _) (fun _ => State.slot?_finish ..)
  | giveUpLate hc hp _ _ =>
    have hq := hp ▸ State.phase?_eq hc
    exact h.cancel ho hq rfl (by simp) rfl
      (State.phase?_finish ((State.phase?_cancel ..).trans hq) _) (fun _ => State.slot?_finish ..)
  | close hc hp _ _ =>
    have hq := hp ▸ State.phase?_eq hc
    exact h.cancel ho hq rfl (by simp) rfl
      (State.phase?_onCall ((State.phase?_cancel ..).trans hq) _) (fun _ => State.slot?_onCall ..)
  | notify hc hp _ =>
    have hq := hp ▸ State.phase?_eq hc
    exact h.other (h.not_mem_of_link hq rfl) (by simp) rfl (State.phase?_finish hq _)
      (fun _ => State.slot?_finish ..)
  | @drop id _ hc _ _ _ =>
    exact h.other (hd id rfl) (by simp) rfl (State.phase?_onCall (State.phase?_eq hc) _)
      (fun _ => State.slot?_onCall ..)
  | connectFail _ _ => exact h.tearDown false
  | reply _ _ => exact (h.onConn _ _).route _ _ _
  | readEnd _ => exact (h.onConn _ _).tearDown false
  | readFail _ _ => exact (h.onConn _ _).tearDown false
  | @resync conn _ _ =>
    have hr : Single { s with resync := false } := h.congr rfl (fun _ => rfl) fun _ => rfl
    exact (hr.onConn conn _).tearDown false
  | disconnect _ _ =>
    exact h.congr (by rw [removeConn_correlator]) (fun _ => removeConn_phase? ..)
      (fun _ => removeConn_slot? ..)
  | stop _ => exact h.tearDown true
  | @stopInstalling conn _ =>
    have hl : Single { s with lock := s.lock.leave .worker } :=
      h.congr rfl (fun _ => rfl) fun _ => rfl
    exact ((hl.onConn conn _).onConn conn _).tearDown true
  | stopReading _ => exact (h.onConn _ _).tearDown true
  | _ => exact h.congr rfl (fun _ => rfl) fun _ => rfl

/-! ### Along a run -/

theorem KeepsCallers.of_prefix {as bs : List Action} (h : KeepsCallers setup as) (hb : bs <+: as) :
    KeepsCallers setup bs := by
  obtain ⟨rest, rfl⟩ := hb
  rintro cs id ds t ns rfl hr
  exact h cs id (ds ++ rest) t ns (by simp) hr

/-- While no caller goes away from a pending call, one call is pending at most. -/
theorem run_single {as : List Action} (h : run setup {} as = some (s, notes))
    (hk : KeepsCallers setup as) : Single s := by
  induction as using List.reverseRecOn generalizing s notes with
  | nil =>
    cases h
    exact .init
  | append_singleton as a ih =>
    obtain ⟨t, ns₁, ns₂, ht, hstep, -⟩ := run_snoc.mp h
    refine (step_move hstep).single (run_sound ht).orderly (ih ht (hk.of_prefix ⟨[a], rfl⟩)) ?_
    rintro id rfl
    exact hk as id [] t ns₁ rfl ht

/-- A caller that goes away from a pending call leaves it there without the lock. -/
theorem not_oneInFlight_of_drop (ho : Orderly s) (hd : id ∈ s.correlator.callers)
    (hs : step setup s (.drop id) = some (s', ns)) : ¬ OneInFlight s' := by
  rintro ⟨-, hlock⟩
  obtain ⟨x, hx, rfl⟩ := List.mem_map.mp hd
  cases step_move hs
  exact Lock.holder_leave_ne ho.nodup (hlock x hx)

/-- **One command in flight, and when.** Along a run there is never more than one pending call, held
by the caller that has the lock, if and only if no caller goes away while its call is pending. -/
theorem run_oneInFlight_iff {as : List Action} (h : run setup {} as = some (s, notes)) :
    (∀ bs t ns, bs <+: as → run setup {} bs = some (t, ns) → OneInFlight t) ↔
      KeepsCallers setup as := by
  constructor
  · rintro hone bs id cs t ns rfl hb hd
    have hpre : bs ++ [.drop id] <+: bs ++ .drop id :: cs := ⟨cs, by simp⟩
    obtain ⟨t', ns', ht'⟩ := run_of_prefix h hpre
    obtain ⟨t₁, ns₁, ns₂, ht₁, hstep, -⟩ := run_snoc.mp ht'
    obtain ⟨rfl, rfl⟩ : t = t₁ ∧ ns = ns₁ := by simpa [hb] using ht₁
    exact not_oneInFlight_of_drop (run_sound hb).orderly hd hstep (hone _ t' ns' hpre ht')
  · intro hk bs t ns hb ht
    exact (run_single ht (hk.of_prefix hb)).oneInFlight (run_sound ht).orderly

/-- No caller goes away in an exchange. -/
theorem run_oneInFlight_exchange : ∃ s notes,
    run { config := {} } {} (exchange "200 1 done") = some (s, notes) ∧
      ∀ bs t ns, bs <+: exchange "200 1 done" → run { config := {} } {} bs = some (t, ns) →
        OneInFlight t := by
  have hrun : (run { config := {} } {} (exchange "200 1 done")).isSome = true := by decide +kernel
  obtain ⟨⟨s, notes⟩, hx⟩ := Option.isSome_iff_exists.mp hrun
  refine ⟨s, notes, hx, (run_oneInFlight_iff hx).mpr ?_⟩
  intro bs id cs t ns he _
  have hm : Action.drop id ∈ exchange "200 1 done" := by simp [he]
  simp [exchange] at hm

/-- A caller goes away while it waits for its reply, and the next call begins. -/
def abandoned : List Action :=
  [.start, .connect, .install, .open, .call "lock" [], .begin 0, .call "lock" [], .drop 0, .begin 1]

/-- Two commands are in flight after a caller has gone away. -/
theorem abandoned_two_pending : ∃ s notes, run { config := {} } {} abandoned = some (s, notes) ∧
    s.correlator.pending.length = 2 ∧ ¬ OneInFlight s := by
  have hrun : ((run { config := {} } {} abandoned).map fun x => x.1.correlator.pending.length)
      = some 2 := by
    decide +kernel
  obtain ⟨⟨s, notes⟩, hx, hlen⟩ := Option.map_eq_some_iff.mp hrun
  refine ⟨s, notes, hx, hlen, fun hone => ?_⟩
  have hle := hone.1
  simp only at hlen
  omega

end Connector
end EfsControl

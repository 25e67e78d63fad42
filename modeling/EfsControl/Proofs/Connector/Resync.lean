/-
# Which connection a request to start over ends

A caller whose command without a number went unanswered closes the connection
and asks the worker to start over. The request stays until the worker finds
it. If the worker has left the connection before the caller asks, it finds the
request on the next one, where nothing has gone wrong.

Whether it is the right connection shows in the writing side: a connection
that is read and may still be written to has lost no command.

Key definitions: `GaveUpOn`, `Closed`.
Key theorems: `Move.writer_cases`, `run_outOfSync_own_iff`,
`lateRequest_outOfSync`.
-/
import EfsControl.Proofs.Connector.Answer

namespace EfsControl
namespace Connector

variable {setup : Setup} {s s' t : State} {notes ns : List Note} {id conn : Nat}
  {as bs : List Action} {a : Action}

/-- A call whose command was written to the connection has been given up, for want of an answer,
without a number. -/
def GaveUpOn (setup : Setup) (conn : Nat) (as : List Action) : Prop :=
  ∃ bs id t ns, bs ++ [.giveUp id] <+: as ∧ run setup {} bs = some (t, ns) ∧
    t.phase? id = some (.expired none conn)

/-- The connection that the worker has handed over and not left. -/
def Worker.uses? : Worker → Option Nat
  | .opening conn | .reading conn => some conn
  | _ => none

/-! ### The writing side -/

/-- What a move can do to the writing side: nothing, or hand over a new connection, or take it away,
or it is given up with a command that went unanswered. -/
theorem Move.writer_cases (hm : Move setup s a s' ns) (hw : Wired s) :
    (s'.writer = s.writer ∧ ∀ c, s'.worker.uses? = some c → s.worker.uses? = some c) ∨
    (∃ c, s.worker = .installing c ∧ s'.writer = some c) ∨
    (s'.writer = none ∧ s'.worker.uses? = none) ∨
    ∃ id c, a = .giveUp id ∧ s.phase? id = some (.expired none c) ∧ s.writer = some c ∧
      s'.writer = none ∧ s'.worker = s.worker := by
  cases hm with
  | giveUpLate hc hp _ hnone =>
    have hlink := hw.link _ _ _ (hp ▸ State.phase?_eq hc) rfl
    rw [hnone] at hlink
    cases hlink
  | @close id c conn' _ _ hc hp _ _ =>
    have hq := hp ▸ State.phase?_eq hc
    exact .inr (.inr (.inr ⟨id, c, rfl, hq, hw.link id _ _ hq rfl, rfl, rfl⟩))
  | @install c hk _ => exact .inr (.inl ⟨c, hk, rfl⟩)
  | @disconnect final _ _ =>
    refine .inr (.inr (.inl ⟨removeConn_writer .., ?_⟩))
    rw [removeConn_worker]
    split <;> rfl
  | «open» hk =>
    refine .inl ⟨rfl, fun c hc => ?_⟩
    rw [hk]
    exact hc
  | reply =>
    refine .inl ⟨routeReply_writer .., fun c hc => ?_⟩
    rw [routeReply_worker] at hc
    exact hc
  | start | connect | connectFail | readEnd | readFail | resync | wake | stop | stopInstalling
  | stopReading => exact .inl ⟨rfl, fun c hc => by cases hc⟩
  | _ => exact .inl ⟨rfl, fun c hc => hc⟩

/-- Giving up a command without a number closes the connection. -/
theorem Move.writer_of_giveUp (hm : Move setup s (.giveUp id) s' ns)
    (hp : s.phase? id = some (.expired none conn)) : s'.writer = none := by
  cases hm with
  | giveUp hc hq _ =>
    have := hp.symm.trans (hq ▸ State.phase?_eq hc)
    cases this
  | giveUpLate => rfl
  | close => rfl

/-! ### Connections on which commands were given up -/

theorem GaveUpOn.mono (h : GaveUpOn setup conn as) : GaveUpOn setup conn (as ++ [a]) := by
  obtain ⟨bs, id, t, ns, hb, hr, hp⟩ := h
  exact ⟨bs, id, t, ns, hb.trans (List.prefix_append as [a]), hr, hp⟩

/-- A command has been given up before the last action or by it. -/
theorem GaveUpOn.snoc (h : GaveUpOn setup conn (as ++ [a])) :
    GaveUpOn setup conn as ∨ ∃ id t ns, a = .giveUp id ∧ run setup {} as = some (t, ns) ∧
      t.phase? id = some (.expired none conn) := by
  obtain ⟨bs, id, t, ns, hb, hr, hp⟩ := h
  rcases List.prefix_concat_iff.mp hb with he | hb
  · obtain ⟨rfl, rfl⟩ : bs = as ∧ a = .giveUp id := by simpa [eq_comm] using he
    exact .inr ⟨id, t, ns, rfl, hr, hp⟩
  · exact .inl ⟨bs, id, t, ns, hb, hr, hp⟩

/-- The writing side tells on which connections commands were given up. -/
structure Closed (setup : Setup) (as : List Action) (s : State) : Prop where
  /-- The connection in use has lost its writing side to a command that was given up on it. -/
  own : ∀ c, s.worker.uses? = some c → s.writer = none → GaveUpOn setup c as
  /-- Nobody writes any more to a connection on which a command was given up. -/
  gone : ∀ c, GaveUpOn setup c as → s.Past c ∧ s.writer ≠ some c

namespace Closed

theorem init : Closed setup [] {} where
  own c hc := by cases hc
  gone c h := by
    obtain ⟨bs, id, t, ns, hb, -⟩ := h
    simp at hb

/-- One more action. -/
theorem snoc (h : Closed setup as s) (hr : run setup {} as = some (s, notes))
    (hm : Move setup s a s' ns) : Closed setup (as ++ [a]) s' := by
  have hs := run_sound hr
  have hcases := hm.writer_cases hs.wired
  refine ⟨fun c hc hnone => ?_, fun c hg => ?_⟩
  · rcases hcases with ⟨hw, hk⟩ | ⟨c', -, hw⟩ | ⟨-, hk⟩ | ⟨id, c', rfl, hp, hw, -, hk⟩
    · exact (h.own c (hk c hc) (hw ▸ hnone)).mono
    · rw [hnone] at hw
      cases hw
    · rw [hk] at hc
      cases hc
    · obtain rfl : c = c' := by
        rw [hk] at hc
        rcases hs.wired.writer c' hw with hu | hu | ⟨_, hu⟩ <;> simp_all [Worker.uses?]
      exact ⟨as, id, s, notes, List.prefix_rfl, hr, hp⟩
  · rcases hg.snoc with hg | ⟨id, t, ns', rfl, ht, hp⟩
    · obtain ⟨hpast, hne⟩ := h.gone c hg
      refine ⟨hm.past hpast, fun hc => ?_⟩
      rcases hcases with ⟨hw, -⟩ | ⟨c', hk, hw⟩ | ⟨hw, -⟩ | ⟨_, _, -, -, -, hw, -⟩
      · exact hne (hw ▸ hc)
      -- A connection is handed over before it is read for the first time.
      · obtain rfl : c' = c := by simpa [hc] using hw.symm
        have := hpast.2 (by rw [hk]; rfl)
        simp [hk, Worker.reads?] at this
      · simp [hw] at hc
      · simp [hw] at hc
    · obtain ⟨rfl, rfl⟩ : s = t ∧ notes = ns' := by simpa [hr] using ht
      obtain ⟨command, hregistered⟩ := hs.history.registered_of_link hp rfl
      refine ⟨hm.past (hs.settled.registered _ hregistered), ?_⟩
      rw [hm.writer_of_giveUp hp]
      simp

end Closed

theorem run_closed (h : run setup {} as = some (s, notes)) : Closed setup as s := by
  induction as using List.reverseRecOn generalizing s notes with
  | nil =>
    cases h
    exact .init
  | append_singleton as a ih =>
    obtain ⟨t, ns₁, ns₂, ht, hstep, -⟩ := run_snoc.mp h
    exact (ih ht).snoc ht (step_move hstep)

/-! ### Requests -/

/-- **When a request is for the connection that it ends.** A connection that the worker gives up on
request is one on which a command without a number went unanswered if and only if nobody may write
to it any more. -/
theorem run_outOfSync_own_iff (h : run setup {} (as ++ [.resync]) = some (s', notes)) :
    ∃ s ns conn, run setup {} as = some (s, ns) ∧ s.worker = .reading conn ∧
      notes = ns ++ [.ended conn .outOfSync, .log (.connectionEnded .outOfSync)] ∧
      (GaveUpOn setup conn as ↔ s.writer = none) := by
  obtain ⟨s, ns, ns₂, hr, hstep, rfl⟩ := run_snoc.mp h
  cases step_move hstep with
  | @resync conn hk _ =>
    have hc := run_closed hr
    refine ⟨s, ns, conn, hr, hk, rfl, fun hg => ?_, fun hw => hc.own conn (by rw [hk]; rfl) hw⟩
    cases hw : s.writer with
    | none => rfl
    | some c =>
      obtain ⟨-, hne⟩ := hc.gone conn hg
      rcases (run_sound hr).wired.writer c hw with hu | hu | ⟨_, hu⟩
      · simp [hk] at hu
      · obtain rfl : conn = c := by simpa [hk] using hu
        exact absurd hw hne
      · simp [hk] at hu

/-- A command goes unanswered and its caller closes the connection. The worker finds the end of the
connection before the caller asks it to start over, and connects again. -/
def lateRequest : List Action :=
  [.start, .connect, .install, .open, .call "status" [], .begin 0, .write 0 100, .timeout 0,
    .giveUp 0, .finish 0, .readEnd, .notify 0, .disconnect, .wake, .connect, .install, .open]

/-- A request that comes late ends the next connection, on which no command was given up. -/
theorem lateRequest_outOfSync : ∃ s notes,
    run { config := { sequenceNumbers := false } } {} (lateRequest ++ [.resync]) = some (s, notes) ∧
      .ended 1 .outOfSync ∈ notes ∧
      ¬ GaveUpOn { config := { sequenceNumbers := false } } 1 lateRequest := by
  have hrun : ((run { config := { sequenceNumbers := false } } {}
        (lateRequest ++ [.resync])).isSome &&
      ((run { config := { sequenceNumbers := false } } {} lateRequest).map fun x =>
        decide (x.1.worker = .reading 1 ∧ x.1.writer = some 1)) == some true) = true := by
    decide +kernel
  rw [Bool.and_eq_true, beq_iff_eq] at hrun
  obtain ⟨⟨s, notes⟩, hx⟩ := Option.isSome_iff_exists.mp hrun.1
  obtain ⟨⟨t, ns⟩, ht, hd⟩ := Option.map_eq_some_iff.mp hrun.2
  obtain ⟨hk, hw⟩ := of_decide_eq_true hd
  obtain ⟨t', ns', conn, ht', hk', rfl, hiff⟩ := run_outOfSync_own_iff hx
  obtain ⟨rfl, rfl⟩ : t = t' ∧ ns = ns' := by simpa [ht] using ht'
  obtain rfl : 1 = conn := by simpa [hk'] using hk.symm
  refine ⟨s, _, hx, by simp, fun hg => ?_⟩
  rw [hiff.mp hg] at hw
  cases hw

end Connector
end EfsControl

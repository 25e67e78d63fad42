/-
# Replies without numbers on a connection

Where commands are not numbered, only the order tells to which command a
reply belongs. The daemon answers the commands on a connection one after the
other, so its answers are the replies cut after every final one, and the
answer at some place belongs to the command at the same place among those
that were written in full. A call returns no other answer than that to its own
command, whoever times out, goes away or fails to write before it.

Key definitions: `commandsOn`, `answersOn`, `Answering`, `Positional`.
Key theorems: `Move.positional`, `run_answer_positional`.
-/
import EfsControl.Proofs.Connector.Answer
import EfsControl.Proofs.Correlator.Positional

namespace EfsControl
namespace Connector

variable {setup : Setup} {s s' : State} {notes ns : List Note}

/-! ### Commands and answers on a connection -/

/-- The calls that were registered on a connection, in order. -/
def registeredOn (conn : Nat) (notes : List Note) : List Nat :=
  ((registrations notes).filter (·.conn == conn)).map (·.id)

/-- The calls whose commands were written in full to a connection, in order. -/
def commandsOn (conn : Nat) (notes : List Note) : List Nat :=
  ((commands notes).filter (·.2 == conn)).map (·.1)

/-- The answers that were read from a connection, in order: the replies up to each final one. -/
def answersOn (conn : Nat) (notes : List Note) : List Reply :=
  (tally (repliesOn false conn notes)).answers

/-- The daemon answers the commands it has read, in order: a reply that is part of the answer at
some place is not read before the command at this place has been written in full. -/
def Answering (notes : List Note) : Prop :=
  ∀ pre conn raw reply post, notes = pre ++ .line conn raw :: post →
    parseLine raw false = .ok (.reply reply) →
    (answersOn conn pre).length < (commandsOn conn pre).length

theorem Answering.of_append (h : Answering (notes ++ ns)) : Answering notes :=
  fun pre conn raw reply post hn hr => h pre conn raw reply (post ++ ns) (by simp [hn]) hr

/-- Whether a note, after others, is no reply or one to a command that has been written. -/
def Note.inTime (pre : List Note) : Note → Bool
  | .line conn raw =>
    match parseLine raw false with
    | .ok (.reply _) => decide ((answersOn conn pre).length < (commandsOn conn pre).length)
    | _ => true
  | _ => true

/-- Whether the daemon has answered in order can be checked place by place. -/
theorem answering_iff :
    Answering notes ↔ ∀ i (h : i < notes.length), notes[i].inTime (notes.take i) = true := by
  constructor
  · intro h i hi
    have hsplit : notes = notes.take i ++ notes[i] :: notes.drop (i + 1) := by simp
    cases hn : notes[i] with
    | line conn raw =>
      rw [hn] at hsplit
      simp only [Note.inTime]
      split
      · rename_i hr
        exact decide_eq_true (h _ conn raw _ _ hsplit hr)
      · rfl
    | _ => rfl
  · rintro h pre conn raw reply post rfl hr
    have := h pre.length (by simp)
    simpa [Note.inTime, hr] using this

instance (notes : List Note) : Decidable (Answering notes) := decidable_of_iff _ answering_iff.symm

theorem registeredOn_append {conn : Nat} :
    registeredOn conn (notes ++ ns) = registeredOn conn notes ++ registeredOn conn ns := by
  simp [registeredOn]

theorem commandsOn_append {conn : Nat} :
    commandsOn conn (notes ++ ns) = commandsOn conn notes ++ commandsOn conn ns := by
  simp [commandsOn]

/-- A command keeps its place among those that were written in full. -/
theorem commandsOn_get {conn k id : Nat} (h : (commandsOn conn notes)[k]? = some id) :
    (commandsOn conn (notes ++ ns))[k]? = some id := by
  rw [commandsOn_append, List.getElem?_append_left (List.getElem?_eq_some_iff.mp h).1, h]

theorem registeredOn_get {conn k id : Nat} (h : (registeredOn conn notes)[k]? = some id) :
    (registeredOn conn (notes ++ ns))[k]? = some id := by
  rw [registeredOn_append, List.getElem?_append_left (List.getElem?_eq_some_iff.mp h).1, h]

/-- An answer keeps its place. -/
theorem answersOn_get {conn k : Nat} {r : Reply} (h : (answersOn conn notes)[k]? = some r) :
    (answersOn conn (notes ++ ns))[k]? = some r := by
  obtain ⟨hlt, rfl⟩ := List.getElem?_eq_some_iff.mp h
  have hp : answersOn conn notes <+: answersOn conn (notes ++ ns) := by
    unfold answersOn
    rw [repliesOn_append]
    exact tally_prefix _ _
  exact List.prefix_iff_getElem?.mp hp k hlt

theorem mem_registeredOn {conn id : Nat} :
    id ∈ registeredOn conn notes ↔ ∃ x ∈ registrations notes, x.id = id ∧ x.conn = conn := by
  simp [registeredOn, and_comm, and_assoc]

namespace History

variable {conn : Nat}

/-- The commands on a connection are those of calls that were registered on it, in their order. -/
theorem commandsOn_sublist (h : History notes s) :
    (commandsOn conn notes).Sublist (registeredOn conn notes) := by
  have hs := (h.order.filter (·.2 == conn)).map (·.1)
  rwa [List.filter_map, List.map_map] at hs

theorem registeredOn_nodup (h : History notes s) : (registeredOn conn notes).Nodup :=
  (List.filter_sublist.map _).nodup h.nodup

theorem commandsOn_nodup (h : History notes s) : (commandsOn conn notes).Nodup :=
  h.commandsOn_sublist.nodup h.registeredOn_nodup

/-- A call is on one connection at most. -/
theorem conn_unique (h : History notes s) {id c c' : Nat} (hc : id ∈ registeredOn c notes)
    (hc' : id ∈ registeredOn c' notes) : c = c' := by
  obtain ⟨x, hx, hi, rfl⟩ := mem_registeredOn.mp hc
  obtain ⟨y, hy, hj, rfl⟩ := mem_registeredOn.mp hc'
  rw [h.eq_of_id hx hy (hi.trans hj.symm)]

/-- A call that is linked to a connection is the last that was registered on it. -/
theorem registeredOn_last (h : History notes s) {id : Nat} {p : Phase} {seq : Option UInt32}
    (hp : s.phase? id = some p) (hl : p.link? = some (seq, conn)) :
    ∃ before, registeredOn conn notes = before ++ [id] := by
  obtain ⟨command, hlast⟩ := h.last id p _ hp hl
  obtain ⟨before, hb⟩ := List.getLast?_eq_some_iff.mp hlast
  exact ⟨(before.filter (·.conn == conn)).map (·.id), by simp [registeredOn, hb]⟩

end History

/-! ### The pending calls -/

/-- A reply that was given to a call belongs to the answer at the place that the call has among the
calls that were registered on the connection. -/
def InTurn (notes : List Note) : Prop :=
  ∀ conn r id answer, .routed conn r (.completed id answer) ∈ notes →
    ∃ k : Nat, (registeredOn conn notes)[k]? = some id ∧ k < (commandsOn conn notes).length ∧
      (answersOn conn notes)[k]? = some answer

/-- The pending calls wait for the answers in the order in which they were registered. -/
structure Positional (notes : List Note) (s : State) : Prop where
  unnumbered : ∀ x ∈ registrations notes, x.seq = none
  queued : ∀ conn, s.worker.reads? = some conn →
    s.correlator.Queued (registeredOn conn notes) (tally (repliesOn false conn notes))
  inTurn : InTurn notes

/-- More notes take nothing back. -/
theorem InTurn.keep (h : InTurn notes)
    (hn : ∀ conn r id answer, .routed conn r (.completed id answer) ∈ ns →
      ∃ k : Nat, (registeredOn conn (notes ++ ns))[k]? = some id ∧
        k < (commandsOn conn (notes ++ ns)).length ∧
        (answersOn conn (notes ++ ns))[k]? = some answer) : InTurn (notes ++ ns) := by
  intro conn r id answer hm
  rcases List.mem_append.mp hm with hm | hm
  · obtain ⟨k, hreg, hcmd, hans⟩ := h conn r id answer hm
    refine ⟨k, registeredOn_get hreg, ?_, answersOn_get hans⟩
    rw [commandsOn_append, List.length_append]
    exact Nat.lt_of_lt_of_le hcmd (Nat.le_add_right _ _)
  · exact hn conn r id answer hm

namespace Positional

theorem init : Positional [] {} where
  unnumbered := by simp [registrations]
  queued conn hk := by cases hk
  inTurn := by simp [InTurn]

/-- No call is registered and no reply is read. -/
theorem still (h : Positional notes s) (hreg : registrations ns = [])
    (hrep : ∀ conn, repliesOn false conn ns = [])
    (hn : ∀ conn r id answer, .routed conn r (.completed id answer) ∉ ns)
    (hq : ∀ conn, s'.worker.reads? = some conn →
      s'.correlator.Queued (registeredOn conn notes) (tally (repliesOn false conn notes))) :
    Positional (notes ++ ns) s' where
  unnumbered x hx := by
    rw [registrations_append, hreg, List.append_nil] at hx
    exact h.unnumbered x hx
  queued conn hk := by
    have hr : registeredOn conn ns = [] := by simp [registeredOn, hreg]
    rw [registeredOn_append, hr, List.append_nil, repliesOn_append, hrep, List.append_nil]
    exact hq conn hk
  inTurn := h.inTurn.keep fun conn r id answer hm => absurd hm (hn conn r id answer)

/-- A call is registered. -/
theorem register {id conn : Nat} {command : EncodedCommand} {e : LogEntry} (h : Positional notes s)
    (hk : s.worker.reads? = some conn) (hk' : s'.worker.reads? = some conn)
    (hc : s'.correlator = { s.correlator with
      pending := s.correlator.pending ++ [⟨none, [], id⟩] }) :
    Positional (notes ++ [.registered id none conn command, .log e]) s' where
  unnumbered x hx := by
    rw [registrations_append, List.mem_append] at hx
    rcases hx with hx | hx
    · exact h.unnumbered x hx
    · obtain rfl := List.mem_singleton.mp hx
      rfl
  queued c hc' := by
    rw [hk'] at hc'
    cases hc'
    have hr : registeredOn conn [.registered id none conn command, .log e] = [id] := by
      simp [registeredOn, registrations, Note.registration?]
    have hrep : repliesOn false conn [.registered id none conn command, .log e] = [] := rfl
    rw [registeredOn_append, hr, repliesOn_append, hrep, List.append_nil, hc]
    exact (h.queued conn hk).register id
  inTurn := h.inTurn.keep fun c r i answer hm => by simp at hm

/-- A reply is read, as part of the answer to a command that has been written in full. -/
theorem reply {conn : Nat} {raw : String} {r : Reply} {ms : List Note} (h : Positional notes s)
    (hh : History notes s) (hk : s.worker.reads? = some conn) (hk' : s'.worker.reads? = some conn)
    (hr : parseLine raw false = .ok (.reply r)) (hc : s'.correlator = (s.correlator.dispatch r).1)
    (hq : Quiet ms) (hd : (answersOn conn notes).length < (commandsOn conn notes).length) :
    Positional (notes ++ .line conn raw :: .routed conn r (s.correlator.dispatch r).2 :: ms)
      s' := by
  set ns := Note.line conn raw :: .routed conn r (s.correlator.dispatch r).2 :: ms with hns
  have hreg : registrations ns = [] := hq.registrations_eq
  have hregOn : registeredOn conn (notes ++ ns) = registeredOn conn notes := by
    simp [registeredOn, hreg]
  have hrep : repliesOn false conn (notes ++ ns) = repliesOn false conn notes ++ [r] := by
    rw [repliesOn_append, hns, repliesOn_line hr]
    exact congrArg (fun l => repliesOn false conn notes ++ r :: l) (hq.repliesOn_eq false conn)
  have hlt : (answersOn conn notes).length < (registeredOn conn notes).length :=
    Nat.lt_of_lt_of_le hd hh.commandsOn_sublist.length_le
  obtain ⟨hqueued, hcompleted⟩ := (h.queued conn hk).dispatch (Reply.seq_of_unnumbered hr) hlt
  refine ⟨fun x hx => ?_, fun c hc' => ?_, h.inTurn.keep fun c r' id answer hm => ?_⟩
  · rw [registrations_append, hreg, List.append_nil] at hx
    exact h.unnumbered x hx
  · rw [hk'] at hc'
    cases hc'
    rw [hregOn, hrep, tally_snoc, hc]
    exact hqueued
  · simp only [hns, List.mem_cons, reduceCtorEq, false_or, Note.routed.injEq] at hm
    rcases hm with ⟨rfl, -, he⟩ | hm
    · obtain ⟨hid, hans⟩ := hcompleted id answer he.symm
      refine ⟨_, registeredOn_get hid, ?_, ?_⟩
      · rw [commandsOn_append, List.length_append]
        exact Nat.lt_of_lt_of_le hd (Nat.le_add_right _ _)
      · unfold answersOn
        rw [hrep, tally_snoc]
        exact hans
    · cases hq _ hm

end Positional

/-- Every move keeps the pending calls in their order. -/
theorem Move.positional {a : Action} (hm : Move setup s a s' ns) (hs : Sound setup notes s)
    (hcfg : setup.config.sequenceNumbers = false) (hd : Answering (notes ++ ns))
    (h : Positional notes s) : Positional (notes ++ ns) s' := by
  have quiet : ∀ {ms : List Note}, Quiet ms → ∀ conn r id answer,
      .routed conn r (.completed id answer) ∉ ms := fun hq conn r id answer hm => by cases hq _ hm
  cases hm.effect hs.wired with
  | calm _ hc hk hn =>
    exact h.still hn.registrations_eq (hn.repliesOn_eq false) (quiet hn) fun conn hconn =>
      hc ▸ h.queued conn (hk ▸ hconn)
  | @cancel _ id conn p seq hp hl _ hc hk hn =>
    obtain ⟨command, hregistered⟩ := hs.history.registered_of_link hp hl
    obtain rfl : seq = none := h.unnumbered _ hregistered
    exact h.still hn.registrations_eq (hn.repliesOn_eq false) (quiet hn) fun conn hconn =>
      hc ▸ (h.queued conn (hk ▸ hconn)).cancel
  | close _ _ hk hn =>
    refine h.still hn.registrations_eq (hn.repliesOn_eq false) (quiet hn) fun conn hconn => ?_
    rw [hk] at hconn
    cases hconn
  | «open» conn _ hw hc hk hn =>
    refine h.still hn.registrations_eq (hn.repliesOn_eq false) (quiet hn) fun c hconn => ?_
    rw [hk] at hconn
    cases hconn
    obtain ⟨hreg, hrep⟩ := hs.settled.fresh hw
    have hregOn : registeredOn conn notes = [] := by
      simpa [registeredOn] using hreg
    rw [hregOn, hrep, hc]
    exact .opened
  | register _ _ _ _ _ hc hk hk' =>
    have hseq : (takeSeq setup.config s).1 = none := by simp [takeSeq, hcfg]
    rw [hseq] at hc ⊢
    exact h.register hk hk' hc
  | send _ _ hc hk =>
    exact h.still rfl (fun _ => rfl) (by simp) fun conn hconn => hc ▸ h.queued conn (hk ▸ hconn)
  | hear _ hc hk hk' hr hn =>
    refine h.still hn.registrations_eq (fun conn => ?_) (fun conn r id answer hm => ?_) ?_
    · rw [repliesOn_other (hcfg ▸ hr), hn.repliesOn_eq]
    · rcases List.mem_cons.mp hm with hm | hm
      · cases hm
      · exact quiet hn conn r id answer hm
    · exact fun conn hconn => hc ▸ h.queued conn (hk.trans (hk'.symm.trans hconn))
  | reply _ hc hk hk' hr hn =>
    rw [hcfg] at hr
    exact h.reply hs.history hk hk' hr hc hn (hd notes _ _ _ _ rfl hr)

/-! ### Answers -/

/-- Every answer of the daemon that a call has returned is the answer to its command. -/
def AnsweredInTurn (notes : List Note) : Prop :=
  ∀ id result, .returned id result ∈ notes → fromDaemon result = true →
    ∃ (conn k : Nat) (reply : Reply), (commandsOn conn notes)[k]? = some id ∧
      (answersOn conn notes)[k]? = some reply ∧ result = resultOf reply

/-- Every move returns only answers to the commands of the calls that return them. -/
theorem Move.answeredInTurn {a : Action} (hm : Move setup s a s' ns) (hs : Sound setup notes s)
    (h : Positional notes s) (ha : AnsweredInTurn notes) : AnsweredInTurn (notes ++ ns) := by
  intro id result hr hd
  rcases List.mem_append.mp hr with hr | hr
  · obtain ⟨conn, k, reply, hc, hk, he⟩ := ha id result hr hd
    exact ⟨conn, k, reply, commandsOn_get hc, answersOn_get hk, he⟩
  obtain ⟨seq, conn, reply, hp, hslot, rfl⟩ := hm.returned hs.told hr hd
  obtain hlost | ⟨conn', r, answer, ha, hn⟩ := hs.told id _ hslot
  · cases hlost
  cases ha
  obtain ⟨k, hreg, hlt, hans⟩ := h.inTurn conn' r id reply hn
  -- The call is the last that was registered, so its answer is the last that can have come, and
  -- all commands before have been written in full.
  obtain ⟨before, hlast⟩ := hs.history.registeredOn_last hp rfl
  obtain rfl : conn' = conn := hs.history.conn_unique (List.mem_of_getElem? hreg) (by simp [hlast])
  have hk : k = before.length := by
    have hlast' : (registeredOn conn' notes)[before.length]? = some id := by simp [hlast]
    exact (List.getElem?_inj (List.getElem?_eq_some_iff.mp hreg).1 hs.history.registeredOn_nodup).mp
      (hreg.trans hlast'.symm)
  have heq : commandsOn conn' notes = registeredOn conn' notes := by
    refine hs.history.commandsOn_sublist.eq_of_length_le ?_
    rw [hlast, List.length_append, List.length_singleton]
    omega
  exact ⟨conn', k, reply, commandsOn_get (heq ▸ hreg), answersOn_get hans, rfl⟩

/-- While the daemon answers commands in order, pending calls wait in order and answers are in
turn. -/
def InTurnAlong (notes : List Note) (s : State) : Prop :=
  Answering notes → Positional notes s ∧ AnsweredInTurn notes

theorem Move.inTurnAlong {a : Action} (hm : Move setup s a s' ns)
    (hcfg : setup.config.sequenceNumbers = false) (hs : Sound setup notes s)
    (h : InTurnAlong notes s) : InTurnAlong (notes ++ ns) s' := by
  intro hd
  obtain ⟨hp, ha⟩ := h hd.of_append
  exact ⟨hm.positional hs hcfg hd hp, hm.answeredInTurn hs hp ha⟩

theorem run_inTurnAlong {as : List Action} (hcfg : setup.config.sequenceNumbers = false)
    (h : run setup {} as = some (s, notes)) : Sound setup notes s ∧ InTurnAlong notes s :=
  sound_induction (fun _ => ⟨.init, by simp [AnsweredInTurn]⟩)
    (fun hs h hm => hm.inTurnAlong hcfg hs h) h

/-- **Pairing by position is safe.** Where commands are not numbered and the daemon answers the
commands on each connection in order, a call that returns an answer of the daemon returns the answer
to its own command: its command and the answer have the same place on the same connection, and the
command has no other place there and none on another connection. -/
theorem run_answer_positional {as : List Action} (hcfg : setup.config.sequenceNumbers = false)
    (h : run setup {} as = some (s, notes)) (hd : Answering notes) {id : Nat}
    {result : ExchangeResult} (hr : .returned id result ∈ notes) (hf : fromDaemon result = true) :
    ∃ (conn k : Nat) (reply : Reply), (commandsOn conn notes)[k]? = some id ∧
      (answersOn conn notes)[k]? = some reply ∧ result = resultOf reply ∧
      ∀ conn' k' : Nat, (commandsOn conn' notes)[k']? = some id → conn' = conn ∧ k' = k := by
  obtain ⟨hs, hk⟩ := run_inTurnAlong hcfg h
  obtain ⟨-, ha⟩ := hk hd
  obtain ⟨conn, k, reply, hc, hans, he⟩ := ha id result hr hf
  refine ⟨conn, k, reply, hc, hans, he, fun conn' k' hc' => ?_⟩
  have hmem : id ∈ registeredOn conn notes :=
    hs.history.commandsOn_sublist.subset (List.mem_of_getElem? hc)
  have hmem' : id ∈ registeredOn conn' notes :=
    hs.history.commandsOn_sublist.subset (List.mem_of_getElem? hc')
  obtain rfl := hs.history.conn_unique hmem' hmem
  refine ⟨rfl, ?_⟩
  exact (List.getElem?_inj (List.getElem?_eq_some_iff.mp hc').1 hs.history.commandsOn_nodup).mp
    (hc'.trans hc.symm)

/-- The call of an exchange without numbers gets the line that was read as its answer. -/
theorem run_answer_positional_exchange : ∃ s notes, ∃ (conn k : Nat) (reply : Reply),
    run { config := { sequenceNumbers := false } } {} (exchange "200 done") = some (s, notes) ∧
      Answering notes ∧ .returned 0 (resultOf reply) ∈ notes ∧
      (commandsOn conn notes)[k]? = some 0 ∧ (answersOn conn notes)[k]? = some reply := by
  have hrun : ((run { config := { sequenceNumbers := false } } {}
      (exchange "200 done")).map fun x =>
      x.2.any (Note.answers 0) && decide (Answering x.2)) = some true := by
    decide +kernel
  obtain ⟨⟨s, notes⟩, hx, hb⟩ := Option.map_eq_some_iff.mp hrun
  simp only [Bool.and_eq_true, List.any_eq_true, decide_eq_true_eq] at hb
  obtain ⟨⟨note, hm, ha⟩, hd⟩ := hb
  obtain ⟨result, rfl, hf⟩ := Note.answers_iff.mp ha
  obtain ⟨conn, k, reply, hc, hk, rfl, -⟩ := run_answer_positional (by rfl) hx hd hm hf
  exact ⟨s, notes, conn, k, reply, hx, hd, hm, hc, hk⟩

end Connector
end EfsControl

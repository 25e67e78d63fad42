/-
# What moves do to the pending calls

Of what is noted along a run, some notes tell what has passed over the
connections: which calls were registered, which commands have been written in
full, which lines were read and whom the replies were given to. A move either
notes nothing of this, or registers a call, completes a command, or reads a
line; and the pending calls change only with that, with a call that is given
up, and when the worker begins and ends reading.

Key definitions: `registrations`, `commands`, `repliesOn`, `Effect`.
Key theorems: `Move.news`, `Move.effect`.
-/
import EfsControl.Proofs.Connector.Wiring

namespace EfsControl
namespace Connector

/-! ### Notes about traffic -/

/-- A call with the number it has got, the connection it is pending on and its command. -/
structure Registration where
  id : Nat
  seq : Option UInt32
  conn : Nat
  command : EncodedCommand
  deriving DecidableEq

namespace Note

/-- The registration that is noted. -/
def registration? : Note → Option Registration
  | .registered id seq conn command => some ⟨id, seq, conn, command⟩
  | _ => none

/-- The call whose command is noted to have been written in full, and the connection. -/
def command? : Note → Option (Nat × Nat)
  | .sent id conn => some (id, conn)
  | _ => none

/-- The reply in a line that is noted to have been read from a connection. -/
def replyOn? (numbered : Bool) (conn : Nat) : Note → Option Reply
  | .line c raw =>
    if c = conn then
      match parseLine raw numbered with
      | .ok (.reply r) => some r
      | _ => none
    else none
  | _ => none

/-- Whether a note tells what has passed over a connection. -/
def isTraffic : Note → Bool
  | .registered .. | .sent .. | .line .. | .routed .. => true
  | _ => false

end Note

/-- The calls that were registered, in order. -/
def registrations (notes : List Note) : List Registration := notes.filterMap Note.registration?

/-- The commands that were written in full, in order. -/
def commands (notes : List Note) : List (Nat × Nat) := notes.filterMap Note.command?

/-- The replies that were read from a connection, in order. -/
def repliesOn (numbered : Bool) (conn : Nat) (notes : List Note) : List Reply :=
  notes.filterMap (Note.replyOn? numbered conn)

section
variable {ns₁ ns₂ : List Note}

@[simp] theorem registrations_append :
    registrations (ns₁ ++ ns₂) = registrations ns₁ ++ registrations ns₂ := List.filterMap_append

@[simp] theorem commands_append : commands (ns₁ ++ ns₂) = commands ns₁ ++ commands ns₂ :=
  List.filterMap_append

@[simp] theorem repliesOn_append {numbered : Bool} {conn : Nat} :
    repliesOn numbered conn (ns₁ ++ ns₂) =
    repliesOn numbered conn ns₁ ++ repliesOn numbered conn ns₂ := List.filterMap_append

end

theorem registrations_cons {n : Note} {ns : List Note} :
    registrations (n :: ns) = n.registration?.toList ++ registrations ns := by
  unfold registrations
  rw [List.filterMap_cons]
  cases n.registration? <;> rfl

theorem mem_registrations {notes : List Note} {x : Registration} :
    x ∈ registrations notes ↔ .registered x.id x.seq x.conn x.command ∈ notes := by
  simp only [registrations, List.mem_filterMap]
  constructor
  · rintro ⟨n, hn, hx⟩
    cases n <;> simp only [Note.registration?, reduceCtorEq, Option.some.injEq] at hx
    subst hx
    exact hn
  · exact fun h => ⟨_, h, rfl⟩

theorem mem_commands {notes : List Note} {id conn : Nat} :
    (id, conn) ∈ commands notes ↔ .sent id conn ∈ notes := by
  simp only [commands, List.mem_filterMap]
  constructor
  · rintro ⟨n, hn, hx⟩
    cases n <;> simp only [Note.command?, reduceCtorEq, Option.some.injEq, Prod.mk.injEq] at hx
    obtain ⟨rfl, rfl⟩ := hx
    exact hn
  · exact fun h => ⟨_, h, rfl⟩

/-- A line that is a reply is the only reply that is read with it. -/
theorem repliesOn_line {numbered : Bool} {conn : Nat} {raw : String} {r : Reply} {ns : List Note}
    (hr : parseLine raw numbered = .ok (.reply r)) :
    repliesOn numbered conn (.line conn raw :: ns) = r :: repliesOn numbered conn ns := by
  simp [repliesOn, Note.replyOn?, hr]

/-- A line that is no reply adds none. -/
theorem repliesOn_other {numbered : Bool} {conn c : Nat} {raw : String} {ns : List Note}
    (hr : ∀ r, parseLine raw numbered ≠ .ok (.reply r)) :
    repliesOn numbered conn (.line c raw :: ns) = repliesOn numbered conn ns := by
  have : Note.replyOn? numbered conn (.line c raw) = none := by
    simp only [Note.replyOn?]
    split
    · cases h : parseLine raw numbered with
      | error e => rfl
      | ok l =>
        cases l with
        | reply r => exact absurd h (hr r)
        | event e => rfl
    · rfl
  simp [repliesOn, this]

/-- Notes that tell nothing about traffic. -/
def Quiet (notes : List Note) : Prop := ∀ n ∈ notes, n.isTraffic = false

namespace Quiet

variable {notes : List Note}

theorem nil : Quiet [] := by simp [Quiet]

theorem cons {n : Note} (hn : n.isTraffic = false) (h : Quiet notes) : Quiet (n :: notes) := by
  simpa [Quiet, hn] using h

theorem registrations_eq (h : Quiet notes) : registrations notes = [] := by
  refine List.filterMap_eq_nil_iff.mpr fun n hn => ?_
  have := h n hn
  cases n <;> simp_all [Note.isTraffic, Note.registration?]

theorem commands_eq (h : Quiet notes) : commands notes = [] := by
  refine List.filterMap_eq_nil_iff.mpr fun n hn => ?_
  have := h n hn
  cases n <;> simp_all [Note.isTraffic, Note.command?]

theorem repliesOn_eq (h : Quiet notes) (numbered : Bool) (conn : Nat) :
    repliesOn numbered conn notes = [] := by
  refine List.filterMap_eq_nil_iff.mpr fun n hn => ?_
  have := h n hn
  cases n <;> simp_all [Note.isTraffic, Note.replyOn?]

theorem of_log {entries : List LogEntry} : Quiet (entries.map .log) := fun n hn => by
  obtain ⟨e, -, rfl⟩ := List.mem_map.mp hn
  rfl

theorem log_append {entries : List LogEntry} (h : Quiet notes) :
    Quiet (entries.map .log ++ notes) := fun n hn =>
  (List.mem_append.mp hn).elim (of_log n) (h n)

end Quiet

/-! ### Effects -/

/-- The connection that the worker reads. -/
def Worker.reads? : Worker → Option Nat
  | .reading conn => some conn
  | _ => none

/-- The effects that a move can have on the pending calls, with what is noted. -/
inductive Effect (setup : Setup) (s s' : State) : List Note → Prop
  | calm {ns : List Note} (hp : Calm s s') (hc : s'.correlator = s.correlator)
    (hk : s'.worker.reads? = s.worker.reads?) (hn : Quiet ns) : Effect setup s s' ns
  /-- A call that was registered with a number gives up a place among the pending calls. -/
  | cancel {ns : List Note} {id conn : Nat} {p : Phase} (seq : Option UInt32)
    (hid : s.phase? id = some p) (hl : p.link? = some (seq, conn)) (hp : Calm s s')
    (hc : s'.correlator = (s.correlator.cancel seq).1)
    (hk : s'.worker.reads? = s.worker.reads?) (hn : Quiet ns) : Effect setup s s' ns
  /-- The worker has stopped reading, and nobody waits any longer. -/
  | close {ns : List Note} (hp : Calm s s') (hc : s'.correlator = {})
    (hk : s'.worker.reads? = none) (hn : Quiet ns) : Effect setup s s' ns
  /-- The worker begins to read. -/
  | open {ns : List Note} (conn : Nat) (hp : Calm s s') (hw : s.worker = .opening conn)
    (hc : s'.correlator = { isOpen := true }) (hk : s'.worker.reads? = some conn) (hn : Quiet ns) :
    Effect setup s s' ns
  | register {id conn : Nat} {call : Call} {command : EncodedCommand} {rest : List UInt8}
    (hcall : s.calls[id]? = some call)
    (he : encode (takeSeq setup.config s).1 setup.config.commandPrefix call.subcommand call.args
      = .ok command)
    (hl : s.lock.holder = some (.call id)) (hq : s.phase? id = some .queued)
    (hp : ∀ i, s'.phase? i =
      if i = id then some (.writing (takeSeq setup.config s).1 conn rest) else s.phase? i)
    (hc : s'.correlator = { s.correlator with
      pending := s.correlator.pending ++ [⟨(takeSeq setup.config s).1, [], id⟩] })
    (hk : s.worker.reads? = some conn) (hk' : s'.worker.reads? = some conn) :
    Effect setup s s' [.registered id (takeSeq setup.config s).1 conn command, .log (.sent command)]
  /-- A command comes to be written in full. -/
  | send {id conn : Nat} {seq : Option UInt32} {rest : List UInt8}
    (hw : s.phase? id = some (.writing seq conn rest))
    (hp : ∀ i, s'.phase? i = if i = id then some (.awaiting seq conn) else s.phase? i)
    (hc : s'.correlator = s.correlator) (hk : s'.worker.reads? = s.worker.reads?) :
    Effect setup s s' [.wrote conn rest, .sent id conn]
  /-- A line is read that is no reply. -/
  | hear {conn : Nat} {raw : String} {notes : List Note} (hp : Calm s s')
    (hc : s'.correlator = s.correlator) (hk : s.worker.reads? = some conn)
    (hk' : s'.worker.reads? = some conn)
    (hr : ∀ r, parseLine raw setup.config.sequenceNumbers ≠ .ok (.reply r)) (hn : Quiet notes) :
    Effect setup s s' (.line conn raw :: notes)
  | reply {conn : Nat} {raw : String} {r : Reply} {notes : List Note} (hp : Calm s s')
    (hc : s'.correlator = (s.correlator.dispatch r).1) (hk : s.worker.reads? = some conn)
    (hk' : s'.worker.reads? = some conn)
    (hr : parseLine raw setup.config.sequenceNumbers = .ok (.reply r)) (hn : Quiet notes) :
    Effect setup s s'
      (.line conn raw :: .routed conn r (s.correlator.dispatch r).2 :: notes)

variable {setup : Setup} {s s' : State} {ns : List Note}

/-- What is noted when a reply is given to the pending calls. -/
theorem routeReply_notes (s : State) (conn : Nat) (raw : String) (r : Reply) :
    ∃ entries : List LogEntry, (routeReply s conn raw r).2 =
      .routed conn r (s.correlator.dispatch r).2 :: entries.map .log := by
  unfold routeReply
  simp only
  split
  · exact ⟨_, rfl⟩
  · exact ⟨_ ++ [.discarded raw], by rw [List.map_append]; rfl⟩
  · exact ⟨_, rfl⟩

/-- Whether a note is about a line that is read, or for the log. -/
def Note.isNews : Note → Bool
  | .log _ | .line .. | .routed .. | .event _ => true
  | _ => false

/-- Reading a line and taking a connection away note nothing else. -/
theorem Move.news {a : Action} (hm : Move setup s a s' ns)
    (ha : a = .readLine ∨ a = .disconnect) : ∀ n ∈ ns, n.isNews = true := by
  cases hm with
  | skip => simp
  | hear _ _ hn =>
    refine List.forall_mem_cons.mpr ⟨rfl, fun n hm => ?_⟩
    obtain ⟨_, rfl⟩ | ⟨_, rfl⟩ := hn n hm <;> rfl
  | @reply conn rest raw r =>
    obtain ⟨entries, hns⟩ := routeReply_notes
      (s.onConn conn fun c => { c with inbox := rest }) conn raw r
    rw [hns]
    refine List.forall_mem_cons.mpr ⟨rfl, List.forall_mem_cons.mpr ⟨rfl, fun n hm => ?_⟩⟩
    obtain ⟨e, -, rfl⟩ := List.mem_map.mp hm
    rfl
  | @disconnect final => cases final <;> simp [removeConn, Note.isNews]
  | _ => simp at ha

/-- A call ends without having changed the pending calls. -/
theorem Effect.finish {id : Nat} {call : Call} {t : State} (hc : s.calls[id]? = some call)
    (result : ExchangeResult) (ht : ∀ i, t.phase? i = s.phase? i)
    (hcor : t.correlator = s.correlator) (hk : t.worker = s.worker) (hn : Quiet ns) :
    Effect setup s (t.finish id result).1 ns :=
  .calm (Calm.finish (State.phase?_eq hc) ht result) hcor (congrArg Worker.reads? hk) hn

/-- A call ends after it has given up a place among the pending calls. -/
theorem Effect.finish_cancel {id conn : Nat} {call : Call} {seq : Option UInt32} {t : State}
    (hc : s.calls[id]? = some call) (hl : call.phase.link? = some (seq, conn))
    (result : ExchangeResult) (ht : ∀ i, t.phase? i = s.phase? i)
    (hcor : t.correlator = (s.correlator.cancel seq).1) (hk : t.worker = s.worker) (hn : Quiet ns) :
    Effect setup s (t.finish id result).1 ns :=
  .cancel seq (State.phase?_eq hc) hl (Calm.finish (State.phase?_eq hc) ht result) hcor
    (congrArg Worker.reads? hk) hn

/-- The worker stops using a connection or trying to get one. -/
theorem Effect.tearDown {t : State} (final : Bool) (ht : ∀ i, t.phase? i = s.phase? i)
    (hn : Quiet ns) : Effect setup s (t.tearDown final) ns :=
  .close (.of_eq fun i => (State.phase?_tearDown ..).trans (ht i)) rfl rfl hn

/-- Every move has one of the effects. -/
theorem Move.effect {a : Action} (hm : Move setup s a s' ns) (h : Wired s) :
    Effect setup s s' ns := by
  cases hm with
  | arrive subcommand args => exact .calm (Calm.arrive subcommand args) rfl rfl .nil
  | refuse hc _ _ _ => exact .finish hc _ (fun _ => rfl) rfl rfl (.cons rfl .nil)
  | reject hc _ _ _ _ => exact .finish hc _ (fun _ => rfl) rfl rfl (.cons rfl .nil)
  | register hc hp hl hw ho he =>
    have hk := h.reading_of_writer hw ho
    exact .register hc he hl (hp ▸ State.phase?_eq hc) (State.phase?_onCall (State.phase?_eq hc) _)
      rfl (by rw [hk]; rfl) (congrArg Worker.reads? hk)
  | write hc hp _ _ =>
    have hq := hp ▸ State.phase?_eq hc
    exact .calm (.of_turn hq .write (State.phase?_onCall hq _)) rfl rfl (.cons rfl .nil)
  | send hc hp _ _ =>
    have hq := hp ▸ State.phase?_eq hc
    exact .send hq (State.phase?_onCall hq _) rfl rfl
  | writeFail _ hc hp =>
    exact .finish_cancel hc (by rw [hp]; rfl) _ (fun _ => State.phase?_cancel ..) rfl rfl
      (.cons rfl (.cons rfl .nil))
  | sever hc _ _ => exact .finish hc _ (fun _ => rfl) rfl rfl (.log_append (.cons rfl .nil))
  | fail hc _ _ => exact .finish hc _ (fun _ => rfl) rfl rfl (.log_append (.cons rfl .nil))
  | answer hc _ _ => exact .finish hc _ (fun _ => rfl) rfl rfl (.log_append (.cons rfl .nil))
  | expire hc hp _ _ =>
    have hq := hp ▸ State.phase?_eq hc
    exact .calm (.of_turn hq .expire (State.phase?_onCall hq _)) rfl rfl .nil
  | giveUp hc hp _ =>
    exact .finish_cancel hc (by rw [hp]; rfl) _ (fun _ => State.phase?_cancel ..) rfl rfl
      (.cons rfl (.cons rfl .nil))
  | giveUpLate hc hp _ _ =>
    exact .finish_cancel hc (by rw [hp]; rfl) _ (fun _ => State.phase?_cancel ..) rfl rfl
      (.cons rfl (.cons rfl .nil))
  | @close id conn conn' _ _ hc hp _ _ =>
    have hq := hp ▸ State.phase?_eq hc
    refine .cancel none hq rfl (.of_turn hq .close fun i => ?_) rfl rfl (.cons rfl .nil)
    change State.phase? ((s.cancel id none).onCall id _) i = _
    rw [State.phase?_onCall ((State.phase?_cancel ..).trans hq), State.phase?_cancel]
  | notify hc _ _ => exact .finish hc _ (fun _ => rfl) rfl rfl (.cons rfl .nil)
  | drop hc _ _ _ =>
    have hq := State.phase?_eq hc
    exact .calm (.of_turn hq .drop (State.phase?_onCall hq _)) rfl rfl .nil
  | start hw => exact .calm (.of_eq fun _ => rfl) rfl (by rw [hw]; rfl) (.cons rfl .nil)
  | connect hw => exact .calm (.of_eq fun _ => rfl) rfl (by rw [hw]; rfl) .nil
  | connectFail _ _ => exact .tearDown false (fun _ => rfl) (.cons rfl .nil)
  | install hw _ => exact .calm (.of_eq fun _ => rfl) rfl (by rw [hw]; rfl) .nil
  | @«open» conn hw =>
    have hno : s.correlator.isOpen = false := by
      rw [← Bool.not_eq_true, h.reading]
      simp [hw]
    refine .open conn (.of_eq fun _ => rfl) hw ?_ rfl (.cons rfl (.cons rfl .of_log))
    change s.correlator.opened = _
    rw [h.closed hno]
    rfl
  | skip _ => exact .calm (.of_eq fun _ => rfl) rfl rfl .nil
  | hear hw hr hn =>
    refine .hear (.of_eq fun _ => rfl) rfl (by rw [hw]; rfl) (congrArg Worker.reads? hw) hr ?_
    intro n hm
    obtain ⟨_, rfl⟩ | ⟨_, rfl⟩ := hn n hm <;> rfl
  | @reply conn rest raw r hw hr =>
    obtain ⟨entries, hns⟩ := routeReply_notes
      (s.onConn conn fun c => { c with inbox := rest }) conn raw r
    rw [hns]
    refine .reply (.of_eq fun _ => routeReply_phase? ..) (routeReply_correlator ..)
      (by rw [hw]; rfl) ?_ hr .of_log
    rw [routeReply_worker]
    exact congrArg Worker.reads? hw
  | readEnd _ => exact .tearDown false (fun _ => rfl) (.cons rfl (.cons rfl .nil))
  | readFail _ _ => exact .tearDown false (fun _ => rfl) (.cons rfl (.cons rfl .nil))
  | resync _ _ => exact .tearDown false (fun _ => rfl) (.cons rfl (.cons rfl .nil))
  | @disconnect final hw _ =>
    refine .calm (.of_eq fun _ => removeConn_phase? ..) (removeConn_correlator ..) ?_ ?_
    · rw [removeConn_worker, hw]
      split <;> rfl
    · unfold removeConn
      simp only
      split
      · exact .cons rfl .nil
      · exact .nil
  | wake hw => exact .calm (.of_eq fun _ => rfl) rfl (by rw [hw]; rfl) .nil
  | signal => exact .calm (.of_eq fun _ => rfl) rfl rfl .nil
  | stop _ => exact .tearDown true (fun _ => rfl) .nil
  | stopInstalling _ => exact .tearDown true (fun _ => rfl) .nil
  | stopReading _ => exact .tearDown true (fun _ => rfl) .nil
  | deliver _ _ => exact .calm (.of_eq fun _ => rfl) rfl rfl .nil
  | finish _ => exact .calm (.of_eq fun _ => rfl) rfl rfl .nil
  | breakOff _ => exact .calm (.of_eq fun _ => rfl) rfl rfl .nil

end Connector
end EfsControl

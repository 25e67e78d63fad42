/-
# What a step of the connector can do

Every step is one of the moves below: for each action, what must hold for it
to happen, the state it leads to and what is noted. A property of all states
is shown for each move and then holds along every run.

Key definitions: `Move`.
Key theorems: `step_move`, `step_write_some`, `run_snoc`, `run_append`, `noted_at`,
`run_induction`.
-/
import EfsControl.Connector.Step
import EfsControl.Proofs.Correlator.Basic
import Mathlib.Data.List.Induction

namespace EfsControl
namespace Connector

variable {setup : Setup} {s s' : State} {ns : List Note}

/-- The moves of the connector in a state, by their actions. -/
inductive Move (setup : Setup) (s : State) : Action → State → List Note → Prop
  | arrive (subcommand : String) (args : List Arg) :
    Move setup s (.call subcommand args)
      { s with
        calls := s.calls ++ [{ subcommand := subcommand, args := args }]
        lock := s.lock.request (.call s.calls.length) } []
  /-- A call that has the lock finds no connection. -/
  | refuse {id : Nat} {call : Call} (hc : s.calls[id]? = some call) (hp : call.phase = .queued)
    (hl : s.lock.holder = some (.call id)) (hw : s.writer = none) :
    Move setup s (.begin id) (s.finish id (.error .notConnected)).1
      [.returned id (.error .notConnected)]
  /-- A call that has the lock cannot be encoded or finds that calls are not taken. -/
  | reject {id conn : Nat} {call : Call} {e : ExchangeError} (hc : s.calls[id]? = some call)
    (hp : call.phase = .queued) (hl : s.lock.holder = some (.call id)) (hw : s.writer = some conn)
    (he : (∃ x, e = .encode x ∧ encode (takeSeq setup.config s).1 setup.config.commandPrefix
        call.subcommand call.args = .error x) ∨
      (e = .notConnected ∧ s.correlator.isOpen = false ∧ ∃ command,
        encode (takeSeq setup.config s).1 setup.config.commandPrefix call.subcommand call.args
          = .ok command)) :
    Move setup s (.begin id)
      (State.finish { s with nextSeq := (takeSeq setup.config s).2.nextSeq } id (.error e)).1
      [.returned id (.error e)]
  | register {id conn : Nat} {call : Call} {command : EncodedCommand}
    (hc : s.calls[id]? = some call) (hp : call.phase = .queued)
    (hl : s.lock.holder = some (.call id)) (hw : s.writer = some conn)
    (ho : s.correlator.isOpen = true)
    (he : encode (takeSeq setup.config s).1 setup.config.commandPrefix call.subcommand call.args
      = .ok command) :
    Move setup s (.begin id)
      (State.onCall { s with
          nextSeq := (takeSeq setup.config s).2.nextSeq
          correlator := { s.correlator with
            pending := s.correlator.pending ++ [⟨(takeSeq setup.config s).1, [], id⟩] } } id
        fun call => { call with
          phase := .writing (takeSeq setup.config s).1 conn (command.frame setup.config.framing) })
      [.registered id (takeSeq setup.config s).1 conn command, .log (.sent command)]
  | write {id conn count : Nat} {call : Call} {seq : Option UInt32} {rest : List UInt8}
    (hc : s.calls[id]? = some call) (hp : call.phase = .writing seq conn rest)
    (hn : 0 < count) (hr : count < rest.length) :
    Move setup s (.write id count)
      ((s.onConn conn fun c => { c with written := c.written ++ rest.take count }).onCall id
        fun c => { c with phase := .writing seq conn (rest.drop count) })
      [.wrote conn (rest.take count)]
  | send {id conn count : Nat} {call : Call} {seq : Option UInt32} {rest : List UInt8}
    (hc : s.calls[id]? = some call) (hp : call.phase = .writing seq conn rest)
    (hn : 0 < count) (hr : rest.length ≤ count) :
    Move setup s (.write id count)
      ((s.onConn conn fun c => { c with written := c.written ++ rest.take count }).onCall id
        fun c => { c with phase := .awaiting seq conn })
      [.wrote conn rest, .sent id conn]
  | writeFail {id conn : Nat} {call : Call} {seq : Option UInt32} {rest : List UInt8}
    (cause : String) (hc : s.calls[id]? = some call) (hp : call.phase = .writing seq conn rest) :
    Move setup s (.writeFails id cause) ((s.cancel id seq).finish id (.error (.io cause))).1
      [.log (.writeFailed cause call.subcommand), .returned id (.error (.io cause))]
  | sever {id conn : Nat} {call : Call} {seq : Option UInt32} {elapsed : Duration}
    (hc : s.calls[id]? = some call) (hp : call.phase = .awaiting seq conn)
    (hs : call.slot = .severed) :
    Move setup s (.receive id elapsed) (s.finish id (.error .connectionLost)).1
      ((slowLog setup.config call.subcommand elapsed).map .log ++
        [.returned id (.error .connectionLost)])
  | fail {id conn : Nat} {call : Call} {seq : Option UInt32} {e : ExchangeError}
    {elapsed : Duration} (hc : s.calls[id]? = some call) (hp : call.phase = .awaiting seq conn)
    (hs : call.slot = .answered (.error e)) :
    Move setup s (.receive id elapsed) (s.finish id (.error e)).1
      ((slowLog setup.config call.subcommand elapsed).map .log ++ [.returned id (.error e)])
  | answer {id conn : Nat} {call : Call} {seq : Option UInt32} {reply : Reply}
    {elapsed : Duration} (hc : s.calls[id]? = some call) (hp : call.phase = .awaiting seq conn)
    (hs : call.slot = .answered (.ok reply)) :
    Move setup s (.receive id elapsed) (s.finish id (resultOf reply)).1
      ((slowLog setup.config call.subcommand elapsed ++ [LogEntry.received reply]).map .log ++
        [.returned id (resultOf reply)])
  | expire {id conn : Nat} {call : Call} {seq : Option UInt32} {limit : Duration}
    (hc : s.calls[id]? = some call) (hp : call.phase = .awaiting seq conn)
    (hs : call.slot = .waiting) (hl : setup.config.commandTimeout = some limit) :
    Move setup s (.timeout id) (s.onCall id fun c => { c with phase := .expired seq conn }) []
  | giveUp {id conn : Nat} {call : Call} {n : UInt32} {limit : Duration}
    (hc : s.calls[id]? = some call) (hp : call.phase = .expired (some n) conn)
    (hl : setup.config.commandTimeout = some limit) :
    Move setup s (.giveUp id) ((s.cancel id (some n)).finish id (.error (.timeout limit))).1
      [.log (.timedOut call.subcommand (some n) limit), .returned id (.error (.timeout limit))]
  /-- Without a number, where somebody else has taken the connection away already. -/
  | giveUpLate {id conn : Nat} {call : Call} {limit : Duration}
    (hc : s.calls[id]? = some call) (hp : call.phase = .expired none conn)
    (hl : setup.config.commandTimeout = some limit) (hw : s.writer = none) :
    Move setup s (.giveUp id)
      (State.finish { s.cancel id none with connected := false, writer := none } id
        (.error (.timeout limit))).1
      [.log (.timedOut call.subcommand none limit), .returned id (.error (.timeout limit))]
  | close {id conn conn' : Nat} {call : Call} {limit : Duration}
    (hc : s.calls[id]? = some call) (hp : call.phase = .expired none conn)
    (hl : setup.config.commandTimeout = some limit)
    (hw : s.writer = some conn') :
    Move setup s (.giveUp id)
      ((State.sealConn { s.cancel id none with connected := false, writer := none } conn').onCall id
        fun c => { c with phase := .closing })
      [.log (.timedOut call.subcommand none limit)]
  | notify {id : Nat} {call : Call} {limit : Duration} (hc : s.calls[id]? = some call)
    (hp : call.phase = .closing) (hl : setup.config.commandTimeout = some limit) :
    Move setup s (.notify id)
      (State.finish { s with resync := true } id (.error (.timeout limit))).1
      [.returned id (.error (.timeout limit))]
  | drop {id : Nat} {call : Call} (hc : s.calls[id]? = some call)
    (hp : ∀ seq conn, call.phase ≠ .expired seq conn) (hf : ∀ r, call.phase ≠ .finished r)
    (hd : call.phase ≠ .dropped) :
    Move setup s (.drop id)
      (State.onCall { s with lock := s.lock.leave (.call id) } id
        fun c => { c with phase := .dropped }) []
  | start (hw : s.worker = .idle) :
    Move setup s .start { s with worker := .connecting }
      [.log (.started setup.config.socketPath)]
  | connect (hw : s.worker = .connecting) :
    Move setup s .connect
      { s with
        conns := s.conns ++ [{}]
        lock := s.lock.request .worker
        worker := .installing s.conns.length } []
  | connectFail (cause : String) (hw : s.worker = .connecting) :
    Move setup s (.connectFails cause) (s.tearDown false)
      [.log (.connectionEnded (.connect setup.config.socketPath cause))]
  | install {conn : Nat} (hw : s.worker = .installing conn) (hl : s.lock.holder = some .worker) :
    Move setup s .install (installConn s conn) []
  | open {conn : Nat} (hw : s.worker = .opening conn) :
    Move setup s .open (openConn setup s conn).1
      (.log (.connected setup.config.socketPath) :: .online conn :: setup.greeting.map .log)
  /-- A line without text. -/
  | skip {conn : Nat} {rest : List UInt8} (hw : s.worker = .reading conn) :
    Move setup s .readLine (s.onConn conn fun c => { c with inbox := rest }) []
  /-- A line that is no reply. -/
  | hear {conn : Nat} {rest : List UInt8} {raw : String} {notes : List Note}
    (hw : s.worker = .reading conn)
    (hr : ∀ r, parseLine raw setup.config.sequenceNumbers ≠ .ok (.reply r))
    (hn : ∀ n ∈ notes, (∃ e, n = .log e) ∨ ∃ e, n = .event e) :
    Move setup s .readLine (s.onConn conn fun c => { c with inbox := rest })
      (.line conn raw :: notes)
  | reply {conn : Nat} {rest : List UInt8} {raw : String} {r : Reply}
    (hw : s.worker = .reading conn)
    (hr : parseLine raw setup.config.sequenceNumbers = .ok (.reply r)) :
    Move setup s .readLine
      (routeReply (s.onConn conn fun c => { c with inbox := rest }) conn raw r).1
      (.line conn raw ::
        (routeReply (s.onConn conn fun c => { c with inbox := rest }) conn raw r).2)
  | readEnd {conn : Nat} (hw : s.worker = .reading conn) :
    Move setup s .readEnd ((s.abandonConn conn).tearDown false)
      [.ended conn .connectionLost, .log (.connectionEnded .connectionLost)]
  | readFail {conn : Nat} (cause : String) (hw : s.worker = .reading conn) :
    Move setup s (.readFails cause) ((s.abandonConn conn).tearDown false)
      [.ended conn (.io cause), .log (.connectionEnded (.io cause))]
  | resync {conn : Nat} (hw : s.worker = .reading conn) (hr : s.resync = true) :
    Move setup s .resync
      ((State.abandonConn { s with resync := false } conn).tearDown false)
      [.ended conn .outOfSync, .log (.connectionEnded .outOfSync)]
  | disconnect {final : Bool} (hw : s.worker = .disconnecting final)
    (hl : s.lock.holder = some .worker) :
    Move setup s .disconnect (removeConn s final).1 (removeConn s final).2
  | wake (hw : s.worker = .sleeping) : Move setup s .wake { s with worker := .connecting } []
  | signal : Move setup s .signal { s with stopping := true } []
  /-- The worker stops where it has no connection. -/
  | stop (hw : s.worker = .connecting ∨ s.worker = .sleeping) :
    Move setup s .stop (s.tearDown true) []
  | stopInstalling {conn : Nat} (hw : s.worker = .installing conn) :
    Move setup s .stop
      (((State.sealConn { s with lock := s.lock.leave .worker } conn).abandonConn conn).tearDown
        true) []
  | stopReading {conn : Nat} (hw : s.worker = .reading conn) :
    Move setup s .stop ((s.abandonConn conn).tearDown true) []
  | deliver (conn : Nat) (bytes : List UInt8) :
    Move setup s (.deliver conn bytes)
      (s.onConn conn fun c => { c with inbox := c.inbox ++ bytes }) []
  | finish (conn : Nat) :
    Move setup s (.finish conn) (s.onConn conn fun c => { c with ended := true }) []
  | breakOff (conn : Nat) :
    Move setup s (.breakOff conn)
      (s.onConn conn fun c => { c with ended := true, broken := true }) []

theorem takeSeq_snd (cfg : DaemonConfig) (s : State) :
    (takeSeq cfg s).2 = { s with nextSeq := (takeSeq cfg s).2.nextSeq } := by
  unfold takeSeq
  split <;> rfl

theorem cancel_writer (s : State) (id : Nat) (seq : Option UInt32) :
    (s.cancel id seq).writer = s.writer := rfl

/-- What the call that has the lock does first. -/
theorem begin_move {id : Nat} {call : Call} (hc : s.calls[id]? = some call)
    (hp : call.phase = .queued) (hl : s.lock.holder = some (.call id))
    (h : beginCall setup.config s id call = (s', ns)) : Move setup s (.begin id) s' ns := by
  unfold beginCall at h
  split at h
  · rename_i hw
    cases h
    exact .refuse hc hp hl hw
  · rename_i conn hw
    simp only at h
    split at h
    · rename_i e he
      rw [takeSeq_snd] at h
      cases h
      exact .reject hc hp hl hw (.inl ⟨e, rfl, he⟩)
    · rename_i command he
      rw [takeSeq_snd] at h
      unfold Correlator.register at h
      simp only at h
      by_cases ho : s.correlator.isOpen = true
      · rw [if_pos ho] at h
        cases h
        exact .register hc hp hl hw ho he
      · rw [if_neg ho] at h
        cases h
        exact .reject hc hp hl hw (.inr ⟨rfl, by simpa using ho, command, he⟩)

/-- What the worker does with a line. -/
theorem read_move {conn : Nat} {bytes rest : List UInt8} (hw : s.worker = .reading conn)
    (h : readBytes setup (s.onConn conn fun c => { c with inbox := rest }) conn bytes = (s', ns)) :
    Move setup s .readLine s' ns := by
  unfold readBytes at h
  simp only at h
  split at h
  · cases h
    exact .skip hw
  · unfold handleLine at h
    split at h
    · rename_i r hr
      cases h
      exact .reply hw hr
    · rename_i e he
      cases h
      refine .hear hw (by simp [he]) fun n hn => ?_
      change n ∈ (eventLog setup e).map .log ++ [.event e] at hn
      obtain hn | hn := List.mem_append.mp hn
      · obtain ⟨entry, -, rfl⟩ := List.mem_map.mp hn
        exact .inl ⟨entry, rfl⟩
      · exact .inr ⟨e, List.mem_singleton.mp hn⟩
    · rename_i e he
      cases h
      exact .hear hw (by simp [he]) fun n hn => .inl ⟨_, List.mem_singleton.mp hn⟩

/-- How the worker stops. -/
theorem stop_move (h : stopWorker s s.worker = some s') : Move setup s .stop s' [] := by
  unfold stopWorker at h
  split at h
  · rename_i hw
    cases h
    exact .stop (.inl hw)
  · rename_i hw
    cases h
    exact .stop (.inr hw)
  · rename_i conn hw
    cases h
    exact .stopInstalling hw
  · rename_i conn hw
    cases h
    exact .stopReading hw
  · cases h

/-- Every step is a move. -/
theorem step_move {a : Action} (h : step setup s a = some (s', ns)) : Move setup s a s' ns := by
  cases a with
  | call subcommand args =>
    simp only [step, Option.some.injEq, Prod.mk.injEq] at h
    obtain ⟨rfl, rfl⟩ := h
    exact .arrive subcommand args
  | begin id =>
    simp only [step] at h
    split at h
    · rename_i call hc
      split at h
      · rename_i hp
        split at h
        · rename_i hl
          exact begin_move hc hp hl (Option.some.inj h)
        · cases h
      · cases h
    · cases h
  | write id count =>
    simp only [step] at h
    split at h
    · rename_i seq conn rest slot hc
      split at h
      · cases h
      · rename_i hb
        simp only [Bool.or_eq_true, decide_eq_true_eq, not_or] at hb
        have hn : 0 < count := Nat.pos_of_ne_zero hb.2
        split at h
        · rename_i hr
          cases h
          exact .send hc rfl hn hr
        · rename_i hr
          cases h
          exact .write hc rfl hn (Nat.lt_of_not_le hr)
    · cases h
  | writeFails id cause =>
    simp only [step] at h
    split at h
    · rename_i hc
      cases h
      exact .writeFail cause hc rfl
    · cases h
  | receive id elapsed =>
    simp only [step] at h
    split at h
    · rename_i call hc
      split at h
      · rename_i hp
        obtain ⟨next, hread, hnext⟩ := Option.map_eq_some_iff.mp h
        cases hslot : call.slot with
        | waiting => rw [hslot] at hread; cases hread
        | severed =>
          rw [hslot] at hread
          cases hread
          cases hnext
          exact .sever hc hp hslot
        | answered result =>
          cases result with
          | error e =>
            rw [hslot] at hread
            cases hread
            cases hnext
            exact .fail hc hp hslot
          | ok reply =>
            rw [hslot] at hread
            cases hread
            cases hnext
            change Move _ _ _ _ ((slowLog setup.config call.subcommand elapsed).map Note.log ++
              ([LogEntry.received reply].map .log ++ [.returned id (resultOf reply)]))
            rw [← List.append_assoc, ← List.map_append]
            exact .answer hc hp hslot
      · cases h
    · cases h
  | timeout id =>
    simp only [step] at h
    split at h
    · rename_i hc hl
      cases h
      exact .expire hc rfl rfl hl
    · cases h
  | giveUp id =>
    simp only [step] at h
    split at h
    · rename_i subcommand args seq conn slot limit hc hl
      cases seq with
      | some n =>
        cases h
        exact .giveUp hc rfl hl
      | none =>
        simp only [giveUpCall, cancel_writer] at h
        cases hw : s.writer with
        | none =>
          simp only [hw] at h
          cases h
          exact .giveUpLate hc rfl hl hw
        | some conn' =>
          simp only [hw] at h
          cases h
          exact .close hc rfl hl hw
    · cases h
  | notify id =>
    simp only [step] at h
    split at h
    · rename_i hc hl
      cases h
      exact .notify hc rfl hl
    · cases h
  | drop id =>
    simp only [step] at h
    split at h
    · cases h
    · cases h
    · cases h
    · cases h
    · rename_i call he hf hd hc
      cases h
      refine .drop hc (fun seq conn hp => ?_) (fun r hp => ?_) fun hp => ?_
      · exact he _ _ _ _ _ (by rw [← hp])
      · exact hf _ _ _ _ (by rw [← hp])
      · exact hd _ _ _ (by rw [← hp])
  | start =>
    simp only [step] at h
    split at h
    · rename_i hw
      cases h
      exact .start hw
    · cases h
  | connect =>
    simp only [step] at h
    split at h
    · rename_i hw
      cases h
      exact .connect hw
    · cases h
  | connectFails cause =>
    simp only [step] at h
    split at h
    · rename_i hw
      cases h
      exact .connectFail cause hw
    · cases h
  | install =>
    simp only [step] at h
    split at h
    · rename_i conn hw
      split at h
      · rename_i hl
        cases h
        exact .install hw hl
      · cases h
    · cases h
  | «open» =>
    simp only [step] at h
    split at h
    · rename_i conn hw
      cases h
      exact .open hw
    · cases h
  | readLine =>
    simp only [step] at h
    split at h
    · rename_i conn hw
      split at h
      · exact read_move hw (Option.some.inj h)
      · cases h
    · cases h
  | readEnd =>
    simp only [step] at h
    split at h
    · rename_i conn hw
      split at h
      · split at h
        · cases h
          exact .readEnd hw
        · cases h
      · cases h
    · cases h
  | readFails cause =>
    simp only [step] at h
    split at h
    · rename_i conn hw
      cases h
      exact .readFail cause hw
    · cases h
  | resync =>
    simp only [step] at h
    split at h
    · rename_i conn hw
      split at h
      · rename_i hr
        cases h
        exact .resync hw hr
      · cases h
    · cases h
  | disconnect =>
    simp only [step] at h
    split at h
    · rename_i final hw
      split at h
      · rename_i hl
        cases h
        exact .disconnect hw hl
      · cases h
    · cases h
  | wake =>
    simp only [step] at h
    split at h
    · rename_i hw
      cases h
      exact .wake hw
    · cases h
  | signal =>
    cases h
    exact .signal
  | stop =>
    simp only [step] at h
    split at h
    · obtain ⟨t, ht, he⟩ := Option.map_eq_some_iff.mp h
      cases he
      exact stop_move ht
    · cases h
  | deliver conn bytes =>
    simp only [step] at h
    split at h
    · split at h
      · cases h
      · cases h
        exact .deliver conn bytes
    · cases h
  | finish conn =>
    simp only [step] at h
    split at h
    · cases h
      exact .finish conn
    · cases h
  | breakOff conn =>
    simp only [step] at h
    split at h
    · cases h
      exact .breakOff conn
    · cases h

/-- Whether an action is the writing of bytes. -/
def Action.isWrite : Action → Bool
  | .write .. => true
  | _ => false

theorem Action.isWrite_iff {a : Action} : a.isWrite = true ↔ ∃ id count, a = .write id count := by
  cases a <;> simp [isWrite]

/-- A call can write if it is writing to a connection that works. -/
theorem step_write_some {id conn count : Nat} {call : Call} {seq : Option UInt32}
    {rest : List UInt8}
    (hc : s.calls[id]? = some call) (hp : call.phase = .writing seq conn rest)
    (hb : (s.conns[conn]?.map (·.broken)).getD true = false) (hn : 0 < count)
    (hr : rest.length ≤ count) :
    step setup s (.write id count) =
      some ((s.onConn conn fun c => { c with written := c.written ++ rest.take count }).onCall id
        fun c => { c with phase := .awaiting seq conn }, [.wrote conn rest, .sent id conn]) := by
  obtain ⟨subcommand, args, phase, slot⟩ := call
  subst hp
  have hzero : (decide (count = 0)) = false := decide_eq_false (Nat.ne_of_gt hn)
  simp only [step, hc, hb, hzero, Bool.or_self, Bool.false_eq_true, if_false, if_pos hr]

/-- A call that writes is writing to a connection that works. -/
theorem step_write_inv {id count : Nat} {next : Next}
    (h : step setup s (.write id count) = some next) :
    ∃ call seq conn rest, s.calls[id]? = some call ∧ call.phase = .writing seq conn rest ∧
      (s.conns[conn]?.map (·.broken)).getD true = false ∧ 0 < count := by
  simp only [step] at h
  split at h
  · rename_i subcommand args seq conn rest slot hc
    split at h
    · cases h
    · rename_i hb
      simp only [Bool.or_eq_true, decide_eq_true_eq, not_or, Bool.not_eq_true] at hb
      exact ⟨_, seq, conn, rest, hc, rfl, hb.1, Nat.pos_of_ne_zero hb.2⟩
  · cases h

/-! ### Runs -/

/-- A run begins with its first step. -/
theorem run_cons {as : List Action} {a : Action} {s₀ : State} :
    run setup s₀ (a :: as) = some (s', ns) ↔
      ∃ s ns₁ ns₂, step setup s₀ a = some (s, ns₁) ∧ run setup s as = some (s', ns₂) ∧
        ns = ns₁ ++ ns₂ := by
  rw [run]
  cases step setup s₀ a with
  | none => simp
  | some x =>
    obtain ⟨s₁, n₁⟩ := x
    simp only [Option.map_eq_some_iff, noting, Prod.mk.injEq, Prod.exists, Option.some.injEq]
    constructor
    · rintro ⟨t, n, hr, rfl, rfl⟩
      exact ⟨s₁, n₁, n, ⟨rfl, rfl⟩, hr, rfl⟩
    · rintro ⟨_, _, n, ⟨rfl, rfl⟩, hr, rfl⟩
      exact ⟨_, n, hr, rfl, rfl⟩

/-- A run and one more step. -/
theorem run_snoc {as : List Action} {a : Action} {s₀ : State} :
    run setup s₀ (as ++ [a]) = some (s', ns) ↔
      ∃ s ns₁ ns₂, run setup s₀ as = some (s, ns₁) ∧ step setup s a = some (s', ns₂) ∧
        ns = ns₁ ++ ns₂ := by
  induction as generalizing s₀ ns with
  | nil =>
    simp only [List.nil_append, run, Option.some.injEq, Prod.mk.injEq]
    constructor
    · intro h
      split at h
      · cases h
      · rename_i s₁ ns₁ hs
        simp only [Option.map_some, Option.some.injEq, noting, Prod.mk.injEq, List.append_nil] at h
        obtain ⟨rfl, rfl⟩ := h
        exact ⟨s₀, [], ns₁, ⟨rfl, rfl⟩, hs, rfl⟩
    · rintro ⟨s, ns₁, ns₂, ⟨rfl, rfl⟩, hs, rfl⟩
      simp [hs, noting]
  | cons b as ih =>
    simp only [List.cons_append, run]
    cases hb : step setup s₀ b with
    | none => simp
    | some x =>
      obtain ⟨s₁, n₁⟩ := x
      simp only [Option.map_eq_some_iff, noting, Prod.mk.injEq, Prod.exists]
      constructor
      · rintro ⟨t, n, hr, rfl, rfl⟩
        obtain ⟨s, ns₁, ns₂, h₁, h₂, rfl⟩ := ih.mp hr
        exact ⟨s, n₁ ++ ns₁, ns₂, ⟨s, ns₁, h₁, rfl, rfl⟩, h₂, (List.append_assoc ..).symm⟩
      · rintro ⟨s, ns₁, ns₂, ⟨t, n, h₁, rfl, rfl⟩, h₂, rfl⟩
        exact ⟨s', n ++ ns₂, ih.mpr ⟨t, n, ns₂, h₁, h₂, rfl⟩, rfl, (List.append_assoc ..).symm⟩

/-- A run and another run from where it has come to. -/
theorem run_append {as bs : List Action} {s₀ : State} :
    run setup s₀ (as ++ bs) = some (s', ns) ↔
      ∃ s ns₁ ns₂, run setup s₀ as = some (s, ns₁) ∧ run setup s bs = some (s', ns₂) ∧
        ns = ns₁ ++ ns₂ := by
  induction bs using List.reverseRecOn generalizing s' ns with
  | nil =>
    rw [List.append_nil]
    constructor
    · exact fun h => ⟨s', ns, [], h, rfl, (List.append_nil ns).symm⟩
    · rintro ⟨s, ns₁, ns₂, h, he, rfl⟩
      cases he
      rw [List.append_nil]
      exact h
  | append_singleton bs b ih =>
    rw [← List.append_assoc, run_snoc]
    constructor
    · rintro ⟨t, n₁, n₂, h, hb, rfl⟩
      obtain ⟨s, ns₁, ns₂, has, hbs, rfl⟩ := ih.mp h
      exact ⟨s, ns₁, ns₂ ++ n₂, has, run_snoc.mpr ⟨t, ns₂, n₂, hbs, hb, rfl⟩,
        List.append_assoc ..⟩
    · rintro ⟨s, ns₁, ns₂, has, hbs, rfl⟩
      obtain ⟨t, n₁, n₂, h, hb, rfl⟩ := run_snoc.mp hbs
      exact ⟨t, ns₁ ++ n₁, n₂, ih.mpr ⟨s, ns₁, n₁, has, h, rfl⟩, hb, (List.append_assoc ..).symm⟩

/-- What is noted in a run is noted at one of its steps. -/
theorem noted_at {as : List Action} {n : Note} (h : run setup s as = some (s', ns)) (hn : n ∈ ns) :
    ∃ bs b cs t ns₁ t' ms ns₂, as = bs ++ b :: cs ∧ run setup s bs = some (t, ns₁) ∧
      step setup t b = some (t', ms) ∧ n ∈ ms ∧ run setup t' cs = some (s', ns₂) := by
  induction as generalizing s ns with
  | nil =>
    cases h
    cases hn
  | cons a as ih =>
    obtain ⟨u, ns₁, ns₂, ha, hr, rfl⟩ := run_cons.mp h
    rcases List.mem_append.mp hn with hn | hn
    · exact ⟨[], a, as, s, [], u, ns₁, ns₂, rfl, rfl, ha, hn, hr⟩
    · obtain ⟨bs, b, cs, t, ns₃, t', ms, ns₄, rfl, hb, hstep, hm, hcs⟩ := ih hr hn
      exact ⟨a :: bs, b, cs, t, ns₁ ++ ns₃, t', ms, ns₄, rfl,
        run_cons.mpr ⟨u, ns₁, ns₃, ha, hb, rfl⟩, hstep, hm, hcs⟩

/-- The beginning of a run is a run. -/
theorem run_of_prefix {as bs : List Action} {s₀ : State} (h : run setup s₀ as = some (s, ns))
    (hb : bs <+: as) : ∃ t ns₁, run setup s₀ bs = some (t, ns₁) := by
  obtain ⟨cs, rfl⟩ := hb
  obtain ⟨t, ns₁, -, ht, -⟩ := run_append.mp h
  exact ⟨t, ns₁, ht⟩

/-- What holds in the beginning and is kept by every move holds along every run. -/
theorem run_induction {P : List Note → State → Prop} (h₀ : P [] {})
    (hs : ∀ {notes s a s' ns}, P notes s → Move setup s a s' ns → P (notes ++ ns) s')
    {as : List Action} {s : State} {notes : List Note} (h : run setup {} as = some (s, notes)) :
    P notes s := by
  induction as using List.reverseRecOn generalizing s notes with
  | nil =>
    simp only [run, Option.some.injEq, Prod.mk.injEq] at h
    obtain ⟨rfl, rfl⟩ := h
    exact h₀
  | append_singleton as a ih =>
    obtain ⟨t, ns₁, ns₂, h₁, h₂, rfl⟩ := run_snoc.mp h
    exact hs (ih h₁) (step_move h₂)

end Connector
end EfsControl

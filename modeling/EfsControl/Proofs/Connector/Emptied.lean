/-
# What is still to be read

Bytes arrive in pieces, at any time before the line that they belong to is read.
A state without the bytes that are still to be read says as much about what
comes next as the state itself, but for the lines: every action that is not
about input does the same, and only input changes what is still to be read.

Key definitions: `State.emptied`, `State.inbox`, `Action.isInput`.
Key theorems: `step_emptied`, `step_of_emptied`, `Move.inbox`.
-/
import EfsControl.Proofs.Connector.Wiring

namespace EfsControl

namespace Connector

variable {setup : Setup} {s s' v : State} {a : Action} {ns : List Note} {id conn : Nat}

/-! ### States without what is still to be read -/

/-- A connection without the bytes that are not read yet. -/
def Connection.emptied (c : Connection) : Connection := { c with inbox := [] }

/-- Whether an action is about bytes that arrive or are read. -/
def Action.isInput : Action → Bool
  | .readLine | .deliver .. => true
  | _ => false

namespace State

/-- A state without the bytes that are not read yet. -/
def emptied (s : State) : State := { s with conns := s.conns.map Connection.emptied }

/-- The bytes of a connection that are not read yet. -/
def inbox (s : State) (conn : Nat) : List UInt8 := (s.conns[conn]?.map (·.inbox)).getD []

@[simp] theorem emptied_conns (s : State) (conn : Nat) :
    s.emptied.conns[conn]? = s.conns[conn]?.map Connection.emptied := List.getElem?_map

/-- A change to a connection that does not look at what is still to be read. -/
theorem emptied_onConn {f : Connection → Connection} (h : ∀ c, (f c).emptied = f c.emptied)
    (conn : Nat) : (s.onConn conn f).emptied = s.emptied.onConn conn f := by
  have hl : (s.conns.modify conn f).map Connection.emptied =
      (s.conns.map Connection.emptied).modify conn f := by
    apply List.ext_getElem?
    intro i
    simp only [List.getElem?_map, List.getElem?_modify]
    split <;> cases s.conns[i]? <;> simp [h]
  simp only [emptied, onConn, hl]

/-- A change to what is still to be read. -/
theorem emptied_refill (s : State) (conn : Nat) (f : Connection → List UInt8) :
    (s.onConn conn fun c => { c with inbox := f c }).emptied = s.emptied := by
  have hl : (s.conns.modify conn fun c => { c with inbox := f c }).map Connection.emptied =
      s.conns.map Connection.emptied := by
    apply List.ext_getElem?
    intro i
    rw [List.getElem?_map, List.getElem?_map, List.getElem?_modify]
    have hf : ∀ c : Connection, ({ c with inbox := f c } : Connection).emptied = c.emptied :=
      fun _ => rfl
    by_cases hi : conn = i
    · simp [hi, Function.comp_def, hf]
    · simp [hi]
  simp only [emptied, onConn, hl]

theorem emptied_sealConn (s : State) (conn : Nat) :
    (s.sealConn conn).emptied = s.emptied.sealConn conn := by
  refine emptied_onConn (fun c => ?_) conn
  rfl

theorem emptied_abandonConn (s : State) (conn : Nat) :
    (s.abandonConn conn).emptied = s.emptied.abandonConn conn := by
  refine emptied_onConn (fun c => ?_) conn
  rfl

end State

/-- What a step leads to, without the bytes that are not read yet. -/
def Next.emptied (next : Next) : Next := (next.1.emptied, next.2)

theorem beginCall_emptied (cfg : DaemonConfig) (s : State) (id : Nat) (call : Call) :
    beginCall cfg s.emptied id call = (beginCall cfg s id call).emptied := by
  have hwriter : s.emptied.writer = s.writer := rfl
  have hseq : takeSeq cfg s.emptied = ((takeSeq cfg s).1, (takeSeq cfg s).2.emptied) := by
    unfold takeSeq
    split <;> rfl
  unfold beginCall
  rw [hwriter, hseq]
  cases s.writer with
  | none => rfl
  | some conn =>
    have hc : (takeSeq cfg s).2.emptied.correlator = (takeSeq cfg s).2.correlator := rfl
    simp only [hc]
    cases encode (takeSeq cfg s).1 cfg.commandPrefix call.subcommand call.args with
    | error e => rfl
    | ok command =>
      simp only
      cases (takeSeq cfg s).2.correlator.register (takeSeq cfg s).1 id <;> rfl

theorem giveUpCall_emptied (s : State) (id : Nat) (subcommand : String) (seq : Option UInt32)
    (limit : Duration) :
    giveUpCall s.emptied id subcommand seq limit =
      (giveUpCall s id subcommand seq limit).emptied := by
  have hwriter : (s.emptied.cancel id seq).writer = (s.cancel id seq).writer := rfl
  unfold giveUpCall
  simp only [hwriter]
  cases seq with
  | some n => rfl
  | none =>
    cases (s.cancel id none).writer with
    | none => rfl
    | some conn =>
      have hseal := State.emptied_sealConn
        { s.cancel id none with connected := false, writer := none } conn
      exact congrArg (fun t : State => noting [.log (.timedOut subcommand none limit)]
        (t.onCall id fun c => { c with phase := .closing }, [])) hseal.symm

theorem removeConn_emptied (s : State) (final : Bool) :
    removeConn s.emptied final = (removeConn s final).emptied := by
  have hwriter : s.emptied.writer = s.writer := rfl
  unfold removeConn
  rw [hwriter]
  cases s.writer with
  | none => rfl
  | some conn =>
    have hseal := State.emptied_sealConn { s with
      writer := none
      lock := s.lock.release
      worker := if final then .stopped else .sleeping } conn
    exact congrArg (fun t : State => ((t, if final then [.log .stopped] else []) : Next)) hseal.symm

theorem readingEnds_emptied (s : State) (conn : Nat) (e : ExchangeError) :
    readingEnds s.emptied conn e = (readingEnds s conn e).emptied :=
  congrArg (fun t => noting [.ended conn e] (connectionEnds t e)) (s.emptied_abandonConn conn).symm

theorem stopWorker_emptied (s : State) (w : Worker) :
    stopWorker s.emptied w = (stopWorker s w).map State.emptied := by
  cases w with
  | reading conn =>
    exact congrArg (fun t => some (t.tearDown true)) (s.emptied_abandonConn conn).symm
  | installing conn =>
    have hseal := State.emptied_sealConn { s with lock := s.lock.leave .worker } conn
    have habandon := State.emptied_abandonConn
      (State.sealConn { s with lock := s.lock.leave .worker } conn) conn
    rw [hseal] at habandon
    exact congrArg (fun t => some (t.tearDown true)) habandon.symm
  | _ => rfl

/-- A line is heard in the same way whatever is still to be read. -/
theorem readBytes_emptied (s : State) (conn : Nat) (bytes : List UInt8) :
    readBytes setup s.emptied conn bytes = (readBytes setup s conn bytes).emptied := by
  unfold readBytes
  simp only
  split
  · rfl
  · unfold handleLine
    split
    · unfold routeReply
      have hc : s.emptied.correlator = s.correlator := rfl
      have hl : s.emptied.listens = s.listens := rfl
      simp only [hc, hl]
      split <;> rfl
    · rfl
    · rfl

/-- What is still to be read matters for reading only. -/
theorem step_emptied_eq (ha : a.isInput = false) (hr : a ≠ .readEnd) :
    step setup s.emptied a = (step setup s a).map Next.emptied := by
  have hcalls : s.emptied.calls = s.calls := rfl
  have hworker : s.emptied.worker = s.worker := rfl
  have hlock : s.emptied.lock = s.lock := rfl
  have hlen : s.emptied.conns.length = s.conns.length := List.length_map _
  cases a with
  | call subcommand args => rfl
  | begin id =>
    simp only [step, hcalls, hlock]
    cases s.calls[id]? with
    | none => rfl
    | some call =>
      obtain ⟨subcommand, args, phase, slot⟩ := call
      cases phase with
      | queued =>
        simp only
        split
        · exact congrArg some (beginCall_emptied ..)
        · rfl
      | _ => rfl
  | write id count =>
    simp only [step, hcalls]
    cases s.calls[id]? with
    | none => rfl
    | some call =>
      obtain ⟨subcommand, args, phase, slot⟩ := call
      cases phase with
      | writing seq conn rest =>
        have hb : (s.emptied.conns[conn]?.map (·.broken)) = s.conns[conn]?.map (·.broken) := by
          rw [State.emptied_conns, Option.map_map]
          rfl
        have hw :
            (s.onConn conn fun c => { c with written := c.written ++ rest.take count }).emptied =
            s.emptied.onConn conn fun c => { c with written := c.written ++ rest.take count } := by
          refine State.emptied_onConn (fun c => ?_) conn
          rfl
        simp only [hb, ← hw]
        split
        · rfl
        · split <;> rfl
      | _ => rfl
  | writeFails id cause =>
    simp only [step, hcalls]
    cases s.calls[id]? with
    | none => rfl
    | some call =>
      obtain ⟨subcommand, args, phase, slot⟩ := call
      cases phase <;> rfl
  | receive id =>
    simp only [step, hcalls]
    cases s.calls[id]? with
    | none => rfl
    | some call =>
      obtain ⟨subcommand, args, phase, slot⟩ := call
      cases phase with
      | awaiting =>
        cases slot with
        | answered result => cases result <;> rfl
        | _ => rfl
      | _ => rfl
  | timeout id =>
    simp only [step, hcalls]
    cases s.calls[id]? with
    | none => rfl
    | some call =>
      obtain ⟨subcommand, args, phase, slot⟩ := call
      cases phase <;> cases slot <;> cases setup.config.commandTimeout <;> rfl
  | giveUp id =>
    simp only [step, hcalls]
    cases s.calls[id]? with
    | none => rfl
    | some call =>
      obtain ⟨subcommand, args, phase, slot⟩ := call
      cases setup.config.commandTimeout with
      | none => cases phase <;> rfl
      | some limit =>
        cases phase with
        | expired => exact congrArg some (giveUpCall_emptied ..)
        | _ => rfl
  | notify id =>
    simp only [step, hcalls]
    cases s.calls[id]? with
    | none => rfl
    | some call =>
      obtain ⟨subcommand, args, phase, slot⟩ := call
      cases phase <;> cases setup.config.commandTimeout <;> rfl
  | drop id =>
    simp only [step, hcalls]
    cases s.calls[id]? with
    | none => rfl
    | some call =>
      obtain ⟨subcommand, args, phase, slot⟩ := call
      cases phase <;> rfl
  | start =>
    simp only [step, hworker]
    split <;> rfl
  | connect =>
    simp only [step, hworker, hlen]
    split
    · simp [Next.emptied, State.emptied, Connection.emptied]
    · rfl
  | connectFails cause =>
    simp only [step, hworker]
    split <;> rfl
  | install =>
    simp only [step, hworker, hlock]
    cases s.worker with
    | installing conn =>
      simp only
      split <;> rfl
    | _ => rfl
  | «open» =>
    simp only [step, hworker]
    cases s.worker <;> rfl
  | readLine => cases ha
  | readEnd => exact absurd rfl hr
  | readFails cause =>
    simp only [step, hworker]
    cases s.worker with
    | reading conn => exact congrArg some (readingEnds_emptied ..)
    | _ => rfl
  | resync =>
    have hresync : s.emptied.resync = s.resync := rfl
    simp only [step, hworker, hresync]
    cases s.worker with
    | reading conn =>
      simp only
      split
      · exact congrArg some (readingEnds_emptied { s with resync := false } ..)
      · rfl
    | _ => rfl
  | disconnect =>
    simp only [step, hworker, hlock]
    cases s.worker with
    | disconnecting final =>
      simp only
      split
      · exact congrArg some (removeConn_emptied ..)
      · rfl
    | _ => rfl
  | wake =>
    simp only [step, hworker]
    split <;> rfl
  | signal => rfl
  | stop =>
    have hstopping : s.emptied.stopping = s.stopping := rfl
    simp only [step, hworker, hstopping, stopWorker_emptied]
    cases stopWorker s s.worker <;> split <;> rfl
  | deliver conn bytes => cases ha
  | finish conn =>
    have hc : (s.onConn conn fun c => { c with ended := true }).emptied =
        s.emptied.onConn conn fun c => { c with ended := true } := by
      refine State.emptied_onConn (fun c => ?_) conn
      rfl
    simp only [step, hlen, ← hc]
    split <;> rfl
  | breakOff conn =>
    have hc : (s.onConn conn fun c => { c with ended := true, broken := true }).emptied =
        s.emptied.onConn conn fun c => { c with ended := true, broken := true } := by
      refine State.emptied_onConn (fun c => ?_) conn
      rfl
    simp only [step, hlen, ← hc]
    split <;> rfl

/-- The worker finds the end of a connection when it has ended and no line is left on it. -/
theorem step_readEnd_iff {next : Next} : step setup s .readEnd = some next ↔
    ∃ conn c, s.worker = .reading conn ∧ s.conns[conn]? = some c ∧ c.ended = true ∧
      takeLine? setup.config.framing.terminator c.inbox = none ∧
      next = readingEnds s conn .connectionLost := by
  simp only [step]
  constructor
  · intro h
    split at h
    · rename_i conn hw
      split at h
      · rename_i c hc
        split at h
        · rename_i he
          rw [Bool.and_eq_true, Option.isNone_iff_eq_none] at he
          exact ⟨conn, c, hw, hc, he.1, he.2, (Option.some.inj h).symm⟩
        · cases h
      · cases h
    · cases h
  · rintro ⟨conn, c, hw, hc, he, hl, rfl⟩
    simp only [hw, hc, he, hl, Option.isNone_none, Bool.and_self, if_true]

/-- The worker reads the first line of the connection that it reads. -/
theorem step_readLine_iff {next : Next} : step setup s .readLine = some next ↔
    ∃ conn c bytes rest, s.worker = .reading conn ∧ s.conns[conn]? = some c ∧
      takeLine? setup.config.framing.terminator c.inbox = some (bytes, rest) ∧
      next = readBytes setup (s.onConn conn fun c => { c with inbox := rest }) conn bytes := by
  simp only [step]
  constructor
  · intro h
    split at h
    · rename_i conn hw
      split at h
      · rename_i bytes rest hl
        obtain ⟨c, hc, hl⟩ := Option.bind_eq_some_iff.mp hl
        exact ⟨conn, c, bytes, rest, hw, hc, hl, (Option.some.inj h).symm⟩
      · cases h
    · cases h
  · rintro ⟨conn, c, bytes, rest, hw, hc, hl, rfl⟩
    simp only [hw, hc, Option.bind_some, hl]

/-- A step that is not about input can happen without what is still to be read. -/
theorem step_emptied (ha : a.isInput = false) (h : step setup s a = some (s', ns)) :
    step setup s.emptied a = some (s'.emptied, ns) := by
  by_cases hr : a = .readEnd
  · subst hr
    obtain ⟨conn, c, hw, hc, he, -, hnext⟩ := step_readEnd_iff.mp h
    refine step_readEnd_iff.mpr
      ⟨conn, c.emptied, hw, by rw [State.emptied_conns, hc]; rfl, he, rfl, ?_⟩
    rw [readingEnds_emptied, ← hnext]
    rfl
  · rw [step_emptied_eq ha hr, h]
    rfl

/-! ### What changes with input only -/

namespace State

@[simp] theorem inbox_onConn {f : Connection → Connection} (h : ∀ c, (f c).inbox = c.inbox)
    (c conn : Nat) : (s.onConn c f).inbox conn = s.inbox conn := by
  simp only [inbox, onConn, List.getElem?_modify, Option.map_eq_map, Option.map_map]
  congr 2
  funext x
  by_cases hi : c = conn
  · simp [hi, h]
  · simp [hi]

/-- What is to be read from a connection is replaced. -/
theorem inbox_refill {x : Connection} (hx : s.conns[id]? = some x) (f : Connection → List UInt8)
    (conn : Nat) : (s.onConn id fun c => { c with inbox := f c }).inbox conn =
      if id = conn then f x else s.inbox conn := by
  simp only [inbox, onConn, List.getElem?_modify]
  by_cases hi : id = conn
  · subst hi
    simp [hx]
  · simp [hi]

theorem inbox_eq {x : Connection} (hx : s.conns[conn]? = some x) : s.inbox conn = x.inbox := by
  rw [inbox, hx]
  rfl

@[simp] theorem inbox_onCall (s : State) (id : Nat) (f : Call → Call) (conn : Nat) :
    (s.onCall id f).inbox conn = s.inbox conn := rfl

@[simp] theorem inbox_sealConn (s : State) (c conn : Nat) :
    (s.sealConn c).inbox conn = s.inbox conn := by
  simp [sealConn]

@[simp] theorem inbox_abandonConn (s : State) (c conn : Nat) :
    (s.abandonConn c).inbox conn = s.inbox conn := by
  simp [abandonConn]

@[simp] theorem inbox_tearDown (s : State) (final : Bool) (conn : Nat) :
    (s.tearDown final).inbox conn = s.inbox conn := rfl

/-- Nothing has arrived yet on a new connection. -/
theorem inbox_append {t : State} {x : Connection} (ht : t.conns = s.conns ++ [x])
    (hx : x.inbox = []) (conn : Nat) : t.inbox conn = s.inbox conn := by
  rw [inbox, inbox, ht]
  by_cases hlt : conn < s.conns.length
  · rw [List.getElem?_append_left hlt]
  · have hge := Nat.le_of_not_lt hlt
    rw [List.getElem?_append_right hge, List.getElem?_eq_none hge]
    cases conn - s.conns.length with
    | zero => exact hx
    | succ n => rfl

end State

/-- Only input changes what is to be read. -/
theorem Move.inbox (hm : Move setup s a s' ns) (ha : a.isInput = false) (conn : Nat) :
    s'.inbox conn = s.inbox conn := by
  cases hm with
  | write => simp
  | send => simp
  | close =>
    rw [State.inbox_onCall, State.inbox_sealConn]
    rfl
  | connect => exact State.inbox_append rfl rfl conn
  | readEnd => simp
  | readFail => simp
  | resync =>
    rw [State.inbox_tearDown, State.inbox_abandonConn]
    rfl
  | disconnect =>
    unfold removeConn
    cases s.writer with
    | none => rfl
    | some c => exact State.inbox_sealConn _ c conn
  | stopInstalling =>
    rw [State.inbox_tearDown, State.inbox_abandonConn, State.inbox_sealConn]
    rfl
  | stopReading => simp
  | finish => simp
  | breakOff => simp
  | skip => cases ha
  | hear => cases ha
  | reply => cases ha
  | deliver => cases ha
  | _ => rfl

/-- Only by connecting does the worker get a connection. -/
theorem Move.conn? (hm : Move setup s a s' ns) (ha : a.isInput = false) (hc : a ≠ .connect)
    (h : s'.worker.conn? = some conn) : s.worker.conn? = some conn := by
  cases hm with
  | connect => exact absurd rfl hc
  | install hw =>
    rw [hw]
    exact h
  | «open» hw =>
    rw [hw]
    exact h
  | start => cases h
  | connectFail => cases h
  | readEnd => cases h
  | readFail => cases h
  | resync => cases h
  | @disconnect final =>
    rw [removeConn_worker] at h
    cases final <;> cases h
  | wake => cases h
  | stop => cases h
  | stopInstalling => cases h
  | stopReading => cases h
  | skip => cases ha
  | hear => cases ha
  | reply => cases ha
  | deliver => cases ha
  | _ => exact h

/-- The worker reads a line without changing connections, nor what it does. -/
theorem readBytes_conns (s : State) (conn : Nat) (bytes : List UInt8) :
    (readBytes setup s conn bytes).1.conns = s.conns ∧
      (readBytes setup s conn bytes).1.worker = s.worker := by
  unfold readBytes
  simp only
  split
  · exact ⟨rfl, rfl⟩
  · unfold handleLine
    split
    · exact ⟨routeReply_conns .., routeReply_worker ..⟩
    · exact ⟨rfl, rfl⟩
    · exact ⟨rfl, rfl⟩

/-! ### Steps, whatever is still to be read -/

/-- A step that is not about input can happen whatever is still to be read, unless the worker finds
the end of a connection: then nothing may be left there. -/
theorem step_of_emptied {next : Next} (ha : a.isInput = false)
    (hl : a = .readEnd → ∀ conn, s.worker = .reading conn → s.inbox conn = [])
    (h : step setup s.emptied a = some next) :
    ∃ u, step setup s a = some (u, next.2) ∧ u.emptied = next.1 := by
  by_cases hr : a = .readEnd
  · obtain ⟨conn, c, hw, hc, he, -, rfl⟩ := step_readEnd_iff.mp (hr ▸ h)
    rw [State.emptied_conns, Option.map_eq_some_iff] at hc
    obtain ⟨x, hx, rfl⟩ := hc
    have hnil : x.inbox = [] := State.inbox_eq hx ▸ hl hr conn hw
    have hstep : step setup s .readEnd = some (readingEnds s conn .connectionLost) :=
      step_readEnd_iff.mpr ⟨conn, x, hw, hx, he, by rw [hnil]; rfl, rfl⟩
    exact ⟨_, hr ▸ hstep, (congrArg Prod.fst (readingEnds_emptied s conn _)).symm⟩
  · rw [step_emptied_eq ha hr, Option.map_eq_some_iff] at h
    obtain ⟨u, hu, rfl⟩ := h
    exact ⟨u.1, hu, rfl⟩

/-- Bytes can arrive on a connection that has not ended. -/
theorem step_deliver_some {x : Connection} (hx : s.conns[conn]? = some x) (he : x.ended = false)
    (bytes : List UInt8) : step setup s (.deliver conn bytes) =
      some (s.onConn conn fun c => { c with inbox := c.inbox ++ bytes }, []) := by
  simp only [step, hx, he, Bool.false_eq_true, if_false]

end Connector
end EfsControl

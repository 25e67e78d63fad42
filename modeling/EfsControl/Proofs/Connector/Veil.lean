/-
# What a run shows of secrets

A state under the veil is the state without its secrets: the arguments of calls
are under the veil, and neither the bytes that have been written nor those that
are still to be written are known. Every action but the writing of bytes does
the same under the veil as without it, and notes the same, apart from the
command lines themselves. So whatever is noted on the way, under the veil,
depends on the state under the veil and on the schedule: what happens, in which
order, and when a command has been written in full.

Key definitions: `State.veiled`, `Note.veiled?`, `schedule`, `veiledRun`.
Key theorems: `step_veiled`, `run_veiled`, `run_matched`.
-/
import EfsControl.Proofs.Command.Veil
import EfsControl.Proofs.Connector.Calls

namespace EfsControl
namespace Connector

variable {setup : Setup} {s s' t : State} {id conn : Nat} {a : Action} {ns : List Note}

/-! ### The veil -/

/-- A phase without the bytes that are still to be written. -/
def Phase.veiled : Phase → Phase
  | .writing seq conn _ => .writing seq conn [0]
  | p => p

/-- A call without its secrets. -/
def Call.veiled (c : Call) : Call :=
  { c with args := c.args.map Arg.veiled, phase := c.phase.veiled }

/-- A connection without the bytes that have been written. -/
def Connection.veiled (c : Connection) : Connection := { c with written := [] }

/-- A state without its secrets. -/
def State.veiled (s : State) : State :=
  { s with calls := s.calls.map Call.veiled, conns := s.conns.map Connection.veiled }

/-- A note without secrets. What bytes have been written is not noted. -/
def Note.veiled? : Note → Option Note
  | .wrote .. => none
  | .log (.sent command) => some (.log (.sent command.veiled))
  | .registered id seq conn command => some (.registered id seq conn command.veiled)
  | n => some n

/-- The notes without secrets. -/
def veiledNotes (ns : List Note) : List Note := ns.filterMap Note.veiled?

/-- What a step leads to, without secrets. -/
def veiledNext (next : Next) : Next := (next.1.veiled, veiledNotes next.2)

/-- An action without the secrets of the call that it makes. -/
def Action.veiled : Action → Action
  | .call subcommand args => .call subcommand (args.map Arg.veiled)
  | a => a

@[simp] theorem veiledNotes_append (ns₁ ns₂ : List Note) :
    veiledNotes (ns₁ ++ ns₂) = veiledNotes ns₁ ++ veiledNotes ns₂ := List.filterMap_append

@[simp] theorem Phase.veiled_veiled (p : Phase) : p.veiled.veiled = p.veiled := by cases p <;> rfl

/-- A call that is writing under the veil is writing. -/
theorem Phase.writing_of_veiled {p : Phase} {seq : Option UInt32} {bytes : List UInt8}
    (h : p.veiled = .writing seq conn bytes) : ∃ rest, p = .writing seq conn rest := by
  cases p with
  | writing seq' conn' rest =>
    cases h
    exact ⟨rest, rfl⟩
  | _ => cases h

@[simp] theorem Call.veiled_veiled (c : Call) : c.veiled.veiled = c.veiled := by
  simp [Call.veiled, Function.comp_def]

@[simp] theorem Connection.veiled_veiled (c : Connection) : c.veiled.veiled = c.veiled := rfl

namespace State

@[simp] theorem veiled_calls (s : State) (id : Nat) :
    s.veiled.calls[id]? = s.calls[id]?.map Call.veiled := List.getElem?_map

@[simp] theorem veiled_conns (s : State) (conn : Nat) :
    s.veiled.conns[conn]? = s.conns[conn]?.map Connection.veiled := List.getElem?_map

@[simp] theorem veiled_veiled (s : State) : s.veiled.veiled = s.veiled := by
  simp only [veiled, List.map_map, Function.comp_def, Call.veiled_veiled, Connection.veiled_veiled]

/-- A change to one call that can be made under the veil. -/
theorem veiled_onCall {f g : Call → Call} (h : ∀ c, (f c).veiled = g c.veiled) (id : Nat) :
    (s.onCall id f).veiled = s.veiled.onCall id g := by
  have hl : (s.calls.modify id f).map Call.veiled = (s.calls.map Call.veiled).modify id g := by
    apply List.ext_getElem?
    intro i
    simp only [List.getElem?_map, List.getElem?_modify]
    split <;> cases s.calls[i]? <;> simp [h]
  simp only [veiled, onCall, hl]

/-- A change to one connection that can be made under the veil. -/
theorem veiled_onConn {f g : Connection → Connection} (h : ∀ c, (f c).veiled = g c.veiled)
    (conn : Nat) : (s.onConn conn f).veiled = s.veiled.onConn conn g := by
  have hl : (s.conns.modify conn f).map Connection.veiled =
      (s.conns.map Connection.veiled).modify conn g := by
    apply List.ext_getElem?
    intro i
    simp only [List.getElem?_map, List.getElem?_modify]
    split <;> cases s.conns[i]? <;> simp [h]
  simp only [veiled, onConn, hl]

/-- A call gets a new phase. -/
theorem veiled_phase (s : State) (id : Nat) (q : Phase) :
    (s.onCall id fun c => { c with phase := q }).veiled =
      s.veiled.onCall id fun c => { c with phase := q.veiled } := by
  refine veiled_onCall (fun c => ?_) id
  rfl

@[simp] theorem veiled_fill (s : State) (slot : Slot) (ids : List Nat) :
    (s.fill slot ids).veiled = s.veiled.fill slot ids := by
  have hl : (s.calls.mapIdx fun id c => if id ∈ ids then { c with slot } else c).map Call.veiled =
      (s.calls.map Call.veiled).mapIdx fun id c => if id ∈ ids then { c with slot } else c := by
    apply List.ext_getElem?
    intro i
    simp only [List.getElem?_map, List.getElem?_mapIdx]
    cases s.calls[i]? with
    | none => rfl
    | some c =>
      simp only [Option.map_some]
      split <;> rfl
  simp only [veiled, fill, hl]

@[simp] theorem veiled_cancel (s : State) (id : Nat) (seq : Option UInt32) :
    (s.cancel id seq).veiled = s.veiled.cancel id seq := veiled_fill ..

@[simp] theorem veiled_finish (s : State) (id : Nat) (result : ExchangeResult) :
    (s.finish id result).1.veiled = (s.veiled.finish id result).1 := by
  have hc := veiled_phase s id (.finished result)
  exact congrArg (fun t : State => { t with lock := s.lock.release }) hc

@[simp] theorem veiled_tearDown (s : State) (final : Bool) :
    (s.tearDown final).veiled = s.veiled.tearDown final := by
  have hf := veiled_fill s (.answered (.error .connectionLost)) s.correlator.callers
  exact congrArg (fun t : State => { t with
    connected := false
    correlator := s.correlator.closed
    lock := s.lock.request .worker
    worker := .disconnecting final }) hf

@[simp] theorem veiled_sealConn (s : State) (conn : Nat) :
    (s.sealConn conn).veiled = s.veiled.sealConn conn := by
  refine veiled_onConn (fun c => ?_) conn
  rfl

@[simp] theorem veiled_abandonConn (s : State) (conn : Nat) :
    (s.abandonConn conn).veiled = s.veiled.abandonConn conn := by
  refine veiled_onConn (fun c => ?_) conn
  rfl

@[simp] theorem listens_veiled (s : State) (id : Nat) : s.veiled.listens id = s.listens id := by
  rw [listens, listens, veiled_calls, Option.map_map]
  have hf : Call.listens ∘ Call.veiled = Call.listens := by
    funext c
    obtain ⟨sub, args, phase, slot⟩ := c
    cases phase <;> rfl
  rw [hf]

end State

/-- A change that can be made under the veil leaves nothing more to see. -/
theorem State.veiled_update {t : State} (h : t.veiled = s.veiled) (f : State → State)
    (hf : ∀ x, (f x).veiled = f x.veiled) : (f t).veiled = (f s).veiled := by
  rw [hf, hf, h]

/-- The veil hides calls and connections only. -/
theorem State.eq_of_veiled {t : State} (h : t.veiled = s.veiled) :
    t.lock = s.lock ∧ t.writer = s.writer ∧ t.correlator = s.correlator ∧ t.nextSeq = s.nextSeq ∧
      t.resync = s.resync ∧ t.worker = s.worker ∧ t.stopping = s.stopping := by
  simp only [veiled, State.mk.injEq] at h
  obtain ⟨hl, hw, hc, hn, -, hr, hk, hs, -⟩ := h
  exact ⟨hl, hw, hc, hn, hr, hk, hs⟩

/-! ### What callers do -/

/-- Two steps lead to the same if they lead to the same state and note the same. -/
theorem veiledNext_congr {x y : Next} (hs : x.1.veiled = y.1.veiled)
    (hn : veiledNotes x.2 = veiledNotes y.2) : veiledNext x = veiledNext y :=
  Prod.ext hs hn

/-- A call ends under the veil as it does without it. -/
theorem finish_veiled {t : State} (ht : t.veiled = s.veiled) (id : Nat) (result : ExchangeResult) :
    veiledNext (t.finish id result) = veiledNext (s.finish id result) := by
  refine veiledNext_congr ?_ rfl
  rw [State.veiled_finish, State.veiled_finish, ht]

theorem takeSeq_veiled (cfg : DaemonConfig) (s : State) :
    takeSeq cfg s.veiled = ((takeSeq cfg s).1, (takeSeq cfg s).2.veiled) := by
  unfold takeSeq
  split <;> rfl

/-- A call that has got the lock does the same under the veil. -/
theorem beginCall_veiled (cfg : DaemonConfig) (s : State) (id : Nat) (call : Call) :
    veiledNext (beginCall cfg s.veiled id call.veiled) = veiledNext (beginCall cfg s id call) := by
  have hwriter : s.veiled.writer = s.writer := rfl
  unfold beginCall
  rw [hwriter]
  cases s.writer with
  | none => exact finish_veiled s.veiled_veiled id _
  | some conn =>
    simp only [takeSeq_veiled]
    set seq := (takeSeq cfg s).1
    set u := (takeSeq cfg s).2
    have henc := encode_veiled seq cfg.commandPrefix call.subcommand call.args
    have hcall : call.veiled.args = call.args.map Arg.veiled ∧
        call.veiled.subcommand = call.subcommand := ⟨rfl, rfl⟩
    have hopen : u.veiled.correlator = u.correlator := rfl
    rw [hcall.1, hcall.2, hopen]
    revert henc
    cases encode seq cfg.commandPrefix call.subcommand (call.args.map Arg.veiled) with
    | error e =>
      cases encode seq cfg.commandPrefix call.subcommand call.args with
      | error e' =>
        intro h
        cases h
        exact finish_veiled u.veiled_veiled id _
      | ok c => nofun
    | ok c' =>
      cases encode seq cfg.commandPrefix call.subcommand call.args with
      | error e => nofun
      | ok c =>
        intro h
        have hc : c'.veiled = c.veiled := Except.ok.inj h
        cases u.correlator.register seq id with
        | none => exact finish_veiled u.veiled_veiled id _
        | some cor =>
          refine veiledNext_congr ?_ ?_
          · rw [State.veiled_phase, State.veiled_phase]
            exact congrArg (State.onCall · id _) (State.veiled_update u.veiled_veiled
              (fun x => { x with correlator := cor }) fun _ => rfl)
          · simp only [veiledNotes, List.filterMap_cons, Note.veiled?, hc]

/-- A caller makes the same of what it finds under the veil. -/
theorem readSlot_veiled {t : State} (ht : t.veiled = s.veiled) (id : Nat) (slot : Slot) :
    (readSlot t id slot).map veiledNext = (readSlot s id slot).map veiledNext := by
  have hf := fun result => finish_veiled ht id result
  cases slot with
  | waiting => rfl
  | severed => exact congrArg some (hf _)
  | answered result =>
    cases result with
    | error e => exact congrArg some (hf _)
    | ok reply =>
      refine congrArg some (veiledNext_congr ?_ rfl)
      exact congrArg Prod.fst (hf (resultOf reply))

/-- A caller finds the same answer under the veil, and logs the same about how long it has
taken. -/
theorem receiveAnswer_veiled {t : State} (ht : t.veiled = s.veiled) (cfg : DaemonConfig) (id : Nat)
    (call : Call) (elapsed : Duration) :
    (receiveAnswer cfg t id call.veiled elapsed).map veiledNext =
      (receiveAnswer cfg s id call elapsed).map veiledNext := by
  have hnoting (notes : List Note) : veiledNext ∘ noting notes =
      (fun next => (next.1, veiledNotes notes ++ next.2)) ∘ veiledNext := by
    funext next
    exact Prod.ext rfl (veiledNotes_append ..)
  have hcall : call.veiled.subcommand = call.subcommand ∧ call.veiled.slot = call.slot := ⟨rfl, rfl⟩
  rw [receiveAnswer, receiveAnswer, hcall.1, hcall.2, Option.map_map, Option.map_map, hnoting,
    ← Option.map_map, ← Option.map_map, readSlot_veiled ht]

/-- A caller gives up the same under the veil. -/
theorem giveUpCall_veiled {t : State} (ht : t.veiled = s.veiled) (id : Nat) (subcommand : String)
    (seq : Option UInt32) (limit : Duration) :
    veiledNext (giveUpCall t id subcommand seq limit) =
      veiledNext (giveUpCall s id subcommand seq limit) := by
  have hc : (t.cancel id seq).veiled = (s.cancel id seq).veiled := by
    rw [State.veiled_cancel, State.veiled_cancel, ht]
  have hw : (t.cancel id seq).writer = (s.cancel id seq).writer := (State.eq_of_veiled hc).2.1
  have fin : ∀ {x y : State}, x.veiled = y.veiled →
      veiledNext (noting [.log (.timedOut subcommand seq limit)]
          (x.finish id (.error (.timeout limit)))) =
        veiledNext (noting [.log (.timedOut subcommand seq limit)]
          (y.finish id (.error (.timeout limit)))) := fun hxy =>
    veiledNext_congr (congrArg Prod.fst (finish_veiled hxy id _)) rfl
  unfold giveUpCall
  simp only [hw]
  cases seq with
  | some n => exact fin hc
  | none =>
    cases (s.cancel id none).writer with
    | none =>
      exact fin (State.veiled_update hc (fun x => { x with connected := false, writer := none })
        fun _ => rfl)
    | some conn =>
      refine veiledNext_congr ?_ rfl
      have hx := State.veiled_update hc (fun x => { x with connected := false, writer := none })
        fun _ => rfl
      simp only [noting, State.veiled_phase, State.veiled_sealConn, hx]

/-! ### What the worker does -/

section
variable {t : State} (ht : t.veiled = s.veiled)
include ht

theorem tearDown_veiled (final : Bool) : (t.tearDown final).veiled = (s.tearDown final).veiled := by
  rw [State.veiled_tearDown, State.veiled_tearDown, ht]

theorem onConn_veiled {f : Connection → Connection} (hf : ∀ c, (f c).veiled = f c.veiled)
    (conn : Nat) : (t.onConn conn f).veiled = (s.onConn conn f).veiled := by
  rw [State.veiled_onConn hf, State.veiled_onConn hf, ht]

theorem abandonConn_veiled (conn : Nat) :
    (t.abandonConn conn).veiled = (s.abandonConn conn).veiled := by
  rw [State.veiled_abandonConn, State.veiled_abandonConn, ht]

theorem readingEnds_veiled (conn : Nat) (e : ExchangeError) :
    veiledNext (readingEnds t conn e) = veiledNext (readingEnds s conn e) :=
  veiledNext_congr (tearDown_veiled (abandonConn_veiled ht conn) false) rfl

theorem removeConn_veiled (final : Bool) :
    veiledNext (removeConn t final) = veiledNext (removeConn s final) := by
  obtain ⟨hl, hw, -⟩ := State.eq_of_veiled ht
  refine veiledNext_congr ?_ rfl
  have hx := State.veiled_update ht (fun x =>
    { x with
      writer := none
      lock := s.lock.release
      worker := if final then .stopped else .sleeping }) fun _ => rfl
  unfold removeConn
  rw [hw, hl]
  cases s.writer with
  | none => exact hx
  | some conn =>
    simp only [State.veiled_sealConn]
    exact congrArg (State.sealConn · conn) hx

/-- A reply is given to the same call under the veil. -/
theorem routeReply_veiled (conn : Nat) (raw : String) (r : Reply) :
    veiledNext (routeReply t conn raw r) = veiledNext (routeReply s conn raw r) := by
  have hc : t.correlator = s.correlator := (State.eq_of_veiled ht).2.2.1
  have hlisten : t.listens = s.listens := by
    funext id
    rw [← State.listens_veiled, ht, State.listens_veiled]
  have hx := State.veiled_update ht
    (fun x => { x with correlator := (s.correlator.dispatch r).1 }) fun _ => rfl
  unfold routeReply
  simp only [hc, hlisten]
  cases (s.correlator.dispatch r).2 with
  | completed id answer =>
    refine veiledNext_congr ?_ rfl
    simp only [State.veiled_fill, hx]
  | continued => exact veiledNext_congr hx rfl
  | stale => exact veiledNext_congr hx rfl
  | unmatched => exact veiledNext_congr hx rfl

/-- A line is heard in the same way under the veil. -/
theorem readBytes_veiled (conn : Nat) (bytes : List UInt8) :
    veiledNext (readBytes setup t conn bytes) = veiledNext (readBytes setup s conn bytes) := by
  unfold readBytes
  simp only
  split
  · exact veiledNext_congr ht rfl
  · unfold handleLine
    split
    · rename_i r _
      have hr := routeReply_veiled ht conn (lineText bytes) r
      refine veiledNext_congr (congrArg Prod.fst hr) ?_
      simp only [noting, veiledNotes_append]
      exact congrArg _ (congrArg Prod.snd hr)
    · exact veiledNext_congr ht rfl
    · exact veiledNext_congr ht rfl

/-- A worker that is asked to stop does the same under the veil. -/
theorem stopWorker_veiled (w : Worker) :
    ((stopWorker t w).map fun x => ((x, []) : Next)).map veiledNext =
      ((stopWorker s w).map fun x => ((x, []) : Next)).map veiledNext := by
  have some_tearDown {x y : State} (h : x.veiled = y.veiled) :
      (some (x.tearDown true, ([] : List Note))).map veiledNext =
        (some (y.tearDown true, ([] : List Note))).map veiledNext :=
    congrArg some (veiledNext_congr (tearDown_veiled h true) rfl)
  cases w with
  | connecting => exact some_tearDown ht
  | sleeping => exact some_tearDown ht
  | reading conn => exact some_tearDown (abandonConn_veiled ht conn)
  | installing conn =>
    have hl : t.lock = s.lock := (State.eq_of_veiled ht).1
    have hx := State.veiled_update ht (fun x => { x with lock := s.lock.leave .worker })
      fun _ => rfl
    rw [stopWorker, stopWorker, hl]
    refine some_tearDown (abandonConn_veiled ?_ conn)
    rw [State.veiled_sealConn, State.veiled_sealConn, hx]
  | _ => rfl

end

/-! ### Steps -/

/-- A change to a state under the veil, after which nothing is noted. -/
theorem some_veiled {x y : State} (h : x.veiled = y.veiled) (notes : List Note) :
    (some ((x, notes) : Next)).map veiledNext = (some ((y, notes) : Next)).map veiledNext :=
  congrArg some (veiledNext_congr h rfl)

/-- Every action but the writing of bytes can happen under the veil when it can happen
without it, leads to the same and notes the same. -/
theorem step_veiled (ha : a.isWrite = false) :
    (step setup s.veiled a.veiled).map veiledNext = (step setup s a).map veiledNext := by
  have ht : s.veiled.veiled = s.veiled := s.veiled_veiled
  have hcall : ∀ id, s.veiled.calls[id]? = s.calls[id]?.map Call.veiled := s.veiled_calls
  have hconn : ∀ conn, s.veiled.conns[conn]? = s.conns[conn]?.map Connection.veiled :=
    s.veiled_conns
  have hlen : s.veiled.conns.length = s.conns.length := List.length_map _
  have hw : s.veiled.worker = s.worker := rfl
  have hlock : s.veiled.lock = s.lock := rfl
  have hresync : s.veiled.resync = s.resync := rfl
  have hstopping : s.veiled.stopping = s.stopping := rfl
  cases a with
  | call subcommand args =>
    have hnew : Call.veiled { subcommand := subcommand, args := args.map Arg.veiled } =
        Call.veiled { subcommand := subcommand, args := args } := by
      simp only [Call.veiled, List.map_map, Function.comp_def, Arg.veiled_veiled]
    refine some_veiled ?_ _
    simp [State.veiled, Function.comp_def, hnew]
  | begin id =>
    simp only [Action.veiled, step, hcall]
    cases s.calls[id]? with
    | none => rfl
    | some c =>
      obtain ⟨subcommand, args, phase, slot⟩ := c
      cases phase with
      | queued =>
        simp only [Option.map_some, Call.veiled, Phase.veiled]
        rw [hlock]
        by_cases hl : s.lock.holder = some (.call id)
        · rw [if_pos hl, if_pos hl]
          exact congrArg some (beginCall_veiled setup.config s id ⟨subcommand, args, .queued, slot⟩)
        · rw [if_neg hl, if_neg hl]
      | _ => rfl
  | write => cases ha
  | writeFails id cause =>
    simp only [Action.veiled, step, hcall]
    cases s.calls[id]? with
    | none => rfl
    | some c =>
      obtain ⟨subcommand, args, phase, slot⟩ := c
      cases phase with
      | writing seq conn rest =>
        refine some_veiled ?_ _
        have hx : (s.veiled.cancel id seq).veiled = (s.cancel id seq).veiled := by
          rw [← State.veiled_cancel, State.veiled_veiled]
        exact congrArg Prod.fst (finish_veiled hx id _)
      | _ => rfl
  | receive id elapsed =>
    simp only [Action.veiled, step, hcall]
    cases s.calls[id]? with
    | none => rfl
    | some c =>
      obtain ⟨subcommand, args, phase, slot⟩ := c
      cases phase with
      | awaiting seq conn => exact receiveAnswer_veiled ht setup.config id _ elapsed
      | _ => rfl
  | timeout id =>
    simp only [Action.veiled, step, hcall]
    cases s.calls[id]? with
    | none => rfl
    | some c =>
      obtain ⟨subcommand, args, phase, slot⟩ := c
      cases setup.config.commandTimeout with
      | none => cases phase <;> cases slot <;> rfl
      | some limit =>
        cases phase with
        | awaiting seq conn =>
          cases slot with
          | waiting => exact some_veiled (by rw [State.veiled_phase, State.veiled_phase, ht]) _
          | _ => rfl
        | _ => rfl
  | giveUp id =>
    simp only [Action.veiled, step, hcall]
    cases s.calls[id]? with
    | none => rfl
    | some c =>
      obtain ⟨subcommand, args, phase, slot⟩ := c
      cases setup.config.commandTimeout with
      | none => cases phase <;> rfl
      | some limit =>
        cases phase with
        | expired seq conn => exact congrArg some (giveUpCall_veiled ht id subcommand seq limit)
        | _ => rfl
  | notify id =>
    simp only [Action.veiled, step, hcall]
    cases s.calls[id]? with
    | none => rfl
    | some c =>
      obtain ⟨subcommand, args, phase, slot⟩ := c
      cases setup.config.commandTimeout with
      | none => cases phase <;> rfl
      | some limit =>
        cases phase with
        | closing =>
          have hx := State.veiled_update ht (fun x => { x with resync := true }) fun _ => rfl
          exact congrArg some (finish_veiled hx id _)
        | _ => rfl
  | drop id =>
    simp only [Action.veiled, step, hcall]
    cases s.calls[id]? with
    | none => rfl
    | some c =>
      obtain ⟨subcommand, args, phase, slot⟩ := c
      have hx := State.veiled_update ht (fun x => { x with lock := s.lock.leave (.call id) })
        fun _ => rfl
      have hd : (State.onCall { s.veiled with lock := s.lock.leave (.call id) } id
            fun c => { c with phase := .dropped }).veiled =
          (State.onCall { s with lock := s.lock.leave (.call id) } id
            fun c => { c with phase := .dropped }).veiled := by
        rw [State.veiled_phase, State.veiled_phase, hx]
      cases phase with
      | expired => rfl
      | finished => rfl
      | dropped => rfl
      | _ => exact some_veiled hd _
  | start =>
    simp only [Action.veiled, step, hw]
    split
    · have hworker :=
        State.veiled_update ht (fun x => { x with worker := .connecting }) fun _ => rfl
      exact some_veiled hworker _
    · rfl
  | connect =>
    simp only [Action.veiled, step, hw]
    split
    · refine some_veiled ?_ _
      simp [State.veiled, Connection.veiled, Function.comp_def]
    · rfl
  | connectFails cause =>
    simp only [Action.veiled, step, hw]
    split
    · exact some_veiled (tearDown_veiled ht false) _
    · rfl
  | install =>
    simp only [Action.veiled, step, hw]
    cases s.worker with
    | installing conn =>
      simp only [hlock]
      split
      · exact some_veiled (State.veiled_update ht (installConn · conn) fun _ => rfl) _
      · rfl
    | _ => rfl
  | «open» =>
    simp only [Action.veiled, step, hw]
    cases s.worker with
    | opening conn =>
      exact some_veiled (State.veiled_update ht (fun x => (openConn setup x conn).1) fun _ => rfl) _
    | _ => rfl
  | readLine =>
    simp only [Action.veiled, step, hw]
    cases s.worker with
    | reading conn =>
      simp only [hconn]
      cases hc : s.conns[conn]? with
      | none => rfl
      | some c =>
        simp only [Option.map_some, Option.bind_some, Connection.veiled]
        cases takeLine? setup.config.framing.terminator c.inbox with
        | none => rfl
        | some line =>
          have hx := onConn_veiled ht (f := fun c => { c with inbox := line.2 }) (fun _ => rfl) conn
          exact congrArg some (readBytes_veiled hx conn line.1)
    | _ => rfl
  | readEnd =>
    simp only [Action.veiled, step, hw]
    cases s.worker with
    | reading conn =>
      simp only [hconn]
      cases s.conns[conn]? with
      | none => rfl
      | some c =>
        simp only [Option.map_some, Connection.veiled]
        split
        · exact congrArg some (readingEnds_veiled ht conn _)
        · rfl
    | _ => rfl
  | readFails cause =>
    simp only [Action.veiled, step, hw]
    cases s.worker with
    | reading conn => exact congrArg some (readingEnds_veiled ht conn _)
    | _ => rfl
  | resync =>
    simp only [Action.veiled, step, hw, hresync]
    cases s.worker with
    | reading conn =>
      simp only
      split
      · have hx := State.veiled_update ht (fun x => { x with resync := false }) fun _ => rfl
        exact congrArg some (readingEnds_veiled hx conn _)
      · rfl
    | _ => rfl
  | disconnect =>
    simp only [Action.veiled, step, hw, hlock]
    cases s.worker with
    | disconnecting final =>
      simp only
      split
      · exact congrArg some (removeConn_veiled ht final)
      · rfl
    | _ => rfl
  | wake =>
    simp only [Action.veiled, step, hw]
    split
    · have hworker :=
        State.veiled_update ht (fun x => { x with worker := .connecting }) fun _ => rfl
      exact some_veiled hworker _
    · rfl
  | signal =>
    exact some_veiled (State.veiled_update ht (fun x => { x with stopping := true }) fun _ => rfl) _
  | stop =>
    simp only [Action.veiled, step, hw, hstopping]
    split
    · exact stopWorker_veiled ht s.worker
    · rfl
  | deliver conn bytes =>
    simp only [Action.veiled, step, hconn]
    cases s.conns[conn]? with
    | none => rfl
    | some c =>
      simp only [Option.map_some, Connection.veiled]
      split
      · rfl
      · refine some_veiled (onConn_veiled ht (fun c => ?_) conn) _
        rfl
  | finish conn =>
    simp only [Action.veiled, step, hlen]
    split
    · refine some_veiled (onConn_veiled ht (fun c => ?_) conn) _
      rfl
    · rfl
  | breakOff conn =>
    simp only [Action.veiled, step, hlen]
    split
    · refine some_veiled (onConn_veiled ht (fun c => ?_) conn) _
      rfl
    · rfl

/-- Actions that are the same under the veil lead to the same from states that are. -/
theorem step_alike {t : State} {b : Action} (ht : t.veiled = s.veiled) (hb : b.veiled = a.veiled)
    (ha : a.isWrite = false) :
    (step setup t b).map veiledNext = (step setup s a).map veiledNext := by
  have hnot : b.isWrite = false := by
    cases b with
    | write id count =>
      cases a with
      | write => cases ha
      | _ => cases hb
    | _ => rfl
  rw [← step_veiled hnot, ht, hb, step_veiled ha]

/-! ### Writing -/

/-- Whether a write of so many bytes writes the rest of a command. -/
def State.completes (s : State) (id count : Nat) : Bool :=
  match s.phase? id with
  | some (.writing _ _ rest) => rest.length ≤ count
  | _ => false

/-- Which bytes have been written is not seen. -/
theorem State.veiled_written (s : State) (conn : Nat) (bytes : List UInt8) :
    (s.onConn conn fun c => { c with written := c.written ++ bytes }).veiled = s.veiled := by
  have hl : (s.conns.modify conn fun c => { c with written := c.written ++ bytes }).map
      Connection.veiled = s.conns.map Connection.veiled := by
    apply List.ext_getElem?
    intro i
    rw [List.getElem?_map, List.getElem?_map, List.getElem?_modify]
    by_cases hi : conn = i
    · have hf : ∀ c : Connection,
          ({ c with written := c.written ++ bytes } : Connection).veiled = c.veiled := fun _ => rfl
      simp [hi, Function.comp_def, hf]
    · simp [hi]
  simp only [veiled, onConn, hl]

/-- How much of a command is left to write is not seen. -/
theorem State.veiled_rest {call : Call} (hc : s.calls[id]? = some call) {q : Phase}
    (hq : q.veiled = call.phase.veiled) :
    (s.onCall id fun c => { c with phase := q }).veiled = s.veiled := by
  have hl : (s.calls.modify id fun c => { c with phase := q }).map Call.veiled =
      s.calls.map Call.veiled := by
    apply List.ext_getElem?
    intro i
    rw [List.getElem?_map, List.getElem?_map, List.getElem?_modify]
    by_cases hi : id = i
    · subst hi
      simp [hc, Call.veiled, hq]
    · simp [hi]
  simp only [veiled, onCall, hl]

/-- Writing some of a command, but not all that is left, is not seen. -/
theorem step_write_part {count : Nat} (h : step setup s (.write id count) = some (s', ns))
    (hn : s.completes id count = false) : s'.veiled = s.veiled ∧ veiledNotes ns = [] := by
  cases step_move h with
  | @write _ conn _ call seq rest hc hp _ hr =>
    have hrest := State.veiled_rest
      (s := s.onConn conn fun c => { c with written := c.written ++ rest.take count })
      (q := .writing seq conn (rest.drop count)) hc (by rw [hp]; rfl)
    exact ⟨hrest.trans (s.veiled_written conn _), rfl⟩
  | send hc hp _ hr =>
    rw [State.completes, State.phase?_eq hc, hp, decide_eq_false_iff_not] at hn
    exact absurd hr hn

/-- Writing all that is left of a command can happen under the veil. -/
theorem step_write_whole {count : Nat} (h : step setup s (.write id count) = some (s', ns))
    (hn : s.completes id count = true) :
    (step setup s.veiled (.write id 1)).map veiledNext = some (veiledNext (s', ns)) := by
  obtain ⟨call, seq, conn, rest, hc, hp, hb, h0⟩ := step_write_inv h
  rw [State.completes, State.phase?_eq hc, hp, decide_eq_true_iff] at hn
  rw [step_write_some hc hp hb h0 hn] at h
  cases h
  have hc' : s.veiled.calls[id]? = some call.veiled := by rw [State.veiled_calls, hc]; rfl
  have hp' : call.veiled.phase = .writing seq conn [0] := by rw [Call.veiled, hp]; rfl
  have hb' : (s.veiled.conns[conn]?.map (·.broken)).getD true = false := by
    rw [State.veiled_conns, Option.map_map]
    exact hb
  rw [step_write_some hc' hp' hb' Nat.one_pos Nat.le.refl]
  refine some_veiled ?_ _
  rw [State.veiled_phase, State.veiled_phase, State.veiled_written, State.veiled_written,
    State.veiled_veiled]

/-- Writing that can happen under the veil can happen without it. -/
theorem step_write_unveiled {next : Next}
    (h : (step setup s.veiled (.write id 1)).map veiledNext = some next) :
    ∃ count s' ns, step setup s (.write id count) = some (s', ns) ∧
      s.completes id count = true ∧ veiledNext (s', ns) = next := by
  obtain ⟨x, hx, -⟩ := Option.map_eq_some_iff.mp h
  obtain ⟨c, seq, conn, _, hc, hv, hb, -⟩ := step_write_inv hx
  rw [State.veiled_calls, Option.map_eq_some_iff] at hc
  obtain ⟨call, hc, rfl⟩ := hc
  rw [State.veiled_conns, Option.map_map] at hb
  obtain ⟨rest, hp⟩ := Phase.writing_of_veiled hv
  have hw : step setup s (.write id (rest.length + 1)) = _ :=
    step_write_some hc hp hb (Nat.succ_pos rest.length) (Nat.le_succ _)
  have hn : s.completes id (rest.length + 1) = true := by
    rw [State.completes, State.phase?_eq hc, hp]
    exact decide_eq_true (Nat.le_succ _)
  refine ⟨rest.length + 1, _, _, hw, hn, ?_⟩
  rw [step_write_whole hw hn] at h
  exact Option.some.inj h

/-! ### Runs -/

/-- What is seen of an action in a state: nothing, if some of a command is written but not all that
is left. -/
def Action.seen? (s : State) : Action → Option Action
  | .write id count => if s.completes id count then some (.write id 1) else none
  | a => some a.veiled

/-- The schedule of actions in a row: those that are seen. -/
def schedule (setup : Setup) (s : State) : List Action → List Action
  | [] => []
  | a :: as =>
    (a.seen? s).toList ++
      match step setup s a with
      | none => []
      | some (s', _) => schedule setup s' as

/-- A run under the veil. -/
def veiledRun (setup : Setup) (v : State) : List Action → Option Next
  | [] => some (v, [])
  | a :: as =>
    match (step setup v a).map veiledNext with
    | none => none
    | some (v', ns) => (veiledRun setup v' as).map (noting ns)

/-- A step is either not seen or can happen under the veil. -/
theorem step_seen (h : step setup s a = some (s', ns)) :
    (a.seen? s = none ∧ s'.veiled = s.veiled ∧ veiledNotes ns = []) ∨
      ∃ b, a.seen? s = some b ∧
        (step setup s.veiled b).map veiledNext = some (s'.veiled, veiledNotes ns) := by
  by_cases hw : a.isWrite = true
  · obtain ⟨id, count, rfl⟩ := Action.isWrite_iff.mp hw
    cases hn : s.completes id count with
    | false => exact .inl ⟨by simp only [Action.seen?, hn, Bool.false_eq_true, if_false],
        step_write_part h hn⟩
    | true => exact .inr ⟨.write id 1, by simp only [Action.seen?, hn, if_true],
        step_write_whole h hn⟩
  · have ha : a.isWrite = false := by simpa using hw
    have hseen : a.seen? s = some a.veiled := by
      cases a with
      | write => cases ha
      | _ => rfl
    refine .inr ⟨a.veiled, hseen, ?_⟩
    rw [step_veiled ha, h]
    rfl

/-- What a run leads to and notes, under the veil, follows from its schedule. -/
theorem run_veiled {as : List Action} (h : run setup s as = some (s', ns)) :
    veiledRun setup s.veiled (schedule setup s as) = some (s'.veiled, veiledNotes ns) := by
  induction as generalizing s ns with
  | nil =>
    cases h
    rfl
  | cons a as ih =>
    obtain ⟨u, n₁, n₂, h₁, h₂, rfl⟩ := run_cons.mp h
    have hrest := ih h₂
    rw [schedule, h₁, veiledNotes_append]
    obtain ⟨hn, hu, he⟩ | ⟨b, hb, hu⟩ := step_seen h₁
    · rw [hn, he, ← hu]
      exact hrest
    · rw [hb]
      simp only [Option.toList_some, List.singleton_append, veiledRun, hu, hrest, Option.map_some,
        noting]

/-- Two runs with the same schedule, from states that are the same under the veil, lead to the same
and note the same, under the veil. -/
theorem run_alike {t t' : State} {as bs : List Action} {ns' : List Note}
    (ht : t.veiled = s.veiled) (h : run setup s as = some (s', ns))
    (h' : run setup t bs = some (t', ns')) (hs : schedule setup t bs = schedule setup s as) :
    t'.veiled = s'.veiled ∧ veiledNotes ns' = veiledNotes ns := by
  have hv := run_veiled h'
  rw [hs, ht, run_veiled h, Option.some.injEq, Prod.mk.injEq] at hv
  exact ⟨hv.1.symm, hv.2.symm⟩

/-- Every run can be followed from a state that is the same under the veil, by the same actions but
for the sizes of the pieces in which the commands are written. -/
theorem run_matched {t : State} {as : List Action} (ht : t.veiled = s.veiled)
    (h : run setup s as = some (s', ns)) :
    ∃ bs t' ns', run setup t bs = some (t', ns') ∧ schedule setup t bs = schedule setup s as ∧
      bs.filter (!·.isWrite) = as.filter (!·.isWrite) := by
  induction as generalizing s t ns with
  | nil => exact ⟨[], t, [], rfl, rfl, rfl⟩
  | cons a as ih =>
    obtain ⟨u, n₁, n₂, h₁, h₂, rfl⟩ := run_cons.mp h
    rw [schedule, h₁]
    by_cases hw : a.isWrite = true
    · obtain ⟨id, count, rfl⟩ := Action.isWrite_iff.mp hw
      cases hn : s.completes id count with
      | false =>
        -- The rest of the command may be short here: nothing is written yet.
        obtain ⟨hu, -⟩ := step_write_part h₁ hn
        obtain ⟨bs, t', ns', hr, hs, hf⟩ := ih (ht.trans hu.symm) h₂
        refine ⟨bs, t', ns', hr, ?_, hf⟩
        simp only [Action.seen?, hn, hs, Bool.false_eq_true, if_false, Option.toList_none,
          List.nil_append]
      | true =>
        have hv := step_write_whole h₁ hn
        rw [← ht] at hv
        obtain ⟨count', v, n', hstep, hn', he⟩ := step_write_unveiled hv
        obtain ⟨bs, t', ns', hr, hs, hf⟩ := ih (congrArg Prod.fst he) h₂
        have hrun := run_cons.mpr ⟨v, n', ns', hstep, hr, rfl⟩
        refine ⟨.write id count' :: bs, t', n' ++ ns', hrun, ?_, hf⟩
        simp only [schedule, hstep, Action.seen?, hn, hn', hs, if_true]
    · have ha : a.isWrite = false := by simpa using hw
      have hv : (step setup t a).map veiledNext = _ := step_alike ht rfl ha
      rw [h₁, Option.map_some, Option.map_eq_some_iff] at hv
      obtain ⟨⟨v, n'⟩, hstep, he⟩ := hv
      obtain ⟨bs, t', ns', hr, hs, hf⟩ := ih (congrArg Prod.fst he) h₂
      have hseen : a.seen? t = a.seen? s := by
        cases a with
        | write => cases ha
        | _ => rfl
      refine ⟨a :: bs, t', n' ++ ns', run_cons.mpr ⟨v, n', ns', hstep, hr, rfl⟩, ?_, ?_⟩
      · simp only [schedule, hstep, hseen, hs]
      · rw [List.filter_cons, List.filter_cons, hf]

end Connector
end EfsControl

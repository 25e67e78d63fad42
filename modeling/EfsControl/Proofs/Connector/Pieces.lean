/-
# What the calls have written on a connection

A call that is registered on a connection writes its command there, bit by bit,
with the lock in its hands. So what stands on a connection is what its calls
have written, one after the other in the order of their registrations. A
command is written in full, or its call is writing it, or the call has ended
before: its caller went away or writing failed.

Key definitions: `Piece`, `pieces`, `Phase.isBroken`, `Piece.Stands`, `Accounts`.
Key theorems: `step_ink`, `Move.broken`, `Accounts.step`, `run_accounts`.
-/
import EfsControl.Proofs.Connector.Waiting
import Mathlib.Data.List.ModifyLast

namespace EfsControl
namespace Connector

variable {setup : Setup} {framing : Framing} {s s' : State} {a : Action} {notes ns : List Note}
  {id conn : Nat} {seq : Option UInt32} {bytes rest : List UInt8}

/-! ### Pieces -/

/-- A call that was registered on a connection, and what it has written there. -/
structure Piece where
  call : Registration
  bytes : List UInt8
  deriving DecidableEq

namespace Piece

/-- The command of the call, as it is written. -/
def frame (framing : Framing) (p : Piece) : List UInt8 := p.call.command.frame framing

/-- The call has written more. -/
def add (more : List UInt8) (p : Piece) : Piece := { p with bytes := p.bytes ++ more }

@[simp] theorem add_call (more : List UInt8) (p : Piece) : (p.add more).call = p.call := rfl

@[simp] theorem add_bytes (more : List UInt8) (p : Piece) :
    (p.add more).bytes = p.bytes ++ more := rfl

end Piece

/-- The pieces on a connection after one more note. Only the call that was registered last
writes. -/
def addNote (conn : Nat) (ps : List Piece) : Note → List Piece
  | .registered id seq c command => if c = conn then ps ++ [⟨⟨id, seq, c, command⟩, []⟩] else ps
  | .wrote c bytes => if c = conn then ps.modifyLast (Piece.add bytes) else ps
  | _ => ps

/-- What the calls that were registered on a connection have written there. -/
def pieces (conn : Nat) (notes : List Note) : List Piece := notes.foldl (addNote conn) []

/-- The calls that were registered on a connection, in order. -/
def registrationsOn (conn : Nat) (notes : List Note) : List Registration :=
  (registrations notes).filter (·.conn = conn)

/-- What has been written on a connection. -/
def State.output (s : State) (conn : Nat) : List UInt8 := (s.conns[conn]?.map (·.written)).getD []

/-- Whether a note tells of a command that is to be written, or of what has been written. -/
def Note.isInk : Note → Bool
  | .registered .. | .wrote .. => true
  | _ => false

theorem pieces_append (conn : Nat) (ns₁ ns₂ : List Note) :
    pieces conn (ns₁ ++ ns₂) = ns₂.foldl (addNote conn) (pieces conn ns₁) :=
  List.foldl_append ..

section
variable (hn : ∀ n ∈ ns, n.isInk = false)
include hn

theorem pieces_no_ink (conn : Nat) (notes : List Note) :
    pieces conn (notes ++ ns) = pieces conn notes := by
  rw [pieces_append]
  generalize pieces conn notes = ps
  induction ns with
  | nil => rfl
  | cons n ns ih =>
    have hfirst : addNote conn ps n = ps := by
      have := hn n (List.mem_cons_self ..)
      cases n <;> first | rfl | cases this
    rw [List.foldl_cons, hfirst]
    exact ih fun m hm => hn m (List.mem_cons_of_mem n hm)

theorem registrations_no_ink : registrations ns = [] := by
  refine List.filterMap_eq_nil_iff.mpr fun n hm => ?_
  have := hn n hm
  cases n <;> first | rfl | cases this

end

/-! ### What a step writes -/

namespace State

theorem output_onConn (s : State) (c : Nat) {f : Connection → Connection}
    (hf : ∀ x, (f x).written = x.written) (conn : Nat) :
    (s.onConn c f).output conn = s.output conn := by
  simp only [output, onConn, List.getElem?_modify]
  split
  · cases s.conns[conn]? <;> simp [hf]
  · simp

theorem output_sealConn (s : State) (c conn : Nat) :
    (s.sealConn c).output conn = s.output conn :=
  s.output_onConn c (f := fun x => { x with sealed := true }) (fun _ => rfl) conn

theorem output_abandonConn (s : State) (c conn : Nat) :
    (s.abandonConn c).output conn = s.output conn :=
  s.output_onConn c (f := fun x => { x with abandoned := true }) (fun _ => rfl) conn

theorem output_tearDown (s : State) (final : Bool) (conn : Nat) :
    (s.tearDown final).output conn = s.output conn := rfl

/-- Writing adds to one connection. -/
theorem output_write (s : State) {c : Nat} (hc : c < s.conns.length) (bytes : List UInt8)
    (conn : Nat) :
    (s.onConn c fun x => { x with written := x.written ++ bytes }).output conn =
      if c = conn then s.output conn ++ bytes else s.output conn := by
  simp only [output, onConn, List.getElem?_modify]
  by_cases he : c = conn
  · subst he
    simp [List.getElem?_eq_getElem hc]
  · simp [he]

/-- A new connection is empty. -/
theorem output_connect (s : State) (l : Lock) (w : Worker) (conn : Nat) :
    State.output { s with conns := s.conns ++ [{}], lock := l, worker := w } conn =
      s.output conn := by
  simp only [output]
  by_cases h : conn < s.conns.length
  · rw [List.getElem?_append_left h]
  · rw [List.getElem?_append_right (Nat.le_of_not_lt h), List.getElem?_eq_none (Nat.le_of_not_lt h)]
    cases conn - s.conns.length <;> rfl

end State

theorem routeReply_output (s : State) (conn : Nat) (raw : String) (r : Reply) (c : Nat) :
    (routeReply s conn raw r).1.output c = s.output c := by
  rw [routeReply_fst]
  split <;> rfl

theorem removeConn_output (s : State) (final : Bool) (c : Nat) :
    (removeConn s final).1.output c = s.output c := by
  unfold removeConn
  cases s.writer with
  | none => rfl
  | some conn => exact State.output_sealConn _ conn c

/-- What a step can do to what is written, with what is noted. -/
inductive Ink (setup : Setup) (s : State) : Action → State → List Note → Prop
  | none {a : Action} {s' : State} {ns : List Note} (hn : ∀ n ∈ ns, n.isInk = false)
    (ha : a.isWrite = false) (ho : ∀ c, s'.output c = s.output c) :
    Ink setup s a s' ns
  | register {id conn : Nat} {seq : Option UInt32} {command : EncodedCommand} {e : LogEntry}
    {s' : State} (hq : s.phase? id = some .queued)
    (hp : s'.phase? id = some (.writing seq conn (command.frame setup.config.framing)))
    (ho : ∀ c, s'.output c = s.output c) :
    Ink setup s (.begin id) s' [.registered id seq conn command, .log e]
  /-- A part of what is left is written. -/
  | write {id count conn : Nat} {seq : Option UInt32} {bytes rest : List UInt8} {s' : State}
    (hp : s.phase? id = some (.writing seq conn (bytes ++ rest))) (hb : bytes ≠ []) (hr : rest ≠ [])
    (hp' : s'.phase? id = some (.writing seq conn rest))
    (ho : ∀ c, s'.output c = if conn = c then s.output c ++ bytes else s.output c) :
    Ink setup s (.write id count) s' [.wrote conn bytes]
  | send {id count conn : Nat} {seq : Option UInt32} {rest : List UInt8} {s' : State}
    (hp : s.phase? id = some (.writing seq conn rest))
    (ho : ∀ c, s'.output c = if conn = c then s.output c ++ rest else s.output c) :
    Ink setup s (.write id count) s' [.wrote conn rest, .sent id conn]

/-- A connection on which a call writes is there. -/
theorem step_write_conn {count : Nat} {next : Next} {call : Call}
    (h : step setup s (.write id count) = some next) (hc : s.calls[id]? = some call)
    (hp : call.phase = .writing seq conn rest) : conn < s.conns.length := by
  obtain ⟨call', seq', conn', rest', hc', hp', hb, -⟩ := step_write_inv h
  obtain rfl : call = call' := Option.some.inj (hc.symm.trans hc')
  obtain ⟨-, rfl, -⟩ : seq = seq' ∧ conn = conn' ∧ rest = rest' := by simpa [hp] using hp'
  by_contra hn
  rw [List.getElem?_eq_none (Nat.le_of_not_lt hn)] at hb
  cases hb

/-- Every step writes in one of these ways. -/
theorem step_ink (h : step setup s a = some (s', ns)) : Ink setup s a s' ns := by
  have silent : ∀ l : List LogEntry, ∀ n ∈ l.map Note.log, n.isInk = false := fun l n hn => by
    obtain ⟨e, -, rfl⟩ := List.mem_map.mp hn
    rfl
  cases step_move h with
  | register hc hp _ _ _ _ =>
    have hq := hp ▸ State.phase?_eq hc
    exact .register hq ((State.phase?_onCall hq _ _).trans (if_pos rfl)) fun _ => rfl
  | @write id conn count call seq rest hc hp hn hr =>
    have hq := hp ▸ State.phase?_eq hc
    have hlt := step_write_conn h hc hp
    have hpos : 0 < (rest.take count).length := by
      rw [List.length_take]
      omega
    have hsplit : s.phase? id = some (.writing seq conn (rest.take count ++ rest.drop count)) := by
      rw [List.take_append_drop, hq]
    have hrest : rest.drop count ≠ [] := by simpa using hr
    exact .write hsplit (List.ne_nil_of_length_pos hpos) hrest
      ((State.phase?_onCall hq _ _).trans (if_pos rfl)) (State.output_write s hlt (rest.take count))
  | @send id conn count call seq rest hc hp hn hr =>
    have hq := hp ▸ State.phase?_eq hc
    have hlt := step_write_conn h hc hp
    refine .send hq fun c => (State.output_write s hlt (rest.take count) c).trans ?_
    rw [List.take_of_length_le hr]
  | connect =>
    exact .none (silent []) rfl (State.output_connect s _ _)
  | @skip conn rest =>
    exact .none (silent []) rfl
      (s.output_onConn conn (f := fun c => { c with inbox := rest }) fun _ => rfl)
  | deliver conn | finish conn | breakOff conn =>
    exact .none (silent []) rfl (s.output_onConn conn fun _ => rfl)
  | @hear conn rest _ _ _ _ hn =>
    refine .none (List.forall_mem_cons.mpr ⟨rfl, fun n hm => ?_⟩) rfl
      (s.output_onConn conn (f := fun c => { c with inbox := rest }) fun _ => rfl)
    obtain ⟨_, rfl⟩ | ⟨_, rfl⟩ := hn n hm <;> rfl
  | @reply conn rest raw r =>
    obtain ⟨entries, hns⟩ := routeReply_notes
      (s.onConn conn fun c => { c with inbox := rest }) conn raw r
    rw [hns]
    refine .none ?_ rfl fun c => (routeReply_output ..).trans ?_
    · exact List.forall_mem_cons.mpr ⟨rfl, List.forall_mem_cons.mpr ⟨rfl, silent entries⟩⟩
    · exact s.output_onConn conn (f := fun c => { c with inbox := rest }) (fun _ => rfl) c
  | @disconnect final =>
    refine .none ?_ rfl (removeConn_output s final)
    cases final
    · exact silent []
    · exact silent [.stopped]
  | sever | fail | answer =>
    exact .none (List.forall_mem_append.mpr ⟨silent _, by simp [Note.isInk]⟩) rfl fun _ => rfl
  | «open» =>
    exact .none (List.forall_mem_cons.mpr ⟨rfl, List.forall_mem_cons.mpr ⟨rfl, silent _⟩⟩) rfl
      fun _ => rfl
  | @close id _ conn => exact .none (silent [_]) rfl (State.output_sealConn _ conn)
  | @readEnd conn | @readFail conn | @stopReading conn =>
    refine .none (by simp [Note.isInk]) rfl fun c => ?_
    rw [State.output_tearDown, State.output_abandonConn]
  | @resync conn =>
    refine .none (by simp [Note.isInk]) rfl fun c => ?_
    rw [State.output_tearDown, State.output_abandonConn]
    rfl
  | @stopInstalling conn =>
    refine .none (silent []) rfl fun c => ?_
    rw [State.output_tearDown, State.output_abandonConn, State.output_sealConn]
    rfl
  | _ => exact .none (by simp [Note.isInk]) rfl fun _ => rfl

/-! ### How far the commands on a connection are -/

/-- Whether a call may have left its command unfinished: its caller went away, or writing failed. -/
def Phase.isBroken : Phase → Bool
  | .dropped | .finished (.error (.io _)) => true
  | _ => false

theorem Phase.over_of_broken {q : Phase} (h : q.isBroken = true) : q.isOver = true := by
  cases q <;> first | rfl | cases h

/-- A call that is writing and does not write goes on to write, goes away or fails. -/
theorem Move.writing (hm : Move setup s a s' ns) (ha : a.isWrite = false)
    (hp : s.phase? id = some (.writing seq conn rest)) :
    s'.phase? id = some (.writing seq conn rest) ∨
      ∃ q, s'.phase? id = some q ∧ q.isBroken = true := by
  by_cases hown : a.caller? = some id
  · have writes : ∀ {call : Call} {q : Phase}, s.calls[id]? = some call → call.phase = q →
        q = .writing seq conn rest := fun hc hq =>
      hq.symm.trans (Option.some.inj ((State.phase?_eq hc).symm.trans hp))
    cases hm with
    | refuse hc h | reject hc h | register hc h | sever hc h | fail hc h | answer hc h
    | expire hc h | giveUp hc h | giveUpLate hc h | close hc h | notify hc h =>
      cases hown
      cases writes hc h
    | write | send => cases ha
    | writeFail cause =>
      cases hown
      refine .inr ⟨.finished (.error (.io cause)), ?_, rfl⟩
      exact (State.phase?_finish ((State.phase?_cancel ..).trans hp) _ _).trans (if_pos rfl)
    | drop =>
      cases hown
      exact .inr ⟨.dropped, (State.phase?_onCall hp _ _).trans (if_pos rfl), rfl⟩
    | _ => cases hown
  · exact .inl ((hm.phase_other hown (State.phase?_lt hp)).trans hp)

/-- A call that is there now and was not there before waits for the lock. -/
theorem Move.arrives (hm : Move setup s a s' ns) (hw : Wired s) {q : Phase}
    (hn : s.phase? id = none) (hq : s'.phase? id = some q) : q = .queued := by
  have calm : Calm s s' → q = .queued := fun hc => by
    have ht := hc id
    rw [hn, hq] at ht
    cases ht
    rfl
  have other : ∀ {i : Nat} {p r : Phase}, s.phase? i = some p →
      (∀ j, s'.phase? j = if j = i then some r else s.phase? j) → q = .queued := fun hi hj => by
    rw [hj, if_neg (fun he => by rw [he, hi] at hn; cases hn), hn] at hq
    cases hq
  cases hm.effect hw with
  | calm hc _ _ _ => exact calm hc
  | cancel _ _ _ hc _ _ _ => exact calm hc
  | close hc _ _ _ => exact calm hc
  | «open» _ hc _ _ _ _ => exact calm hc
  | register _ _ _ hi hj _ _ _ => exact other hi hj
  | send hi hj _ _ => exact other hi hj
  | hear hc _ _ _ _ _ => exact calm hc
  | reply hc _ _ _ _ _ => exact calm hc

/-- A call may leave its command unfinished only when its caller goes away or fails to write. -/
theorem Move.broken (hm : Move setup s a s' ns) (hs : Sound setup notes s) {q : Phase}
    (hq : s'.phase? id = some q) (hb : q.isBroken = true) :
    s.phase? id = some q ∨ a.abandons id = true := by
  by_cases ha : a.caller? = some id
  · have ends : ∀ {r : Phase}, s'.phase? id = some r → r.isBroken = false →
        s.phase? id = some q ∨ a.abandons id = true := fun hr hn => by
      rw [hq] at hr
      cases hr
      rw [hb] at hn
      cases hn
    have returns : ∀ {result}, .returned id result ∈ ns →
        (Phase.finished result).isBroken = false → s.phase? id = some q ∨ a.abandons id = true :=
      fun hr => ends (hm.returned_phase hr)
    cases hm with
    | refuse | notify =>
      cases ha
      exact returns (List.mem_singleton_self _) rfl
    | sever =>
      cases ha
      exact returns (List.mem_append_right _ (List.mem_singleton_self _)) rfl
    | giveUp | giveUpLate =>
      cases ha
      exact returns (List.mem_cons_of_mem _ (List.mem_singleton_self _)) rfl
    | reject _ _ _ _ he =>
      cases ha
      refine returns (List.mem_singleton_self _) ?_
      obtain ⟨_, rfl, -⟩ | ⟨rfl, -⟩ := he <;> rfl
    | fail hc _ hslot =>
      cases ha
      refine returns (List.mem_append_right _ (List.mem_singleton_self _)) ?_
      -- Of the errors only a lost connection is found in a slot.
      rcases hs.told id _ (hslot ▸ State.slot?_eq hc) with he | ⟨_, _, _, he, -⟩
      · cases he
        rfl
      · cases he
    | answer =>
      cases ha
      refine returns (List.mem_append_right _ (List.mem_singleton_self _)) ?_
      unfold resultOf
      split <;> rfl
    | register hc | write hc | send hc | expire hc =>
      cases ha
      exact ends ((State.phase?_onCall (State.phase?_eq hc) _ _).trans (if_pos rfl)) rfl
    | close hc =>
      cases ha
      have hp := (State.phase?_cancel s id none id).trans (State.phase?_eq hc)
      exact ends ((State.phase?_onCall hp _ _).trans (if_pos rfl)) rfl
    | writeFail | drop =>
      cases ha
      exact .inr (by simp [Action.abandons])
    | _ => cases ha
  · cases hp : s.phase? id with
    | some p => exact .inl (hp ▸ (hm.phase_other ha (State.phase?_lt hp)) ▸ hq)
    | none =>
      rw [hm.arrives hs.wired hp hq] at hb
      cases hb

/-- Callers who stay and whose writes succeed leave no command unfinished. -/
theorem run_not_broken {as : List Action} (h : run setup {} as = some (s, notes))
    (hk : ∀ a ∈ as, ∀ id, a.abandons id = false) :
    ∀ id q, s.phase? id = some q → q.isBroken = false := by
  have hstart : run setup {} [] = some ({}, []) := rfl
  refine (run_sound_from (P := fun _ s => ∀ id q, s.phase? id = some q → q.isBroken = false)
    (run_sound hstart) ?_ ?_ h).2
  · intro id q hq
    simp [State.phase?] at hq
  · intro ns t a t' ms hmem hs hold hm id q hq
    by_contra hb
    rcases hm.broken hs hq (by simpa using hb) with hp | ha
    · exact hb (hold id q hp)
    · rw [hk a hmem id] at ha
      cases ha

/-- How a piece stands. -/
inductive Piece.Stands (framing : Framing) (notes : List Note) (s : State) (p : Piece) : Prop
  /-- The command is written in full. -/
  | whole (hb : p.bytes = p.frame framing) (hs : (p.call.id, p.call.conn) ∈ commands notes)
  /-- The call is writing it. -/
  | underway {rest : List UInt8}
    (hp : s.phase? p.call.id = some (.writing p.call.seq p.call.conn rest)) (hr : rest ≠ [])
    (hb : p.bytes ++ rest = p.frame framing)
  /-- The call has ended before it was written in full. -/
  | broken {q : Phase} (hp : s.phase? p.call.id = some q) (hq : q.isBroken = true)
    (hb : p.bytes <+: p.frame framing)

namespace Piece.Stands

variable {p : Piece}

/-- What stands is the beginning of the command. -/
theorem beginning (h : p.Stands framing notes s) : p.bytes <+: p.frame framing := by
  cases h with
  | whole hb => exact hb ▸ List.prefix_refl _
  | underway _ _ hb => exact ⟨_, hb⟩
  | broken _ _ hb => exact hb

/-- The call of a piece writes nothing. -/
theorem step (h : p.Stands framing notes s) (hm : Move setup s a s' ns)
    (hw : ∀ rest, s.phase? p.call.id = some (.writing p.call.seq p.call.conn rest) →
      s'.phase? p.call.id = some (.writing p.call.seq p.call.conn rest) ∨
        ∃ q, s'.phase? p.call.id = some q ∧ q.isBroken = true) :
    p.Stands framing (notes ++ ns) s' := by
  cases h with
  | whole hb hs =>
    refine .whole hb ?_
    rw [commands_append]
    exact List.mem_append_left _ hs
  | underway hp hr hb =>
    rcases hw _ hp with hp' | ⟨q, hq, hbroken⟩
    · exact .underway hp' hr hb
    · exact .broken hq hbroken ⟨_, hb⟩
  | broken hp hq hb => exact .broken (hm.phase_over hp (Phase.over_of_broken hq)) hq hb

/-- Somebody else acts. -/
theorem other (h : p.Stands framing notes s) (hm : Move setup s a s' ns)
    (ha : a.caller? ≠ some p.call.id) : p.Stands framing (notes ++ ns) s' :=
  h.step hm fun _ hp => .inl ((hm.phase_other ha (State.phase?_lt hp)).trans hp)

/-- What a call that is writing has not yet written is the rest of its command. -/
theorem of_writing (h : p.Stands framing notes s) (hh : History notes s)
    (hp : s.phase? p.call.id = some (.writing seq conn rest)) :
    rest ≠ [] ∧ p.bytes ++ rest = p.frame framing := by
  cases h with
  | whole hb hs =>
    obtain ⟨q, hq, hpast⟩ := hh.past _ hs
    rw [hp] at hq
    cases hq
    cases hpast
  | underway hp' hr hb =>
    rw [hp] at hp'
    cases hp'
    exact ⟨hr, hb⟩
  | broken hp' hq hb =>
    rw [hp] at hp'
    cases hp'
    cases hq

end Piece.Stands

/-- What stands on a connection is what its calls have written there, each no more than its
command. -/
structure Accounts (framing : Framing) (notes : List Note) (s : State) (conn : Nat) : Prop where
  calls : (pieces conn notes).map (·.call) = registrationsOn conn notes
  output : s.output conn = (pieces conn notes).flatMap (·.bytes)
  stands : ∀ p ∈ pieces conn notes, p.Stands framing notes s

namespace Accounts

theorem init : Accounts framing [] {} conn where
  calls := rfl
  output := rfl
  stands p hp := by cases hp

/-- Nothing is written on the connection and nobody is registered there. -/
theorem keep (h : Accounts framing notes s conn)
    (hp : pieces conn (notes ++ ns) = pieces conn notes)
    (hr : registrationsOn conn (notes ++ ns) = registrationsOn conn notes)
    (ho : s'.output conn = s.output conn)
    (hs : ∀ p ∈ pieces conn notes, p.Stands framing (notes ++ ns) s') :
    Accounts framing (notes ++ ns) s' conn where
  calls := by rw [hp, hr, h.calls]
  output := by rw [hp, ho, h.output]
  stands p hm := hs p (hp ▸ hm)

/-- The call of a piece was registered on the connection. -/
theorem mem (h : Accounts framing notes s conn) {p : Piece} (hp : p ∈ pieces conn notes) :
    p.call ∈ registrations notes ∧ p.call.conn = conn := by
  have hm : p.call ∈ registrationsOn conn notes := h.calls ▸ List.mem_map_of_mem hp
  simpa [registrationsOn] using hm

/-- A call that is writing to the connection was registered last, and no other piece is its. -/
theorem last (h : Accounts framing notes s conn) (hh : History notes s)
    (hp : s.phase? id = some (.writing seq conn rest)) :
    ∃ before x, pieces conn notes = before ++ [x] ∧ x.call.id = id ∧ x.call.seq = seq ∧
      x.call.conn = conn ∧ ∀ p ∈ before, p.call.id ≠ id := by
  obtain ⟨command, hlast⟩ := hh.last id _ _ hp rfl
  obtain ⟨earlier, hreg⟩ := List.getLast?_eq_some_iff.mp hlast
  have hon : registrationsOn conn notes =
      earlier.filter (·.conn = conn) ++ [⟨id, seq, conn, command⟩] := by
    simp [registrationsOn, hreg]
  have hcalls := h.calls.trans hon
  obtain ⟨before, last, hps, hbefore, hx⟩ := List.map_eq_append_iff.mp hcalls
  obtain ⟨x, rfl, hxc⟩ := List.map_eq_singleton_iff.mp hx
  refine ⟨before, x, hps, by rw [hxc], by rw [hxc], by rw [hxc], fun p hpm he => ?_⟩
  have hnd := hh.nodup
  rw [hreg, List.map_append, List.map_singleton, List.nodup_append] at hnd
  have hmem : p.call ∈ earlier.filter (·.conn = conn) := hbefore ▸ List.mem_map_of_mem hpm
  exact hnd.2.2 p.call.id (List.mem_map_of_mem (List.mem_of_mem_filter hmem)) id
    (List.mem_singleton_self id) he

/-- A call is registered. -/
theorem register {command : EncodedCommand} {c : Nat} {e : LogEntry}
    (h : Accounts framing notes s conn) (hh : History notes s)
    (hm : Move setup s (.begin id) s' [.registered id seq c command, .log e])
    (hq : s.phase? id = some .queued)
    (hp : s'.phase? id = some (.writing seq c (command.frame framing)))
    (ho : s'.output conn = s.output conn) :
    Accounts framing (notes ++ [.registered id seq c command, .log e]) s' conn := by
  have hold : ∀ p ∈ pieces conn notes,
      p.Stands framing (notes ++ [.registered id seq c command, .log e]) s' := fun p hpm => by
    refine (h.stands p hpm).other hm fun he => ?_
    obtain rfl : id = p.call.id := Option.some.inj he
    obtain ⟨q, hq', hne⟩ := hh.begun _ (h.mem hpm).1
    rw [hq] at hq'
    exact hne (Option.some.inj hq').symm
  by_cases hc : c = conn
  · subst hc
    have hps : pieces c (notes ++ [.registered id seq c command, .log e]) =
        pieces c notes ++ [⟨⟨id, seq, c, command⟩, []⟩] := by
      simp [pieces_append, addNote]
    refine ⟨?_, ?_, fun p hpm => ?_⟩
    · simp [hps, h.calls, registrationsOn, registrations, Note.registration?]
    · simp [hps, ho, h.output]
    · rw [hps, List.mem_append, List.mem_singleton] at hpm
      rcases hpm with hpm | rfl
      · exact hold p hpm
      · exact .underway hp (by simp [EncodedCommand.frame]) rfl
  · refine h.keep ?_ ?_ ho hold
    · simp [pieces_append, addNote, hc]
    · simp [registrationsOn, registrations, Note.registration?, hc]

/-- A call writes on. -/
theorem write {count c : Nat} (h : Accounts framing notes s conn) (hh : History notes s)
    (hm : Move setup s (.write id count) s' ns) (hp : s.phase? id = some (.writing seq c rest))
    (hps : pieces conn (notes ++ ns) =
      if c = conn then (pieces conn notes).modifyLast (Piece.add bytes) else pieces conn notes)
    (hr : registrations ns = [])
    (ho : s'.output conn = if c = conn then s.output conn ++ bytes else s.output conn)
    (hs : ∀ x : Piece, x.call.id = id → x.call.seq = seq → x.call.conn = c →
      x.bytes ++ rest = x.frame framing → (x.add bytes).Stands framing (notes ++ ns) s') :
    Accounts framing (notes ++ ns) s' conn := by
  have hreg : registrationsOn conn (notes ++ ns) = registrationsOn conn notes := by
    simp [registrationsOn, hr]
  by_cases hc : c = conn
  · subst hc
    obtain ⟨before, x, hbx, hid, hseq, hconn, hne⟩ := h.last hh hp
    have hps' : pieces c (notes ++ ns) = before ++ [x.add bytes] := by
      rw [hps, if_pos rfl, hbx, List.modifyLast_concat]
    refine ⟨?_, ?_, fun p hpm => ?_⟩
    · rw [hps', hreg, ← h.calls, hbx]
      simp
    · rw [hps', ho, if_pos rfl, h.output, hbx]
      simp
    · rw [hps', List.mem_append, List.mem_singleton] at hpm
      rcases hpm with hpm | rfl
      · refine (h.stands p (hbx ▸ List.mem_append_left _ hpm)).other hm fun he => ?_
        exact hne p hpm (Option.some.inj he).symm
      · have hx := h.stands x (hbx ▸ List.mem_append_right _ (List.mem_singleton_self x))
        exact hs x hid hseq hconn (hx.of_writing hh (hid ▸ hp)).2
  · rw [if_neg hc] at hps ho
    -- The call is registered on one connection only, and that is another one.
    refine h.keep hps hreg ho fun p hpm => (h.stands p hpm).other hm fun he => ?_
    obtain rfl : id = p.call.id := Option.some.inj he
    obtain ⟨hmem, hconn⟩ := h.mem hpm
    obtain ⟨command, hregistered⟩ := hh.registered_of_link hp rfl
    have hsame := hh.eq_of_id hmem hregistered rfl
    rw [hsame] at hconn
    exact hc hconn

/-- Every step keeps the accounts. -/
theorem step (h : Accounts setup.config.framing notes s conn) (hh : History notes s)
    (hs : step setup s a = some (s', ns)) :
    Accounts setup.config.framing (notes ++ ns) s' conn := by
  have hm := step_move hs
  cases step_ink hs with
  | none hn ha ho =>
    refine h.keep (pieces_no_ink hn conn notes) ?_ (ho conn) fun p hp =>
      (h.stands p hp).step hm fun _ hw => hm.writing ha hw
    simp [registrationsOn, registrations_no_ink hn]
  | register hq hp ho => exact h.register hh hm hq hp (ho conn)
  | @write id count c seq bytes rest _ hp _ hr hp' ho =>
    refine h.write hh hm hp ?_ rfl (ho conn) fun x hid hseq hconn hb => ?_
    · simp [pieces_append, addNote]
    · subst hid hseq hconn
      refine .underway hp' hr ?_
      rw [Piece.add_bytes, List.append_assoc]
      exact hb
  | @send id count c seq rest _ hp ho =>
    refine h.write hh hm hp ?_ rfl (ho conn) fun x hid hseq hconn hb => ?_
    · simp [pieces_append, addNote]
    · subst hid hconn
      refine .whole hb ?_
      rw [mem_commands]
      simp

end Accounts

/-- What stands on the connections of a run. -/
theorem run_accounts {as : List Action} (h : run setup {} as = some (s, notes)) (conn : Nat) :
    Accounts setup.config.framing notes s conn := by
  induction as using List.reverseRecOn generalizing s notes with
  | nil =>
    cases h
    exact .init
  | append_singleton as a ih =>
    obtain ⟨t, ns₁, ns₂, ht, hs, rfl⟩ := run_snoc.mp h
    exact (ih ht).step (run_sound ht).history hs

end Connector
end EfsControl

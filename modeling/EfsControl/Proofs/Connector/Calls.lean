/-
# What moves make of calls

A call waits for the lock, has its command written, awaits its reply and ends.
Between its registration and its end it is linked to a connection by the number
it was registered with. A move changes the phase of one call at most; apart
from registering and from having written a command in full, what it can make of
a phase is a `Turn`.

Key definitions: `Phase.isBusy`, `Phase.isOver`, `Phase.link?`, `State.phase?`,
`State.slot?`, `Turn`, `Calm`.
-/
import EfsControl.Proofs.Connector.Move

namespace EfsControl
namespace Connector

variable {s s' : State} {id : Nat} {p q : Phase}

/-! ### Phases -/

namespace Phase

/-- Whether a call has its place among the pending calls, or had it and is closing the
connection. -/
def isBusy : Phase → Bool
  | .writing .. | .awaiting .. | .expired .. | .closing => true
  | _ => false

/-- Whether a call has come to its end. -/
def isOver : Phase → Bool
  | .finished _ | .dropped => true
  | _ => false

/-- The number and the connection of a call that has been registered and has not ended. -/
def link? : Phase → Option (Option UInt32 × Nat)
  | .writing seq conn _ | .awaiting seq conn | .expired seq conn => some (seq, conn)
  | _ => none

/-- Whether the command of a call has been written in full, or the call is past that. -/
def isPastWriting : Phase → Bool
  | .queued | .writing .. => false
  | _ => true

theorem busy_of_link {l : Option UInt32 × Nat} (h : p.link? = some l) : p.isBusy = true := by
  cases p <;> simp_all [isBusy, link?]

end Phase

namespace State

/-- How far the call with this number is. -/
def phase? (s : State) (id : Nat) : Option Phase := s.calls[id]?.map (·.phase)

/-- What the call with this number knows of its reply. -/
def slot? (s : State) (id : Nat) : Option Slot := s.calls[id]?.map (·.slot)

theorem phase?_eq {call : Call} (h : s.calls[id]? = some call) : s.phase? id = some call.phase := by
  simp [phase?, h]

theorem slot?_eq {call : Call} (h : s.calls[id]? = some call) : s.slot? id = some call.slot := by
  simp [slot?, h]

theorem phase?_lt (h : s.phase? id = some p) : id < s.calls.length := by
  obtain ⟨c, hc, -⟩ := Option.map_eq_some_iff.mp h
  exact (List.getElem?_eq_some_iff.mp hc).1

@[simp] theorem phase?_fill (s : State) (slot : Slot) (ids : List Nat) (id : Nat) :
    (s.fill slot ids).phase? id = s.phase? id := by
  simp only [phase?, fill, List.getElem?_mapIdx, Option.map_map]
  congr 1
  funext c
  simp only [Function.comp_apply]
  split <;> rfl

/-- Only the slots of the callers that are given something change. -/
theorem slot?_fill (s : State) (slot : Slot) (ids : List Nat) (id : Nat) :
    (s.fill slot ids).slot? id =
      if id ∈ ids then (s.slot? id).map fun _ => slot else s.slot? id := by
  simp only [slot?, fill, List.getElem?_mapIdx, Option.map_map]
  split
  · congr 1
  · congr 1

/-- What is found in a slot was there before or has been given to the caller. -/
theorem slot?_fill_cases {slot x : Slot} {ids : List Nat}
    (h : (s.fill slot ids).slot? id = some x) :
    s.slot? id = some x ∨ x = slot ∧ id ∈ ids := by
  rw [slot?_fill] at h
  split at h
  · rename_i hm
    obtain ⟨_, -, rfl⟩ := Option.map_eq_some_iff.mp h
    exact .inr ⟨rfl, hm⟩
  · exact .inl h

@[simp] theorem phase?_cancel (s : State) (i : Nat) (seq : Option UInt32) (id : Nat) :
    (s.cancel i seq).phase? id = s.phase? id :=
  phase?_fill ..

@[simp] theorem phase?_tearDown (s : State) (final : Bool) (id : Nat) :
    (s.tearDown final).phase? id = s.phase? id :=
  phase?_fill ..

/-- A call gets a new phase. -/
theorem phase?_onCall (h : s.phase? id = some p) (q : Phase) (i : Nat) :
    (s.onCall id fun c => { c with phase := q }).phase? i =
      if i = id then some q else s.phase? i := by
  simp only [phase?, onCall, List.getElem?_modify]
  obtain ⟨call, hc, -⟩ := Option.map_eq_some_iff.mp h
  by_cases hi : i = id
  · subst hi
    simp [hc]
  · simp [hi, Ne.symm hi]

@[simp] theorem slot?_onCall (s : State) (id : Nat) (q : Phase) (i : Nat) :
    (s.onCall id fun c => { c with phase := q }).slot? i = s.slot? i := by
  simp only [slot?, onCall, List.getElem?_modify]
  split <;> cases s.calls[i]? <;> rfl

/-- A call that ends. -/
theorem phase?_finish (h : s.phase? id = some p) (result : ExchangeResult) (i : Nat) :
    (s.finish id result).1.phase? i = if i = id then some (.finished result) else s.phase? i :=
  phase?_onCall h (.finished result) i

@[simp] theorem slot?_finish (s : State) (id : Nat) (result : ExchangeResult) (i : Nat) :
    (s.finish id result).1.slot? i = s.slot? i :=
  slot?_onCall s id _ i

/-- The calls after one more has come. -/
theorem calls_arrive (l : List Call) (c : Call) (i : Nat) :
    (l ++ [c])[i]? = if i = l.length then some c else l[i]? := by
  by_cases h : i < l.length
  · simp [List.getElem?_append_left h, Nat.ne_of_lt h]
  · by_cases hi : i = l.length
    · simp [hi]
    · have h1 : (l ++ [c]).length ≤ i := by
        rw [List.length_append, List.length_singleton]
        omega
      have h0 : l.length ≤ i := by omega
      rw [if_neg hi, List.getElem?_eq_none h1, List.getElem?_eq_none h0]

/-- A new call waits for the lock. -/
theorem phase?_arrive (subcommand : String) (args : List Arg) {l : Lock} (i : Nat) :
    State.phase? { s with
      calls := s.calls ++ [{ subcommand := subcommand, args := args }]
      lock := l } i = if i = s.calls.length then some .queued else s.phase? i := by
  simp only [phase?, calls_arrive]
  split <;> rfl

/-- The slot of a new call is empty. -/
theorem slot?_arrive (subcommand : String) (args : List Arg) {l : Lock} (i : Nat) :
    State.slot? { s with
      calls := s.calls ++ [{ subcommand := subcommand, args := args }]
      lock := l } i = if i = s.calls.length then some .waiting else s.slot? i := by
  simp only [slot?, calls_arrive]
  split <;> rfl

/-! ### What a call asks for -/

/-- The command that the call with this number was made for. -/
def request? (s : State) (id : Nat) : Option (String × List Arg) :=
  s.calls[id]?.map fun c => (c.subcommand, c.args)

theorem request?_eq {call : Call} (h : s.calls[id]? = some call) :
    s.request? id = some (call.subcommand, call.args) := by
  simp [request?, h]

@[simp] theorem request?_fill (s : State) (slot : Slot) (ids : List Nat) (id : Nat) :
    (s.fill slot ids).request? id = s.request? id := by
  simp only [request?, fill, List.getElem?_mapIdx, Option.map_map]
  congr 1
  funext c
  simp only [Function.comp_apply]
  split <;> rfl

@[simp] theorem request?_cancel (s : State) (i : Nat) (seq : Option UInt32) (id : Nat) :
    (s.cancel i seq).request? id = s.request? id :=
  request?_fill ..

@[simp] theorem request?_tearDown (s : State) (final : Bool) (id : Nat) :
    (s.tearDown final).request? id = s.request? id :=
  request?_fill ..

@[simp] theorem request?_onCall (s : State) (id : Nat) (q : Phase) (i : Nat) :
    (s.onCall id fun c => { c with phase := q }).request? i = s.request? i := by
  simp only [request?, onCall, List.getElem?_modify]
  split <;> cases s.calls[i]? <;> rfl

@[simp] theorem request?_finish (s : State) (id : Nat) (result : ExchangeResult) (i : Nat) :
    (s.finish id result).1.request? i = s.request? i :=
  request?_onCall s id _ i

end State

/-! ### Turns -/

/-- What a move can make of the phase of a call that it neither registers nor sends. -/
inductive Turn : Option Phase → Option Phase → Prop
  | stay (o : Option Phase) : Turn o o
  | come : Turn none (some .queued)
  | write {seq : Option UInt32} {conn : Nat} {rest rest' : List UInt8} :
    Turn (some (.writing seq conn rest)) (some (.writing seq conn rest'))
  | expire {seq : Option UInt32} {conn : Nat} :
    Turn (some (.awaiting seq conn)) (some (.expired seq conn))
  | close {conn : Nat} : Turn (some (.expired none conn)) (some .closing)
  | finish {p : Phase} (result : ExchangeResult) : Turn (some p) (some (.finished result))
  | drop {p : Phase} : Turn (some p) (some .dropped)

/-- No call is registered and no command comes to be written in full. -/
def Calm (s s' : State) : Prop := ∀ i, Turn (s.phase? i) (s'.phase? i)

/-- A call that is linked to a connection was so before. -/
theorem Turn.link {o : Option Phase} {l : Option UInt32 × Nat} (h : Turn o (some q))
    (hl : q.link? = some l) : ∃ p, o = some p ∧ p.link? = some l := by
  cases h with
  | stay => exact ⟨q, rfl, hl⟩
  | write => exact ⟨_, rfl, hl⟩
  | expire => exact ⟨_, rfl, hl⟩
  | come => cases hl
  | close => cases hl
  | finish => cases hl
  | drop => cases hl

namespace Calm

theorem of_eq (h : ∀ i, s'.phase? i = s.phase? i) : Calm s s' := fun i => h i ▸ .stay _

/-- One call gets a new phase. -/
theorem of_turn (hp : s.phase? id = some p) (ht : Turn (some p) (some q))
    (h : ∀ i, s'.phase? i = if i = id then some q else s.phase? i) : Calm s s' := fun i => by
  rw [h]
  split
  · rename_i hi
    rw [hi, hp]
    exact ht
  · exact .stay _

theorem finish (hp : s.phase? id = some p) (h : ∀ i, s'.phase? i = s.phase? i)
    (result : ExchangeResult) : Calm s (s'.finish id result).1 :=
  of_turn hp (.finish result) fun i => by rw [State.phase?_finish ((h id).trans hp), h]

theorem arrive (subcommand : String) (args : List Arg) {l : Lock} : Calm s { s with
    calls := s.calls ++ [{ subcommand := subcommand, args := args }]
    lock := l } := fun i => by
  rw [State.phase?_arrive]
  split
  · rename_i hi
    rw [hi, State.phase?, List.getElem?_eq_none (Nat.le_refl _)]
    exact .come
  · exact .stay _

end Calm

/-! ### The worker -/

section
variable (s : State) (final : Bool)

@[simp] theorem removeConn_lock : (removeConn s final).1.lock = s.lock.release := by
  unfold removeConn
  cases s.writer <;> rfl

@[simp] theorem removeConn_writer : (removeConn s final).1.writer = none := by
  unfold removeConn
  cases s.writer <;> rfl

@[simp] theorem removeConn_nextSeq : (removeConn s final).1.nextSeq = s.nextSeq := by
  unfold removeConn
  cases s.writer <;> rfl

@[simp] theorem removeConn_correlator : (removeConn s final).1.correlator = s.correlator := by
  unfold removeConn
  cases s.writer <;> rfl

@[simp] theorem removeConn_worker :
    (removeConn s final).1.worker = if final then .stopped else .sleeping := by
  unfold removeConn
  cases s.writer <;> rfl

@[simp] theorem removeConn_length : (removeConn s final).1.conns.length = s.conns.length := by
  unfold removeConn
  cases s.writer <;> simp [State.sealConn, State.onConn]

@[simp] theorem removeConn_phase? (i : Nat) : (removeConn s final).1.phase? i = s.phase? i := by
  unfold removeConn
  cases s.writer <;> rfl

@[simp] theorem removeConn_request? (i : Nat) :
    (removeConn s final).1.request? i = s.request? i := by
  unfold removeConn
  cases s.writer <;> rfl

@[simp] theorem removeConn_slot? (i : Nat) : (removeConn s final).1.slot? i = s.slot? i := by
  unfold removeConn
  cases s.writer <;> rfl

end

section
variable (s : State) (conn : Nat) (raw : String) (r : Reply)

/-- Giving a reply to the pending calls changes the correlator and at most one slot. -/
theorem routeReply_fst : (routeReply s conn raw r).1 =
    match (s.correlator.dispatch r).2 with
    | .completed id answer =>
      State.fill { s with correlator := (s.correlator.dispatch r).1 } (.answered (.ok answer)) [id]
    | _ => { s with correlator := (s.correlator.dispatch r).1 } := by
  unfold routeReply
  simp only
  split <;> simp_all

@[simp] theorem routeReply_correlator :
    (routeReply s conn raw r).1.correlator = (s.correlator.dispatch r).1 := by
  rw [routeReply_fst]
  split <;> rfl

@[simp] theorem routeReply_lock : (routeReply s conn raw r).1.lock = s.lock := by
  rw [routeReply_fst]
  split <;> rfl

@[simp] theorem routeReply_worker : (routeReply s conn raw r).1.worker = s.worker := by
  rw [routeReply_fst]
  split <;> rfl

@[simp] theorem routeReply_writer : (routeReply s conn raw r).1.writer = s.writer := by
  rw [routeReply_fst]
  split <;> rfl

@[simp] theorem routeReply_nextSeq : (routeReply s conn raw r).1.nextSeq = s.nextSeq := by
  rw [routeReply_fst]
  split <;> rfl

@[simp] theorem routeReply_conns : (routeReply s conn raw r).1.conns = s.conns := by
  rw [routeReply_fst]
  split <;> rfl

@[simp] theorem routeReply_phase? (i : Nat) :
    (routeReply s conn raw r).1.phase? i = s.phase? i := by
  rw [routeReply_fst]
  split
  · exact State.phase?_fill ..
  · rfl

@[simp] theorem routeReply_request? (i : Nat) :
    (routeReply s conn raw r).1.request? i = s.request? i := by
  rw [routeReply_fst]
  split
  · exact State.request?_fill ..
  · rfl

end

/-- No move changes what a call asks for. -/
theorem Move.request {setup : Setup} {a : Action} {ns : List Note} {x : String × List Arg}
    (hm : Move setup s a s' ns) {i : Nat} (h : s.request? i = some x) : s'.request? i = some x := by
  rw [← h]
  cases hm with
  | arrive =>
    obtain ⟨c, hc, -⟩ := Option.map_eq_some_iff.mp h
    have hlt : i ≠ s.calls.length := Nat.ne_of_lt (List.getElem?_eq_some_iff.mp hc).1
    simp only [State.request?, State.calls_arrive, if_neg hlt]
  | refuse => exact State.request?_finish ..
  | reject => exact State.request?_finish ..
  | register => exact State.request?_onCall ..
  | write => exact State.request?_onCall ..
  | send => exact State.request?_onCall ..
  | writeFail => exact (State.request?_finish ..).trans (State.request?_cancel ..)
  | sever => exact State.request?_finish ..
  | fail => exact State.request?_finish ..
  | answer => exact State.request?_finish ..
  | expire => exact State.request?_onCall ..
  | giveUp => exact (State.request?_finish ..).trans (State.request?_cancel ..)
  | giveUpLate => exact (State.request?_finish ..).trans (State.request?_cancel ..)
  | close => exact (State.request?_onCall ..).trans (State.request?_cancel ..)
  | notify => exact State.request?_finish ..
  | drop => exact State.request?_onCall ..
  | connectFail => exact State.request?_tearDown ..
  | reply => exact routeReply_request? ..
  | readEnd => exact State.request?_tearDown ..
  | readFail => exact State.request?_tearDown ..
  | resync => exact State.request?_tearDown ..
  | disconnect => exact removeConn_request? ..
  | stop => exact State.request?_tearDown ..
  | stopInstalling => exact State.request?_tearDown ..
  | stopReading => exact State.request?_tearDown ..
  | _ => rfl

/-- No call vanishes. -/
theorem Move.calls_le {setup : Setup} {a : Action} {ns : List Note} (hm : Move setup s a s' ns) :
    s.calls.length ≤ s'.calls.length := by
  by_contra hlt
  have hi : s'.calls.length < s.calls.length := Nat.lt_of_not_le hlt
  have hq := hm.request (State.request?_eq (List.getElem?_eq_getElem hi))
  simp [State.request?] at hq

/-- No call vanishes in a run. -/
theorem run_calls_le {setup : Setup} {as : List Action} {ns : List Note}
    (h : run setup s as = some (s', ns)) : s.calls.length ≤ s'.calls.length := by
  induction as generalizing s ns with
  | nil =>
    cases h
    exact Nat.le_refl _
  | cons a as ih =>
    obtain ⟨t, _, _, ha, hr, -⟩ := run_cons.mp h
    exact Nat.le_trans (step_move ha).calls_le (ih hr)

end Connector
end EfsControl

/-
# Where the answers of calls come from

A call returns an answer of the daemon only if it has found the answer in its
slot, and only a reply that was given to the pending calls puts it there. All
other ends of a call are errors of other kinds.

Key definitions: `fromDaemon`, `Told`, `Sound`.
Key theorems: `Move.returned`, `Move.slot`, `Move.sound`, `run_sound`.
-/
import EfsControl.Proofs.Connector.History
import EfsControl.Proofs.Reply

namespace EfsControl
namespace Connector

/-- Whether a result is an answer of the daemon: a reply, or the failure that it reports. -/
def fromDaemon : ExchangeResult → Bool
  | .ok _ | .error (.daemon ..) => true
  | _ => false

variable {setup : Setup} {s s' : State} {notes ns : List Note}

/-- Whether an answer of the daemon to a call is noted to be returned. -/
def Note.answers (id : Nat) : Note → Bool
  | .returned i result => i == id && fromDaemon result
  | _ => false

theorem Note.answers_iff {id : Nat} {n : Note} :
    n.answers id = true ↔ ∃ result, n = .returned id result ∧ fromDaemon result = true := by
  cases n <;> simp [Note.answers]

/-- The slots of a state hold answers that were noted, or that the connection was lost. -/
def Told (notes : List Note) (s : State) : Prop :=
  ∀ i r, s.slot? i = some (.answered r) → r = .error .connectionLost ∨
    ∃ conn reply answer, r = .ok answer ∧ .routed conn reply (.completed i answer) ∈ notes

/-- The result of a call that ends otherwise than with an answer is none of the daemon. -/
theorem returned_elim {i j : Nat} {r r' : ExchangeResult} {l : List LogEntry}
    (h : .returned i r ∈ l.map Note.log ++ [.returned j r']) : i = j ∧ r = r' := by
  simp only [List.mem_append, List.mem_map, reduceCtorEq, and_false, exists_false, false_or,
    List.mem_singleton, Note.returned.injEq] at h
  exact h

/-- An answer of the daemon is returned by a call that waited for it and has found it. -/
theorem Move.returned {a : Action} {i : Nat} {result : ExchangeResult} (hm : Move setup s a s' ns)
    (ht : Told notes s) (hr : .returned i result ∈ ns) (hd : fromDaemon result = true) :
    ∃ seq conn reply, s.phase? i = some (.awaiting seq conn) ∧
      s.slot? i = some (.answered (.ok reply)) ∧ result = resultOf reply := by
  have hnews := hm.news
  cases hm with
  | refuse =>
    obtain ⟨-, rfl⟩ := returned_elim (l := []) hr
    cases hd
  | reject _ _ _ _ he =>
    obtain ⟨-, rfl⟩ := returned_elim (l := []) hr
    obtain ⟨_, rfl, -⟩ | ⟨rfl, -⟩ := he <;> cases hd
  | writeFail =>
    obtain ⟨-, rfl⟩ := returned_elim (l := [_]) hr
    cases hd
  | sever =>
    obtain ⟨-, rfl⟩ := returned_elim hr
    cases hd
  | fail hc _ hs =>
    obtain ⟨rfl, rfl⟩ := returned_elim hr
    rcases ht i _ (hs ▸ State.slot?_eq hc) with h | ⟨_, _, _, h, -⟩
    · cases h
      cases hd
    · cases h
  | answer hc hp hs =>
    obtain ⟨rfl, rfl⟩ := returned_elim hr
    exact ⟨_, _, _, hp ▸ State.phase?_eq hc, hs ▸ State.slot?_eq hc, rfl⟩
  | giveUp =>
    obtain ⟨-, rfl⟩ := returned_elim (l := [_]) hr
    cases hd
  | giveUpLate =>
    obtain ⟨-, rfl⟩ := returned_elim (l := [_]) hr
    cases hd
  | notify =>
    obtain ⟨-, rfl⟩ := returned_elim (l := []) hr
    cases hd
  | hear | reply | disconnect => cases hnews (by simp) _ hr
  | _ => simp at hr

/-- What a call can find that it did not find before. -/
inductive Found (i : Nat) (ns : List Note) : Slot → Prop
  | waiting : Found i ns .waiting
  | severed : Found i ns .severed
  | lost : Found i ns (.answered (.error .connectionLost))
  | answer (conn : Nat) (reply answer : Reply) (h : .routed conn reply (.completed i answer) ∈ ns) :
    Found i ns (.answered (.ok answer))

/-- A pending call is given up. -/
theorem Found.cancel {i id : Nat} {seq : Option UInt32} {slot : Slot}
    (h : (s.cancel id seq).slot? i = some slot) : s.slot? i = some slot ∨ Found i ns slot := by
  obtain h | ⟨rfl, -⟩ := State.slot?_fill_cases h
  · exact .inl h
  · exact .inr .severed

/-- The worker stops using a connection or trying to get one. -/
theorem Found.tearDown {i : Nat} {slot : Slot} (final : Bool)
    (h : (s.tearDown final).slot? i = some slot) : s.slot? i = some slot ∨ Found i ns slot := by
  obtain h | ⟨rfl, -⟩ := State.slot?_fill_cases h
  · exact .inl h
  · exact .inr .lost

/-- What a move can do to the slot of a call. -/
theorem Move.slot {a : Action} (hm : Move setup s a s' ns) (i : Nat) {slot : Slot}
    (hs : s'.slot? i = some slot) : s.slot? i = some slot ∨ Found i ns slot := by
  cases hm with
  | arrive =>
    rw [State.slot?_arrive] at hs
    split at hs
    · cases hs
      exact .inr .waiting
    · exact .inl hs
  | refuse => exact .inl (State.slot?_finish .. ▸ hs)
  | reject => exact .inl (State.slot?_finish .. ▸ hs)
  | register => exact .inl (State.slot?_onCall .. ▸ hs)
  | write => exact .inl (State.slot?_onCall .. ▸ hs)
  | send => exact .inl (State.slot?_onCall .. ▸ hs)
  | writeFail => exact Found.cancel (State.slot?_finish .. ▸ hs)
  | sever => exact .inl (State.slot?_finish .. ▸ hs)
  | fail => exact .inl (State.slot?_finish .. ▸ hs)
  | answer => exact .inl (State.slot?_finish .. ▸ hs)
  | expire => exact .inl (State.slot?_onCall .. ▸ hs)
  | giveUp => exact Found.cancel (State.slot?_finish .. ▸ hs)
  | giveUpLate => exact Found.cancel (State.slot?_finish .. ▸ hs)
  | close => exact Found.cancel (State.slot?_onCall .. ▸ hs)
  | notify => exact .inl (State.slot?_finish .. ▸ hs)
  | drop => exact .inl (State.slot?_onCall .. ▸ hs)
  | connectFail => exact Found.tearDown false hs
  | @reply conn rest raw r =>
    obtain ⟨entries, hns⟩ := routeReply_notes
      (s.onConn conn fun c => { c with inbox := rest }) conn raw r
    rw [routeReply_fst] at hs
    split at hs
    · rename_i id answer hd
      obtain hs | ⟨rfl, hi⟩ := State.slot?_fill_cases hs
      · exact .inl hs
      · obtain rfl := List.mem_singleton.mp hi
        refine .inr (.answer conn r answer ?_)
        rw [hns, hd]
        simp
    · exact .inl hs
  | readEnd => exact Found.tearDown false hs
  | readFail => exact Found.tearDown false hs
  | resync => exact Found.tearDown false hs
  | disconnect => exact .inl (removeConn_slot? .. ▸ hs)
  | stop => exact Found.tearDown true hs
  | stopInstalling => exact Found.tearDown true hs
  | stopReading => exact Found.tearDown true hs
  | _ => exact .inl hs

theorem Told.init : Told [] {} := fun i r h => by simp [State.slot?] at h

/-- Every move leaves only what was noted in the slots. -/
theorem Move.told {a : Action} (hm : Move setup s a s' ns) (h : Told notes s) :
    Told (notes ++ ns) s' := fun i r hs => by
  rcases hm.slot i hs with hs | hf
  · rcases h i r hs with hr | ⟨conn, reply, answer, hr, hn⟩
    · exact .inl hr
    · exact .inr ⟨conn, reply, answer, hr, List.mem_append_left _ hn⟩
  · cases hf with
    | lost => exact .inl rfl
    | answer conn reply answer hn =>
      exact .inr ⟨conn, reply, answer, rfl, List.mem_append_right _ hn⟩

/-! ### All of it along a run -/

/-- What holds of every state that can come about, with what was noted on the way. -/
structure Sound (setup : Setup) (notes : List Note) (s : State) : Prop where
  orderly : Orderly s
  wired : Wired s
  history : History notes s
  encoded : Encoded setup notes s
  settled : Settled notes s
  told : Told notes s

theorem Move.sound {a : Action} (hm : Move setup s a s' ns) (h : Sound setup notes s) :
    Sound setup (notes ++ ns) s' where
  orderly := hm.orderly h.orderly
  wired := hm.wired h.orderly h.wired
  history := hm.history h.orderly h.wired h.history
  encoded := hm.encoded h.wired h.encoded
  settled := hm.settled h.wired h.settled
  told := hm.told h.told

/-- What holds in the beginning and is kept by every move from a sound state holds along every
run. -/
theorem sound_induction {P : List Note → State → Prop} (h₀ : P [] {})
    (hs : ∀ {notes s a s' ns}, Sound setup notes s → P notes s → Move setup s a s' ns →
      P (notes ++ ns) s')
    {as : List Action} (h : run setup {} as = some (s, notes)) : Sound setup notes s ∧ P notes s :=
  run_induction (P := fun notes s => Sound setup notes s ∧ P notes s)
    ⟨⟨.init, .init, .init, .init, .init, .init⟩, h₀⟩
    (fun hp hm => ⟨hm.sound hp.1, hs hp.1 hp.2 hm⟩) h

theorem run_sound {as : List Action} (h : run setup {} as = some (s, notes)) :
    Sound setup notes s :=
  (sound_induction (P := fun _ _ => True) trivial (fun _ _ _ => trivial) h).1

/-- What holds of a sound state and is kept by every move of a run from there holds at its end. -/
theorem run_sound_from {P : List Note → State → Prop} {as : List Action}
    (hs : Sound setup notes s) (h₀ : P [] s)
    (hk : ∀ {ns t a t' ms}, a ∈ as → Sound setup (notes ++ ns) t → P ns t → Move setup t a t' ms →
      P (ns ++ ms) t')
    (h : run setup s as = some (s', ns)) : Sound setup (notes ++ ns) s' ∧ P ns s' := by
  induction as using List.reverseRecOn generalizing s' ns with
  | nil =>
    cases h
    exact ⟨(List.append_nil notes).symm ▸ hs, h₀⟩
  | append_singleton as a ih =>
    obtain ⟨t, ns₁, ns₂, h₁, h₂, rfl⟩ := run_snoc.mp h
    obtain ⟨ht, hp⟩ := ih (fun ha => hk (List.mem_append_left [a] ha)) h₁
    have hm := step_move h₂
    rw [← List.append_assoc]
    exact ⟨hm.sound ht, hk (by simp) ht hp hm⟩

/-- The worker connects, a call is made and its command is written, and the line that arrives ends
it: a whole exchange on the first connection. -/
def exchange (raw : String) : List Action :=
  [.start, .connect, .install, .open, .call "status" [], .begin 0, .write 0 100,
    .deliver 0 (Utf8.ofString raw ++ [0]), .readLine, .receive 0 ⟨0⟩]

end Connector
end EfsControl

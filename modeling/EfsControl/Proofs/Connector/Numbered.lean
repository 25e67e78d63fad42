/-
# Replies with numbers

Where commands are numbered, a call that returns an answer of the daemon
returns the first final reply with its number that was read, after its
registration, from the connection its command was written to, together with
the messages of the replies with its number that came before. The numbers of
fewer than 2³² calls are all different, so no line answers two calls, and
neither lines without a call nor replies that come too late do any harm.

Key definitions: `Counted`, `Awaits`, `AnsweredAt`, `Numbered`.
Key theorems: `Move.counted`, `Move.numbered`, `AnsweredAt.unique`,
`run_next_fresh`, `run_answer_numbered`.
-/
import EfsControl.Proofs.Connector.Answer
import Mathlib.Algebra.Ring.Nat

namespace EfsControl
namespace Connector

variable {setup : Setup} {s s' : State} {notes ns : List Note}

/-! ### Numbers -/

/-- Numbers are taken in order, each by a call of `begun`. -/
structure Counted (notes : List Note) (s : State) (begun : List Nat) : Prop where
  nodup : begun.Nodup
  phase : ∀ i ∈ begun, ∃ p, s.phase? i = some p ∧ p ≠ .queued
  next : s.nextSeq = UInt32.ofNat (begun.length + 1)
  taken : ∀ x ∈ registrations notes, ∃ n, x.seq = some n ∧ n.toNat ≤ begun.length
  distinct : ((registrations notes).map (·.seq)).Nodup

/-- A move takes a number only for a call that has not taken one before. -/
theorem Move.number {a : Action} (hm : Move setup s a s' ns)
    (hcfg : setup.config.sequenceNumbers = true) :
    (s'.nextSeq = s.nextSeq ∧ registrations ns = []) ∨
      ∃ id, s.phase? id = some .queued ∧ (∃ q, s'.phase? id = some q ∧ q ≠ .queued) ∧
        s'.nextSeq = s.nextSeq + 1 ∧
        (registrations ns = [] ∨
          ∃ conn command, registrations ns = [⟨id, some s.nextSeq, conn, command⟩]) := by
  have hseq : takeSeq setup.config s = (some s.nextSeq, { s with nextSeq := s.nextSeq + 1 }) := by
    simp [takeSeq, hcfg]
  cases hm with
  | @reject id _ _ _ hc hp _ _ _ =>
    have hq := State.phase?_finish (State.phase?_eq hc)
    refine .inr ⟨id, hp ▸ State.phase?_eq hc, ⟨_, (hq _ id).trans (if_pos rfl), nofun⟩, ?_,
      .inl rfl⟩
    rw [hseq]
    rfl
  | @register id conn _ command hc hp _ _ _ _ =>
    have hq := State.phase?_onCall (State.phase?_eq hc)
    refine .inr ⟨id, hp ▸ State.phase?_eq hc, ⟨_, (hq _ id).trans (if_pos rfl), nofun⟩, ?_,
      .inr ⟨conn, command, ?_⟩⟩
    · rw [hseq]
      rfl
    · rw [hseq]
      rfl
  | hear _ _ hn =>
    refine .inl ⟨rfl, List.filterMap_eq_nil_iff.mpr fun n hm => ?_⟩
    rcases List.mem_cons.mp hm with rfl | hm
    · rfl
    · obtain ⟨_, rfl⟩ | ⟨_, rfl⟩ := hn n hm <;> rfl
  | @reply conn rest raw r =>
    obtain ⟨entries, hns⟩ := routeReply_notes
      (s.onConn conn fun c => { c with inbox := rest }) conn raw r
    refine .inl ⟨routeReply_nextSeq .., ?_⟩
    rw [hns]
    have hq : Quiet (entries.map .log) := .of_log
    exact hq.registrations_eq
  | sever | fail | answer =>
    exact .inl ⟨rfl, (Quiet.log_append (.cons rfl .nil)).registrations_eq⟩
  | «open» =>
    have hq : Quiet (setup.greeting.map .log) := .of_log
    exact .inl ⟨rfl, hq.registrations_eq⟩
  | @disconnect final =>
    refine .inl ⟨removeConn_nextSeq .., ?_⟩
    cases final <;> rfl
  | _ => exact .inl ⟨rfl, rfl⟩

/-- Different calls are at most as many as there are calls. -/
theorem State.length_le {l : List Nat} (hn : l.Nodup)
    (hp : ∀ i ∈ l, ∃ p, s.phase? i = some p ∧ p ≠ .queued) : l.length ≤ s.calls.length := by
  have hsub : l ⊆ List.range s.calls.length := fun i hi => by
    obtain ⟨p, hp, -⟩ := hp i hi
    exact List.mem_range.mpr (State.phase?_lt hp)
  simpa using hn.length_le_of_subset hsub

namespace Counted

variable {begun : List Nat}

theorem init : Counted [] {} [] where
  nodup := by simp
  phase := by simp
  next := rfl
  taken := by simp [registrations]
  distinct := by simp [registrations]

/-- No number is taken. -/
theorem still (h : Counted notes s begun) (hn : s'.nextSeq = s.nextSeq) (hr : registrations ns = [])
    (hp : ∀ i p, s.phase? i = some p → p ≠ .queued → ∃ q, s'.phase? i = some q ∧ q ≠ .queued) :
    Counted (notes ++ ns) s' begun := by
  have er : registrations (notes ++ ns) = registrations notes := by simp [hr]
  refine ⟨h.nodup, fun i hi => ?_, hn ▸ h.next, er ▸ h.taken, er ▸ h.distinct⟩
  obtain ⟨p, hpi, hq⟩ := h.phase i hi
  exact hp i p hpi hq

/-- The next number has not been taken while there are fewer than 2³² calls. -/
theorem next_toNat (h : Counted notes s begun) (hlt : begun.length + 1 < 2 ^ 32) :
    s.nextSeq.toNat = begun.length + 1 := by
  rw [h.next, UInt32.toNat_ofNat']
  exact Nat.mod_eq_of_lt hlt

/-- There are fewer numbers than calls while a call waits to take one. -/
theorem length_lt (h : Counted notes s begun) {id : Nat} (hq : s.phase? id = some .queued) :
    begun.length < s.calls.length := by
  have hnew : id ∉ begun := fun hi => by
    obtain ⟨p, hpi, hne⟩ := h.phase id hi
    rw [hq] at hpi
    cases hpi
    exact hne rfl
  have hsub : id :: begun ⊆ List.range s.calls.length := fun i hi => by
    rw [List.mem_range]
    rcases List.mem_cons.mp hi with rfl | hi
    · exact State.phase?_lt hq
    · obtain ⟨p, hpi, -⟩ := h.phase i hi
      exact State.phase?_lt hpi
  have hle := (List.nodup_cons.mpr ⟨hnew, h.nodup⟩).length_le_of_subset hsub
  rwa [List.length_range, List.length_cons] at hle

/-- A call takes the next number. -/
theorem take (h : Counted notes s begun) {id : Nat} (hq : s.phase? id = some .queued)
    (hb : ∃ q, s'.phase? id = some q ∧ q ≠ .queued) (hn : s'.nextSeq = s.nextSeq + 1)
    (hr : registrations ns = [] ∨
      ∃ conn command, registrations ns = [⟨id, some s.nextSeq, conn, command⟩])
    (hp : ∀ i p, s.phase? i = some p → p ≠ .queued → ∃ q, s'.phase? i = some q ∧ q ≠ .queued)
    (hlt : s'.calls.length < 2 ^ 32) : Counted (notes ++ ns) s' (id :: begun) := by
  have hnew : id ∉ begun := fun hi => by
    obtain ⟨p, hpi, hne⟩ := h.phase id hi
    rw [hq] at hpi
    cases hpi
    exact hne rfl
  have hphase : ∀ i ∈ id :: begun, ∃ p, s'.phase? i = some p ∧ p ≠ .queued := fun i hi => by
    rcases List.mem_cons.mp hi with rfl | hi
    · exact hb
    · obtain ⟨p, hpi, hne⟩ := h.phase i hi
      exact hp i p hpi hne
  have hnext : s'.nextSeq = UInt32.ofNat ((id :: begun).length + 1) := by
    rw [hn, h.next, List.length_cons, UInt32.ofNat_add (begun.length + 1) 1]
    rfl
  have hnodup : (id :: begun).Nodup := List.nodup_cons.mpr ⟨hnew, h.nodup⟩
  -- The new number is the number of calls that have one now.
  have hsub : (id :: begun).length ≤ s'.calls.length := State.length_le hnodup hphase
  have hto : s.nextSeq.toNat = begun.length + 1 := h.next_toNat (by
    rw [List.length_cons] at hsub
    omega)
  have htaken : ∀ x ∈ registrations notes, ∃ n, x.seq = some n ∧ n.toNat ≤ (id :: begun).length :=
    fun x hx => by
      obtain ⟨n, hxn, hle⟩ := h.taken x hx
      exact ⟨n, hxn, by simpa using Nat.le_succ_of_le hle⟩
  rcases hr with hr | ⟨conn, command, hr⟩
  · have er : registrations (notes ++ ns) = registrations notes := by simp [hr]
    exact ⟨hnodup, hphase, hnext, er ▸ htaken, er ▸ h.distinct⟩
  · have er : registrations (notes ++ ns) =
        registrations notes ++ [⟨id, some s.nextSeq, conn, command⟩] := by simp [hr]
    refine ⟨hnodup, hphase, hnext, fun x hx => ?_, ?_⟩
    · rw [er, List.mem_append, List.mem_singleton] at hx
      rcases hx with hx | rfl
      · exact htaken x hx
      · exact ⟨_, rfl, by simp [hto]⟩
    · rw [er, List.map_append, List.map_singleton]
      refine List.Nodup.append h.distinct (List.nodup_singleton _) (List.disjoint_singleton.mpr ?_)
      intro hm
      obtain ⟨x, hx, hxs⟩ := List.mem_map.mp hm
      obtain ⟨n, hxn, hle⟩ := h.taken x hx
      rw [hxn] at hxs
      cases hxs
      omega

end Counted

/-- Every move keeps the count, while there are fewer than 2³² calls. -/
theorem Move.counted {a : Action} {begun : List Nat} (hm : Move setup s a s' ns) (hw : Wired s)
    (hcfg : setup.config.sequenceNumbers = true) (hlt : s'.calls.length < 2 ^ 32)
    (h : Counted notes s begun) : ∃ begun, Counted (notes ++ ns) s' begun := by
  have hp : ∀ i p, s.phase? i = some p → p ≠ .queued → ∃ q, s'.phase? i = some q ∧ q ≠ .queued :=
    fun i p => hm.begun hw
  rcases hm.number hcfg with ⟨hn, hr⟩ | ⟨id, hq, hb, hn, hr⟩
  · exact ⟨begun, h.still hn hr hp⟩
  · exact ⟨id :: begun, h.take hq hb hn hr hp hlt⟩

/-! ### Waiting for a reply -/

/-- The messages of the replies with a number. -/
def messagesOf (seq : Option UInt32) (replies : List Reply) : List String :=
  (replies.filter (·.seq == seq)).map (·.message)

/-- The call has been registered on the connection with its number, no final reply with the number
has been read from it since, and the call has kept the messages of the others. -/
def Awaits (conn : Nat) (notes : List Note) (p : Pending Nat) : Prop :=
  ∃ n command pre mid, p.seq = some n ∧
    notes = pre ++ .registered p.caller (some n) conn command :: mid ∧
    (∀ r ∈ repliesOn true conn mid, r.seq = some n → r.isFinal = false) ∧
    p.continuations = messagesOf (some n) (repliesOn true conn mid)

/-- The line at place `k` of the notes is the first final reply with the number `n` that was read
from the connection after the call was registered there with this number and its command; `reply` is
that reply, with the messages of the replies with the number that came before it. -/
def AnsweredAt (notes : List Note) (id : Nat) (n : UInt32) (conn : Nat) (command : EncodedCommand)
    (k : Nat) (reply : Reply) : Prop :=
  ∃ pre mid raw post final,
    notes = pre ++ .registered id (some n) conn command :: (mid ++ .line conn raw :: post) ∧
    k = pre.length + 1 + mid.length ∧ parseLine raw true = .ok (.reply final) ∧
    final.seq = some n ∧ final.isFinal = true ∧
    (∀ r ∈ repliesOn true conn mid, r.seq = some n → r.isFinal = false) ∧
    reply = { final with continuations := messagesOf (some n) (repliesOn true conn mid) }

theorem messagesOf_append (seq : Option UInt32) (rs₁ rs₂ : List Reply) :
    messagesOf seq (rs₁ ++ rs₂) = messagesOf seq rs₁ ++ messagesOf seq rs₂ := by
  simp [messagesOf]

/-- A call goes on waiting, and keeps the messages of the replies with its number. -/
theorem Awaits.snoc {conn : Nat} {p : Pending Nat} (h : Awaits conn notes p)
    (hr : ∀ r ∈ repliesOn true conn ns, r.seq = p.seq → r.isFinal = false) :
    Awaits conn (notes ++ ns) { p with
      continuations := p.continuations ++ messagesOf p.seq (repliesOn true conn ns) } := by
  obtain ⟨n, command, pre, mid, hn, rfl, hf, hc⟩ := h
  refine ⟨n, command, pre, mid ++ ns, hn, by simp, fun r hm hs => ?_, ?_⟩
  · rw [repliesOn_append, List.mem_append] at hm
    rcases hm with hm | hm
    · exact hf r hm hs
    · exact hr r hm (hs.trans hn.symm)
  · rw [repliesOn_append, messagesOf_append, hc, hn]

/-- A call goes on waiting where no reply with its number is read. -/
theorem Awaits.other {conn : Nat} {p : Pending Nat} (h : Awaits conn notes p)
    (hr : ∀ r ∈ repliesOn true conn ns, r.seq ≠ p.seq) : Awaits conn (notes ++ ns) p := by
  have hm : messagesOf p.seq (repliesOn true conn ns) = [] := by
    simpa [messagesOf] using hr
  have := h.snoc fun r hmem hs => absurd hs (hr r hmem)
  rwa [hm, List.append_nil] at this

/-- The first final reply with the number of a call answers it. -/
theorem Awaits.answered {conn : Nat} {p : Pending Nat} {raw : String} {r : Reply} {post : List Note}
    (h : Awaits conn notes p) (hr : parseLine raw true = .ok (.reply r)) (hs : r.seq = p.seq)
    (hf : r.isFinal = true) : ∃ n command k, AnsweredAt (notes ++ .line conn raw :: post) p.caller n
      conn command k { r with continuations := p.continuations } := by
  obtain ⟨n, command, pre, mid, hn, rfl, hnone, hc⟩ := h
  exact ⟨n, command, pre.length + 1 + mid.length, pre, mid, raw, post, r, by simp, rfl, hr,
    hs.trans hn, hf, hnone, by rw [hc]⟩

namespace AnsweredAt

variable {i j conn k : Nat} {n m : UInt32} {command : EncodedCommand} {reply reply' : Reply}

theorem append (h : AnsweredAt notes i n conn command k reply) (ns : List Note) :
    AnsweredAt (notes ++ ns) i n conn command k reply := by
  obtain ⟨pre, mid, raw, post, final, rfl, hk, h⟩ := h
  exact ⟨pre, mid, raw, post ++ ns, final, by simp, hk, h⟩

theorem registered (h : AnsweredAt notes i n conn command k reply) :
    ⟨i, some n, conn, command⟩ ∈ registrations notes := by
  obtain ⟨pre, mid, raw, post, final, rfl, -⟩ := h
  exact mem_registrations.mpr (by simp)

/-- The line that answers a call is a final reply with the number of the call. -/
theorem line (h : AnsweredAt notes i n conn command k reply) :
    ∃ raw final, notes[k]? = some (.line conn raw) ∧
    parseLine raw true = .ok (.reply final) ∧ final.seq = some n ∧ final.isFinal = true ∧
    reply.code = final.code ∧ reply.message = final.message ∧ reply.seq = some n := by
  obtain ⟨pre, mid, raw, post, final, rfl, rfl, hr, hs, hf, -, rfl⟩ := h
  refine ⟨raw, final, ?_, hr, hs, hf, rfl, rfl, hs⟩
  rw [List.getElem?_append_right (by omega)]
  have : pre.length + 1 + mid.length - pre.length = mid.length + 1 := by omega
  rw [this, List.getElem?_cons_succ, List.getElem?_append_right (Nat.le_refl _)]
  simp

/-- No line answers two calls. -/
theorem unique {conn' : Nat} {command' : EncodedCommand}
    (hd : ((registrations notes).map (·.seq)).Nodup)
    (hi : AnsweredAt notes i n conn command k reply)
    (hj : AnsweredAt notes j m conn' command' k reply') : i = j := by
  obtain ⟨raw, final, hk, hr, hs, -⟩ := hi.line
  obtain ⟨raw', final', hk', hr', hs', -⟩ := hj.line
  rw [hk] at hk'
  cases hk'
  rw [hr] at hr'
  cases hr'
  rw [hs] at hs'
  cases hs'
  exact congrArg Registration.id (List.inj_on_of_nodup_map hd hi.registered hj.registered rfl)

end AnsweredAt

/-! ### The pending calls -/

/-- The pending calls wait for replies with different numbers, and all answers are in order. -/
structure Numbered (notes : List Note) (s : State) : Prop where
  pending : ∀ conn, s.worker.reads? = some conn → ∀ p ∈ s.correlator.pending, Awaits conn notes p
  distinct : (s.correlator.pending.map (·.seq)).Nodup
  answered : ∀ conn r id answer, .routed conn r (.completed id answer) ∈ notes →
    ∃ n command k, AnsweredAt notes id n conn command k answer

namespace Numbered

theorem init : Numbered [] {} where
  pending := by simp
  distinct := by simp
  answered := by simp

/-- No reply is read, and at most some calls are given up. -/
theorem still (h : Numbered notes s) (hk : s'.worker.reads? = s.worker.reads?)
    (hp : s'.correlator.pending.Sublist s.correlator.pending)
    (hr : ∀ conn, repliesOn true conn ns = [])
    (hn : ∀ conn r id answer, .routed conn r (.completed id answer) ∉ ns) :
    Numbered (notes ++ ns) s' where
  pending conn hc p hm := by
    refine (h.pending conn (hk ▸ hc) p (hp.subset hm)).other ?_
    simp [hr]
  distinct := (hp.map _).nodup h.distinct
  answered conn r id answer hm := by
    rcases List.mem_append.mp hm with hm | hm
    · obtain ⟨n, command, k, ha⟩ := h.answered conn r id answer hm
      exact ⟨n, command, k, ha.append ns⟩
    · exact absurd hm (hn conn r id answer)

/-- Nobody waits. -/
theorem empty (h : Numbered notes s) (hp : s'.correlator.pending = [])
    (hn : ∀ conn r id answer, .routed conn r (.completed id answer) ∉ ns) :
    Numbered (notes ++ ns) s' where
  pending conn hc p hm := by simp [hp] at hm
  distinct := by simp [hp]
  answered conn r id answer hm := by
    rcases List.mem_append.mp hm with hm | hm
    · obtain ⟨n, command, k, ha⟩ := h.answered conn r id answer hm
      exact ⟨n, command, k, ha.append ns⟩
    · exact absurd hm (hn conn r id answer)

/-- A call is registered with a new number. -/
theorem register {id conn : Nat} {n : UInt32} {command : EncodedCommand} {e : LogEntry}
    (h : Numbered notes s)
    (hk : s.worker.reads? = some conn) (hk' : s'.worker.reads? = some conn)
    (hp : s'.correlator.pending = s.correlator.pending ++ [⟨some n, [], id⟩])
    (hd : ((registrations (notes ++ [.registered id (some n) conn command, .log e])).map
      (·.seq)).Nodup) :
    Numbered (notes ++ [.registered id (some n) conn command, .log e]) s' where
  pending c hc p hm := by
    rw [hk'] at hc
    cases hc
    rw [hp, List.mem_append, List.mem_singleton] at hm
    rcases hm with hm | rfl
    · refine (h.pending conn hk p hm).other ?_
      simp [repliesOn, Note.replyOn?]
    · exact ⟨n, command, notes, [.log e], rfl, rfl, by simp [repliesOn, Note.replyOn?], rfl⟩
  distinct := by
    rw [hp, List.map_append, List.map_singleton]
    refine List.Nodup.append h.distinct (List.nodup_singleton _)
      (List.disjoint_singleton.mpr fun hm => ?_)
    obtain ⟨p, hp, hpn⟩ := List.mem_map.mp hm
    obtain ⟨m, _, pre, mid, hpm, rfl, -⟩ := h.pending conn hk p hp
    rw [hpm] at hpn
    cases hpn
    simp [registrations, Note.registration?, List.nodup_append] at hd
  answered c r i answer hm := by
    rcases List.mem_append.mp hm with hm | hm
    · obtain ⟨m, command, k, ha⟩ := h.answered c r i answer hm
      exact ⟨m, command, k, ha.append _⟩
    · simp at hm

/-- A reply is read. -/
theorem reply {conn : Nat} {raw : String} {r : Reply} {ms : List Note} (h : Numbered notes s)
    (hk : s.worker.reads? = some conn) (hk' : s'.worker.reads? = some conn)
    (hr : parseLine raw true = .ok (.reply r)) (hc : s'.correlator = (s.correlator.dispatch r).1)
    (hq : Quiet ms) :
    Numbered (notes ++ .line conn raw :: .routed conn r (s.correlator.dispatch r).2 :: ms) s' := by
  obtain ⟨n, hn⟩ := Reply.seq_of_numbered hr
  set ns := Note.line conn raw :: .routed conn r (s.correlator.dispatch r).2 :: ms with hns
  have hrep : repliesOn true conn ns = [r] := by
    rw [hns, repliesOn_line hr]
    exact congrArg (r :: ·) (hq.repliesOn_eq true conn)
  have hother : ∀ p ∈ s.correlator.pending, p.seq ≠ some n → Awaits conn (notes ++ ns) p :=
    fun p hp hne => (h.pending conn hk p hp).other (by simpa [hrep, hn] using Ne.symm hne)
  have hold : ∀ c r' id answer, .routed c r' (.completed id answer) ∈ notes ++ ns →
      .routed c r' (.completed id answer) ∈ notes ∨
        c = conn ∧ (s.correlator.dispatch r).2 = .completed id answer := fun c r' id answer hm => by
    rcases List.mem_append.mp hm with hm | hm
    · exact .inl hm
    · simp only [hns, List.mem_cons, reduceCtorEq, false_or, Note.routed.injEq] at hm
      rcases hm with ⟨rfl, -, he⟩ | hm
      · exact .inr ⟨rfl, he.symm⟩
      · cases hq _ hm
  have hans : (∀ id answer, (s.correlator.dispatch r).2 = .completed id answer →
      ∃ n command k, AnsweredAt (notes ++ ns) id n conn command k answer) →
      ∀ c r' id answer, .routed c r' (.completed id answer) ∈ notes ++ ns →
        ∃ n command k, AnsweredAt (notes ++ ns) id n c command k answer :=
      fun hnew c r' id answer hm => by
    rcases hold c r' id answer hm with hm | ⟨rfl, he⟩
    · obtain ⟨n, command, k, ha⟩ := h.answered c r' id answer hm
      exact ⟨n, command, k, ha.append ns⟩
    · exact hnew id answer he
  obtain ⟨hnone, -⟩ | ⟨-, hun, he⟩ | ⟨before, p, after, -, hl, he⟩ := s.correlator.dispatch_cases r
  · rw [hn] at hnone
    cases hnone
  -- No call has the number.
  · refine ⟨fun c hc' p hm => ?_, ?_, hans fun id answer he' => ?_⟩
    · rw [hk'] at hc'
      cases hc'
      rw [hc, he] at hm
      exact hother p hm fun hs => hun p hm (.inr (hs.trans hn.symm))
    · rw [hc, he]
      exact h.distinct
    · rw [he] at he'
      cases he'
  obtain ⟨hpend, hmatch, -⟩ := Correlator.locate_eq_some_iff.mp hl
  have hps : p.seq = some n := by
    rcases hmatch with hm | hm
    · rw [hn] at hm
      cases hm
    · rw [hm, hn]
  have hmem : p ∈ s.correlator.pending := by simp [hpend]
  have hsub : (before ++ after).Sublist s.correlator.pending := by
    rw [hpend]
    exact (List.sublist_cons_self p after).append_left before
  have hd := h.distinct
  rw [hpend, List.map_append, List.map_cons, List.nodup_middle, ← List.map_append,
    List.nodup_cons] at hd
  have hrest : ∀ q ∈ before ++ after, Awaits conn (notes ++ ns) q := fun q hq' =>
    hother q (hsub.subset hq') fun hs => hd.1 (List.mem_map.mpr ⟨q, hq', hs.trans hps.symm⟩)
  by_cases hf : r.isFinal = true
  · rw [if_pos hf] at he
    refine ⟨fun c hc' q hm => ?_, ?_, hans fun id answer he' => ?_⟩
    · rw [hk'] at hc'
      cases hc'
      rw [hc, he] at hm
      exact hrest q hm
    · rw [hc, he]
      exact hd.2
    · rw [he] at he'
      cases he'
      exact (h.pending conn hk p hmem).answered hr (hn.trans hps.symm) hf
  · rw [if_neg hf] at he
    have hf : r.isFinal = false := by simpa using hf
    have hkept : Awaits conn (notes ++ ns) { p with
        continuations := p.continuations ++ [r.message] } := by
      have hnf : ∀ x ∈ repliesOn true conn ns, x.seq = p.seq → x.isFinal = false := by
        simpa [hrep] using fun _ => hf
      have := (h.pending conn hk p hmem).snoc hnf
      rwa [hrep, show messagesOf p.seq [r] = [r.message] by simp [messagesOf, hn, hps]] at this
    refine ⟨fun c hc' q hm => ?_, ?_, hans fun id answer he' => ?_⟩
    · rw [hk'] at hc'
      cases hc'
      rw [hc, he, List.mem_append, List.mem_cons] at hm
      rcases hm with hm | rfl | hm
      · exact hrest q (List.mem_append_left _ hm)
      · exact hkept
      · exact hrest q (List.mem_append_right _ hm)
    · rw [hc, he]
      simpa [hpend] using h.distinct
    · rw [he] at he'
      cases he'

end Numbered

/-- Every move keeps the pending calls in order. -/
theorem Move.numbered {a : Action} (hm : Move setup s a s' ns) (hw : Wired s)
    (hcfg : setup.config.sequenceNumbers = true)
    (hd : ((registrations (notes ++ ns)).map (·.seq)).Nodup) (h : Numbered notes s) :
    Numbered (notes ++ ns) s' := by
  have quiet : ∀ {ms : List Note}, Quiet ms → ∀ conn r id answer,
      .routed conn r (.completed id answer) ∉ ms := fun hq conn r id answer hm => by cases hq _ hm
  cases hm.effect hw with
  | calm _ hc hk hn =>
    exact h.still hk (hc ▸ List.Sublist.refl _) (hn.repliesOn_eq true) (quiet hn)
  | cancel seq _ _ _ hc hk hn =>
    exact h.still hk (hc ▸ s.correlator.cancel_sublist seq) (hn.repliesOn_eq true) (quiet hn)
  | close _ hc _ hn => exact h.empty (by rw [hc]) (quiet hn)
  | «open» _ _ _ hc _ hn => exact h.empty (by rw [hc]) (quiet hn)
  | register _ _ _ _ _ hc hk hk' =>
    have hseq : (takeSeq setup.config s).1 = some s.nextSeq := by simp [takeSeq, hcfg]
    rw [hseq] at hc hd ⊢
    exact h.register hk hk' (by rw [hc]) hd
  | send _ _ hc hk => exact h.still hk (hc ▸ List.Sublist.refl _) (fun _ => rfl) (by simp)
  | hear _ hc hk hk' hr hn =>
    refine h.still (hk'.trans hk.symm) (hc ▸ List.Sublist.refl _) (fun conn => ?_) ?_
    · rw [repliesOn_other (hcfg ▸ hr), hn.repliesOn_eq]
    · intro conn r id answer hm
      rcases List.mem_cons.mp hm with hm | hm
      · cases hm
      · exact quiet hn conn r id answer hm
  | reply _ hc hk hk' hr hn => exact h.reply hk hk' (hcfg ▸ hr) hc hn

/-! ### Answers -/

/-- Every answer of the daemon that a call has returned is in order. -/
def AnsweredInOrder (notes : List Note) : Prop :=
  ∀ id result, .returned id result ∈ notes → fromDaemon result = true →
    ∃ n conn command k reply, AnsweredAt notes id n conn command k reply ∧
      (id, conn) ∈ commands notes ∧ result = resultOf reply

/-- Every move returns only answers that are in order. -/
theorem Move.answeredInOrder {a : Action} (hm : Move setup s a s' ns) (hs : Sound setup notes s)
    (h : Numbered notes s) (ha : AnsweredInOrder notes) : AnsweredInOrder (notes ++ ns) := by
  intro id result hr hd
  rcases List.mem_append.mp hr with hr | hr
  · obtain ⟨n, conn, command, k, reply, hk, hc, he⟩ := ha id result hr hd
    exact ⟨n, conn, command, k, reply, hk.append ns, by simp [hc], he⟩
  · obtain ⟨seq, conn, reply, hp, hslot, rfl⟩ := hm.returned hs.told hr hd
    obtain hlost | ⟨conn', r, answer, ha, hn⟩ := hs.told id _ hslot
    · cases hlost
    cases ha
    obtain ⟨n, command, k, hk⟩ := h.answered conn' r id reply hn
    have hsent := hs.history.sent id _ _ hp rfl rfl
    obtain rfl : conn = conn' := hs.history.sent_conn hk.registered hsent
    exact ⟨n, conn, command, k, reply, hk.append ns, by simp [hsent], rfl⟩

/-- While there are fewer than 2³² calls, numbers are different, pending calls wait for their own
replies and answers are in order. -/
def InOrder (notes : List Note) (s : State) : Prop :=
  s.calls.length < 2 ^ 32 →
    (∃ begun, Counted notes s begun) ∧ Numbered notes s ∧ AnsweredInOrder notes

theorem InOrder.init : InOrder [] {} :=
  fun _ => ⟨⟨[], .init⟩, .init, by simp [AnsweredInOrder]⟩

theorem Move.inOrder {a : Action} (hm : Move setup s a s' ns)
    (hcfg : setup.config.sequenceNumbers = true) (hs : Sound setup notes s) (h : InOrder notes s) :
    InOrder (notes ++ ns) s' := by
  intro hlt
  obtain ⟨⟨begun, hc⟩, hn, ha⟩ := h (Nat.lt_of_le_of_lt hm.calls_le hlt)
  obtain ⟨begun', hc'⟩ := hm.counted hs.wired hcfg hlt hc
  exact ⟨⟨begun', hc'⟩, hm.numbered hs.wired hcfg hc'.distinct hn, hm.answeredInOrder hs hn ha⟩

theorem run_inOrder {as : List Action} (hcfg : setup.config.sequenceNumbers = true)
    (h : run setup {} as = some (s, notes)) : Sound setup notes s ∧ InOrder notes s :=
  sound_induction .init
    (fun hs h hm => hm.inOrder hcfg hs h) h

/-- While there are fewer than 2³² calls, no call has the number zero. -/
def Positive (notes : List Note) (s : State) : Prop :=
  s.calls.length < 2 ^ 32 → ∀ x ∈ registrations notes, x.seq ≠ some 0

theorem Move.positive {a : Action} (hm : Move setup s a s' ns)
    (hcfg : setup.config.sequenceNumbers = true) (h : InOrder notes s) (hp : Positive notes s) :
    Positive (notes ++ ns) s' := by
  intro hlt x hx
  have hle : s.calls.length < 2 ^ 32 := Nat.lt_of_le_of_lt hm.calls_le hlt
  rw [registrations_append, List.mem_append] at hx
  rcases hx with hx | hx
  · exact hp hle x hx
  rcases hm.number hcfg with ⟨-, hr⟩ | ⟨id, hq, -, -, hr | ⟨conn, command, hr⟩⟩
  · simp [hr] at hx
  · simp [hr] at hx
  · obtain ⟨⟨begun, hc⟩, -, -⟩ := h hle
    have hsmall := hc.length_lt hq
    rw [hr, List.mem_singleton] at hx
    subst hx
    intro hzero
    have hto := hc.next_toNat (by omega)
    rw [Option.some.inj hzero] at hto
    cases hto

/-- While there are fewer than 2³² calls, no call has the next number. -/
theorem run_next_fresh {as : List Action} (hcfg : setup.config.sequenceNumbers = true)
    (h : run setup {} as = some (s, notes)) (hlt : s.calls.length < 2 ^ 32) :
    ∀ x ∈ registrations notes, x.seq ≠ some s.nextSeq := by
  obtain ⟨-, ho, hp⟩ := sound_induction (P := fun notes s => InOrder notes s ∧ Positive notes s)
    ⟨.init, by simp [Positive, registrations]⟩
    (fun hs h hm => ⟨hm.inOrder hcfg hs h.1, hm.positive hcfg h.1 h.2⟩) h
  obtain ⟨⟨begun, hc⟩, -, -⟩ := ho hlt
  intro x hx hs
  have hle : begun.length ≤ s.calls.length := State.length_le hc.nodup hc.phase
  -- The next number is zero after the last of all, and else greater than all that have been taken.
  by_cases hlast : begun.length + 1 = 2 ^ 32
  · have hzero : s.nextSeq = 0 := by
      rw [hc.next, hlast]
      rfl
    exact hp hlt x hx (hzero ▸ hs)
  · obtain ⟨n, hn, hnle⟩ := hc.taken x hx
    have hto := hc.next_toNat (by omega)
    rw [hs] at hn
    cases hn
    omega

/-- **No answer goes astray where commands are numbered.** A call that returns an answer of the
daemon returns the first final reply with its number that was read, after it was registered, from
the connection its command was written to, with the messages of the continuing replies with its
number that came before. Every reply that is given to a call is such a reply, and no line is given
to two calls. -/
theorem run_answer_numbered {as : List Action} (hcfg : setup.config.sequenceNumbers = true)
    (h : run setup {} as = some (s, notes)) (hlt : s.calls.length < 2 ^ 32) :
    (∀ id result, .returned id result ∈ notes → fromDaemon result = true →
      ∃ n conn command k reply, AnsweredAt notes id n conn command k reply ∧
        result = resultOf reply ∧ (∀ c, .sent id c ∈ notes ↔ c = conn) ∧
        (∃ call, s.calls[id]? = some call ∧
          encode (some n) setup.config.commandPrefix call.subcommand call.args = .ok command) ∧
        (∀ r, result = .ok r → 200 ≤ r.code ∧ r.code ≤ 299 ∧ r.seq = some n) ∧
        (∀ code message, result = .error (.daemon code message) → 400 ≤ code ∧ code ≤ 599)) ∧
    (∀ conn r id answer, .routed conn r (.completed id answer) ∈ notes →
      ∃ n command k, AnsweredAt notes id n conn command k answer) ∧
    (∀ i j n m conn conn' command command' k reply reply',
      AnsweredAt notes i n conn command k reply →
      AnsweredAt notes j m conn' command' k reply' → i = j) := by
  obtain ⟨hs, ho⟩ := run_inOrder hcfg h
  obtain ⟨⟨begun, hc⟩, hn, ha⟩ := ho hlt
  refine ⟨fun id result hr hd => ?_, hn.answered, fun i j n m conn conn' command command' k _ _ =>
    AnsweredAt.unique hc.distinct⟩
  obtain ⟨n, conn, command, k, reply, hk, hsent, rfl⟩ := ha id result hr hd
  obtain ⟨raw, final, -, hp, -, hf, hcode, -, hseq⟩ := hk.line
  obtain ⟨hok, hfail⟩ := Reply.code_of_final hp hf
  have hclass : reply.isFailure = final.isFailure := by
    rw [Reply.isFailure, Reply.isFailure, Reply.class?, Reply.class?, hcode]
  refine ⟨n, conn, command, k, reply, hk, rfl, fun c => ?_, ?_, fun r hr' => ?_,
    fun code message hr' => ?_⟩
  · rw [← mem_commands]
    constructor
    · exact fun hc => hs.history.sent_conn hk.registered hc
    · rintro rfl
      exact hsent
  · obtain ⟨subcommand, args, hq, he⟩ := hs.encoded _ hk.registered
    obtain ⟨call, hcall, hx⟩ := Option.map_eq_some_iff.mp hq
    cases hx
    exact ⟨call, hcall, he⟩
  · unfold resultOf at hr'
    split at hr'
    · cases hr'
    · rename_i hnf
      cases hr'
      obtain ⟨h₁, h₂⟩ := hok (by simpa [hclass] using hnf)
      exact ⟨hcode ▸ h₁, hcode ▸ h₂, hseq⟩
  · unfold resultOf at hr'
    split at hr'
    · rename_i hnf
      cases hr'
      exact hcode ▸ hfail (hclass ▸ hnf)
    · cases hr'

/-- The call of an exchange gets the line that was read as its answer. -/
theorem run_answer_numbered_exchange : ∃ s notes result n conn command k reply,
    run { config := {} } {} (exchange "200 1 done") = some (s, notes) ∧
      .returned 0 result ∈ notes ∧ AnsweredAt notes 0 n conn command k reply ∧
      result = resultOf reply := by
  have hrun : ((run { config := {} } {} (exchange "200 1 done")).map fun x =>
      x.2.any (Note.answers 0) && decide (x.1.calls.length < 2 ^ 32)) = some true := by
    decide +kernel
  obtain ⟨⟨s, notes⟩, hx, hb⟩ := Option.map_eq_some_iff.mp hrun
  simp only [Bool.and_eq_true, List.any_eq_true, decide_eq_true_eq] at hb
  obtain ⟨⟨note, hm, ha⟩, hlt⟩ := hb
  obtain ⟨result, rfl, hd⟩ := Note.answers_iff.mp ha
  obtain ⟨n, conn, command, k, reply, hk, he, -⟩ :=
    (run_answer_numbered (by rfl) hx hlt).1 0 result hm hd
  exact ⟨s, notes, result, n, conn, command, k, reply, hx, hm, hk, he⟩

end Connector
end EfsControl

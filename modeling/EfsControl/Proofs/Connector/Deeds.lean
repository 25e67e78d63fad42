/-
# What is done to the pending calls along a run

Some steps of the connector do something to its correlator: the worker opens
it and closes it and gives it the replies that it reads, and a call registers
and gives itself up. Done one after the other, the deeds of a run lead to the
correlator of the state in which the run ends. A call does nothing to it
before it is registered, and then only with the number it was registered with.

Key definitions: `deedsOf`, `deeds`, `Noted`.
Key theorems: `Move.deeds`, `run_deeds`, `run_noted`.
-/
import EfsControl.Proofs.Connector.Numbered
import EfsControl.Proofs.Correlator.Withdrawn

namespace EfsControl
namespace Connector

open Correlator (Deed)

variable {setup : Setup} {s s' t : State} {a : Action} {notes ns : List Note} {as : List Action}

/-! ### The deeds of a step -/

/-- What is noted to have been done to the correlator. -/
def Note.deed? : Note → Option (Deed Nat)
  | .registered id seq _ _ => some (.register seq id)
  | .routed _ reply _ => some (.dispatch reply)
  | _ => none

/-- What a step does to the correlator. Opening, closing and giving up are not noted, but follow
from the action. -/
def deedsOf (s : State) (a : Action) (ns : List Note) : List (Deed Nat) :=
  match a with
  | .open => [.opening]
  | .connectFails _ | .readEnd | .readFails _ | .resync | .stop => [.closing]
  | .writeFails id _ | .giveUp id =>
    match (s.phase? id).bind Phase.link? with
    | some (seq, _) => [.cancel seq id]
    | none => []
  | _ => ns.filterMap Note.deed?

/-- What the steps of a run do to the correlator, in order. -/
def deeds (setup : Setup) (s : State) : List Action → List (Deed Nat)
  | [] => []
  | a :: as =>
    match step setup s a with
    | none => []
    | some (t, ns) => deedsOf s a ns ++ deeds setup t as

/-- What tells nothing about traffic tells of no deed. -/
theorem Quiet.deeds_eq (h : Quiet ns) : ns.filterMap Note.deed? = [] := by
  refine List.filterMap_eq_nil_iff.mpr fun n hn => ?_
  have hquiet := h n hn
  cases n <;> simp_all [Note.isTraffic, Note.deed?]

/-- The deeds of a move make the correlator what it is. -/
theorem Move.deeds (hm : Move setup s a s' ns) :
    s'.correlator = s.correlator.play (deedsOf s a ns) := by
  have gives_up : ∀ {id conn : Nat} {call : Call} {seq : Option UInt32}, s.calls[id]? = some call →
      call.phase.link? = some (seq, conn) → (s.phase? id).bind Phase.link? = some (seq, conn) :=
    fun hc hl => by rw [State.phase?_eq hc, Option.bind_some, hl]
  cases hm with
  | @register id _ _ _ _ _ _ _ ho _ =>
    have hregister : s.correlator.register (takeSeq setup.config s).1 id = some { s.correlator with
        pending := s.correlator.pending ++ [⟨(takeSeq setup.config s).1, [], id⟩] } := by
      rw [Correlator.register, if_pos ho]
    show _ = (s.correlator.register (takeSeq setup.config s).1 id).getD s.correlator
    rw [hregister]
    rfl
  | writeFail _ hc hp | giveUp hc hp | giveUpLate hc hp | close hc hp =>
    rw [deedsOf, gives_up hc (by rw [hp]; rfl)]
    rfl
  | sever | fail | answer =>
    show _ = s.correlator.play (List.filterMap Note.deed? _)
    rw [(Quiet.log_append (.cons rfl .nil)).deeds_eq]
    rfl
  | @hear conn rest raw ms _ _ hn =>
    have hquiet : Quiet ms := fun n hm => by obtain ⟨_, rfl⟩ | ⟨_, rfl⟩ := hn n hm <;> rfl
    have hnone : deedsOf s .readLine (.line conn raw :: ms) = [] := hquiet.deeds_eq
    rw [hnone]
    rfl
  | @reply conn rest raw r =>
    obtain ⟨entries, hns⟩ := routeReply_notes
      (s.onConn conn fun c => { c with inbox := rest }) conn raw r
    have hlog : (entries.map Note.log).filterMap Note.deed? = [] := Quiet.of_log.deeds_eq
    have hdeed : deedsOf s .readLine (.line conn raw :: (routeReply
        (s.onConn conn fun c => { c with inbox := rest }) conn raw r).2) = [.dispatch r] := by
      rw [hns]
      exact congrArg (Deed.dispatch r :: ·) hlog
    rw [routeReply_correlator, hdeed]
    rfl
  | @disconnect final =>
    have hnone : deedsOf s .disconnect (removeConn s final).2 = [] := by cases final <;> rfl
    rw [removeConn_correlator, hnone]
    rfl
  | _ => rfl

/-! ### The deeds of a run -/

/-- The correlator at the end of a run is what the deeds of the run make of the first. -/
theorem run_deeds (h : run setup s as = some (s', notes)) :
    s'.correlator = s.correlator.play (deeds setup s as) := by
  induction as generalizing s notes with
  | nil =>
    cases h
    rfl
  | cons a as ih =>
    obtain ⟨t, ms, _, ha, hr, -⟩ := run_cons.mp h
    have hstep := (step_move ha).deeds
    calc s'.correlator
      _ = t.correlator.play (deeds setup t as) := ih hr
      _ = (s.correlator.play (deedsOf s a ms)).play (deeds setup t as) := by rw [hstep]
      _ = s.correlator.play (deedsOf s a ms ++ deeds setup t as) := List.foldl_append.symm
      _ = s.correlator.play (deeds setup s (a :: as)) := by rw [deeds, ha]

theorem deeds_snoc (h : run setup s as = some (t, notes)) (ha : step setup t a = some (s', ns)) :
    deeds setup s (as ++ [a]) = deeds setup s as ++ deedsOf t a ns := by
  induction as generalizing s notes with
  | nil =>
    cases h
    simp [deeds, ha]
  | cons b as ih =>
    obtain ⟨u, ms, _, hb, hr, -⟩ := run_cons.mp h
    simp only [List.cons_append, deeds, hb, List.append_assoc]
    rw [ih hr]

/-- A deed as the notes tell it: a caller acts on the number of its registration, and a reply has a
number. -/
def Noted (notes : List Note) : Deed Nat → Prop
  | .register seq id | .cancel seq id => ∃ x ∈ registrations notes, x.id = id ∧ x.seq = seq
  | .dispatch reply => reply.seq.isSome
  | _ => True

theorem Noted.append {d : Deed Nat} (h : Noted notes d) (ns : List Note) :
    Noted (notes ++ ns) d := by
  cases d with
  | register seq id | cancel seq id =>
    obtain ⟨x, hx, he⟩ := h
    exact ⟨x, by simp [hx], he⟩
  | opening | closing | dispatch reply => exact h

/-- Where replies have numbers, one that is given to the pending calls has one. -/
theorem Move.routed_seq {conn : Nat} {reply : Reply} {r : Routed Nat} (hm : Move setup s a s' ns)
    (hw : Wired s) (hcfg : setup.config.sequenceNumbers = true) (hr : .routed conn reply r ∈ ns) :
    reply.seq.isSome = true := by
  cases hm.effect hw with
  | calm _ _ _ hn | cancel _ _ _ _ _ _ hn | close _ _ _ hn | «open» _ _ _ _ _ hn => cases hn _ hr
  | register | send => simp at hr
  | hear _ _ _ _ _ hn =>
    rcases List.mem_cons.mp hr with hr | hr
    · cases hr
    · cases hn _ hr
  | reply _ _ _ _ hp hn =>
    simp only [List.mem_cons, reduceCtorEq, false_or, Note.routed.injEq] at hr
    rcases hr with ⟨-, rfl, -⟩ | hr
    · obtain ⟨n, hn⟩ := Reply.seq_of_numbered (hcfg ▸ hp)
      rw [hn]
      rfl
    · cases hn _ hr

/-- The deeds of a move are as the notes tell them. -/
theorem Move.noted (hm : Move setup s a s' ns) (hs : Sound setup notes s)
    (hcfg : setup.config.sequenceNumbers = true) : ∀ d ∈ deedsOf s a ns, Noted (notes ++ ns) d := by
  have traffic : ∀ d ∈ ns.filterMap Note.deed?, Noted (notes ++ ns) d := by
    intro d hd
    obtain ⟨n, hn, hdeed⟩ := List.mem_filterMap.mp hd
    cases n with
    | registered id seq conn command =>
      cases hdeed
      exact ⟨⟨id, seq, conn, command⟩, by simp [mem_registrations, hn], rfl, rfl⟩
    | routed conn reply r =>
      cases hdeed
      exact hm.routed_seq hs.wired hcfg hn
    | _ => cases hdeed
  have gives_up : ∀ id, ∀ d ∈ (match (s.phase? id).bind Phase.link? with
      | some (seq, _) => [Deed.cancel seq id]
      | none => []), Noted (notes ++ ns) d := by
    intro id d hd
    split at hd
    · rename_i seq conn hlink
      obtain rfl := List.mem_singleton.mp hd
      obtain ⟨p, hp, hl⟩ := Option.bind_eq_some_iff.mp hlink
      obtain ⟨command, hregistered⟩ := hs.history.registered_of_link hp hl
      refine ⟨⟨id, seq, conn, command⟩, ?_, rfl, rfl⟩
      rw [registrations_append]
      exact List.mem_append_left _ hregistered
    · cases hd
  cases a with
  | «open» | connectFails | readEnd | readFails | resync | stop => simp [deedsOf, Noted]
  | writeFails id | giveUp id => exact gives_up id
  | _ => exact traffic

theorem run_noted (h : run setup {} as = some (s, notes))
    (hcfg : setup.config.sequenceNumbers = true) : ∀ d ∈ deeds setup {} as, Noted notes d := by
  induction as using List.reverseRecOn generalizing s notes with
  | nil => simp [deeds]
  | append_singleton as a ih =>
    obtain ⟨t, ns₁, ns₂, ht, ha, rfl⟩ := run_snoc.mp h
    rw [deeds_snoc ht ha]
    intro d hd
    rcases List.mem_append.mp hd with hd | hd
    · exact (ih ht d hd).append ns₂
    · exact (step_move ha).noted (run_sound ht) hcfg d hd

end Connector
end EfsControl

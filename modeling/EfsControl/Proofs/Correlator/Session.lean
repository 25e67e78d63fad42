/-
# A session without numbers

Between an opening and the next closing, calls without numbers are answered in
the order of registration: the first answer is to the first call, the next one
to the next, whether or not the call still waits. Calls are given up from the
front of the queue, so those that were given up before their answer had come
stand in front of all that are pending. The answer to a call that was given up
reaches nobody, and how many such answers are to come is all that is kept of
those calls.

An answer is a final reply and the replies since the last one. Nothing is
assumed about the daemon but that no reply of an answer comes before the call
that the answer is for.

Key definitions: `Op.Positional`, `replies`, `registrations`, `finals`, `Timely`,
`InSession`.
Key theorems: `InSession.snoc`, `Timely.inSession`, `Prompt.queued`,
`InSession.givenUp_iff`, `Timely.ends_final`, `Timely.replied_iff`, `run_fifo`.
-/
import EfsControl.Proofs.Correlator.Ledger
import EfsControl.Proofs.Correlator.Positional

namespace EfsControl

/-! ### Operations -/

namespace Correlator.Op

/-- The operations of a session without numbers. -/
def Positional : Op → Prop
  | .opening | .closing => False
  | .register seq | .cancel seq => seq = none
  | .forget _ => True
  | .dispatch reply => reply.seq = none

/-- The reply that comes, if one does. -/
@[simp] def reply? : Op → Option Reply
  | .dispatch reply => some reply
  | _ => none

/-- Whether a call is registered. -/
@[simp] def registers : Op → Bool
  | .register _ => true
  | _ => false

end Correlator.Op

namespace History

open Correlator (Op Answer InLine Queued)

variable {start : History} {ops : List Op} {op : Op} {r : Reply}

/-- The replies that come. -/
def replies (ops : List Op) : List Reply := ops.filterMap Op.reply?

/-- How many calls are registered. -/
def registrations (ops : List Op) : Nat := ops.countP Op.registers

/-- How many answers are complete. -/
def finals (ops : List Op) : Nat := (tally (replies ops)).answers.length

/-- The messages of the answer that is not complete. -/
def begun (ops : List Op) : List String := (tally (replies ops)).begun

theorem replies_snoc (ops : List Op) (op : Op) :
    replies (ops ++ [op]) = replies ops ++ op.reply?.toList := by
  rw [replies, List.filterMap_append]
  cases op <;> rfl

theorem finals_snoc_dispatch (ops : List Op) (r : Reply) :
    finals (ops ++ [.dispatch r]) = if r.isFinal then finals ops + 1 else finals ops := by
  have hreplies : replies (ops ++ [.dispatch r]) = replies ops ++ [r] := replies_snoc ops _
  rw [finals, hreplies, tally_snoc, Tally.length_add]
  rfl

theorem finals_snoc_of_none (h : op.reply? = none) : finals (ops ++ [op]) = finals ops := by
  rw [finals, replies_snoc, h, Option.toList_none, List.append_nil]
  rfl

theorem registrations_snoc (ops : List Op) (op : Op) :
    registrations (ops ++ [op]) = registrations ops + if op.registers then 1 else 0 := by
  simp [registrations, List.countP_append, List.countP_singleton]

/-! ### When replies come -/

/-- No reply of an answer that is completed comes before the call that the answer is for: before a
reply that a final one follows, or that is final, more calls were registered than answers
completed. -/
def Timely (ops : List Op) : Prop :=
  ∀ before r after, ops = before ++ .dispatch r :: after →
    (∃ f ∈ r :: replies after, f.isFinal = true) → finals before < registrations before

/-- The same for each place of the run. -/
theorem timely_iff : Timely ops ↔ ∀ i < ops.length, (ops[i]?.bind Op.reply?).isSome →
    (∃ f ∈ replies (ops.drop i), f.isFinal = true) →
      finals (ops.take i) < registrations (ops.take i) := by
  constructor
  · intro h i hi hr hf
    obtain ⟨r, hr⟩ := Option.isSome_iff_exists.mp hr
    rw [List.getElem?_eq_getElem hi, Option.bind_some] at hr
    have hop : ops[i] = .dispatch r := by
      cases hop : ops[i] with
      | dispatch r' =>
        rw [hop] at hr
        rw [Option.some.inj hr]
      | _ =>
        rw [hop] at hr
        cases hr
    have hdrop : ops.drop i = .dispatch r :: ops.drop (i + 1) := by
      rw [List.drop_eq_getElem_cons hi, hop]
    refine h (ops.take i) r (ops.drop (i + 1)) ?_ ?_
    · rw [← hdrop, List.take_append_drop]
    · rw [hdrop] at hf
      exact hf
  · rintro h before r after rfl hf
    have hplace := h before.length (by simp) (by simp)
    rw [List.drop_left, List.take_left] at hplace
    exact hplace hf

instance : Decidable (Timely ops) := decidable_of_iff _ timely_iff.symm

/-- No reply at all comes before the call that it is for. -/
def Prompt (ops : List Op) : Prop :=
  ∀ before r after, ops = before ++ .dispatch r :: after → finals before < registrations before

theorem Timely.of_append {ops' : List Op} (h : Timely (ops ++ ops')) : Timely ops := by
  rintro before r after rfl ⟨f, hf, hfinal⟩
  refine h before r (after ++ ops') (by simp) ⟨f, ?_, hfinal⟩
  rw [replies, List.filterMap_append, ← List.cons_append]
  exact List.mem_append_left _ hf

theorem Timely.final {after : List Op} (h : Timely (ops ++ .dispatch r :: after))
    (hf : r.isFinal = true) : finals ops < registrations ops :=
  h ops r after rfl ⟨r, List.mem_cons_self, hf⟩

/-- In front of a final reply all replies belong to answers that are completed. -/
theorem Timely.prompt {after : List Op} (h : Timely (ops ++ .dispatch r :: after))
    (hf : r.isFinal = true) : Prompt ops := by
  rintro before q rest rfl
  refine h before q (rest ++ .dispatch r :: after) (by simp) ⟨r, ?_, hf⟩
  rw [replies, List.filterMap_append]
  exact List.mem_cons_of_mem _ (List.mem_append_right _ List.mem_cons_self)

theorem Prompt.of_append {ops' : List Op} (h : Prompt (ops ++ ops')) : Prompt ops := by
  rintro before r after rfl
  exact h before r (after ++ ops') (by simp)

theorem Prompt.timely (h : Prompt ops) : Timely ops := fun before r after hops _ =>
  h before r after hops

/-! ### Calls that were given up -/

/-- The calls that were given up, in this order. -/
def removed (ended : List (Nat × Fate)) : List Nat :=
  (ended.filter (·.2 == .givenUp)).map Prod.fst

theorem removed_append (xs ys : List (Nat × Fate)) :
    removed (xs ++ ys) = removed xs ++ removed ys := by
  simp [removed]

theorem mem_removed_iff {ended : List (Nat × Fate)} {call : Nat} :
    call ∈ removed ended ↔ (call, .givenUp) ∈ ended := by
  simp [removed]

/-- A reply gives nobody up. -/
theorem removed_dispatch (h : History) (r : Reply) : removed (h.ends (.dispatch r)) = [] := by
  rw [ends]
  cases (h.correlator.dispatch r).2 <;> rfl

/-- Of a run of numbers, those behind the first. -/
theorem filter_range'_succ (a n : Nat) :
    (List.range' a n).filter (a + 1 ≤ ·) = List.range' (a + 1) (n - 1) := by
  cases n with
  | zero => rfl
  | succ n =>
    rw [List.range'_succ, List.filter_cons_of_neg (by simp), Nat.add_sub_cancel]
    refine List.filter_eq_self.mpr fun x hx => ?_
    have := (List.mem_range'_1.mp hx).1
    simpa using this

/-! ### The session -/

/-- How a session stands: the calls registered in it are numbered on from those before it, the
pending ones are in line, and those that were given up and have no answer yet come right after
those that have one. -/
structure InSession (start : History) (ops : List Op) : Prop where
  isOpen : (start.run ops).correlator.isOpen = true
  fates : (start.run ops).fates.length = start.fates.length + registrations ops
  line : (start.run ops).correlator.InLine
    (List.range' start.fates.length (registrations ops)) (finals ops)
  gone : (removed (start.endings ops)).filter (start.fates.length + finals ops ≤ ·) =
    List.range' (start.fates.length + finals ops) (start.run ops).correlator.stale

namespace InSession

theorem init (h : start.correlator = { isOpen := true }) : InSession start [] := by
  refine ⟨?_, rfl, ?_, ?_⟩
  · rw [run_nil, h]
  · rw [run_nil, h]
    exact InLine.opened
  · rw [run_nil, h]
    rfl

/-- The oldest pending call follows those that have answers and those that were given up. -/
theorem head (h : InSession start ops) {p : Pending Nat} {ps : List (Pending Nat)}
    (hp : (start.run ops).correlator.pending = p :: ps) :
    p.caller = start.fates.length + finals ops + (start.run ops).correlator.stale := by
  have hcaller := h.line.getElem?_registered hp
  have hlt := (List.getElem?_eq_some_iff.mp hcaller).1
  rw [List.length_range'] at hlt
  rw [List.getElem?_range' hlt, Nat.one_mul] at hcaller
  have := Option.some.inj hcaller
  omega

/-- The call that the next answer is for was given up exactly while answers to such calls are to
come. -/
theorem givenUp_iff (h : InSession start ops) :
    (start.fates.length + finals ops, .givenUp) ∈ start.endings ops ↔
      0 < (start.run ops).correlator.stale := by
  have hmem : start.fates.length + finals ops ∈ removed (start.endings ops) ↔
      start.fates.length + finals ops ∈ List.range' (start.fates.length + finals ops)
        (start.run ops).correlator.stale := by
    rw [← h.gone, List.mem_filter]
    simp
  rw [← mem_removed_iff, hmem, List.mem_range'_1]
  omega

/-- A reply of the answer to a call that was given up reaches nobody. -/
theorem dispatch_givenUp (h : InSession start ops) (hr : r.seq = none)
    (hgone : (start.fates.length + finals ops, .givenUp) ∈ start.endings ops) :
    ((start.run ops).correlator.dispatch r).2 = .stale ∧
      ((start.run ops).correlator.dispatch r).1.pending = (start.run ops).correlator.pending := by
  rw [Correlator.dispatch_of_stale hr (h.givenUp_iff.mp hgone)]
  refine ⟨rfl, ?_⟩
  dsimp only
  split <;> rfl

/-- A final reply of any other answer ends the call that the answer is for. -/
theorem ends_final (h : InSession start ops) (hr : r.seq = none) (hf : r.isFinal = true)
    (hlt : finals ops < registrations ops)
    (hq : (start.run ops).correlator.Queued
      (List.range' start.fates.length (registrations ops)) (tally (replies ops)))
    (hnot : (start.fates.length + finals ops, .givenUp) ∉ start.endings ops) :
    (start.run ops).ends (.dispatch r) =
      [(start.fates.length + finals ops, .replied { r with continuations := begun ops })] := by
  have hs : (start.run ops).correlator.stale = 0 :=
    Nat.eq_zero_of_not_pos (mt h.givenUp_iff.mpr hnot)
  obtain ⟨x, hx, hd⟩ := hq.dispatch_head hr hf hs (by rw [List.length_range']; exact hlt)
  change (List.range' start.fates.length (registrations ops))[finals ops]? = some x at hx
  rw [List.getElem?_range' hlt, Nat.one_mul] at hx
  rw [ends, hd, ← Option.some.inj hx]
  rfl

/-- A call that is registered is numbered on from those before it. -/
theorem register (h : InSession start ops) : InSession start (ops ++ [.register none]) where
  isOpen := by
    rw [run_snoc, register_of_open h.isOpen]
    exact h.isOpen
  fates := by
    rw [run_snoc, length_step_fates, takes_register, h.isOpen, if_pos rfl, h.fates,
      registrations_snoc]
    rfl
  line := by
    have hcount : registrations (ops ++ [.register none]) = registrations ops + 1 :=
      registrations_snoc ops _
    rw [run_snoc, register_of_open h.isOpen, hcount, finals_snoc_of_none rfl,
      List.range'_1_concat, ← h.fates]
    exact h.line.register _
  gone := by
    have hends : (start.run ops).ends (.register none) = [] := rfl
    rw [run_snoc, register_of_open h.isOpen, finals_snoc_of_none rfl, endings_snoc, hends,
      List.append_nil]
    exact h.gone

/-- Whoever is given up comes right behind those given up before. -/
theorem cancel (h : InSession start ops) : InSession start (ops ++ [.cancel none]) where
  isOpen := by
    rw [run_snoc]
    exact (Correlator.cancel_isOpen _ none).trans h.isOpen
  fates := by
    rw [run_snoc, length_step_fates, registrations_snoc]
    exact h.fates
  line := by
    rw [run_snoc, registrations_snoc, finals_snoc_of_none rfl]
    exact h.line.cancel
  gone := by
    have hstep : ((start.run ops).step (.cancel none)).1.correlator =
        ((start.run ops).correlator.cancel none).1 := rfl
    rw [run_snoc, hstep, finals_snoc_of_none rfl, endings_snoc, removed_append,
      List.filter_append, h.gone, ends]
    obtain ⟨-, hc⟩ | ⟨before, p, after, hl, hc⟩ := (start.run ops).correlator.cancel_cases none
    · rw [hc]
      exact List.append_nil _
    · have hnil : before = [] := List.eq_nil_iff_forall_not_mem.mpr fun q hq =>
        (Correlator.locate_eq_some_iff.mp hl).2.2 q hq (.inl rfl)
      subst hnil
      have hp := h.head (Correlator.locate_eq_some_iff.mp hl).1
      have hle : start.fates.length + finals ops ≤ p.caller := by omega
      rw [hc]
      simp only [Option.toList_some, List.map_cons, List.map_nil, removed, Option.isNone_none,
        if_true, List.range'_1_concat, ← hp]
      simp [hle]

/-- A caller that stops listening changes nothing. -/
theorem forget (h : InSession start ops) (call : Nat) :
    InSession start (ops ++ [.forget call]) where
  isOpen := by
    rw [run_snoc]
    exact h.isOpen
  fates := by
    rw [run_snoc, registrations_snoc]
    exact h.fates
  line := by
    rw [run_snoc, registrations_snoc, finals_snoc_of_none rfl]
    exact h.line
  gone := by
    have hends : (start.run ops).ends (.forget call) = [] := rfl
    rw [run_snoc, finals_snoc_of_none rfl, endings_snoc, hends, List.append_nil]
    exact h.gone

/-- A final reply is the answer to one call more: the oldest one, or the first of those given up. -/
theorem dispatch (h : InSession start ops) (hr : r.seq = none)
    (hlt : r.isFinal = true → finals ops < registrations ops) :
    InSession start (ops ++ [.dispatch r]) where
  isOpen := by
    rw [run_snoc]
    exact (Correlator.dispatch_isOpen _ r).trans h.isOpen
  fates := by
    rw [run_snoc, length_step_fates, registrations_snoc]
    exact h.fates
  line := by
    rw [run_snoc, registrations_snoc, finals_snoc_dispatch]
    exact h.line.dispatch hr (by rwa [List.length_range'])
  gone := by
    have hstep : ((start.run ops).step (.dispatch r)).1.correlator =
        ((start.run ops).correlator.dispatch r).1 := rfl
    rw [run_snoc, hstep, endings_snoc, removed_append, removed_dispatch, List.append_nil,
      finals_snoc_dispatch, Correlator.dispatch_stale _ hr]
    split
    · rw [← Nat.add_assoc, ← filter_range'_succ, ← h.gone, List.filter_filter]
      refine List.filter_congr fun x _ => ?_
      rw [Bool.eq_iff_iff, Bool.and_eq_true, decide_eq_true_iff, decide_eq_true_iff]
      omega
    · exact h.gone

/-- One more operation of the session. -/
theorem snoc (h : InSession start ops) (hop : op.Positional)
    (hlt : ∀ r, op = .dispatch r → r.isFinal = true → finals ops < registrations ops) :
    InSession start (ops ++ [op]) := by
  cases op with
  | opening | closing => exact hop.elim
  | register seq =>
    obtain rfl : seq = none := hop
    exact h.register
  | cancel seq =>
    obtain rfl : seq = none := hop
    exact h.cancel
  | forget call => exact h.forget call
  | dispatch r => exact h.dispatch hop (hlt r rfl)

end InSession

section
variable (hstart : start.correlator = { isOpen := true }) (hpositional : ∀ op ∈ ops, op.Positional)
include hstart hpositional

/-- Along a session all calls stay in line. -/
theorem Timely.inSession (ht : Timely ops) : InSession start ops := by
  induction ops using List.reverseRecOn with
  | nil => exact .init hstart
  | append_singleton ops op ih =>
    have hops := ih (fun op' hop' => hpositional op' (List.mem_append_left _ hop')) ht.of_append
    refine hops.snoc (hpositional op (by simp)) ?_
    rintro r rfl hf
    exact ht.final hf

/-- If no reply at all comes early, the call whose answer has begun keeps what has come of it. -/
theorem Prompt.queued (hp : Prompt ops) : (start.run ops).correlator.Queued
    (List.range' start.fates.length (registrations ops)) (tally (replies ops)) := by
  induction ops using List.reverseRecOn with
  | nil =>
    rw [run_nil, hstart]
    exact Queued.opened
  | append_singleton ops op ih =>
    have hbefore : ∀ op' ∈ ops, op'.Positional := fun op' hop' =>
      hpositional op' (List.mem_append_left _ hop')
    have hq := ih hbefore hp.of_append
    have hs := Timely.inSession hstart hbefore hp.of_append.timely
    have hop := hpositional op (by simp)
    rw [run_snoc, registrations_snoc, replies_snoc]
    cases op with
    | opening | closing => exact hop.elim
    | register seq =>
      have hseq : seq = none := hop
      subst hseq
      have hstep := register_of_open hs.isOpen none
      have hnew := hq.register (start.run ops).fates.length
      rw [hs.fates, ← List.range'_1_concat] at hnew
      rw [hstep, hs.fates]
      simpa using hnew
    | cancel seq =>
      have hseq : seq = none := hop
      subst hseq
      simpa [step] using hq.cancel
    | forget call => simpa [step] using hq
    | dispatch r =>
      have hlt : finals ops < registrations ops := hp ops r [] rfl
      have hnew := hq.dispatch_queued hop (r := r) (by rw [List.length_range']; exact hlt)
      rw [Op.reply?, Option.toList_some, tally_snoc]
      simpa [step] using hnew

/-- At each moment of a session all that was done before is a session. -/
theorem Timely.inSession_prefix (ht : Timely ops) {before : List Op} (h : before <+: ops) :
    InSession start before := by
  obtain ⟨after, rfl⟩ := h
  exact Timely.inSession hstart (fun op hop => hpositional op (List.mem_append_left _ hop))
    ht.of_append

/-- A reply of the answer to a call that was given up reaches nobody. -/
theorem Timely.dispatch_givenUp (ht : Timely ops) {before after : List Op}
    (hops : ops = before ++ .dispatch r :: after)
    (hgone : (start.fates.length + finals before, .givenUp) ∈ start.endings before) :
    ((start.run before).correlator.dispatch r).2 = .stale ∧
      ((start.run before).correlator.dispatch r).1.pending =
        (start.run before).correlator.pending := by
  have hr : r.seq = none := hpositional (.dispatch r) (by simp [hops])
  have hbefore : before <+: ops := hops ▸ List.prefix_append _ _
  exact (ht.inSession_prefix hstart hpositional hbefore).dispatch_givenUp hr hgone

/-- A final reply of any other answer ends the call that the answer is for, with what came of the
answer before. -/
theorem Timely.ends_final (ht : Timely ops) {before after : List Op}
    (hops : ops = before ++ .dispatch r :: after) (hf : r.isFinal = true)
    (hnot : (start.fates.length + finals before, .givenUp) ∉ start.endings before) :
    (start.run before).ends (.dispatch r) = [(start.fates.length + finals before,
      .replied { r with continuations := begun before })] := by
  subst hops
  have hr : r.seq = none := hpositional (.dispatch r) (by simp)
  have hbefore : ∀ op ∈ before, op.Positional := fun op hop =>
    hpositional op (List.mem_append_left _ hop)
  have hsession := ht.inSession_prefix hstart hpositional (List.prefix_append _ _)
  exact hsession.ends_final hr hf (ht.final hf)
    (Prompt.queued hstart hbefore (ht.prompt hf)) hnot

/-- A call is answered where the final reply of its answer comes and it was not given up before. -/
theorem Timely.replied_iff (ht : Timely ops) {k : Nat} {answer : Reply} :
    (start.fates.length + k, .replied answer) ∈ start.endings ops ↔
      ∃ before r after, ops = before ++ .dispatch r :: after ∧ r.isFinal = true ∧
        finals before = k ∧ (start.fates.length + k, .givenUp) ∉ start.endings before ∧
        answer = { r with continuations := begun before } := by
  constructor
  · intro he
    obtain ⟨before, op, after, hops, hends⟩ := mem_endings_iff.mp he
    have hop : op.Positional := hpositional op (by simp [hops])
    cases op with
    | opening | closing => exact hop.elim
    | register | forget => cases hends
    | cancel seq => simp [ends] at hends
    | dispatch r =>
      cases hd : ((start.run before).correlator.dispatch r).2 with
      | completed x answer' =>
        have hf := (Correlator.completed_final hd).1
        have hnot : (start.fates.length + finals before, .givenUp) ∉ start.endings before :=
          fun hgone => by
            rw [(ht.dispatch_givenUp hstart hpositional hops hgone).1] at hd
            cases hd
        rw [ht.ends_final hstart hpositional hops hf hnot] at hends
        simp only [List.mem_singleton, Prod.mk.injEq, Fate.replied.injEq] at hends
        have hk : finals before = k := Nat.add_left_cancel hends.1.symm
        exact ⟨before, r, after, hops, hf, hk, hk ▸ hnot, hends.2⟩
      | continued | stale | unmatched => simp [ends, hd, Routed.ended] at hends
  · rintro ⟨before, r, after, hops, hf, rfl, hnot, rfl⟩
    refine mem_endings_iff.mpr ⟨before, .dispatch r, after, hops, ?_⟩
    rw [ht.ends_final hstart hpositional hops hf hnot]
    exact List.mem_singleton_self _

end

/-- A correlator that is opened when it is closed has no calls. -/
theorem opening_of_closed {earlier : List Op}
    (hclosed : (({} : History).run earlier).correlator.isOpen = false) :
    (({} : History).run (earlier ++ [.opening])).correlator = { isOpen := true } := by
  rw [run_snoc]
  simp [step, Correlator.opened, eq_empty_of_closed hclosed]

/-- No call of a session ends twice, whatever came before it. -/
theorem endings_nodup (earlier ops : List Op) :
    (((({} : History).run earlier).endings ops).map Prod.fst).Nodup := by
  have hall := (run_balanced (earlier ++ ops)).ended_nodup
  rw [endings_append, List.map_append] at hall
  exact (List.nodup_append.mp hall).2.1

/-- **Answers are given out in the order of registration, around the calls that were given up.** In
a session that begins with the opening of a closed correlator, the calls are numbered on from those
before it. The `k`-th call is completed exactly where the `k`-th final reply has come and the call
was not given up before, with that reply and the messages of the replies that have come since the
final one before it. No call ends twice. A reply that belongs to the answer of a call that was given
up is dropped and reaches nobody. Giving up a call takes exactly the oldest pending one out, which
comes right behind those that are answered or given up, and does nothing where nobody is pending.
And at each moment as many answers are to be dropped as there are calls that were given up and have
no answer yet. -/
theorem run_fifo {earlier ops : List Op}
    (hclosed : (({} : History).run earlier).correlator.isOpen = false)
    (hpositional : ∀ op ∈ ops, op.Positional) (htimely : Timely ops) :
    let start := ({} : History).run (earlier ++ [.opening])
    let call := fun k => start.fates.length + k
    (∀ before after, ops = before ++ .register none :: after →
      ((start.run before).step (.register none)).2.1 = .done ∧
        (start.run before).fates.length = call (registrations before)) ∧
    (∀ k answer, (call k, .replied answer) ∈ start.endings ops ↔
      ∃ before r after, ops = before ++ .dispatch r :: after ∧ r.isFinal = true ∧
        finals before = k ∧ (call k, .givenUp) ∉ start.endings before ∧
        answer = { r with continuations := begun before }) ∧
    ((start.endings ops).map Prod.fst).Nodup ∧
    (∀ before r after, ops = before ++ .dispatch r :: after →
      (call (finals before), .givenUp) ∈ start.endings before →
        ((start.run before).step (.dispatch r)).2.1 = .routed .stale ∧
        (start.run before).ends (.dispatch r) = [] ∧
        ((start.run before).step (.dispatch r)).1.correlator.pending =
          (start.run before).correlator.pending) ∧
    (∀ before after, ops = before ++ .cancel none :: after →
      ((start.run before).correlator.pending = [] →
        (start.run before).step (.cancel none) = (start.run before, .done, [])) ∧
      ∀ p rest, (start.run before).correlator.pending = p :: rest →
        p.caller = call (finals before + (start.run before).correlator.stale) ∧
        (start.run before).ends (.cancel none) = [(p.caller, .givenUp)] ∧
        ((start.run before).step (.cancel none)).1.correlator.pending = rest) ∧
    ∀ before, before <+: ops → (start.run before).correlator.stale =
      ((removed (start.endings before)).filter (call (finals before) ≤ ·)).length := by
  intro start call
  have hstart : start.correlator = { isOpen := true } := opening_of_closed hclosed
  refine ⟨fun before after hops => ?_, fun k answer => htimely.replied_iff hstart hpositional,
    endings_nodup _ ops, fun before r after hops hgone => ?_, fun before after hops => ?_,
    fun before hbefore => ?_⟩
  · have hbefore : before <+: ops := hops ▸ List.prefix_append _ _
    have hsession := htimely.inSession_prefix hstart hpositional hbefore
    refine ⟨?_, hsession.fates⟩
    simp [step, Correlator.register, hsession.isOpen]
  · obtain ⟨hd, hpending⟩ := htimely.dispatch_givenUp hstart hpositional hops hgone
    refine ⟨?_, ?_, hpending⟩
    · rw [← hd]
      rfl
    · rw [ends, hd]
      rfl
  · have hbefore : before <+: ops := hops ▸ List.prefix_append _ _
    have hsession := htimely.inSession_prefix hstart hpositional hbefore
    refine ⟨fun hnone => step_cancel_of_none (by simp [hnone]), fun p rest hp => ?_⟩
    have hfront : (start.run before).correlator.pending = [] ++ p :: rest := hp
    have hstep := step_cancel_of_matches hfront (.inl rfl) (by simp)
    refine ⟨(hsession.head hp).trans (Nat.add_assoc ..), ?_, by rw [hstep]; rfl⟩
    simp [ends, Correlator.cancel, hp]
  · have hsession := htimely.inSession_prefix hstart hpositional hbefore
    rw [hsession.gone, List.length_range']

/-- Four calls: the first is given up when its answer has begun, the second gets the answer to it,
the third is given up in front of its answer, and the last one waits. -/
def abandoned : List Op :=
  [.register none, .register none, .dispatch ⟨110, none, "a", []⟩, .cancel none, .register none,
    .dispatch ⟨120, none, "b", []⟩, .dispatch ⟨200, none, "late", []⟩,
    .dispatch ⟨150, none, "c", []⟩, .dispatch ⟨405, none, "done", []⟩, .cancel none, .cancel none,
    .register none, .dispatch ⟨200, none, "late", []⟩]

/-- The second call has the second final reply, with what came of that answer alone, and nothing
else is still to be dropped. -/
theorem run_fifo_abandoned :
    (({} : History).run [.opening, .register none, .closing]).correlator.isOpen = false ∧
    (∀ op ∈ abandoned, op.Positional) ∧ Timely abandoned ∧
    (2, .replied ⟨405, none, "done", ["c"]⟩) ∈
      (({} : History).run [.opening, .register none, .closing, .opening]).endings abandoned ∧
    (({} : History).run
      ([.opening, .register none, .closing, .opening] ++ abandoned)).correlator.stale = 0 := by
  have hclosed :
      (({} : History).run [.opening, .register none, .closing]).correlator.isOpen = false := rfl
  have hpositional : ∀ op ∈ abandoned, op.Positional := by simp [abandoned, Op.Positional]
  have htimely : Timely abandoned := by decide +kernel
  obtain ⟨-, hreplied, -, -, -, hstale⟩ := run_fifo hclosed hpositional htimely
  refine ⟨hclosed, hpositional, htimely, (hreplied 1 _).mpr ⟨abandoned.take 8,
    ⟨405, none, "done", []⟩, abandoned.drop 9, rfl, rfl, by decide +kernel, by decide +kernel,
    by decide +kernel⟩, ?_⟩
  rw [run_append]
  exact (hstale abandoned List.prefix_rfl).trans (by decide +kernel)

end History
end EfsControl

/-
# Every call ends once

A correlator may be used in any way: opened twice, asked to give up calls that
it does not have, given replies with and without numbers. Still each call that
it takes is pending until it ends, and it ends at most once: with a reply, with
the connection, or given up. The queue is the list of the calls that have not
ended, in the order in which they were taken.

All of this follows from what one step does: some pending calls end, all others
stay in their places, and at most one new call joins at the end of the queue.

Key definitions: `History.ends`, `History.endings`, `History.numbers`,
`History.Balanced`, `Routed.Changes`.
Key theorems: `History.step_queue`, `History.step_fates`, `History.Balanced.step`,
`History.run_balanced`, `History.run_accounted`.
-/
import EfsControl.Correlator.History
import EfsControl.Proofs.Correlator.Basic
import Mathlib.Data.List.Induction
import Mathlib.Data.List.Nodup

namespace EfsControl

/-! ### What ends -/

/-- The call that a reply ends, with the reply. -/
def Routed.ended : Routed Nat → List (Nat × Fate)
  | completed call reply => [(call, .replied reply)]
  | _ => []

/-- The pending calls in their order: the number of each and its caller. -/
def Correlator.queue {κ : Type} (c : Correlator κ) : List (Option UInt32 × κ) :=
  c.pending.map fun p => (p.seq, p.caller)

theorem Correlator.map_queue {κ : Type} (c : Correlator κ) : c.queue.map Prod.snd = c.callers := by
  simp [queue, callers]

namespace History

open Correlator (Op Answer)

/-- The calls that end in a step, each with what becomes of it. -/
def ends (h : History) : Op → List (Nat × Fate)
  | .closing => h.correlator.callers.map fun call => (call, .lost)
  | .cancel seq => (h.correlator.cancel seq).2.toList.map fun call => (call, .givenUp)
  | .dispatch reply => (h.correlator.dispatch reply).2.ended
  | _ => []

/-- The numbers of the calls that are taken in a step. -/
def takes (h : History) : Op → List (Option UInt32)
  | .register seq => if (h.step (.register seq)).2.1 = .done then [seq] else []
  | _ => []

/-- The calls that end along a run. -/
def endings (h : History) : List Op → List (Nat × Fate)
  | [] => []
  | op :: ops => h.ends op ++ (h.step op).1.endings ops

/-- The numbers of the calls that are taken along a run, in the order of registration. -/
def numbers (h : History) : List Op → List (Option UInt32)
  | [] => []
  | op :: ops => h.takes op ++ (h.step op).1.numbers ops

variable {h : History} {op : Op} {ops : List Op}

@[simp] theorem run_nil : h.run [] = h := rfl

@[simp] theorem run_cons : h.run (op :: ops) = (h.step op).1.run ops := rfl

theorem run_append (xs ys : List Op) : h.run (xs ++ ys) = (h.run xs).run ys := by
  simp [run]

theorem run_snoc (ops : List Op) (op : Op) : h.run (ops ++ [op]) = ((h.run ops).step op).1 :=
  run_append ops [op]

theorem endings_append (xs ys : List Op) :
    h.endings (xs ++ ys) = h.endings xs ++ (h.run xs).endings ys := by
  induction xs generalizing h with
  | nil => rfl
  | cons op xs ih => simp [endings, ih]

theorem endings_snoc (ops : List Op) (op : Op) :
    h.endings (ops ++ [op]) = h.endings ops ++ (h.run ops).ends op := by
  rw [endings_append, endings, endings, List.append_nil]

/-- What ends along a run ends in one of its steps. -/
theorem mem_endings_iff {e : Nat × Fate} :
    e ∈ h.endings ops ↔
      ∃ before op after, ops = before ++ op :: after ∧ e ∈ (h.run before).ends op := by
  constructor
  · induction ops generalizing h with
    | nil => simp [endings]
    | cons op ops ih =>
      intro he
      rcases List.mem_append.mp he with he | he
      · exact ⟨[], op, ops, rfl, he⟩
      · obtain ⟨before, op', after, rfl, he'⟩ := ih he
        exact ⟨op :: before, op', after, rfl, he'⟩
  · rintro ⟨before, op, after, rfl, he⟩
    rw [endings_append, endings]
    exact List.mem_append_right _ (List.mem_append_left _ he)

/-! ### One step -/

theorem takes_register (seq : Option UInt32) :
    h.takes (.register seq) = if h.correlator.isOpen then [seq] else [] := by
  cases ho : h.correlator.isOpen <;> simp [takes, step, Correlator.register, ho]

/-- At most one call is taken in a step. -/
theorem takes_cases (h : History) (op : Op) : h.takes op = [] ∨ ∃ seq, h.takes op = [seq] := by
  cases op with
  | register seq =>
    rw [takes_register]
    split
    · exact .inr ⟨seq, rfl⟩
    · exact .inl rfl
  | _ => exact .inl rfl

/-- A call that is taken joins at the end of the queue. -/
theorem register_correlator (h : History) (seq : Option UInt32) :
    (h.step (.register seq)).1.correlator = { h.correlator with
      pending := h.correlator.pending ++
        (h.takes (.register seq)).map fun seq => ⟨seq, [], h.fates.length⟩ } := by
  rw [takes_register]
  by_cases ho : h.correlator.isOpen = true
  · simp [step, Correlator.register, ho]
  · have hrefused : (h.step (.register seq)).1 = h := by simp [step, Correlator.register, ho]
    rw [hrefused, if_neg ho, List.map_nil, List.append_nil]

theorem register_of_open (ho : h.correlator.isOpen = true) (seq : Option UInt32) :
    (h.step (.register seq)).1.correlator = { h.correlator with
      pending := h.correlator.pending ++ [⟨seq, [], h.fates.length⟩] } := by
  rw [register_correlator, takes_register, if_pos ho]
  rfl

/-- Of the calls that a request to give up is for, the first one is given up, and nothing else
changes; without a number that is the oldest call, and an answer to it is to come. -/
theorem step_cancel_of_matches {seq : Option UInt32} {before after : List (Pending Nat)}
    {p : Pending Nat} (hp : h.correlator.pending = before ++ p :: after) (hm : p.Matches seq)
    (hb : ∀ q ∈ before, ¬ q.Matches seq) : h.step (.cancel seq) = ({ h with
      correlator := { h.correlator with
        pending := before ++ after
        stale := if seq.isNone then h.correlator.stale + 1 else h.correlator.stale }
      fates := h.fates.set p.caller .givenUp }, .done, []) := by
  have hl := Correlator.locate_eq_some_iff.mpr ⟨hp, hm, hb⟩
  simp [step, Correlator.cancel, hl, settle]

/-- A request to give up a call that is not pending changes nothing. -/
theorem step_cancel_of_none {seq : Option UInt32}
    (hn : ∀ p ∈ h.correlator.pending, ¬ p.Matches seq) : h.step (.cancel seq) = (h, .done, []) := by
  have hl := Correlator.locate_eq_none_iff.mpr hn
  simp [step, Correlator.cancel, hl, settle]

/-- Nobody waits on after the end. -/
theorem ends_ne_waiting {e : Nat × Fate} (he : e ∈ h.ends op) : e.2 ≠ .waiting := by
  cases op with
  | closing =>
    obtain ⟨call, -, rfl⟩ := List.mem_map.mp he
    nofun
  | cancel seq =>
    obtain ⟨call, -, rfl⟩ := List.mem_map.mp he
    nofun
  | dispatch reply =>
    rw [ends] at he
    unfold Routed.ended at he
    split at he
    · rw [List.mem_singleton.mp he]
      nofun
    · cases he
  | _ => cases he

/-- Fates are met one after the other. -/
def meet (ended : List (Nat × Fate)) (fates : List Fate) : List Fate :=
  ended.foldl (fun fs e => fs.set e.1 e.2) fates

theorem settle_eq_meet (fate : Fate) (calls : List Nat) (fates : List Fate) :
    settle fate calls fates = meet (calls.map fun call => (call, fate)) fates := by
  rw [settle, meet, List.foldl_map]

/-- In a step the calls that end meet their fates, and those that are taken begin to wait. -/
theorem step_fates (h : History) (op : Op) :
    (h.step op).1.fates = meet (h.ends op) h.fates ++ (h.takes op).map fun _ => .waiting := by
  cases op with
  | opening => simp [step, ends, takes, meet]
  | closing => simp [step, ends, takes, settle_eq_meet]
  | register seq =>
    rw [takes_register]
    cases ho : h.correlator.isOpen <;> simp [step, Correlator.register, ho, ends, meet]
  | cancel seq => simp [step, ends, takes, settle_eq_meet]
  | forget call => simp [step, ends, takes, meet]
  | dispatch reply =>
    simp only [step, ends, takes, List.map_nil, List.append_nil]
    cases (h.correlator.dispatch reply).2 <;> rfl

/-- A queue without these calls. -/
def leave (calls : List Nat) (queue : List (Option UInt32 × Nat)) : List (Option UInt32 × Nat) :=
  queue.filter fun x => !calls.contains x.2

@[simp] theorem leave_nil (queue : List (Option UInt32 × Nat)) : leave [] queue = queue := by
  simp [leave]

/-- Where no call stands twice, the one that leaves is the only one that leaves. -/
theorem leave_middle {before after : List (Option UInt32 × Nat)} {x : Option UInt32 × Nat}
    (hn : ((before ++ x :: after).map Prod.snd).Nodup) :
    leave [x.2] (before ++ x :: after) = before ++ after := by
  rw [List.map_append, List.map_cons, List.nodup_middle, List.nodup_cons, ← List.map_append] at hn
  rw [leave, List.filter_append, List.filter_cons_of_neg (by simp), ← List.filter_append]
  refine List.filter_eq_self.mpr fun y hy => ?_
  have hne : y.2 ≠ x.2 := fun he => hn.1 (he ▸ List.mem_map_of_mem hy)
  simpa using hne

/-- In a step the calls that end leave the queue, and those that are taken join at its end. -/
theorem step_queue (hn : h.correlator.callers.Nodup) (op : Op) :
    (h.step op).1.correlator.queue =
      leave ((h.ends op).map Prod.fst) h.correlator.queue ++
        (h.takes op).map fun seq => (seq, h.fates.length) := by
  -- A pending call that ends leaves a gap that closes.
  have hgap : ∀ {before after : List (Pending Nat)} {p : Pending Nat},
      h.correlator.pending = before ++ p :: after →
      ({ h.correlator with pending := before ++ after } : Correlator Nat).queue =
        leave [p.caller] h.correlator.queue := by
    intro before after p hp
    rw [← Correlator.map_queue, Correlator.queue, hp, List.map_append, List.map_cons] at hn
    rw [Correlator.queue, Correlator.queue, hp, List.map_append, List.map_append, List.map_cons]
    exact (leave_middle hn).symm
  cases op with
  | opening => simp [step, ends, takes, Correlator.queue, Correlator.opened]
  | closing =>
    have hgone : leave ((h.ends .closing).map Prod.fst) h.correlator.queue = [] := by
      refine List.filter_eq_nil_iff.mpr fun x hx => ?_
      have hmem : x.2 ∈ h.correlator.callers := by
        rw [← Correlator.map_queue]
        exact List.mem_map_of_mem hx
      simpa [ends] using hmem
    rw [hgone]
    rfl
  | register seq =>
    rw [Correlator.queue, register_correlator]
    simp [ends, Correlator.queue, Function.comp_def]
  | cancel seq =>
    simp only [step, ends, takes, List.map_nil, List.append_nil]
    obtain ⟨-, hc⟩ | ⟨before, p, after, hl, hc⟩ := h.correlator.cancel_cases seq
    · rw [hc]
      exact (leave_nil _).symm
    · rw [hc]
      exact hgap (Correlator.locate_eq_some_iff.mp hl).1
  | forget call => simp [step, ends, takes]
  | dispatch reply =>
    simp only [step, ends, takes, List.map_nil, List.append_nil]
    obtain ⟨-, -, hd⟩ | ⟨-, -, hd⟩ | ⟨before, p, after, -, hl, hd⟩ :=
      h.correlator.dispatch_cases reply
    · rw [hd]
      dsimp only [Routed.ended]
      rw [List.map_nil, leave_nil]
      split <;> rfl
    · rw [hd]
      exact (leave_nil _).symm
    · have hp := (Correlator.locate_eq_some_iff.mp hl).1
      rw [hd]
      split
      · exact hgap hp
      · -- A call that goes on waiting keeps its place.
        dsimp only [Routed.ended]
        rw [List.map_nil, leave_nil, Correlator.queue, Correlator.queue, hp]
        simp

/-- Only pending calls end, each once and in the order of the queue. -/
theorem ends_sublist (h : History) (op : Op) :
    ((h.ends op).map Prod.fst).Sublist h.correlator.callers := by
  cases op with
  | closing => simp [ends, Function.comp_def]
  | cancel seq =>
    obtain ⟨-, hc⟩ | ⟨before, p, after, hl, hc⟩ := h.correlator.cancel_cases seq
    · simp [ends, hc]
    · rw [ends, hc, Correlator.callers, (Correlator.locate_eq_some_iff.mp hl).1]
      simp
  | dispatch reply =>
    rw [ends]
    obtain ⟨-, -, hd⟩ | ⟨-, -, hd⟩ | ⟨before, p, after, -, hl, hd⟩ :=
      h.correlator.dispatch_cases reply
    · simp [hd, Routed.ended]
    · simp [hd, Routed.ended]
    · rw [hd, Correlator.callers, (Correlator.locate_eq_some_iff.mp hl).1]
      split <;> simp [Routed.ended]
  | _ => exact List.nil_sublist _

/-! ### Fates -/

section
variable {ended : List (Nat × Fate)} {fates : List Fate} {k : Nat}

@[simp] theorem length_meet (ended : List (Nat × Fate)) (fates : List Fate) :
    (meet ended fates).length = fates.length := by
  induction ended generalizing fates with
  | nil => rfl
  | cons e es ih => exact (ih _).trans List.length_set

theorem length_step_fates (h : History) (op : Op) :
    (h.step op).1.fates.length = h.fates.length + (h.takes op).length := by
  rw [step_fates, List.length_append, length_meet, List.length_map]

/-- Only those that meet their fates are affected. -/
theorem getElem?_meet_of_notMem (hk : k ∉ ended.map Prod.fst) (fates : List Fate) :
    (meet ended fates)[k]? = fates[k]? := by
  induction ended generalizing fates with
  | nil => rfl
  | cons e es ih =>
    rw [List.map_cons, List.mem_cons, not_or] at hk
    refine (ih hk.2 _).trans ?_
    rw [List.getElem?_set_ne (Ne.symm hk.1)]

theorem getElem?_meet_of_mem {fate : Fate} (hn : (ended.map Prod.fst).Nodup)
    (he : (k, fate) ∈ ended) (hk : k < fates.length) : (meet ended fates)[k]? = some fate := by
  induction ended generalizing fates with
  | nil => cases he
  | cons e es ih =>
    rw [List.map_cons, List.nodup_cons] at hn
    rcases List.mem_cons.mp he with rfl | he
    · have hlast := getElem?_meet_of_notMem hn.1 (fates.set k fate)
      rw [List.getElem?_set_self hk] at hlast
      exact hlast
    · exact ih hn.2 he (by rwa [List.length_set])

/-- Whoever still waits has waited before and has not met any fate. -/
theorem meet_waiting_iff (hw : ∀ e ∈ ended, e.2 ≠ .waiting) (hn : (ended.map Prod.fst).Nodup)
    (hk : k < fates.length) :
    (meet ended fates)[k]? = some .waiting ↔
      fates[k]? = some .waiting ∧ k ∉ ended.map Prod.fst := by
  by_cases hm : k ∈ ended.map Prod.fst
  · obtain ⟨⟨k', fate⟩, he, rfl⟩ := List.mem_map.mp hm
    have hne : fate ≠ .waiting := hw _ he
    rw [getElem?_meet_of_mem hn he hk]
    simp [hm, hne]
  · rw [getElem?_meet_of_notMem hm]
    simp [hm]

end

/-! ### Runs -/

/-- What a call has met. -/
def met (ended : List (Nat × Fate)) (call : Nat) : List Fate :=
  (ended.filter (·.1 == call)).map Prod.snd

theorem met_append (xs ys : List (Nat × Fate)) (call : Nat) :
    met (xs ++ ys) call = met xs call ++ met ys call := by
  simp [met]

theorem met_of_notMem {ended : List (Nat × Fate)} {call : Nat}
    (h : call ∉ ended.map Prod.fst) : met ended call = [] := by
  rw [met, List.filter_eq_nil_iff.mpr, List.map_nil]
  intro e he
  have hne : e.1 ≠ call := fun heq => h (heq ▸ List.mem_map_of_mem he)
  simpa using hne

theorem met_of_mem {ended : List (Nat × Fate)} {call : Nat} {fate : Fate}
    (hn : (ended.map Prod.fst).Nodup) (h : (call, fate) ∈ ended) : met ended call = [fate] := by
  obtain ⟨before, after, rfl⟩ := List.append_of_mem h
  rw [List.map_append, List.map_cons, List.nodup_middle, List.nodup_cons, List.mem_append,
    not_or] at hn
  rw [met_append, met_of_notMem hn.1.1, List.nil_append]
  have hafter := met_of_notMem hn.1.2
  simpa [met] using hafter

/-- The books balance: every call that was taken is pending, or has ended once. -/
structure Balanced (h : History) (numbers : List (Option UInt32)) (ended : List (Nat × Fate)) :
    Prop where
  length : h.fates.length = numbers.length
  /-- The queue holds the calls that wait, in the order of registration. -/
  queue : h.correlator.queue = numbers.zipIdx.filter fun x => h.fates[x.2]? == some .waiting
  /-- A call that waits has met nothing, and any other its fate. -/
  met : ∀ k, met ended k = h.fates[k]?.toList.filter (· != .waiting)

namespace Balanced

variable {ns : List (Option UInt32)} {ended : List (Nat × Fate)}

theorem init : Balanced {} [] [] where
  length := rfl
  queue := rfl
  met _ := rfl

theorem callers_nodup (hb : h.Balanced ns ended) : h.correlator.callers.Nodup := by
  rw [← Correlator.map_queue, hb.queue]
  refine List.Nodup.sublist (List.filter_sublist.map Prod.snd) ?_
  rw [List.zipIdx_map_snd]
  exact List.nodup_range'

/-- The pending calls are those that wait. -/
theorem mem_callers_iff (hb : h.Balanced ns ended) {k : Nat} :
    k ∈ h.correlator.callers ↔ h.fates[k]? = some .waiting := by
  rw [← Correlator.map_queue, hb.queue, List.mem_map]
  constructor
  · rintro ⟨x, hx, rfl⟩
    simpa using (List.mem_filter.mp hx).2
  · intro hk
    have hlt : k < ns.length := hb.length ▸ (List.getElem?_eq_some_iff.mp hk).1
    refine ⟨(ns[k], k), List.mem_filter.mpr ⟨?_, by simpa using hk⟩, rfl⟩
    rw [List.mem_zipIdx_iff_getElem?]
    exact List.getElem?_eq_getElem hlt

theorem ends_nodup (hb : h.Balanced ns ended) (op : Op) : ((h.ends op).map Prod.fst).Nodup :=
  hb.callers_nodup.sublist (h.ends_sublist op)

theorem waiting_of_ends (hb : h.Balanced ns ended) {k : Nat}
    (hk : k ∈ (h.ends op).map Prod.fst) : h.fates[k]? = some .waiting :=
  hb.mem_callers_iff.mp ((h.ends_sublist op).subset hk)

/-- Every step keeps the books in balance. -/
theorem step (hb : h.Balanced ns ended) (op : Op) :
    (h.step op).1.Balanced (ns ++ h.takes op) (ended ++ h.ends op) where
  length := by
    rw [step_fates]
    simp [hb.length]
  queue := by
    have hnew : ∀ x ∈ (h.takes op).zipIdx ns.length,
        ((h.step op).1.fates[x.2]? == some .waiting) = true := by
      intro x hx
      obtain ⟨hle, hlt, -⟩ := List.mem_zipIdx hx
      have hlt' : x.2 - (meet (h.ends op) h.fates).length < (h.takes op).length := by
        simp only [length_meet, hb.length]
        omega
      rw [step_fates, List.getElem?_append_right (by simpa [hb.length] using hle),
        List.getElem?_map, List.getElem?_eq_getElem hlt']
      rfl
    have hold : ∀ x ∈ ns.zipIdx,
        (!((h.ends op).map Prod.fst).contains x.2 && h.fates[x.2]? == some .waiting) =
          ((h.step op).1.fates[x.2]? == some .waiting) := by
      intro x hx
      have hlt : x.2 < h.fates.length := by
        have := List.snd_lt_of_mem_zipIdx hx
        rw [hb.length]
        omega
      have hiff := meet_waiting_iff (fun e => h.ends_ne_waiting) (hb.ends_nodup op) hlt
      rw [step_fates, List.getElem?_append_left (by simpa using hlt), Bool.eq_iff_iff]
      simp only [Bool.and_eq_true, Bool.not_eq_true', beq_iff_eq, hiff, List.contains_eq_mem,
        decide_eq_false_iff_not]
      exact and_comm
    rw [step_queue hb.callers_nodup, hb.queue, leave, List.filter_filter, List.filter_congr hold,
      List.zipIdx_append, List.filter_append, Nat.zero_add, List.filter_eq_self.mpr hnew]
    rcases h.takes_cases op with ht | ⟨seq, ht⟩
    · rw [ht]
      rfl
    · rw [ht, hb.length]
      rfl
  met k := by
    rw [met_append, hb.met]
    by_cases hk : k ∈ (h.ends op).map Prod.fst
    · have hw := hb.waiting_of_ends hk
      obtain ⟨⟨k', fate⟩, he, rfl⟩ := List.mem_map.mp hk
      have hlt := (List.getElem?_eq_some_iff.mp hw).1
      have hfate : (fate != .waiting) = true := bne_iff_ne.mpr (h.ends_ne_waiting he)
      rw [hw, met_of_mem (hb.ends_nodup op) he, step_fates,
        List.getElem?_append_left (by simpa using hlt),
        getElem?_meet_of_mem (hb.ends_nodup op) he hlt]
      simp [hfate]
    · rw [met_of_notMem hk, List.append_nil, step_fates]
      by_cases hlt : k < h.fates.length
      · rw [List.getElem?_append_left (by simpa using hlt), getElem?_meet_of_notMem hk]
      · -- A call that is new waits and has met nothing.
        have hle := Nat.le_of_not_lt hlt
        rw [List.getElem?_eq_none hle, List.getElem?_append_right (by simpa using hle)]
        rcases h.takes_cases op with ht | ⟨seq, ht⟩
        · simp [ht]
        · rw [ht]
          cases k - (meet (h.ends op) h.fates).length with
          | zero => rfl
          | succ n => rfl

/-- No call ends twice. -/
theorem ended_nodup (hb : h.Balanced ns ended) : (ended.map Prod.fst).Nodup := by
  rw [List.nodup_iff_count_le_one]
  intro k
  have hcount : (ended.map Prod.fst).count k = (History.met ended k).length := by
    rw [History.met, List.length_map, List.count, List.countP_map, List.countP_eq_length_filter]
    rfl
  rw [hcount, hb.met]
  refine Nat.le_trans (List.length_filter_le _ _) ?_
  cases h.fates[k]? <;> simp

/-- Along a run the books stay in balance. -/
theorem run (hb : h.Balanced ns ended) (ops : List Op) :
    (h.run ops).Balanced (ns ++ h.numbers ops) (ended ++ h.endings ops) := by
  induction ops generalizing h ns ended with
  | nil => simpa [numbers, endings] using hb
  | cons op ops ih =>
    have hrest := ih (hb.step op)
    rwa [List.append_assoc, List.append_assoc] at hrest

end Balanced

/-- Whatever is done from the beginning on, the books balance. -/
theorem run_balanced (ops : List Op) : (({} : History).run ops).Balanced
    (({} : History).numbers ops) (({} : History).endings ops) := by
  have hrun := Balanced.init.run ops
  rwa [List.nil_append, List.nil_append] at hrun

end History

/-! ### Replies -/

/-- What a reply does to the pending calls, by what becomes of it. -/
def Routed.Changes {κ : Type} (reply : Reply) (pending pending' : List (Pending κ)) :
    Routed κ → Prop
  | completed call answer => ∃ before p after,
      pending = before ++ p :: after ∧ pending' = before ++ after ∧ p.caller = call ∧
        answer = { reply with continuations := p.continuations }
  | continued => ∃ before p after,
      pending = before ++ p :: after ∧
        pending' =
          before ++ { p with continuations := p.continuations ++ [reply.message] } :: after
  | stale => pending' = pending
  | unmatched => pending' = pending

namespace Correlator

variable {κ : Type} (c : Correlator κ) (reply : Reply)

/-- A reply takes out one call, or is kept with one call, or does nothing to any. -/
theorem dispatch_changes :
    (c.dispatch reply).2.Changes reply c.pending (c.dispatch reply).1.pending := by
  obtain ⟨-, -, hd⟩ | ⟨-, -, hd⟩ | ⟨before, p, after, -, hl, hd⟩ := c.dispatch_cases reply
  · rw [hd]
    dsimp only [Routed.Changes]
    split <;> rfl
  · rw [hd]
    rfl
  · have hp := (locate_eq_some_iff.mp hl).1
    rw [hd]
    split
    · exact ⟨before, p, after, hp, rfl, rfl, rfl⟩
    · exact ⟨before, p, after, hp, rfl⟩

/-- One call fewer is pending exactly where a call was completed. -/
theorem dispatch_completed_iff :
    (∃ call answer, (c.dispatch reply).2 = .completed call answer) ↔
      (c.dispatch reply).1.pending.length + 1 = c.pending.length := by
  have hchanges := c.dispatch_changes reply
  cases hr : (c.dispatch reply).2 with
  | completed call answer =>
    rw [hr] at hchanges
    obtain ⟨before, p, after, hp, hp', -⟩ := hchanges
    refine iff_of_true ⟨call, answer, rfl⟩ ?_
    rw [hp, hp']
    simp only [List.length_append, List.length_cons]
    omega
  | continued =>
    rw [hr] at hchanges
    obtain ⟨before, p, after, hp, hp'⟩ := hchanges
    refine iff_of_false (by simp) ?_
    rw [hp, hp']
    simp
  | stale | unmatched =>
    rw [hr] at hchanges
    change (c.dispatch reply).1.pending = c.pending at hchanges
    refine iff_of_false (by simp) ?_
    rw [hchanges]
    omega

end Correlator

/-! ### The account of a run -/

namespace History

open Correlator (Op Answer)

/-- A closed correlator stays as it is until it is opened. -/
theorem run_closed {h : History} (hc : h.correlator = {}) {ops : List Op}
    (ho : .opening ∉ ops) : (h.run ops).correlator = {} := by
  induction ops generalizing h with
  | nil => exact hc
  | cons op ops ih =>
    rw [List.mem_cons, not_or] at ho
    refine ih ?_ ho.2
    cases op with
    | opening => exact absurd rfl ho.1
    | closing => rfl
    | register seq => simp [step, hc, Correlator.register]
    | cancel seq => simp [step, hc]
    | forget call => exact hc
    | dispatch reply => simp [step, hc]

/-- Where calls are refused nobody is pending. -/
theorem eq_empty_of_closed {ops : List Op}
    (hc : (({} : History).run ops).correlator.isOpen = false) :
    (({} : History).run ops).correlator = {} := by
  induction ops using List.reverseRecOn with
  | nil => rfl
  | append_singleton ops op ih =>
    rw [run_append, run_cons, run_nil] at hc ⊢
    cases op with
    | opening => cases hc
    | closing => rfl
    | register seq =>
      cases ho : (({} : History).run ops).correlator.isOpen with
      | true => simp [step, Correlator.register, ho] at hc
      | false =>
        have hrefused : ((({} : History).run ops).step (.register seq)).1 =
            ({} : History).run ops := by simp [step, Correlator.register, ho]
        rw [hrefused]
        exact ih ho
    | cancel seq =>
      have hempty := ih ((Correlator.cancel_isOpen _ seq).symm.trans hc)
      simp [step, hempty]
    | forget call => exact ih hc
    | dispatch reply =>
      have hempty := ih ((Correlator.dispatch_isOpen _ reply).symm.trans hc)
      simp [step, hempty]

/-- **No call is lost and none is answered twice.** However a correlator is used: each call that it
took has one fate; it waits exactly while it is pending and has then met nothing, and otherwise it
has met its fate and no other; the queue holds the calls that wait, in the order of registration; a
reply completes a call exactly where it takes one out of the queue, and else changes no more than
what one call has kept; a request to give up a call takes exactly the first one out that it is for,
which is the oldest one if it has no number, and changes nothing where there is none; and from a
closing to the next opening nobody is pending, no reply is expected for a call that was given up,
and calls are refused without a trace. -/
theorem run_accounted (ops : List Op) :
    let h := ({} : History).run ops
    let numbers := ({} : History).numbers ops
    (h.fates.length = numbers.length ∧ ∀ k fate, h.fates[k]? = some fate →
      (fate = .waiting ↔ k ∈ h.correlator.callers) ∧
      met (({} : History).endings ops) k = if fate = .waiting then [] else [fate]) ∧
    h.correlator.queue = numbers.zipIdx.filter (fun x => h.fates[x.2]? == some .waiting) ∧
    (∀ reply, (h.correlator.dispatch reply).2.Changes reply h.correlator.pending
        (h.correlator.dispatch reply).1.pending ∧
      ((∃ call answer, (h.correlator.dispatch reply).2 = .completed call answer) ↔
        (h.correlator.dispatch reply).1.pending.length + 1 = h.correlator.pending.length)) ∧
    (∀ seq,
      (∀ before p after, h.correlator.pending = before ++ p :: after → p.Matches seq →
        (∀ q ∈ before, ¬ q.Matches seq) → h.step (.cancel seq) = ({ h with
          correlator := { h.correlator with
            pending := before ++ after
            stale := if seq.isNone then h.correlator.stale + 1 else h.correlator.stale }
          fates := h.fates.set p.caller .givenUp }, .done, [])) ∧
      ((∀ p ∈ h.correlator.pending, ¬ p.Matches seq) →
        h.step (.cancel seq) = (h, .done, []))) ∧
    ∀ later, .opening ∉ later →
      let h' := h.run (.closing :: later)
      h'.correlator.pending = [] ∧ h'.correlator.stale = 0 ∧
        ∀ seq, h'.step (.register seq) = (h', .refused, []) := by
  intro h numbers
  have hb : h.Balanced numbers (({} : History).endings ops) := run_balanced ops
  refine ⟨⟨hb.length, fun k fate hk => ⟨?_, ?_⟩⟩, hb.queue,
    fun reply => ⟨h.correlator.dispatch_changes reply, h.correlator.dispatch_completed_iff reply⟩,
    fun seq => ⟨fun before p after => step_cancel_of_matches, step_cancel_of_none⟩,
    fun later ho => ?_⟩
  · rw [hb.mem_callers_iff, hk, Option.some.injEq]
  · rw [hb.met, hk]
    by_cases hw : fate = .waiting <;> simp [hw]
  · intro h'
    have hclosed : h'.correlator = {} := by
      rw [show h' = (h.step .closing).1.run later from rfl]
      exact run_closed rfl ho
    refine ⟨by rw [hclosed], by rw [hclosed], fun seq => ?_⟩
    simp [step, Correlator.register, hclosed]

/-- Calls with and without numbers in one queue: the oldest is given up, a reply without a number is
taken for its answer, a reply with a number ends the call behind it, and the last one is given up
after the correlator was opened again. -/
def mixed : List Op :=
  [.opening, .register none, .register (some 5), .register none, .cancel none, .cancel (some 9),
    .dispatch ⟨150, some 5, "a", []⟩, .dispatch ⟨200, none, "late", []⟩,
    .dispatch ⟨405, some 5, "b", []⟩, .opening, .cancel none, .dispatch ⟨200, some 5, "c", []⟩]

/-- One call of three has a reply, with what came before it, and no other. -/
theorem run_accounted_mixed :
    (({} : History).run mixed).fates[1]? = some (.replied ⟨405, some 5, "b", ["a"]⟩) ∧
    met (({} : History).endings mixed) 1 = [.replied ⟨405, some 5, "b", ["a"]⟩] ∧
    1 ∉ (({} : History).run mixed).correlator.callers ∧
    (({} : History).run (mixed ++ [.closing])).step (.register none) =
      (({} : History).run (mixed ++ [.closing]), .refused, []) := by
  have hfate : (({} : History).run mixed).fates[1]? =
      some (.replied ⟨405, some 5, "b", ["a"]⟩) := by decide +kernel
  obtain ⟨⟨-, hcalls⟩, -, -, -, hclosed⟩ := run_accounted mixed
  obtain ⟨hpending, hmet⟩ := hcalls 1 _ hfate
  refine ⟨hfate, hmet, fun hm => Fate.noConfusion (hpending.mpr hm), ?_⟩
  rw [run_append]
  exact (hclosed [] List.not_mem_nil).2.2 none

end History
end EfsControl

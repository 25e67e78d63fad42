/-
# Calls with different numbers

Calls with different numbers wait in one queue, and whatever ends one of them
moves the others. Still none of them is affected: a reply with a number is for
the first call that has the number, and the calls with another number keep
their order among themselves. So what becomes of the calls with one number can
be read off a run in which no other call was ever made.

The callers of a history are numbered in the order of registration. In the run
with one number alone the same call has another place in this order, so the
queues agree up to the names of the callers.

Key definitions: `Correlator.restrict`, `Op.number?`, `Op.regards`, `outcomes`,
`results`, `Shows`, `Swap`.
Key theorems: `Correlator.dispatch_restrict`, `Correlator.dispatch_restrict_of_ne`,
`Shows.step`, `Shows.run`, `run_independent`.
-/
import EfsControl.Proofs.Correlator.Ledger
import Mathlib.Logic.Relation

namespace EfsControl

variable {κ κ' : Type}

/-! ### The calls with one number -/

/-- The same call of another caller. -/
def Pending.rename (f : κ → κ') (p : Pending κ) : Pending κ' where
  seq := p.seq
  continuations := p.continuations
  caller := f p.caller

/-- The same with another caller. -/
def Routed.rename (f : κ → κ') : Routed κ → Routed κ'
  | completed caller reply => .completed (f caller) reply
  | continued => .continued
  | stale => .stale
  | unmatched => .unmatched

/-- The calls with a number, under other names. -/
def Pending.restrict (n : UInt32) (f : κ → κ') (ps : List (Pending κ)) : List (Pending κ') :=
  (ps.filter (·.seq == some n)).map (rename f)

namespace Pending

variable {n m : UInt32} {f : κ → κ'} {p : Pending κ} {ps before after : List (Pending κ)}

theorem restrict_append (ps qs : List (Pending κ)) :
    restrict n f (ps ++ qs) = restrict n f ps ++ restrict n f qs := by
  simp [restrict]

theorem restrict_cons_self (h : p.seq = some n) :
    restrict n f (p :: ps) = p.rename f :: restrict n f ps := by
  simp [restrict, h]

theorem restrict_cons_of_ne (h : p.seq ≠ some n) : restrict n f (p :: ps) = restrict n f ps := by
  simp [restrict, h]

theorem restrict_congr {g : κ → κ'} (h : ∀ p ∈ ps, f p.caller = g p.caller) :
    restrict n f ps = restrict n g ps := by
  refine List.map_congr_left fun p hp => ?_
  rw [rename, h p (List.mem_filter.mp hp).1]
  rfl

/-- What a number finds among the calls that have it is what it finds among all. -/
theorem locate_restrict (n : UInt32) (f : κ → κ') (ps : List (Pending κ)) :
    Correlator.locate (some n) (restrict n f ps) =
      (Correlator.locate (some n) ps).map fun (before, p, after) =>
        (restrict n f before, p.rename f, restrict n f after) := by
  induction ps with
  | nil => rfl
  | cons p ps ih =>
    by_cases hp : p.seq = some n
    · rw [restrict_cons_self hp]
      simp [Correlator.locate, rename, hp, restrict]
    · rw [restrict_cons_of_ne hp, ih]
      simp only [Correlator.locate, Option.isNone_some, Bool.false_or, beq_iff_eq, if_neg hp,
        Option.map_map]
      congr 1
      funext x
      simp [restrict_cons_of_ne hp]

end Pending

namespace Correlator

variable {n m : UInt32} {f : κ → κ'} {c : Correlator κ} {r : Reply}

/-- The correlator without the calls that have other numbers. -/
def restrict (n : UInt32) (f : κ → κ') (c : Correlator κ) : Correlator κ' where
  isOpen := c.isOpen
  pending := Pending.restrict n f c.pending
  stale := c.stale

/-- A reply finds the same among the calls with its number as among all. -/
theorem dispatch_restrict (hr : r.seq = some n) :
    (c.restrict n f).dispatch r = ((c.dispatch r).1.restrict n f, (c.dispatch r).2.rename f) := by
  have hfound := Pending.locate_restrict n f c.pending
  simp only [dispatch, hr, restrict, Option.isNone_some, Bool.false_and, Bool.false_eq_true,
    if_false, hfound]
  cases hl : locate (some n) c.pending with
  | none => rfl
  | some x =>
    obtain ⟨before, p, after⟩ := x
    have hp : p.seq = some n :=
      (locate_eq_some_iff.mp hl).2.1.resolve_left (Option.some_ne_none n)
    cases hf : r.isFinal with
    | true => simp [Pending.restrict_append, Routed.rename, Pending.rename]
    | false =>
      have hp' : ({ p with continuations := p.continuations ++ [r.message] } : Pending κ).seq =
          some n := hp
      simp [Pending.restrict_append, Pending.restrict_cons_self hp', Routed.rename, Pending.rename]

/-- A reply with another number leaves the calls alone. -/
theorem dispatch_restrict_of_ne (hr : r.seq = some m) (hne : m ≠ n) :
    (c.dispatch r).1.restrict n f = c.restrict n f := by
  obtain ⟨hnone, -⟩ | ⟨-, -, hd⟩ | ⟨before, p, after, -, hl, hd⟩ := c.dispatch_cases r
  · rw [hr] at hnone
    cases hnone
  · rw [hd]
  · obtain ⟨hpending, hmatch, -⟩ := locate_eq_some_iff.mp hl
    have hp : p.seq ≠ some n := by
      rw [hmatch.resolve_left (by simp [hr]), hr]
      simpa using hne
    have hp' : ({ p with continuations := p.continuations ++ [r.message] } : Pending κ).seq ≠
        some n := hp
    rw [hd]
    split <;>
      simp [restrict, hpending, Pending.restrict_append, Pending.restrict_cons_of_ne hp,
        Pending.restrict_cons_of_ne hp']

/-- A call with the number is given up as if there were no others. -/
theorem cancel_restrict :
    (c.restrict n f).cancel (some n) =
      ((c.cancel (some n)).1.restrict n f, (c.cancel (some n)).2.map f) := by
  have hfound := Pending.locate_restrict n f c.pending
  simp only [cancel, restrict, hfound]
  cases locate (some n) c.pending with
  | none => rfl
  | some x => simp [Pending.restrict_append, Pending.rename]

/-- A call with another number is given up and leaves the calls alone. -/
theorem cancel_restrict_of_ne (hne : m ≠ n) :
    (c.cancel (some m)).1.restrict n f = c.restrict n f := by
  obtain ⟨-, hc⟩ | ⟨before, p, after, hl, hc⟩ := c.cancel_cases (some m)
  · rw [hc]
  · obtain ⟨hpending, hmatch, -⟩ := locate_eq_some_iff.mp hl
    have hp : p.seq ≠ some n := by
      rw [hmatch.resolve_left (Option.some_ne_none m)]
      simpa using hne
    rw [hc]
    simp [restrict, hpending, Pending.restrict_append, Pending.restrict_cons_of_ne hp]

end Correlator

/-! ### Operations on one number -/

namespace Correlator.Op

/-- The number that the operation is on, if it is on one. -/
def number? : Op → Option UInt32
  | .register seq | .cancel seq => seq
  | .dispatch reply => reply.seq
  | _ => none

/-- Calls and replies have numbers. -/
def Numbered : Op → Prop
  | .register seq | .cancel seq => seq.isSome
  | .dispatch reply => reply.seq.isSome
  | _ => True

/-- Whether the operation is on the number or on none, as opening and closing are. -/
def regards (n : UInt32) (op : Op) : Bool := op.number?.all (· == n)

theorem eq_of_regards {n : UInt32} {seq : Option UInt32} (hnum : seq.isSome)
    (hop : seq.all (· == n) = true) : seq = some n := by
  obtain ⟨m, rfl⟩ := Option.isSome_iff_exists.mp hnum
  rw [beq_iff_eq.mp hop]

theorem number?_of_not_regards {n : UInt32} {op : Op} (h : op.regards n = false) :
    ∃ m, op.number? = some m ∧ m ≠ n := by
  cases hm : op.number? with
  | none => simp [regards, hm] at h
  | some m => exact ⟨m, rfl, by simpa [regards, hm] using h⟩

end Correlator.Op

namespace History

open Correlator (Op)

variable {n m : UInt32} {h g : History} {op : Op} {ops : List Op} {ns : List (Option UInt32)}
  {ended : List (Nat × Fate)}

/-- Of the fates of calls with these numbers, those of the calls with one number. -/
def ofNumber (n : UInt32) (numbers : List (Option UInt32)) (fates : List Fate) : List Fate :=
  ((numbers.zip fates).filter (·.1 == some n)).map Prod.snd

/-- What has become of the calls with a number, in the order of registration. -/
def outcomes (n : UInt32) (ops : List Op) : List Fate :=
  ofNumber n (({} : History).numbers ops) (({} : History).run ops).fates

/-- What becomes of a reply with a number, but for the name of the caller. -/
def result (n : UInt32) (h : History) : Op → List (Routed Unit)
  | .dispatch reply =>
    if reply.seq = some n then [(h.correlator.dispatch reply).2.rename fun _ => ()] else []
  | _ => []

/-- What becomes of the replies with a number along a run. -/
def results (n : UInt32) (h : History) : List Op → List (Routed Unit)
  | [] => []
  | op :: ops => h.result n op ++ results n (h.step op).1 ops

/-! ### Places -/

/-- The place of a call among those with its number. -/
def place (n : UInt32) (numbers : List (Option UInt32)) (call : Nat) : Nat :=
  (numbers.take call).count (some n)

theorem place_append {call : Nat} (h : call ≤ ns.length) (new : List (Option UInt32)) :
    place n (ns ++ new) call = place n ns call := by
  rw [place, List.take_append_of_le_length h, place]

theorem place_length : place n ns ns.length = ns.count (some n) := by
  rw [place, List.take_length]

theorem place_cons (s : Option UInt32) (ns : List (Option UInt32)) (call : Nat) :
    place n (s :: ns) (call + 1) = place n ns call + if s == some n then 1 else 0 := by
  rw [place, List.take_succ_cons, List.count_cons, place]

theorem ofNumber_cons (s : Option UInt32) (ns : List (Option UInt32)) (fate : Fate)
    (fates : List Fate) :
    ofNumber n (s :: ns) (fate :: fates) =
      if s == some n then fate :: ofNumber n ns fates else ofNumber n ns fates := by
  rw [ofNumber, List.zip_cons_cons, List.filter_cons]
  split <;> rfl

theorem length_ofNumber {fates : List Fate} (h : fates.length = ns.length) :
    (ofNumber n ns fates).length = ns.count (some n) := by
  induction ns generalizing fates with
  | nil => rfl
  | cons s ns ih =>
    obtain ⟨fate, fates, rfl⟩ := List.exists_cons_of_length_eq_add_one h
    have hrest := ih (Nat.succ.inj h)
    rw [ofNumber_cons, List.count_cons]
    split <;> simp [hrest]

theorem ofNumber_append {fates : List Fate} (h : fates.length = ns.length)
    (ns' : List (Option UInt32)) (fates' : List Fate) :
    ofNumber n (ns ++ ns') (fates ++ fates') = ofNumber n ns fates ++ ofNumber n ns' fates' := by
  simp [ofNumber, List.zip_append h.symm]

/-- The fate of a call stands at its place, if the call has the number. -/
theorem ofNumber_set {fates : List Fate} (h : fates.length = ns.length) (call : Nat) (fate : Fate) :
    ofNumber n ns (fates.set call fate) =
      if ns[call]? == some (some n) then (ofNumber n ns fates).set (place n ns call) fate
      else ofNumber n ns fates := by
  induction ns generalizing fates call with
  | nil => simp [ofNumber]
  | cons s ns ih =>
    obtain ⟨old, fates, rfl⟩ := List.exists_cons_of_length_eq_add_one h
    cases call with
    | zero =>
      rw [List.set_cons_zero, ofNumber_cons, ofNumber_cons]
      by_cases hs : s = some n <;> simp [place, hs]
    | succ call =>
      rw [List.set_cons_succ, ofNumber_cons, ofNumber_cons, place_cons, ih (Nat.succ.inj h) call,
        List.getElem?_cons_succ]
      by_cases hs : s = some n
      · simp only [hs, BEq.rfl, if_true, List.set_cons_succ]
        split <;> rfl
      · simp [hs]

/-- Of the calls that end, those with a number, by their places. -/
def endsOf (n : UInt32) (numbers : List (Option UInt32)) (ended : List (Nat × Fate)) :
    List (Nat × Fate) :=
  (ended.filter fun e => numbers[e.1]? == some (some n)).map fun e => (place n numbers e.1, e.2)

theorem ofNumber_meet {fates : List Fate} (h : fates.length = ns.length)
    (ended : List (Nat × Fate)) :
    ofNumber n ns (meet ended fates) = meet (endsOf n ns ended) (ofNumber n ns fates) := by
  induction ended generalizing fates with
  | nil => rfl
  | cons e es ih =>
    have hrest : ofNumber n ns (meet (e :: es) fates) =
        meet (endsOf n ns es) (ofNumber n ns (fates.set e.1 e.2)) :=
      ih (by rwa [List.length_set])
    rw [hrest, ofNumber_set h, endsOf, endsOf, List.filter_cons]
    split <;> rfl

/-! ### One step -/

/-- A pending call has the number that it was taken with. -/
theorem Balanced.number (hb : h.Balanced ns ended) {p : Pending Nat}
    (hp : p ∈ h.correlator.pending) : ns[p.caller]? = some p.seq := by
  have hmem : (p.seq, p.caller) ∈ h.correlator.queue := List.mem_map_of_mem hp
  rw [hb.queue] at hmem
  exact List.mem_zipIdx_iff_getElem?.mp (List.mem_filter.mp hmem).1

/-- What is on a number ends at most one call, and one with the number. -/
theorem ends_of_number (hm : op.number? = some m) : h.ends op = [] ∨
    ∃ p ∈ h.correlator.pending, p.seq = some m ∧ ∃ fate, h.ends op = [(p.caller, fate)] := by
  cases op with
  | opening | closing | forget call => cases hm
  | register seq => exact .inl rfl
  | cancel seq =>
    obtain rfl : seq = some m := hm
    obtain ⟨-, hc⟩ | ⟨before, p, after, hl, hc⟩ := h.correlator.cancel_cases (some m)
    · exact .inl (by rw [ends, hc]; rfl)
    · obtain ⟨hpending, hmatch, -⟩ := Correlator.locate_eq_some_iff.mp hl
      have hp : p.seq = some m := hmatch.resolve_left (Option.some_ne_none m)
      exact .inr ⟨p, by simp [hpending], hp, _, by rw [ends, hc]; rfl⟩
  | dispatch r =>
    have hr : r.seq = some m := hm
    obtain ⟨-, -, hd⟩ | ⟨-, -, hd⟩ | ⟨before, p, after, -, hl, hd⟩ := h.correlator.dispatch_cases r
    · exact .inl (by rw [ends, hd]; rfl)
    · exact .inl (by rw [ends, hd]; rfl)
    · obtain ⟨hpending, hmatch, -⟩ := Correlator.locate_eq_some_iff.mp hl
      rw [ends, hd]
      split
      · exact .inr ⟨p, by simp [hpending], hr ▸ hmatch.resolve_left (by simp [hr]), _, rfl⟩
      · exact .inl rfl

theorem endsOf_eq_map (hb : h.Balanced ns ended) (hn : op.number? = some n) :
    endsOf n ns (h.ends op) = (h.ends op).map fun e => (place n ns e.1, e.2) := by
  obtain he | ⟨p, hp, hseq, fate, he⟩ := h.ends_of_number hn
  · rw [he]
    rfl
  · rw [he, endsOf, List.filter_cons, hb.number hp, hseq, if_pos BEq.rfl]
    rfl

theorem endsOf_eq_nil (hb : h.Balanced ns ended) (hm : op.number? = some m) (hne : m ≠ n) :
    endsOf n ns (h.ends op) = [] := by
  obtain he | ⟨p, hp, hseq, fate, he⟩ := h.ends_of_number hm
  · rw [he]
    rfl
  · rw [he, endsOf, List.filter_cons, hb.number hp, hseq, if_neg (by simpa using hne)]
    rfl

theorem restrict_place (hb : h.Balanced ns ended) (new : List (Option UInt32)) :
    Pending.restrict n (place n (ns ++ new)) h.correlator.pending =
      Pending.restrict n (place n ns) h.correlator.pending := by
  refine Pending.restrict_congr fun p hp => place_append ?_ new
  exact Nat.le_of_lt (List.getElem?_eq_some_iff.mp (hb.number hp)).1

theorem endsOf_callers (hb : h.Balanced ns ended) (fate : Fate) :
    endsOf n ns (h.correlator.callers.map fun call => (call, fate)) =
      (h.correlator.restrict n (place n ns)).callers.map fun call => (call, fate) := by
  have hnumber : h.correlator.pending.filter (fun p => ns[p.caller]? == some (some n)) =
      h.correlator.pending.filter (·.seq == some n) := by
    refine List.filter_congr fun p hp => ?_
    rw [hb.number hp, Option.some_beq_some]
  simp only [endsOf, Correlator.callers, Correlator.restrict, Pending.restrict, List.map_map,
    List.filter_map, Function.comp_def, hnumber, Pending.rename]

/-- The fates of the calls with a number, after one more step. -/
theorem ofNumber_step (hb : h.Balanced ns ended) (op : Op) :
    ofNumber n (ns ++ h.takes op) (h.step op).1.fates =
      meet (endsOf n ns (h.ends op)) (ofNumber n ns h.fates) ++
        ((h.takes op).filter (· == some n)).map fun _ => .waiting := by
  have hnew : ofNumber n (h.takes op) ((h.takes op).map fun _ => .waiting) =
      ((h.takes op).filter (· == some n)).map fun _ => .waiting := by
    rcases h.takes_cases op with ht | ⟨seq, ht⟩
    · rw [ht]
      rfl
    · rw [ht, List.map_singleton, ofNumber_cons, List.filter_cons]
      split <;> rfl
  rw [step_fates, ofNumber_append (by rw [length_meet, hb.length]), ofNumber_meet hb.length, hnew]

/-- One history shows the calls with a number of another one. -/
structure Shows (n : UInt32) (numbers : List (Option UInt32)) (h g : History) : Prop where
  correlator : g.correlator = h.correlator.restrict n (place n numbers)
  fates : g.fates = ofNumber n numbers h.fates

namespace Shows

theorem init (n : UInt32) : Shows n [] {} {} := ⟨rfl, rfl⟩

variable (hs : Shows n ns h g) (hb : h.Balanced ns ended)
include hs

theorem isOpen : g.correlator.isOpen = h.correlator.isOpen := by
  rw [hs.correlator]
  rfl

theorem result_eq (hop : op.regards n = true) : g.result n op = h.result n op := by
  cases op with
  | dispatch r =>
    by_cases hr : r.seq = some n
    · have hd := Correlator.dispatch_restrict (c := h.correlator) (f := place n ns) hr
      simp only [result, if_pos hr, hs.correlator, hd]
      cases (h.correlator.dispatch r).2 <;> rfl
    · simp only [result, if_neg hr]
  | _ => rfl

/-- What is on the number, or on none, takes the same calls in both. -/
theorem takes_eq (hnum : op.Numbered) (hop : op.regards n = true) :
    (h.takes op).filter (· == some n) = g.takes op := by
  cases op with
  | register seq =>
    obtain rfl : seq = some n := Op.eq_of_regards hnum hop
    rw [takes_register, takes_register, hs.isOpen]
    split <;> simp
  | _ => rfl

include hb

/-- What is on the number, or on none, ends the same calls in both. -/
theorem ends_eq (hnum : op.Numbered) (hop : op.regards n = true) :
    endsOf n ns (h.ends op) = g.ends op := by
  cases op with
  | opening | register seq | forget call => rfl
  | closing =>
    rw [ends, ends, hs.correlator]
    exact endsOf_callers hb .lost
  | cancel seq =>
    obtain rfl : seq = some n := Op.eq_of_regards hnum hop
    rw [endsOf_eq_map hb rfl, ends, ends, hs.correlator, Correlator.cancel_restrict]
    cases (h.correlator.cancel (some n)).2 <;> rfl
  | dispatch r =>
    have hr : r.seq = some n := Op.eq_of_regards hnum hop
    have hn : (Op.dispatch r).number? = some n := hr
    rw [endsOf_eq_map hb hn, ends, ends, hs.correlator, Correlator.dispatch_restrict hr]
    cases (h.correlator.dispatch r).2 <;> rfl

/-- What is on the number, or on none, does the same in both. -/
theorem step (hnum : op.Numbered) (hop : op.regards n = true) :
    Shows n (ns ++ h.takes op) (h.step op).1 (g.step op).1 where
  correlator := by
    cases op with
    | opening => simp [History.step, takes, hs.correlator, Correlator.opened, Correlator.restrict]
    | closing => rfl
    | register seq =>
      obtain rfl : seq = some n := Op.eq_of_regards hnum hop
      have htakes : g.takes (.register (some n)) = h.takes (.register (some n)) := by
        rw [takes_register, takes_register, hs.isOpen]
      have hnew : ∀ new, place n (ns ++ new) h.fates.length = g.fates.length := fun new => by
        rw [place_append (Nat.le_of_eq hb.length), hb.length, place_length, hs.fates,
          length_ofNumber hb.length]
      rw [register_correlator, register_correlator, htakes, hs.correlator]
      simp only [Correlator.restrict, Pending.restrict_append, restrict_place hb]
      rw [takes_register]
      split <;> simp [Pending.restrict, Pending.rename, hnew]
    | cancel seq =>
      obtain rfl : seq = some n := Op.eq_of_regards hnum hop
      simp [History.step, takes, hs.correlator, Correlator.cancel_restrict]
    | forget call => simp [History.step, takes, hs.correlator]
    | dispatch r =>
      have hr : r.seq = some n := Op.eq_of_regards hnum hop
      simp [History.step, takes, hs.correlator, Correlator.dispatch_restrict hr]
  fates := by
    rw [ofNumber_step hb, hs.ends_eq hb hnum hop, hs.takes_eq hnum hop, ← hs.fates, step_fates]

/-- What is on another number does not show. -/
theorem skip (hm : op.number? = some m) (hne : m ≠ n) :
    Shows n (ns ++ h.takes op) (h.step op).1 g where
  correlator := by
    rw [hs.correlator]
    cases op with
    | opening | closing | forget call => cases hm
    | register seq =>
      obtain rfl : seq = some m := hm
      rw [register_correlator]
      simp only [Correlator.restrict, Pending.restrict_append, restrict_place hb]
      rw [takes_register]
      split <;> simp [Pending.restrict, hne]
    | cancel seq =>
      obtain rfl : seq = some m := hm
      simp [History.step, takes, Correlator.cancel_restrict_of_ne hne]
    | dispatch r => simp [History.step, takes, Correlator.dispatch_restrict_of_ne hm hne]
  fates := by
    have htakes : (h.takes op).filter (· == some n) = [] := by
      cases op with
      | register seq =>
        obtain rfl : seq = some m := hm
        rw [takes_register]
        split <;> simp [hne]
      | _ => rfl
    rw [ofNumber_step hb, endsOf_eq_nil hb hm hne, htakes, hs.fates]
    exact (List.append_nil _).symm

end Shows

/-! ### Runs -/

theorem result_of_not_regards (hop : op.regards n = false) : h.result n op = [] := by
  cases op with
  | dispatch r =>
    refine if_neg fun hr => ?_
    simp [Op.regards, Op.number?, hr] at hop
  | _ => rfl

/-- The run with one number alone shows the calls with the number of the whole run. -/
theorem Shows.run (hs : Shows n ns h g) (hb : h.Balanced ns ended)
    (hnum : ∀ op ∈ ops, op.Numbered) :
    Shows n (ns ++ h.numbers ops) (h.run ops) (g.run (ops.filter (·.regards n))) ∧
      results n g (ops.filter (·.regards n)) = results n h ops := by
  induction ops generalizing h g ns ended with
  | nil => exact ⟨by simpa [numbers] using hs, rfl⟩
  | cons op ops ih =>
    have hop := hnum op List.mem_cons_self
    have hops : ∀ op' ∈ ops, op'.Numbered := fun op' h' => hnum op' (List.mem_cons_of_mem _ h')
    cases hr : op.regards n with
    | true =>
      obtain ⟨hrun, hresults⟩ := ih (hs.step hb hop hr) (hb.step op) hops
      rw [List.filter_cons, if_pos hr, results, results, hs.result_eq hr, hresults]
      exact ⟨by simpa [numbers] using hrun, rfl⟩
    | false =>
      obtain ⟨m, hm, hne⟩ := Op.number?_of_not_regards hr
      obtain ⟨hrun, hresults⟩ := ih (hs.skip hb hm hne) (hb.step op) hops
      rw [List.filter_cons, if_neg (by simp [hr]), results, result_of_not_regards hr, hresults]
      exact ⟨by simpa [numbers] using hrun, rfl⟩

/-- Two operations on different numbers that follow each other are done in the other order. -/
inductive Swap : List Op → List Op → Prop
  | swap (before after : List Op) {a b : Op} {m n : UInt32} (ha : a.number? = some m)
      (hb : b.number? = some n) (hne : m ≠ n) :
      Swap (before ++ a :: b :: after) (before ++ b :: a :: after)

theorem Swap.perm {ops ops' : List Op} (h : Swap ops ops') : ops.Perm ops' := by
  cases h with
  | swap before after => exact (List.Perm.swap _ _ after).append_left before

/-- A swap does not show where only one number counts. -/
theorem Swap.filter_eq {ops ops' : List Op} (h : Swap ops ops') (n : UInt32) :
    ops.filter (·.regards n) = ops'.filter (·.regards n) := by
  cases h with
  | @swap before after a b m m' ha hb hne =>
    have hone : a.regards n = false ∨ b.regards n = false := by
      rw [Op.regards, Op.regards, ha, hb, Option.all_some, Option.all_some, beq_eq_false_iff_ne,
        beq_eq_false_iff_ne]
      by_contra hboth
      rw [not_or, not_not, not_not] at hboth
      exact hne (hboth.1.trans hboth.2.symm)
    rw [List.filter_append, List.filter_append]
    obtain ha' | hb' := hone
    · simp [List.filter_cons, ha']
    · simp [List.filter_cons, hb']

/-- Neither does any number of swaps, and all operations are still there. -/
theorem filter_eq_of_swaps {ops' : List Op} (h : Relation.ReflTransGen Swap ops ops') (n : UInt32) :
    ops.Perm ops' ∧ ops.filter (·.regards n) = ops'.filter (·.regards n) := by
  induction h with
  | refl => exact ⟨.refl _, rfl⟩
  | tail _ hswap ih => exact ⟨ih.1.trans hswap.perm, ih.2.trans (hswap.filter_eq n)⟩

/-- All that becomes of the calls with a number is there in the run with the number alone. -/
theorem outcomes_eq_fates (hnum : ∀ op ∈ ops, op.Numbered) (n : UInt32) :
    outcomes n ops = (({} : History).run (ops.filter (·.regards n))).fates :=
  ((Shows.init n).run .init hnum).1.fates.symm

/-- **Calls with different numbers do not affect each other.** In a run in which all calls and
replies have numbers, what becomes of the calls with one number, and of the replies with it, is what
becomes of them when all calls and replies with other numbers are left out; also where a number is
taken again while a call has it. So operations on different numbers may be done in any order. -/
theorem run_independent (hnum : ∀ op ∈ ops, op.Numbered) (n : UInt32) :
    outcomes n ops = outcomes n (ops.filter (·.regards n)) ∧
    results n {} ops = results n {} (ops.filter (·.regards n)) ∧
    ∀ ops', Relation.ReflTransGen Swap ops ops' →
      outcomes n ops' = outcomes n ops ∧ results n {} ops' = results n {} ops := by
  have hresults : ∀ ops : List Op, (∀ op ∈ ops, op.Numbered) →
      results n {} ops = results n {} (ops.filter (·.regards n)) := fun ops hnum =>
    ((Shows.init n).run .init hnum).2.symm
  refine ⟨?_, hresults ops hnum, fun ops' hswaps => ?_⟩
  · have hfilter : ∀ op ∈ ops.filter (·.regards n), op.Numbered := fun op hop =>
      hnum op (List.mem_filter.mp hop).1
    rw [outcomes_eq_fates hnum, outcomes_eq_fates hfilter, List.filter_filter]
    simp only [Bool.and_self]
  · obtain ⟨hperm, hfilter⟩ := filter_eq_of_swaps hswaps n
    have hnum' : ∀ op ∈ ops', op.Numbered := fun op hop => hnum op (hperm.mem_iff.mpr hop)
    rw [outcomes_eq_fates hnum, outcomes_eq_fates hnum', hresults ops hnum, hresults ops' hnum',
      hfilter]
    exact ⟨rfl, rfl⟩

/-- Calls with two numbers in turns: the later one is answered first, its number is taken again, and
the connection is closed while a call has it. -/
def interleaved : List Op :=
  [.opening, .register (some 5), .register (some 7), .dispatch ⟨150, some 5, "a", []⟩,
    .dispatch ⟨200, some 7, "x", []⟩, .register (some 7), .dispatch ⟨405, some 5, "b", []⟩,
    .dispatch ⟨200, some 5, "late", []⟩, .closing]

/-- The call with one number has its answer, and the calls with the other number theirs, also where
the last reply to the first call comes before the second call with the other number. -/
theorem run_independent_interleaved :
    (∀ op ∈ interleaved, op.Numbered) ∧
    outcomes 5 interleaved = outcomes 5 [.opening, .register (some 5),
      .dispatch ⟨150, some 5, "a", []⟩, .dispatch ⟨405, some 5, "b", []⟩,
      .dispatch ⟨200, some 5, "late", []⟩, .closing] ∧
    outcomes 5 interleaved = [.replied ⟨405, some 5, "b", ["a"]⟩] ∧
    results 5 {} interleaved =
      [.continued, .completed () ⟨405, some 5, "b", ["a"]⟩, .unmatched] ∧
    outcomes 7 [.opening, .register (some 5), .register (some 7), .dispatch ⟨150, some 5, "a", []⟩,
      .dispatch ⟨200, some 7, "x", []⟩, .dispatch ⟨405, some 5, "b", []⟩, .register (some 7),
      .dispatch ⟨200, some 5, "late", []⟩, .closing] =
        [.replied ⟨200, some 7, "x", []⟩, .lost] := by
  have hnum : ∀ op ∈ interleaved, op.Numbered := by simp [interleaved, Op.Numbered]
  obtain ⟨houtcomes, hresults, -⟩ := run_independent hnum 5
  obtain ⟨-, -, hany⟩ := run_independent hnum 7
  have hswap : Swap interleaved _ := .swap (interleaved.take 5) (interleaved.drop 7)
    (a := .register (some 7)) (b := .dispatch ⟨405, some 5, "b", []⟩) rfl rfl (by decide)
  refine ⟨hnum, houtcomes, houtcomes.trans ?_, hresults.trans ?_, ?_⟩
  · decide +kernel
  · decide +kernel
  · exact (hany _ (.single hswap)).1.trans (by decide +kernel)

end History
end EfsControl

/-
# What each operation of a correlator does

A reply is for the first call in the queue that matches it: any call, if the
reply has no number, else one with the same number. Every operation cuts the
queue at that call.

Key definitions: `Pending.Matches`.
Key theorems: `locate_eq_some_iff`, `locate_eq_none_iff`, `dispatch_cases`,
`cancel_cases`.
-/
import EfsControl.Correlator

namespace EfsControl

/-- A reply or a request with this number, or without one, is for the call. -/
def Pending.Matches {κ : Type} (seq : Option UInt32) (p : Pending κ) : Prop :=
  seq = none ∨ p.seq = seq

namespace Correlator

variable {κ : Type} {seq : Option UInt32} {ps before after : List (Pending κ)} {p : Pending κ}

/-- The first call that matches is found, with what stands before and after it. -/
theorem locate_eq_some_iff :
    locate seq ps = some (before, p, after) ↔
      ps = before ++ p :: after ∧ p.Matches seq ∧ ∀ q ∈ before, ¬ q.Matches seq := by
  induction ps generalizing before with
  | nil => simp [locate]
  | cons x xs ih =>
    have hm : (seq.isNone || x.seq == seq) = true ↔ x.Matches seq := by simp [Pending.Matches]
    rw [locate]
    by_cases hx : x.Matches seq
    · rw [if_pos (hm.mpr hx)]
      constructor
      · intro h
        simp only [Option.some.injEq, Prod.mk.injEq] at h
        obtain ⟨rfl, rfl, rfl⟩ := h
        exact ⟨rfl, hx, by simp⟩
      · rintro ⟨h, -, hb⟩
        cases before with
        | nil => simp_all
        | cons b bs =>
          simp only [List.cons_append, List.cons.injEq] at h
          exact absurd hx (h.1 ▸ hb b (by simp))
    · rw [if_neg (mt hm.mp hx)]
      simp only [Option.map_eq_some_iff, Prod.mk.injEq, Prod.exists]
      constructor
      · rintro ⟨b, q, a, hl, rfl, rfl, rfl⟩
        obtain ⟨rfl, hq, hb⟩ := ih.mp hl
        exact ⟨rfl, hq, by simpa using ⟨hx, hb⟩⟩
      · rintro ⟨h, hp, hb⟩
        cases before with
        | nil =>
          simp only [List.nil_append, List.cons.injEq] at h
          exact absurd (h.1 ▸ hp) hx
        | cons b bs =>
          simp only [List.cons_append, List.cons.injEq] at h
          obtain ⟨rfl, rfl⟩ := h
          exact ⟨bs, p, after, ih.mpr ⟨rfl, hp, fun q hq => hb q (by simp [hq])⟩, rfl, rfl, rfl⟩

/-- No call is found where none matches. -/
theorem locate_eq_none_iff : locate seq ps = none ↔ ∀ p ∈ ps, ¬ p.Matches seq := by
  induction ps with
  | nil => simp [locate]
  | cons x xs ih =>
    have hm : (seq.isNone || x.seq == seq) = true ↔ x.Matches seq := by simp [Pending.Matches]
    rw [locate]
    by_cases hx : x.Matches seq
    · rw [if_pos (hm.mpr hx)]
      simp [hx]
    · rw [if_neg (mt hm.mp hx)]
      simp [hx, ih]

/-- Without a number the oldest call is found. -/
@[simp] theorem locate_none_cons : locate none (p :: ps) = some ([], p, ps) := rfl

variable {c : Correlator κ} {r : Reply}

/-- While replies to given-up calls are still to come, a reply without a number is one of them. -/
theorem dispatch_of_stale (hn : r.seq = none) (hs : 0 < c.stale) :
    c.dispatch r = (if r.isFinal then { c with stale := c.stale - 1 } else c, .stale) := by
  simp [dispatch, hn, hs]

/-- A reply that is for no call changes nothing. -/
theorem dispatch_of_unmatched (hs : r.seq = none → c.stale = 0)
    (h : ∀ p ∈ c.pending, ¬ p.Matches r.seq) : c.dispatch r = (c, .unmatched) := by
  have hc : ¬ (r.seq.isNone && decide (0 < c.stale)) = true := by simpa using hs
  rw [dispatch, if_neg hc, locate_eq_none_iff.mpr h]

/-- A reply with a number that no pending call has is for none. -/
theorem dispatch_of_other (hr : r.seq.isSome = true) (h : ∀ p ∈ c.pending, p.seq ≠ r.seq) :
    c.dispatch r = (c, .unmatched) := by
  have hsome : r.seq ≠ none := Option.isSome_iff_ne_none.mp hr
  refine dispatch_of_unmatched (fun hn => absurd hn hsome) fun p hp hmatch => ?_
  exact h p hp (hmatch.resolve_left hsome)

/-- A final reply ends the call that it is for. -/
theorem dispatch_of_final (hs : r.seq = none → c.stale = 0) (hf : r.isFinal = true)
    (h : locate r.seq c.pending = some (before, p, after)) :
    c.dispatch r = ({ c with pending := before ++ after },
      .completed p.caller { r with continuations := p.continuations }) := by
  have hc : ¬ (r.seq.isNone && decide (0 < c.stale)) = true := by simpa using hs
  rw [dispatch, if_neg hc, h]
  simp [hf]

/-- Any other reply is kept with the call that it is for. -/
theorem dispatch_of_continuing (hs : r.seq = none → c.stale = 0) (hf : r.isFinal = false)
    (h : locate r.seq c.pending = some (before, p, after)) :
    c.dispatch r = ({ c with
      pending := before ++ { p with continuations := p.continuations ++ [r.message] } :: after },
        .continued) := by
  have hc : ¬ (r.seq.isNone && decide (0 < c.stale)) = true := by simpa using hs
  rw [dispatch, if_neg hc, h]
  simp [hf]

/-- What can become of a reply. -/
theorem dispatch_cases (c : Correlator κ) (r : Reply) :
    (r.seq = none ∧ 0 < c.stale ∧
      c.dispatch r = (if r.isFinal then { c with stale := c.stale - 1 } else c, .stale)) ∨
    ((r.seq = none → c.stale = 0) ∧ (∀ p ∈ c.pending, ¬ p.Matches r.seq) ∧
      c.dispatch r = (c, .unmatched)) ∨
    ∃ before p after, (r.seq = none → c.stale = 0) ∧
      locate r.seq c.pending = some (before, p, after) ∧
      c.dispatch r = if r.isFinal then
        ({ c with pending := before ++ after },
          .completed p.caller { r with continuations := p.continuations })
      else ({ c with
        pending := before ++ { p with continuations := p.continuations ++ [r.message] } :: after },
          .continued) := by
  by_cases hs : r.seq = none ∧ 0 < c.stale
  · exact .inl ⟨hs.1, hs.2, dispatch_of_stale hs.1 hs.2⟩
  have hs' : r.seq = none → c.stale = 0 := fun hn => by
    have : ¬ 0 < c.stale := fun h0 => hs ⟨hn, h0⟩
    omega
  cases hl : locate r.seq c.pending with
  | none =>
    have hu := locate_eq_none_iff.mp hl
    exact .inr (.inl ⟨hs', hu, dispatch_of_unmatched hs' hu⟩)
  | some x =>
    obtain ⟨before, p, after⟩ := x
    refine .inr (.inr ⟨before, p, after, hs', rfl, ?_⟩)
    by_cases hf : r.isFinal = true
    · rw [if_pos hf, dispatch_of_final hs' hf hl]
    · rw [if_neg hf, dispatch_of_continuing hs' (by simpa using hf) hl]

/-- A final reply without a number answers a call that was given up, if there is one. -/
theorem dispatch_stale (c : Correlator κ) {r : Reply} (hr : r.seq = none) :
    (c.dispatch r).1.stale = if r.isFinal then c.stale - 1 else c.stale := by
  obtain ⟨-, -, hd⟩ | ⟨hs, -, hd⟩ | ⟨_, _, _, hs, -, hd⟩ := c.dispatch_cases r
  · rw [hd]
    dsimp only
    split <;> rfl
  · rw [hd, hs hr]
    simp
  · rw [hd, hs hr]
    split <;> simp

/-- Only a final reply ends a call, and not while replies to given-up calls are still to come. -/
theorem completed_final {k : κ} {answer : Reply} (h : (c.dispatch r).2 = .completed k answer) :
    r.isFinal = true ∧ (r.seq = none → c.stale = 0) := by
  obtain ⟨-, -, hd⟩ | ⟨-, -, hd⟩ | ⟨before, p, after, hs, -, hd⟩ := c.dispatch_cases r
  · rw [hd] at h
    cases h
  · rw [hd] at h
    cases h
  · refine ⟨?_, hs⟩
    cases hf : r.isFinal with
    | true => rfl
    | false =>
      rw [hd, hf] at h
      cases h

/-- What giving up a call does. -/
theorem cancel_cases (c : Correlator κ) (seq : Option UInt32) :
    ((∀ p ∈ c.pending, ¬ p.Matches seq) ∧ c.cancel seq = (c, none)) ∨
    ∃ before p after, locate seq c.pending = some (before, p, after) ∧
      c.cancel seq = ({ c with
        pending := before ++ after
        stale := if seq.isNone then c.stale + 1 else c.stale }, some p.caller) := by
  unfold cancel
  cases hl : locate seq c.pending with
  | none => exact .inl ⟨locate_eq_none_iff.mp hl, rfl⟩
  | some x => exact .inr ⟨x.1, x.2.1, x.2.2, rfl, rfl⟩

/-- Giving up a call leaves the others in their order. -/
theorem cancel_sublist (c : Correlator κ) (seq : Option UInt32) :
    (c.cancel seq).1.pending.Sublist c.pending := by
  obtain ⟨-, h⟩ | ⟨before, p, after, hl, h⟩ := c.cancel_cases seq
  · simp [h]
  · rw [h, (locate_eq_some_iff.mp hl).1]
    exact (List.sublist_cons_self p after).append_left before

/-- A call that is given up was pending. -/
theorem mem_callers_of_cancel {k : κ} (h : (c.cancel seq).2 = some k) : k ∈ c.callers := by
  obtain ⟨-, hc⟩ | ⟨before, p, after, hl, hc⟩ := c.cancel_cases seq
  · rw [hc] at h
    cases h
  · rw [hc] at h
    cases h
    rw [callers, (locate_eq_some_iff.mp hl).1]
    simp

/-- Giving up the only pending call leaves none. -/
theorem cancel_pending_of_single (hp : c.pending = [p]) (hm : p.Matches seq) :
    (c.cancel seq).1.pending = [] := by
  have hl : locate seq c.pending = some ([], p, []) :=
    locate_eq_some_iff.mpr ⟨hp, hm, by simp⟩
  simp [cancel, hl]

/-! ### Open and closed -/

@[simp] theorem cancel_isOpen (c : Correlator κ) (seq : Option UInt32) :
    (c.cancel seq).1.isOpen = c.isOpen := by
  obtain ⟨-, h⟩ | ⟨_, _, _, -, h⟩ := c.cancel_cases seq <;> rw [h]

@[simp] theorem dispatch_isOpen (c : Correlator κ) (r : Reply) :
    (c.dispatch r).1.isOpen = c.isOpen := by
  obtain ⟨-, -, h⟩ | ⟨-, -, h⟩ | ⟨_, _, _, -, -, h⟩ := c.dispatch_cases r
  · rw [h]
    dsimp only
    split <;> rfl
  · rw [h]
  · rw [h]
    split <;> rfl

/-- Where nobody waits there is nobody to give up. -/
@[simp] theorem cancel_empty (seq : Option UInt32) :
    (({} : Correlator κ).cancel seq).1 = {} := rfl

/-- Where nobody waits a reply changes nothing. -/
@[simp] theorem dispatch_empty (r : Reply) : (({} : Correlator κ).dispatch r).1 = {} := by
  rw [dispatch_of_unmatched (fun _ => rfl) (by simp)]

end Correlator
end EfsControl

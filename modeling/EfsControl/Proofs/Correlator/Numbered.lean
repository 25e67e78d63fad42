/-
# The pending call with a number

Where one pending call alone has a number, a reply with the number is for it,
and a final one ends it. All other replies leave it where it is.

Key definitions: `Owned`.
Key theorems: `Owned.dispatch_final`, `Owned.dispatch_continuing`,
`Owned.dispatch_other`.
-/
import EfsControl.Proofs.Correlator.Basic

namespace EfsControl
namespace Correlator

variable {κ : Type} [DecidableEq κ] {c : Correlator κ} {n m : UInt32} {k : κ} {r : Reply}

/-- Whether a pending call has the number or the caller. -/
def concerns (n : UInt32) (k : κ) (p : Pending κ) : Bool := p.seq == some n || p.caller == k

/-- One pending call has the number, and it is the only one of its caller. -/
def Owned (c : Correlator κ) (n : UInt32) (k : κ) : Prop :=
  ∃ p, c.pending.filter (concerns n k) = [p] ∧ p.seq = some n ∧ p.caller = k

/-- A call that is registered with a new number by a new caller. -/
theorem Owned.register (h : ∀ p ∈ c.pending, p.seq ≠ some n ∧ p.caller ≠ k) :
    Owned { c with pending := c.pending ++ [⟨some n, [], k⟩] } n k := by
  have hnone : c.pending.filter (concerns n k) = [] := by simpa [concerns] using h
  refine ⟨⟨some n, [], k⟩, ?_, rfl, rfl⟩
  rw [List.filter_append, hnone]
  simp [concerns]

namespace Owned

theorem mem (h : c.Owned n k) : ∃ p ∈ c.pending, p.seq = some n ∧ p.caller = k := by
  obtain ⟨p, hp, hs⟩ := h
  have hm : p ∈ c.pending.filter (concerns n k) := by simp [hp]
  exact ⟨p, (List.mem_filter.mp hm).1, hs⟩

theorem mem_callers (h : c.Owned n k) : k ∈ c.callers := by
  obtain ⟨p, hp, -, rfl⟩ := h.mem
  rw [callers]
  exact List.mem_map_of_mem hp

/-- A reply with the number is for the call, and none of the other pending calls has the number or
the caller. -/
theorem locate (h : c.Owned n k) : ∃ before p after,
    Correlator.locate (some n) c.pending = some (before, p, after) ∧ p.caller = k ∧
      p.seq = some n ∧ before.filter (concerns n k) = [] ∧ after.filter (concerns n k) = [] := by
  obtain ⟨p, hp, hs, hc⟩ := h
  cases hl : Correlator.locate (some n) c.pending with
  | none =>
    obtain ⟨q, hq, hqs, -⟩ := mem ⟨p, hp, hs, hc⟩
    exact absurd (.inr hqs) (locate_eq_none_iff.mp hl q hq)
  | some x =>
    obtain ⟨before, q, after⟩ := x
    obtain ⟨hpend, hmatch, -⟩ := locate_eq_some_iff.mp hl
    have hq : concerns n k q = true := by simp [concerns, hmatch.resolve_left nofun]
    rw [hpend, List.filter_append, List.filter_cons, if_pos hq,
      List.append_eq_singleton_iff] at hp
    obtain ⟨hb, hq⟩ | ⟨-, hq⟩ := hp
    · obtain ⟨rfl, ha⟩ := List.cons.inj hq
      exact ⟨before, q, after, rfl, hc, hs, hb, ha⟩
    · cases hq

/-- A final reply with the number ends the call. -/
theorem dispatch_final (h : c.Owned n k) (hr : r.seq = some n) (hf : r.isFinal = true) :
    k ∉ (c.dispatch r).1.callers ∧
      ∃ continuations, (c.dispatch r).2 = .completed k { r with continuations } := by
  obtain ⟨before, p, after, hl, hc, -, hb, ha⟩ := h.locate
  rw [Correlator.dispatch_of_final (by simp [hr]) hf (hr ▸ hl)]
  refine ⟨fun hk => ?_, p.continuations, by rw [hc]⟩
  obtain ⟨q, hq, hqc⟩ := List.mem_map.mp hk
  have hnone : (before ++ after).filter (concerns n k) = [] := by
    rw [List.filter_append, hb, ha, List.append_nil]
  have := List.filter_eq_nil_iff.mp hnone q hq
  simp [concerns, hqc] at this

/-- Any other reply with the number is kept with the call. -/
theorem dispatch_continuing (h : c.Owned n k) (hr : r.seq = some n) (hf : r.isFinal = false) :
    (c.dispatch r).1.Owned n k ∧ (c.dispatch r).2 = .continued := by
  obtain ⟨before, p, after, hl, hc, hs, hb, ha⟩ := h.locate
  rw [Correlator.dispatch_of_continuing (by simp [hr]) hf (hr ▸ hl)]
  refine ⟨⟨{ p with continuations := p.continuations ++ [r.message] }, ?_, hs, hc⟩, rfl⟩
  have hp : concerns n k { p with continuations := p.continuations ++ [r.message] } = true := by
    simp [concerns, hs]
  rw [List.filter_append, List.filter_cons, if_pos hp, hb, ha, List.nil_append]

/-- A reply with another number does not touch the call. -/
theorem dispatch_other (h : c.Owned n k) (hr : r.seq = some m) (hm : m ≠ n) :
    (c.dispatch r).1.Owned n k ∧ ∀ reply, (c.dispatch r).2 ≠ .completed k reply := by
  obtain ⟨hnone, -⟩ | ⟨-, -, hd⟩ | ⟨before, q, after, -, hl, hd⟩ := c.dispatch_cases r
  · rw [hr] at hnone
    cases hnone
  · rw [hd]
    exact ⟨h, fun _ => nofun⟩
  obtain ⟨p, hp, hs, hc⟩ := h
  obtain ⟨hpend, hmatch, -⟩ := locate_eq_some_iff.mp hl
  have hqs : q.seq = some m := by
    rw [← hr]
    exact hmatch.resolve_left (by simp [hr])
  -- The call that the reply is for has neither the number nor the caller.
  have hq : concerns n k q = false := Bool.eq_false_iff.mpr fun hq => by
    have hmem : q ∈ c.pending.filter (concerns n k) := by simp [hpend, hq]
    rw [hp, List.mem_singleton] at hmem
    rw [hmem, hs] at hqs
    exact hm (Option.some.inj hqs).symm
  have hk : q.caller ≠ k := fun he => by simp [concerns, he] at hq
  rw [hpend, List.filter_append, List.filter_cons, if_neg (by simp [hq]),
    ← List.filter_append] at hp
  rw [hd]
  split
  · exact ⟨⟨p, hp, hs, hc⟩, fun reply he => hk (by cases he; rfl)⟩
  · have hq' : concerns n k { q with continuations := q.continuations ++ [r.message] } = false := hq
    refine ⟨⟨p, ?_, hs, hc⟩, fun _ => nofun⟩
    rw [List.filter_append, List.filter_cons, if_neg (by simp [hq']), ← List.filter_append]
    exact hp

end Owned
end Correlator
end EfsControl

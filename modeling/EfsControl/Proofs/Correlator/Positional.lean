/-
# Replies without numbers

Replies without numbers belong to the calls in the order of registration:
each reply up to a final one is part of the answer to one call. The queue
of pending calls is the end of the list of all registered calls, and in front
of it stand those that were given up before their answer had come. This needs
only that no final reply comes before its call. If none of the other replies
does either, the call whose answer has begun keeps what has come of it.

Key definitions: `Tally`, `tally`, `InLine`, `Queued`.
Key theorems: `InLine.dispatch`, `Queued.register`, `Queued.cancel`,
`Queued.dispatch_head`, `Queued.dispatch`.
-/
import EfsControl.Proofs.Correlator.Basic
import Mathlib.Data.List.Induction

namespace EfsControl

/-- The answers in a row of replies, and the messages of the answer that has begun. -/
structure Tally where
  answers : List Reply := []
  begun : List String := []

/-- One more reply: a final one ends the answer that has begun. -/
def Tally.add (t : Tally) (r : Reply) : Tally :=
  if r.isFinal then { answers := t.answers ++ [{ r with continuations := t.begun }] }
  else { t with begun := t.begun ++ [r.message] }

/-- The answers in a row of replies. -/
def tally (replies : List Reply) : Tally := replies.foldl Tally.add {}

@[simp] theorem tally_nil : tally [] = {} := rfl

theorem tally_snoc (replies : List Reply) (r : Reply) :
    tally (replies ++ [r]) = (tally replies).add r := by
  rw [tally, List.foldl_append]
  rfl

theorem Tally.add_of_final {t : Tally} {r : Reply} (h : r.isFinal = true) :
    t.add r = { answers := t.answers ++ [{ r with continuations := t.begun }] } := if_pos h

theorem Tally.add_of_continuing {t : Tally} {r : Reply} (h : r.isFinal = false) :
    t.add r = { t with begun := t.begun ++ [r.message] } := if_neg (by simp [h])

theorem Tally.length_add (t : Tally) (r : Reply) :
    (t.add r).answers.length =
      if r.isFinal then t.answers.length + 1 else t.answers.length := by
  unfold Tally.add
  split <;> simp

/-- More replies add answers and change none. -/
theorem tally_prefix (rs₁ rs₂ : List Reply) :
    (tally rs₁).answers <+: (tally (rs₁ ++ rs₂)).answers := by
  induction rs₂ using List.reverseRecOn with
  | nil => simp
  | append_singleton rs r ih =>
    rw [← List.append_assoc, tally_snoc]
    refine ih.trans ?_
    unfold Tally.add
    split
    · exact List.prefix_append _ _
    · exact List.prefix_rfl

namespace Correlator

variable {κ : Type} {c : Correlator κ} {registered : List κ} {answers : Nat} {t : Tally}

/-! ### Who is next -/

/-- The pending calls are the last that were registered, as many as there are without an answer and
not given up. -/
structure InLine (c : Correlator κ) (registered : List κ) (answers : Nat) : Prop where
  count : c.stale + c.pending.length + answers = registered.length
  queue : c.callers <:+ registered

namespace InLine

theorem opened : InLine ({ isOpen := true } : Correlator κ) [] 0 := ⟨rfl, List.suffix_rfl⟩

/-- The oldest pending call is the first registered one that is neither answered nor given up. -/
theorem getElem?_registered (h : InLine c registered answers) {p : Pending κ}
    {ps : List (Pending κ)} (hp : c.pending = p :: ps) :
    registered[c.stale + answers]? = some p.caller := by
  obtain ⟨before, hb⟩ := h.queue
  have hc := h.count
  have hl := congrArg List.length hb
  rw [callers, hp, List.map_cons] at hb
  rw [callers, hp] at hl
  simp only [List.length_append, List.length_map, List.length_cons] at hl
  rw [hp, List.length_cons] at hc
  have hlen : before.length = c.stale + answers := by omega
  rw [← hb, ← hlen, List.getElem?_append_right (Nat.le_refl _)]
  simp

/-- One more call. -/
theorem register (h : InLine c registered answers) (x : κ) :
    InLine { c with pending := c.pending ++ [⟨none, [], x⟩] } (registered ++ [x]) answers where
  count := by
    have := h.count
    simp only [List.length_append, List.length_singleton]
    omega
  queue := by
    obtain ⟨before, hb⟩ := h.queue
    exact ⟨before, by rw [← hb]; simp [callers]⟩

/-- A call is given up. -/
theorem cancel (h : InLine c registered answers) : InLine (c.cancel none).1 registered answers := by
  unfold Correlator.cancel
  cases hp : c.pending with
  | nil => exact h
  | cons p ps =>
    have hc := h.count
    have hq := h.queue
    rw [hp, List.length_cons] at hc
    rw [callers, hp, List.map_cons] at hq
    refine ⟨?_, (List.suffix_cons _ _).trans hq⟩
    show c.stale + 1 + ps.length + answers = registered.length
    omega

/-- Of the replies only the final ones make a difference: each is an answer. -/
theorem dispatch (h : InLine c registered answers) {r : Reply} (hr : r.seq = none)
    (hlt : r.isFinal = true → answers < registered.length) :
    InLine (c.dispatch r).1 registered (if r.isFinal then answers + 1 else answers) := by
  have hc := h.count
  obtain ⟨-, hs, hd⟩ | ⟨hs, hnone, hd⟩ | ⟨before, p, after, hs, hl, hd⟩ := c.dispatch_cases r
  · rw [hd]
    by_cases hf : r.isFinal = true
    · rw [if_pos hf, if_pos hf]
      refine ⟨?_, h.queue⟩
      show c.stale - 1 + c.pending.length + (answers + 1) = registered.length
      omega
    · rw [if_neg hf, if_neg hf]
      exact h
  · -- Nobody is pending and nobody was given up, so all are answered.
    have hf : ¬ r.isFinal = true := fun hf => by
      have := hlt hf
      have hnil : c.pending = [] := List.eq_nil_iff_forall_not_mem.mpr fun p hp =>
        hnone p hp (.inl hr)
      rw [hs hr, hnil, List.length_nil] at hc
      omega
    rw [hd, if_neg hf]
    exact h
  · have hp := (locate_eq_some_iff.mp hl).1
    have hq := h.queue
    rw [callers, hp, List.map_append, List.map_cons] at hq
    rw [hp, List.length_append, List.length_cons] at hc
    rw [hd]
    by_cases hf : r.isFinal = true
    · rw [if_pos hf, if_pos hf]
      -- Without a number every call matches, so the first one is taken out.
      have hnil : before = [] := List.eq_nil_iff_forall_not_mem.mpr fun q hq =>
        (locate_eq_some_iff.mp hl).2.2 q hq (.inl hr)
      subst hnil
      refine ⟨?_, (List.suffix_cons _ _).trans hq⟩
      show c.stale + after.length + (answers + 1) = registered.length
      simp only [List.length_nil] at hc
      omega
    · rw [if_neg hf, if_neg hf]
      refine ⟨?_, ?_⟩
      · simp only [List.length_append, List.length_cons]
        omega
      · simpa [callers] using hq

end InLine

/-! ### What is kept for it -/

/-- The pending calls are in line, and the first of them keeps what has come of its answer, unless
replies to calls that were given up come first. -/
structure Queued (c : Correlator κ) (registered : List κ) (t : Tally) : Prop extends
    InLine c registered t.answers.length where
  kept : ∀ k p, c.pending[k]? = some p →
    p.continuations = if c.stale + k = 0 then t.begun else []
  /-- An answer begins only while one is to come. -/
  idle : c.stale + c.pending.length = 0 → t.begun = []

namespace Queued

theorem opened : Queued ({ isOpen := true } : Correlator κ) [] {} where
  toInLine := .opened
  kept := by simp
  idle _ := rfl

/-- One more call. -/
theorem register (h : Queued c registered t) (x : κ) :
    Queued { c with pending := c.pending ++ [⟨none, [], x⟩] } (registered ++ [x]) t where
  toInLine := h.toInLine.register x
  kept k p hk := by
    by_cases hlt : k < c.pending.length
    · rw [List.getElem?_append_left hlt] at hk
      exact h.kept k p hk
    · have hle : c.pending.length ≤ k := Nat.le_of_not_lt hlt
      rw [List.getElem?_append_right hle] at hk
      have hz : k - c.pending.length = 0 := by
        have := (List.getElem?_eq_some_iff.mp hk).1
        simp only [List.length_singleton] at this
        omega
      rw [hz] at hk
      cases hk
      show [] = if c.stale + k = 0 then t.begun else []
      split
      · rw [h.idle (by omega)]
      · rfl
  idle hz := by simp at hz

/-- A call is given up. -/
theorem cancel (h : Queued c registered t) : Queued (c.cancel none).1 registered t := by
  have hline := h.toInLine.cancel
  unfold Correlator.cancel at hline ⊢
  cases hp : c.pending with
  | nil => exact h
  | cons p ps =>
    rw [hp] at hline
    refine ⟨hline, fun k q hk => ?_, fun hz => ?_⟩
    -- Whoever is now the oldest was not before, and has kept nothing.
    · have hk' := h.kept (k + 1) q (by rw [hp]; exact hk)
      rw [if_neg (by omega)] at hk'
      rw [if_neg (by show ¬ c.stale + 1 + k = 0; omega)]
      exact hk'
    · change c.stale + 1 + ps.length = 0 at hz
      omega
/-- The next answer is to the oldest pending call, which has kept what has come of it, unless it is
to one that was given up. -/
theorem head (h : Queued c registered t) (hs : c.stale = 0)
    (hlt : t.answers.length < registered.length) :
    ∃ p ps, c.pending = p :: ps ∧ registered[t.answers.length]? = some p.caller ∧
      p.continuations = t.begun ∧
        ∀ (k : Nat) (q : Pending κ), ps[k]? = some q → q.continuations = [] := by
  have hc := h.count
  obtain ⟨p, ps, hp⟩ : ∃ p ps, c.pending = p :: ps :=
    List.exists_cons_of_length_pos (by omega)
  have hcaller := h.getElem?_registered hp
  rw [hs, Nat.zero_add] at hcaller
  refine ⟨p, ps, hp, hcaller, ?_, fun k q hk => ?_⟩
  · rw [h.kept 0 p (by rw [hp]; rfl), if_pos (by omega)]
  · have := h.kept (k + 1) q (by rw [hp]; exact hk)
    rwa [if_neg (by omega)] at this

/-- A final reply ends the call that the next answer is to, with all that has come of the answer. -/
theorem dispatch_head (h : Queued c registered t) {r : Reply} (hr : r.seq = none)
    (hf : r.isFinal = true) (hs : c.stale = 0) (hlt : t.answers.length < registered.length) :
    ∃ x, registered[t.answers.length]? = some x ∧
      (c.dispatch r).2 = .completed x { r with continuations := t.begun } := by
  obtain ⟨p, ps, hp, hcaller, hbegun, -⟩ := h.head hs hlt
  have hl : locate r.seq c.pending = some ([], p, ps) := by rw [hp, hr, locate_none_cons]
  rw [dispatch_of_final (fun _ => hs) hf hl, hbegun]
  exact ⟨p.caller, hcaller, rfl⟩

/-- A reply that is part of an answer still to come is part of the answer to the first call without
one. -/
theorem dispatch_queued (h : Queued c registered t) {r : Reply} (hr : r.seq = none)
    (hlt : t.answers.length < registered.length) :
    Queued (c.dispatch r).1 registered (t.add r) := by
  have hline : InLine (c.dispatch r).1 registered (t.add r).answers.length := by
    rw [Tally.length_add]
    exact h.toInLine.dispatch hr fun _ => hlt
  by_cases hs : 0 < c.stale
  -- The answer is to a call that was given up.
  · have hkept : ∀ (k : Nat) (p : Pending κ), c.pending[k]? = some p → p.continuations = [] :=
        fun k p hk => by
      rw [h.kept k p hk, if_neg (by omega)]
    rw [dispatch_of_stale hr hs] at hline ⊢
    by_cases hf : r.isFinal = true
    · rw [if_pos hf, Tally.add_of_final hf] at hline ⊢
      refine ⟨hline, fun k p hk => ?_, fun _ => rfl⟩
      rw [hkept k p hk, ite_self]
    · have hf : r.isFinal = false := by simpa using hf
      rw [if_neg (by simp [hf]), Tally.add_of_continuing hf] at hline ⊢
      refine ⟨hline, fun k p hk => ?_, fun hz => ?_⟩
      · rw [hkept k p hk, if_neg (by show ¬ c.stale + k = 0; omega)]
      · change c.stale + c.pending.length = 0 at hz
        omega
  have hs : c.stale = 0 := Nat.eq_zero_of_not_pos hs
  -- The answer is to the oldest pending call.
  obtain ⟨p, ps, hp, -, hbegun, hrest⟩ := h.head hs hlt
  have hl : locate r.seq c.pending = some ([], p, ps) := by rw [hp, hr, locate_none_cons]
  by_cases hf : r.isFinal = true
  · rw [dispatch_of_final (fun _ => hs) hf hl, Tally.add_of_final hf] at hline ⊢
    refine ⟨hline, fun k q hk => ?_, fun _ => rfl⟩
    rw [hrest k q hk, ite_self]
  · have hf : r.isFinal = false := by simpa using hf
    rw [dispatch_of_continuing (fun _ => hs) hf hl, Tally.add_of_continuing hf] at hline ⊢
    refine ⟨hline, fun k q hk => ?_, fun hz => by simp at hz⟩
    cases k with
    | zero =>
      cases hk
      rw [if_pos (by show c.stale + 0 = 0; omega), hbegun]
    | succ k =>
      rw [hrest k q hk, if_neg (by omega)]

/-- A reply that is part of an answer still to come is part of the answer to the first call without
one, and reaches that call unless it was given up. -/
theorem dispatch (h : Queued c registered t) {r : Reply} (hr : r.seq = none)
    (hlt : t.answers.length < registered.length) :
    Queued (c.dispatch r).1 registered (t.add r) ∧
      ∀ x answer, (c.dispatch r).2 = .completed x answer →
        registered[t.answers.length]? = some x ∧
          (t.add r).answers[t.answers.length]? = some answer := by
  refine ⟨h.dispatch_queued hr hlt, fun x answer he => ?_⟩
  obtain ⟨hf, hs⟩ := completed_final he
  obtain ⟨x', hx, he'⟩ := h.dispatch_head hr hf (hs hr) hlt
  rw [he] at he'
  cases he'
  rw [Tally.add_of_final hf]
  exact ⟨hx, by simp⟩

end Queued
end Correlator
end EfsControl

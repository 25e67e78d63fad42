/-
# As if a call had never been registered

Where all calls and replies have numbers, a call matters only to replies with
its own number. Take away from a correlator the calls with that number: what
is done on other numbers does the same to what is left, and what is done on
this number does nothing to it. So once no call with the number is pending,
the correlator is that of a course of deeds in which its caller did nothing.

Key definitions: `Correlator.Deed`, `Correlator.play`, `Correlator.without`.
Key theorems: `Correlator.dispatch_without`, `Correlator.perform_without`,
`Correlator.play_without`.
-/
import EfsControl.Proofs.Correlator.Basic

namespace EfsControl
namespace Correlator

variable {κ : Type}

/-- Something that is done to a correlator, by a caller or by nobody in particular. -/
inductive Deed (κ : Type)
  | opening
  | closing
  | register (seq : Option UInt32) (caller : κ)
  | cancel (seq : Option UInt32) (caller : κ)
  | dispatch (reply : Reply)
  deriving DecidableEq

namespace Deed

/-- The caller who does it. -/
def caller? : Deed κ → Option κ
  | register _ caller | cancel _ caller => some caller
  | _ => none

/-- The number that a caller registers or gives up is there, and so is that of a reply. -/
def Numbered : Deed κ → Prop
  | register seq _ | cancel seq _ => seq.isSome
  | dispatch reply => reply.seq.isSome
  | _ => True

/-- The number is that of the caller, and of no other. -/
def Owned (k : κ) (n : UInt32) : Deed κ → Prop
  | register seq caller | cancel seq caller => caller = k ↔ seq = some n
  | _ => True

end Deed

/-- The correlator after a deed. A call that is refused changes nothing. -/
def perform (c : Correlator κ) : Deed κ → Correlator κ
  | .opening => c.opened
  | .closing => c.closed
  | .register seq caller => (c.register seq caller).getD c
  | .cancel seq _ => (c.cancel seq).1
  | .dispatch reply => (c.dispatch reply).1

/-- The correlator after deeds, one after the other. -/
def play (c : Correlator κ) (ds : List (Deed κ)) : Correlator κ := ds.foldl perform c

/-- The correlator without the calls that have a number. -/
def without (n : UInt32) (c : Correlator κ) : Correlator κ :=
  { c with pending := c.pending.filter (·.seq != some n) }

variable {n m : UInt32} {k : κ} {c : Correlator κ} {d : Deed κ} {ds : List (Deed κ)}
  {p : Pending κ} {ps before after : List (Pending κ)} {r : Reply}

/-! ### Calls with other numbers -/

theorem filter_cons_of_ne (h : p.seq ≠ some n) :
    (p :: ps).filter (·.seq != some n) = p :: ps.filter (·.seq != some n) :=
  List.filter_cons_of_pos (by simpa using h)

theorem filter_cons_of_eq (h : p.seq = some n) :
    (p :: ps).filter (·.seq != some n) = ps.filter (·.seq != some n) :=
  List.filter_cons_of_neg (by simpa using h)

/-- Another number finds the same call among what is left. -/
theorem locate_without (hne : m ≠ n) (ps : List (Pending κ)) :
    locate (some m) (ps.filter (·.seq != some n)) =
      (locate (some m) ps).map fun (before, p, after) =>
        (before.filter (·.seq != some n), p, after.filter (·.seq != some n)) := by
  induction ps with
  | nil => rfl
  | cons p ps ih =>
    by_cases hm : p.seq = some m
    · have hn : p.seq ≠ some n := by simpa [hm] using hne
      rw [filter_cons_of_ne hn]
      simp [locate, hm]
    · by_cases hn : p.seq = some n
      · rw [filter_cons_of_eq hn, ih]
        simp [locate, hm, Function.comp_def, filter_cons_of_eq hn]
      · rw [filter_cons_of_ne hn]
        simp [locate, hm, ih, Function.comp_def, filter_cons_of_ne hn]

/-- Where no call has the number, none is taken away. -/
theorem without_eq_self (h : ∀ p ∈ c.pending, p.seq ≠ some n) : c.without n = c := by
  have hall : c.pending.filter (·.seq != some n) = c.pending :=
    List.filter_eq_self.mpr fun p hp => by simpa using h p hp
  rw [without, hall]

/-- A call that is taken away by its number leaves no other. -/
theorem without_append (hp : p.seq = some n) (hc : c.pending = before ++ p :: after) :
    c.without n = { c with pending := (before ++ after).filter (·.seq != some n) } := by
  rw [without, hc, List.filter_append, filter_cons_of_eq hp, ← List.filter_append]

theorem dispatch_without_of_ne (hr : r.seq = some m) (hne : m ≠ n) :
    (c.dispatch r).1.without n = ((c.without n).dispatch r).1 := by
  have hfound := locate_without hne c.pending
  simp only [dispatch, hr, without, Option.isNone_some, Bool.false_and, Bool.false_eq_true,
    if_false, hfound]
  cases hl : locate (some m) c.pending with
  | none => rfl
  | some x =>
    obtain ⟨before, p, after⟩ := x
    have hp : p.seq = some m := (locate_eq_some_iff.mp hl).2.1.resolve_left (Option.some_ne_none m)
    have hpn : p.seq ≠ some n := by simpa [hp] using hne
    cases r.isFinal with
    | true => simp
    | false => simp [hpn]

/-- A reply with the number changes nothing else. -/
theorem dispatch_without (hr : r.seq = some n) : (c.dispatch r).1.without n = c.without n := by
  obtain ⟨hnone, -⟩ | ⟨-, -, hd⟩ | ⟨before, p, after, -, hl, hd⟩ := c.dispatch_cases r
  · rw [hr] at hnone
    cases hnone
  · rw [hd]
  · obtain ⟨hpending, hmatch, -⟩ := locate_eq_some_iff.mp hl
    have hp : p.seq = some n := (hmatch.resolve_left (by simp [hr])).trans hr
    rw [without_append hp hpending, hd]
    split
    · rfl
    · exact without_append (p := { p with continuations := p.continuations ++ [r.message] }) hp rfl

theorem cancel_without_of_ne (hne : m ≠ n) :
    (c.cancel (some m)).1.without n = ((c.without n).cancel (some m)).1 := by
  have hfound := locate_without hne c.pending
  simp only [cancel, without, hfound]
  cases locate (some m) c.pending with
  | none => rfl
  | some x => simp

/-- Giving up the call with the number changes nothing else. -/
theorem cancel_without : (c.cancel (some n)).1.without n = c.without n := by
  obtain ⟨-, hc⟩ | ⟨before, p, after, hl, hc⟩ := c.cancel_cases (some n)
  · rw [hc]
  · obtain ⟨hpending, hmatch, -⟩ := locate_eq_some_iff.mp hl
    have hp : p.seq = some n := hmatch.resolve_left (Option.some_ne_none n)
    rw [without_append hp hpending, hc]
    rfl

/-- A call that is registered changes nothing else. -/
theorem register_without : ((c.register (some n) k).getD c).without n = c.without n := by
  unfold register
  split
  · simp [without]
  · rfl

theorem register_without_of_ne (hne : m ≠ n) :
    ((c.register (some m) k).getD c).without n =
      ((c.without n).register (some m) k).getD (c.without n) := by
  unfold register
  by_cases ho : c.isOpen = true
  · simp [without, ho, hne]
  · simp [without, ho]

/-! ### Deeds -/

/-- A deed of the caller does nothing to what is left, and any other does the same to it. A reply
with the number finds nobody there. -/
theorem perform_without (hn : d.Numbered) (ho : d.Owned k n) :
    (d.caller? = some k → (c.perform d).without n = c.without n) ∧
    (d.caller? ≠ some k → (c.perform d).without n = (c.without n).perform d) := by
  cases d with
  | opening => exact ⟨nofun, fun _ => rfl⟩
  | closing => exact ⟨nofun, fun _ => rfl⟩
  | register seq caller =>
    obtain ⟨m, rfl⟩ := Option.isSome_iff_exists.mp hn
    refine ⟨fun hk => ?_, fun hk => register_without_of_ne fun hm => hk ?_⟩
    · obtain rfl : m = n := Option.some.inj (ho.mp (Option.some.inj hk))
      exact register_without
    · exact congrArg some (ho.mpr (congrArg some hm))
  | cancel seq caller =>
    obtain ⟨m, rfl⟩ := Option.isSome_iff_exists.mp hn
    refine ⟨fun hk => ?_, fun hk => cancel_without_of_ne fun hm => hk ?_⟩
    · obtain rfl : m = n := Option.some.inj (ho.mp (Option.some.inj hk))
      exact cancel_without
    · exact congrArg some (ho.mpr (congrArg some hm))
  | dispatch reply =>
    obtain ⟨m, hm⟩ := Option.isSome_iff_exists.mp hn
    refine ⟨nofun, fun _ => ?_⟩
    by_cases hmn : m = n
    · subst hmn
      have hnobody : ∀ p ∈ (c.without m).pending, p.seq ≠ reply.seq := by
        intro p hp
        rw [hm]
        simpa using (List.mem_filter.mp hp).2
      rw [perform, perform, dispatch_without hm, dispatch_of_other hn hnobody]
    · exact dispatch_without_of_ne hm hmn

variable [DecidableEq κ]

/-- **The calls with other numbers are those of a course in which the caller does nothing.** -/
theorem play_without (h : ∀ d ∈ ds, d.Numbered ∧ d.Owned k n) (c : Correlator κ) :
    (c.play ds).without n = (c.without n).play (ds.filter fun d => d.caller? ≠ some k) := by
  induction ds generalizing c with
  | nil => rfl
  | cons d ds ih =>
    obtain ⟨⟨hn, ho⟩, hds⟩ := List.forall_mem_cons.mp h
    obtain ⟨hown, hother⟩ := perform_without (c := c) hn ho
    have hrest : (c.play (d :: ds)).without n =
        ((c.perform d).without n).play (ds.filter fun d => d.caller? ≠ some k) :=
      ih hds (c.perform d)
    by_cases hk : d.caller? = some k
    · rw [hrest, hown hk, List.filter_cons_of_neg (by simpa using hk)]
    · rw [hrest, hother hk, List.filter_cons_of_pos (by simpa using hk)]
      rfl

end Correlator
end EfsControl

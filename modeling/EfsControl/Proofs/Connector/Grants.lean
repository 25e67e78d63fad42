/-
# In which order the lock is obtained

A call registers only with the lock in its hands, and once at most. So the
calls that are registered along a run are among those that have obtained the
lock, in the same order.

Key definitions: `granted`, `lockOrder`.
Key theorems: `Move.grants`, `run_lockOrder`.
-/
import EfsControl.Proofs.Connector.Answer

namespace EfsControl
namespace Connector

variable {setup : Setup} {s s' t : State} {a : Action} {notes ns : List Note} {order : List Nat}

/-- The call that has the lock after a step and did not have it before. -/
def granted (s t : State) : List Nat :=
  match t.lock.holder with
  | some (.call id) => if s.lock.holder = some (.call id) then [] else [id]
  | _ => []

/-- The calls that obtain the lock in a run, in order. -/
def lockOrder (setup : Setup) (s : State) : List Action → List Nat
  | [] => []
  | a :: as =>
    match step setup s a with
    | none => []
    | some (t, _) => granted s t ++ lockOrder setup t as

theorem granted_kept {id : Nat} (hl : s.lock.holder = some (.call id))
    (hl' : t.lock.holder = some (.call id)) : granted s t = [] := by
  simp [granted, hl, hl']

theorem granted_new {id : Nat} (hl : s.lock.holder ≠ some (.call id))
    (hl' : t.lock.holder = some (.call id)) : granted s t = [id] := by
  simp [granted, hl, hl']

theorem lockOrder_snoc {as : List Action} (h : run setup s as = some (t, notes))
    (hs : step setup t a = some (s', ns)) :
    lockOrder setup s (as ++ [a]) = lockOrder setup s as ++ granted t s' := by
  induction as generalizing s notes with
  | nil =>
    cases h
    simp [lockOrder, hs]
  | cons b as ih =>
    obtain ⟨u, ms, _, hb, hr, -⟩ := run_cons.mp h
    simp only [List.cons_append, lockOrder, hb, List.append_assoc]
    rw [ih hr]

/-- The calls that were registered are among those that have obtained the lock, and whoever has it
and has not begun is the next of them. -/
structure Granted (notes : List Note) (s : State) (order : List Nat) : Prop where
  begun : ((registrations notes).map (·.id)).Sublist order
  next : ∀ id, s.lock.holder = some (.call id) → s.phase? id = some .queued →
    ((registrations notes).map (·.id) ++ [id]).Sublist order

/-- A call that is registered has the lock and begins with that. -/
theorem Move.registers_holder (hm : Move setup s a s' ns) (hw : Wired s) :
    registrations ns = [] ∨ ∃ x, registrations ns = [x] ∧ s.lock.holder = some (.call x.id) ∧
      s.phase? x.id = some .queued ∧ s'.phase? x.id ≠ some .queued := by
  cases hm.effect hw with
  | calm _ _ _ hn => exact .inl hn.registrations_eq
  | cancel _ _ _ _ _ _ hn => exact .inl hn.registrations_eq
  | close _ _ _ hn => exact .inl hn.registrations_eq
  | «open» _ _ _ _ _ hn => exact .inl hn.registrations_eq
  | @register id conn _ command _ _ _ hl hq hp _ _ _ =>
    refine .inr ⟨⟨id, (takeSeq setup.config s).1, conn, command⟩, rfl, hl, hq, ?_⟩
    rw [hp, if_pos rfl]
    simp
  | send => exact .inl rfl
  | hear _ _ _ _ _ hn => exact .inl hn.registrations_eq
  | reply _ _ _ _ _ hn => exact .inl hn.registrations_eq

namespace Granted

theorem init : Granted [] {} [] where
  begun := List.Sublist.refl _
  next id hl := by cases hl

/-- The call that is registered, if there is one, is the next of those that have obtained the
lock. -/
theorem registers (h : Granted notes s order) (hm : Move setup s a s' ns) (hw : Wired s) :
    ((registrations (notes ++ ns)).map (·.id)).Sublist order := by
  rw [registrations_append, List.map_append]
  rcases hm.registers_holder hw with hr | ⟨x, hr, hl, hq, -⟩
  · rw [hr, List.map_nil, List.append_nil]
    exact h.begun
  · rw [hr, List.map_singleton]
    exact h.next x.id hl hq

end Granted

/-- A call that has the lock and has not begun was so before, if it had the lock. -/
theorem Move.queued_before {id : Nat} (hm : Move setup s a s' ns) (ho : Orderly s) (hw : Wired s)
    (hl : s.lock.holder = some (.call id)) (hq : s'.phase? id = some .queued) :
    s.phase? id = some .queued := by
  obtain ⟨p, hp, -⟩ := ho.member id (Lock.holder_mem hl)
  by_contra hne
  have hbegun : p ≠ .queued := fun he => hne (he ▸ hp)
  obtain ⟨q, hq', hnew⟩ := hm.begun hw hp hbegun
  rw [hq] at hq'
  exact hnew (Option.some.inj hq').symm

/-- Every move keeps the registered calls among those that have obtained the lock. -/
theorem Move.grants (hm : Move setup s a s' ns) (ho : Orderly s) (hw : Wired s)
    (h : Granted notes s order) : Granted (notes ++ ns) s' (order ++ granted s s') where
  begun := (h.registers hm hw).trans (List.sublist_append_left _ _)
  next id hl' hq' := by
    by_cases hl : s.lock.holder = some (.call id)
    -- The call has the lock still, and nobody is registered meanwhile.
    · have hnone : registrations ns = [] := by
        rcases hm.registers_holder hw with hr | ⟨x, -, hx, -, hbegun⟩
        · exact hr
        · have hid : id = x.id := by simpa [hl] using hx
          exact absurd (hid ▸ hq') hbegun
      rw [registrations_append, hnone, List.append_nil, granted_kept hl hl', List.append_nil]
      exact h.next id hl (hm.queued_before ho hw hl hq')
    · rw [granted_new hl hl']
      exact (h.registers hm hw).append (List.Sublist.refl [id])

/-- The calls that are registered along a run are among those that have obtained the lock, in the
same order. -/
theorem run_lockOrder {as : List Action} (h : run setup {} as = some (s, notes)) :
    ((registrations notes).map (·.id)).Sublist (lockOrder setup {} as) := by
  suffices hg : Granted notes s (lockOrder setup {} as) from hg.begun
  induction as using List.reverseRecOn generalizing s notes with
  | nil =>
    cases h
    exact .init
  | append_singleton as a ih =>
    obtain ⟨t, ns₁, ns₂, ht, hs, rfl⟩ := run_snoc.mp h
    have sound := run_sound ht
    rw [lockOrder_snoc ht hs]
    exact (step_move hs).grants sound.orderly sound.wired (ih ht)

end Connector
end EfsControl

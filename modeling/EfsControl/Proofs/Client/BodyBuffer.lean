/-
# What is taken of a body

As long as no addition overflows, the place in a body is where the counts add
up to, or the end, and every byte is handed out once. A sender that never
takes more than is left cannot make one overflow. An addition that overflows
moves the place back, because the end is only looked at afterwards: bytes that
have been handed out are handed out again.

Key definitions: `BodyBuffer.Valid`, `BodyBuffer.Overflows`, `BodyBuffer.run`,
`BodyBuffer.Fits`, `BodyBuffer.handedOut`.
Key theorems: `BodyBuffer.Valid.advance_lt_iff`, `BodyBuffer.Valid.fits_iff`,
`BodyBuffer.Valid.handedOut_append_chunk`, `BodyBuffer.run_of_fits`.
-/
import EfsControl.Client.BodyBuffer
import Mathlib.Algebra.BigOperators.Group.List.Basic
import Mathlib.Algebra.GroupWithZero.Nat
import Mathlib.Data.List.Infix

namespace EfsControl
namespace BodyBuffer

/-! ### One count -/

/-- The place is within the body, whose length is a number of 64 bits. -/
structure Valid (b : BodyBuffer) : Prop where
  length_lt : b.data.length < 2 ^ 64
  taken_le : b.taken.toNat ≤ b.data.length

/-- The place and the count do not add up within 64 bits. -/
def Overflows (b : BodyBuffer) (count : UInt64) : Prop := 2 ^ 64 ≤ b.taken.toNat + count.toNat

variable {b : BodyBuffer} {count : UInt64} {counts : List UInt64}

theorem Valid.toNat_size (h : b.Valid) : b.size.toNat = b.data.length :=
  UInt64.toNat_ofNat_of_lt' h.length_lt

theorem Valid.toNat_remaining (h : b.Valid) :
    b.remaining.toNat = b.data.length - b.taken.toNat := by
  have hle : b.taken ≤ b.size := by
    rw [UInt64.le_iff_toNat_le, h.toNat_size]
    exact h.taken_le
  rw [remaining, UInt64.toNat_sub_of_le _ _ hle, h.toNat_size]

theorem Valid.length_chunk (h : b.Valid) : b.chunk.length = b.remaining.toNat := by
  rw [chunk, List.length_drop, h.toNat_remaining]

/-- The sum is cut off at 64 bits first and at the end of the body afterwards. -/
theorem Valid.taken_advance (h : b.Valid) (count : UInt64) :
    (b.advance count).taken.toNat =
      min ((b.taken.toNat + count.toNat) % 2 ^ 64) b.data.length := by
  have hsum : (b.taken + count).toNat = (b.taken.toNat + count.toNat) % 2 ^ 64 :=
    UInt64.toNat_add _ _
  rw [← hsum, ← h.toNat_size]
  show (if b.taken + count ≤ b.size then b.taken + count else b.size).toNat = _
  split
  · rename_i hle
    exact (Nat.min_eq_left (UInt64.le_iff_toNat_le.mp hle)).symm
  · rename_i hlt
    exact (Nat.min_eq_right (Nat.le_of_not_le fun hle =>
      hlt (UInt64.le_iff_toNat_le.mpr hle))).symm

theorem Valid.advance (h : b.Valid) (count : UInt64) : (b.advance count).Valid := by
  refine ⟨h.length_lt, ?_⟩
  rw [h.taken_advance]
  exact Nat.min_le_right _ _

theorem Valid.taken_advance_of_not (h : b.Valid) (ho : ¬ b.Overflows count) :
    (b.advance count).taken.toNat = min (b.taken.toNat + count.toNat) b.data.length := by
  rw [h.taken_advance, Nat.mod_eq_of_lt (Nat.lt_of_not_le ho)]

/-- The place moves back exactly when the addition overflows. -/
theorem Valid.advance_lt_iff (h : b.Valid) :
    (b.advance count).taken < b.taken ↔ b.Overflows count := by
  have hlength := h.length_lt
  have hle := h.taken_le
  have hcount : count.toNat < 2 ^ 64 := count.toNat_lt
  rw [UInt64.lt_iff_toNat_lt]
  by_cases ho : b.Overflows count
  · refine iff_of_true ?_ ho
    unfold Overflows at ho
    have hsum : (b.taken.toNat + count.toNat) % 2 ^ 64 = b.taken.toNat + count.toNat - 2 ^ 64 := by
      omega
    rw [h.taken_advance, hsum]
    omega
  · refine iff_of_false ?_ ho
    rw [h.taken_advance_of_not ho]
    omega

/-- What is handed out and what is left are what there was. -/
theorem Valid.take_append_chunk (h : b.Valid) (ho : ¬ b.Overflows count) :
    b.chunk.take count.toNat ++ (b.advance count).chunk = b.chunk := by
  have hdrop : (b.advance count).chunk = b.chunk.drop count.toNat := by
    show b.data.drop (b.advance count).taken.toNat = (b.data.drop b.taken.toNat).drop count.toNat
    rw [h.taken_advance_of_not ho, List.drop_drop]
    rcases Nat.le_total (b.taken.toNat + count.toNat) b.data.length with hle | hle
    · rw [Nat.min_eq_left hle]
    · rw [Nat.min_eq_right hle, List.drop_length, List.drop_of_length_le hle]
  rw [hdrop, List.take_append_drop]

/-! ### One count after the other -/

/-- The buffer after some counts. -/
def run (b : BodyBuffer) (counts : List UInt64) : BodyBuffer := counts.foldl advance b

/-- No addition overflows. -/
def Fits : BodyBuffer → List UInt64 → Prop
  | _, [] => True
  | b, count :: counts => ¬ b.Overflows count ∧ (b.advance count).Fits counts

/-- No count is more than what is left. -/
def Within : BodyBuffer → List UInt64 → Prop
  | _, [] => True
  | b, count :: counts => count ≤ b.remaining ∧ (b.advance count).Within counts

/-- The bytes that are handed out: at each count, as many as it says, if there are as many. -/
def handedOut : BodyBuffer → List UInt64 → List UInt8
  | _, [] => []
  | b, count :: counts => b.chunk.take count.toNat ++ (b.advance count).handedOut counts

/-- Who takes no more than is left overflows nothing. -/
theorem Valid.fits_of_within (h : b.Valid) (hw : b.Within counts) : b.Fits counts := by
  induction counts generalizing b with
  | nil => trivial
  | cons count counts ih =>
    obtain ⟨hcount, hw⟩ := hw
    refine ⟨?_, ih (h.advance count) hw⟩
    have hlength := h.length_lt
    rw [UInt64.le_iff_toNat_le, h.toNat_remaining] at hcount
    have hle := h.taken_le
    unfold Overflows
    omega

/-- The place is where the counts add up to, or the end, if and only if no addition overflows. -/
theorem Valid.fits_iff (h : b.Valid) : b.Fits counts ↔ ∀ before, before <+: counts →
    (b.run before).taken.toNat =
      min (b.taken.toNat + (before.map UInt64.toNat).sum) b.data.length := by
  have hle := h.taken_le
  induction counts generalizing b with
  | nil =>
    refine iff_of_true trivial fun before hb => ?_
    rw [List.prefix_nil.mp hb]
    show b.taken.toNat = min (b.taken.toNat + 0) b.data.length
    omega
  | cons count counts ih =>
    have hnext := h.advance count
    have hcons (before : List UInt64) :
        b.run (count :: before) = (b.advance count).run before := rfl
    have hlength : (b.advance count).data.length = b.data.length := rfl
    constructor
    · rintro ⟨ho, hf⟩ before hb
      have hstep := h.taken_advance_of_not ho
      rcases List.prefix_cons_iff.mp hb with rfl | ⟨tail, rfl, htail⟩
      · show b.taken.toNat = min (b.taken.toNat + 0) b.data.length
        omega
      · have hrun := (ih hnext hnext.taken_le).mp hf tail htail
        rw [hcons, hrun, hlength, hstep, List.map_cons, List.sum_cons]
        omega
    · intro hall
      have hfirst := hall [count] (List.prefix_cons_iff.mpr (.inr ⟨[], rfl, List.nil_prefix⟩))
      replace hfirst : (b.advance count).taken.toNat =
          min (b.taken.toNat + count.toNat) b.data.length := by
        simpa [run] using hfirst
      have ho : ¬ b.Overflows count := by
        rw [← h.advance_lt_iff, UInt64.lt_iff_toNat_lt, hfirst]
        omega
      refine ⟨ho, (ih hnext hnext.taken_le).mpr fun before hb => ?_⟩
      have hrun := hall (count :: before) (List.prefix_cons_iff.mpr (.inr ⟨before, rfl, hb⟩))
      rw [hcons, List.map_cons, List.sum_cons] at hrun
      rw [hrun, hlength, hfirst]
      omega

/-- **Every byte is handed out once**, as long as no addition overflows: what has been handed out
and what is left are the body. -/
theorem Valid.handedOut_append_chunk (h : b.Valid) (hf : b.Fits counts) :
    b.handedOut counts ++ (b.run counts).chunk = b.chunk := by
  induction counts generalizing b with
  | nil => rfl
  | cons count counts ih =>
    obtain ⟨ho, hf⟩ := hf
    have htail := ih (h.advance count) hf
    show (b.chunk.take count.toNat ++ (b.advance count).handedOut counts) ++
      ((b.advance count).run counts).chunk = b.chunk
    rw [List.append_assoc, htail, h.take_append_chunk ho]

theorem Valid.run (h : b.Valid) (counts : List UInt64) : (b.run counts).Valid := by
  induction counts generalizing b with
  | nil => exact h
  | cons count counts ih => exact ih (h.advance count)

theorem data_run (b : BodyBuffer) (counts : List UInt64) : (b.run counts).data = b.data := by
  induction counts generalizing b with
  | nil => rfl
  | cons count counts ih => exact ih (b.advance count)

/-- What is left of a body after some counts of which no addition overflows. -/
theorem run_of_fits {data : List UInt8} (hdata : data.length < 2 ^ 64)
    (hf : Fits ⟨data, 0⟩ counts) :
    (run ⟨data, 0⟩ counts).remaining.toNat =
        data.length - min data.length (counts.map UInt64.toNat).sum ∧
      (run ⟨data, 0⟩ counts).chunk <:+ data ∧
      (run ⟨data, 0⟩ counts).chunk.length = (run ⟨data, 0⟩ counts).remaining.toNat ∧
      handedOut ⟨data, 0⟩ counts ++ (run ⟨data, 0⟩ counts).chunk = data := by
  have hvalid : Valid ⟨data, 0⟩ := ⟨hdata, Nat.zero_le _⟩
  have hrun := hvalid.run counts
  have hchunk := hvalid.handedOut_append_chunk hf
  have htaken : (run ⟨data, 0⟩ counts).taken.toNat =
      min (0 + (counts.map UInt64.toNat).sum) data.length :=
    hvalid.fits_iff.mp hf counts List.prefix_rfl
  refine ⟨?_, ⟨_, hchunk⟩, hrun.length_chunk, hchunk⟩
  rw [hrun.toNat_remaining, data_run, htaken, Nat.zero_add, Nat.min_comm]

/-- After a byte has been taken, the largest count takes the rest and then goes back to the front:
all of the body is handed out, and all of it is left. -/
theorem handedOut_again :
    handedOut ⟨[112, 119], 0⟩ [1, 18446744073709551615] = [112, 119] ∧
      (run ⟨[112, 119], 0⟩ [1, 18446744073709551615]).chunk = [112, 119] := by
  decide +kernel

end BodyBuffer
end EfsControl

import Rmdb.Defs
import Mathlib.Order.Interval.Finset.Basic
import Mathlib.Data.Int.Interval

/-! Slot bitmaps (`bitmap.h`) as maps from slot positions to bits. -/

namespace Rmdb.Record.Bitmap

/-- Modelled from the spec: `Bitmap::init` (bitmap.h is not in the sources) zeroes a page's
bitmap, which the spec calls a bit vector marking slot occupancy. -/
def init : Int → Bool := fun _ => false

/-- Modelled from the spec: `Bitmap::set` sets the bit of one slot and leaves the others. -/
def set (bm : Int → Bool) (pos : Int) : Int → Bool := Function.update bm pos true

/-- Modelled from the spec: `Bitmap::reset` clears the bit of one slot and leaves the others. -/
def reset (bm : Int → Bool) (pos : Int) : Int → Bool := Function.update bm pos false

/-- Modelled from the spec: `Bitmap::first_bit` (bitmap.h is not in the sources) returns the
lowest-indexed position below `max_n` holding `bit`, and `max_n` when there is none. -/
def firstBit (bit : Bool) (bm : Int → Bool) (maxN : Int) : Int :=
  go maxN.toNat 0
where
  go : Nat → Int → Int
    | 0, _ => maxN
    | k + 1, i => if bm i = bit then i else go k (i + 1)

def popcount (bm : Int → Bool) (n : Int) : Nat :=
  ((Finset.Ico 0 n).filter fun i => bm i = true).card

@[simp] lemma set_self (bm : Int → Bool) (pos : Int) : set bm pos pos = true := by
  simp [set]

@[simp] lemma reset_self (bm : Int → Bool) (pos : Int) : reset bm pos pos = false := by
  simp [reset]

lemma set_ne {bm : Int → Bool} {pos i : Int} (h : i ≠ pos) : set bm pos i = bm i := by
  simp [set, h]

lemma reset_ne {bm : Int → Bool} {pos i : Int} (h : i ≠ pos) : reset bm pos i = bm i := by
  simp [reset, h]

lemma firstBit_go_spec (bit : Bool) (bm : Int → Bool) (maxN : Int) (k : Nat) (i : Int) :
    (i ≤ firstBit.go bit bm maxN k i ∧ firstBit.go bit bm maxN k i < i + k ∧
      bm (firstBit.go bit bm maxN k i) = bit) ∨
    (firstBit.go bit bm maxN k i = maxN ∧ ∀ j, i ≤ j → j < i + k → bm j ≠ bit) := by
  induction k generalizing i with
  | zero => exact .inr ⟨rfl, fun j h1 h2 => by omega⟩
  | succ k ih =>
    simp only [firstBit.go]
    split_ifs with h
    · exact .inl ⟨le_rfl, by omega, h⟩
    · rcases ih (i + 1) with ⟨h1, h2, h3⟩ | ⟨h1, h2⟩
      · exact .inl ⟨by omega, by omega, h3⟩
      · refine .inr ⟨h1, fun j hj1 hj2 => ?_⟩
        rcases eq_or_lt_of_le hj1 with rfl | hj
        · exact h
        · exact h2 j (by omega) (by omega)

lemma firstBit_spec (bit : Bool) (bm : Int → Bool) (n : Int) :
    (0 ≤ firstBit bit bm n ∧ firstBit bit bm n < n ∧ bm (firstBit bit bm n) = bit) ∨
    (firstBit bit bm n = n ∧ ∀ j, 0 ≤ j → j < n → bm j ≠ bit) := by
  unfold firstBit
  rcases firstBit_go_spec bit bm n n.toNat 0 with ⟨h1, h2, h3⟩ | ⟨h1, h2⟩
  · exact .inl ⟨h1, by omega, h3⟩
  · exact .inr ⟨h1, fun j hj1 hj2 => h2 j hj1 (by omega)⟩

lemma popcount_le (bm : Int → Bool) (n : Int) : popcount bm n ≤ n.toNat := by
  simpa [popcount] using Finset.card_filter_le (Finset.Ico 0 n) fun i => bm i = true

lemma popcount_eq_of_full {bm : Int → Bool} {n : Int} (h : ∀ j, 0 ≤ j → j < n → bm j = true) :
    popcount bm n = n.toNat := by
  rw [popcount, Finset.filter_true_of_mem fun j hj => by
    simp only [Finset.mem_Ico] at hj; exact h j hj.1 hj.2]
  simp

lemma firstBit_clear {bm : Int → Bool} {n : Int} (h : popcount bm n < n.toNat) :
    0 ≤ firstBit false bm n ∧ firstBit false bm n < n ∧ bm (firstBit false bm n) = false := by
  rcases firstBit_spec false bm n with h1 | ⟨-, h2⟩
  · exact h1
  · have := popcount_eq_of_full fun j hj1 hj2 => by simpa using h2 j hj1 hj2
    omega

@[simp] lemma popcount_init (n : Int) : popcount init n = 0 := by
  simp [popcount, init]

lemma popcount_set {bm : Int → Bool} {n pos : Int} (h0 : 0 ≤ pos) (hn : pos < n)
    (hb : bm pos = false) : popcount (set bm pos) n = popcount bm n + 1 := by
  have : ((Finset.Ico 0 n).filter fun i => set bm pos i = true) =
      insert pos ((Finset.Ico 0 n).filter fun i => bm i = true) := by
    ext j
    by_cases hj : j = pos
    · subst hj; simp [h0, hn]
    · simp [set_ne hj, hj]
  rw [popcount, this, Finset.card_insert_of_not_mem (by simp [hb])]
  rfl

lemma popcount_reset {bm : Int → Bool} {n pos : Int} (h0 : 0 ≤ pos) (hn : pos < n)
    (hb : bm pos = true) : popcount (reset bm pos) n + 1 = popcount bm n := by
  have : ((Finset.Ico 0 n).filter fun i => bm i = true) =
      insert pos ((Finset.Ico 0 n).filter fun i => reset bm pos i = true) := by
    ext j
    by_cases hj : j = pos
    · subst hj; simp [h0, hn, hb]
    · simp [reset_ne hj, hj]
  unfold popcount
  rw [this, Finset.card_insert_of_not_mem (by simp)]

lemma popcount_set_le (bm : Int → Bool) (pos n : Int) :
    popcount (set bm pos) n ≤ popcount bm n + 1 := by
  refine (Finset.card_le_card fun j hj => ?_).trans (Finset.card_insert_le pos _)
  by_cases h : j = pos
  · simp [h]
  · simpa [set_ne h, h] using hj

lemma popcount_lt_of_clear {bm : Int → Bool} {n pos : Int} (h0 : 0 ≤ pos) (hn : pos < n)
    (hb : bm pos = false) : popcount bm n < n.toNat := by
  have := popcount_set h0 hn hb
  have := popcount_le (set bm pos) n
  omega

end Rmdb.Record.Bitmap

import Rmdb.Execution.Predicate
import Mathlib.Data.Rat.Floor

/-! The numeric casts of the analyzer: `static_cast<float>` of an `int`, and back. -/

namespace Rmdb.Analyze.Cast

open Rmdb.Execution.Predicate

def packFloat (sign exp sig : Nat) : Nat :=
  sign * 2 ^ 31 + exp * 2 ^ 23 + (sig - 2 ^ 23)

def roundSig (m e : Nat) : Nat × Nat :=
  let sh := e - 23
  let q := m / 2 ^ sh
  let r := m % 2 ^ sh
  let q := if 2 ^ (sh - 1) < r ∨ (r = 2 ^ (sh - 1) ∧ q % 2 = 1) then q + 1 else q
  if q = 2 ^ 24 then (2 ^ 23, e + 1) else (q, e)

def leadingBit : Nat → Nat → Nat
  | 0, _ => 0
  | k + 1, m => if 2 ≤ m then leadingBit k (m / 2) + 1 else 0

def significand (m : Nat) : Nat × Nat :=
  let e := leadingBit m m
  if e ≤ 23 then (m * 2 ^ (23 - e), e) else roundSig m e

/-- `static_cast<float>` of an `int`: the nearest single, ties to even. -/
def intToFloat (i : Int) : UInt32 :=
  if i = 0 then 0 else
  let p := significand i.natAbs
  UInt32.ofNat (packFloat (if i < 0 then 1 else 0) (p.2 + 127) p.1)

/-- `static_cast<int>` of a `float`: the value truncated toward zero. Where C++ leaves the result
undefined (NaN, an infinity, or a value out of the range of `int`) the model gives `INT_MIN`,
what x86-64's `cvttss2si` returns. -/
def floatToInt (f : UInt32) : Int :=
  let b := f.toNat
  let e := b / 2 ^ 23 % 2 ^ 8
  let sig := 2 ^ 23 + b % 2 ^ 23
  let mag : Nat :=
    if e = 0 then 0 else if 150 ≤ e then sig * 2 ^ (e - 150) else sig / 2 ^ (150 - e)
  let v : Int := if b / 2 ^ 31 % 2 = 0 then mag else -mag
  if e = 255 ∨ v < -2 ^ 31 ∨ 2 ^ 31 ≤ v then -2 ^ 31 else v

/-- Truncation toward zero: what C++ makes of a floating-point value converted to an integer
type, where the result is representable. -/
def truncate (q : ℚ) : Int :=
  if 0 ≤ q then ⌊q⌋ else ⌈q⌉

lemma leadingBit_eq_log2 (k m : Nat) (h : m < 2 ^ k) : leadingBit k m = m.log2 := by
  induction k generalizing m with
  | zero => rw [Nat.lt_one_iff.mp h, Nat.log2_zero]; rfl
  | succ k ih =>
    rw [leadingBit, Nat.log2]
    split_ifs with hm
    · rw [ih (m / 2) (by rw [Nat.pow_succ] at h; omega)]
    · rfl

lemma packFloat_fields (sign exp sig : Nat) (hs : sign < 2) (he : exp < 2 ^ 8)
    (h1 : 2 ^ 23 ≤ sig) (h2 : sig < 2 ^ 24) :
    packFloat sign exp sig < 2 ^ 32 ∧ packFloat sign exp sig / 2 ^ 31 % 2 = sign ∧
      packFloat sign exp sig / 2 ^ 23 % 2 ^ 8 = exp ∧
      2 ^ 23 + packFloat sign exp sig % 2 ^ 23 = sig := by
  unfold packFloat
  omega

lemma significand_of_lt {m : Nat} (hm : m ≠ 0) (h : m < 2 ^ 24) :
    significand m = (m * 2 ^ (23 - m.log2), m.log2) ∧ m.log2 ≤ 23 ∧
      2 ^ 23 ≤ m * 2 ^ (23 - m.log2) ∧ m * 2 ^ (23 - m.log2) < 2 ^ 24 := by
  have he : m.log2 ≤ 23 := Nat.lt_succ_iff.mp ((Nat.log2_lt hm).mpr h)
  have hlb : leadingBit m m = m.log2 := leadingBit_eq_log2 m m (Nat.lt_two_pow m)
  have hsplit : 2 ^ 23 = 2 ^ m.log2 * 2 ^ (23 - m.log2) := by
    rw [← Nat.pow_add, Nat.add_sub_cancel' he]
  refine ⟨by rw [significand, hlb, if_pos he], he, ?_, ?_⟩
  · rw [hsplit]
    exact Nat.mul_le_mul_right _ (Nat.log2_self_le hm)
  · calc m * 2 ^ (23 - m.log2) < 2 ^ (m.log2 + 1) * 2 ^ (23 - m.log2) :=
          Nat.mul_lt_mul_of_pos_right Nat.lt_log2_self (Nat.two_pow_pos _)
      _ = 2 ^ 24 := by rw [← Nat.pow_add]; congr 1; omega

lemma two_pow_mul_two_zpow {e : Nat} (he : e ≤ 23) :
    (2 : ℚ) ^ (23 - e) * 2 ^ (((e + 127 : ℕ) : ℤ) - 150) = 1 := by
  rw [← zpow_natCast, ← zpow_add₀ two_ne_zero]
  have h : ((23 - e : ℕ) : ℤ) + (((e + 127 : ℕ) : ℤ) - 150) = 0 := by omega
  rw [h, zpow_zero]

lemma intToFloat_fields {i : Int} (hi : i ≠ 0) (h : i.natAbs < 2 ^ 24) :
    let m := i.natAbs
    let b := (intToFloat i).toNat
    m.log2 ≤ 23 ∧ b / 2 ^ 31 % 2 = (if i < 0 then 1 else 0) ∧ b / 2 ^ 23 % 2 ^ 8 = m.log2 + 127 ∧
      2 ^ 23 + b % 2 ^ 23 = m * 2 ^ (23 - m.log2) := by
  obtain ⟨hs, he, h1, h2⟩ := significand_of_lt (Int.natAbs_ne_zero.mpr hi) h
  obtain ⟨hlt, hsign, hexp, hsig⟩ :=
    packFloat_fields (if i < 0 then 1 else 0) (i.natAbs.log2 + 127) _ (by split <;> omega)
      (by omega) h1 h2
  have hlt' : packFloat (if i < 0 then 1 else 0) (i.natAbs.log2 + 127)
      (i.natAbs * 2 ^ (23 - i.natAbs.log2)) < UInt32.size := hlt
  simp only [intToFloat, if_neg hi, hs, UInt32.toNat_ofNat_of_lt hlt']
  exact ⟨he, hsign, hexp, hsig⟩

theorem intToFloat_exact (i : Int) (h : i.natAbs < 2 ^ 24) :
    FloatNum.ofBits (intToFloat i).toNat = .fin i := by
  by_cases hi : i = 0
  · subst hi
    simp [intToFloat, FloatNum.ofBits]
  obtain ⟨he, hsign, hexp, hsig⟩ := intToFloat_fields hi h
  simp only [FloatNum.ofBits, hsign, hexp, hsig, show i.natAbs.log2 + 127 ≠ 255 by omega,
    show i.natAbs.log2 + 127 ≠ 0 by omega, if_false]
  have hq : (2 : ℚ) ^ 23 + ((intToFloat i).toNat % 2 ^ 23 : ℕ) =
      (i.natAbs : ℚ) * 2 ^ (23 - i.natAbs.log2) := by
    exact_mod_cast hsig
  rw [hq, mul_assoc, mul_assoc, two_pow_mul_two_zpow he, mul_one]
  congr 1
  rcases lt_or_le i 0 with hneg | hpos
  · have habs : (i.natAbs : ℚ) = -i := by
      rw [← Int.cast_natCast, Int.ofNat_natAbs_of_nonpos hneg.le, Int.cast_neg]
    simp [hneg, habs]
  · have habs : (i.natAbs : ℚ) = i := by rw [← Int.cast_natCast, Int.natAbs_of_nonneg hpos]
    simp [not_lt.mpr hpos, habs]

/-! ### `static_cast<int>` as truncation -/

lemma truncate_neg (q : ℚ) : truncate (-q) = -truncate q := by
  unfold truncate
  rcases lt_trichotomy q 0 with h | rfl | h
  · rw [if_pos (by linarith), if_neg (not_le.mpr h), Int.floor_neg]
  · simp
  · rw [if_neg (by linarith), if_pos h.le, Int.ceil_neg]

lemma floor_natCast_mul_two_zpow (n k : ℕ) :
    ⌊(n : ℚ) * 2 ^ ((k : ℤ) - 150)⌋ =
      ((if 150 ≤ k then n * 2 ^ (k - 150) else n / 2 ^ (150 - k) : ℕ) : ℤ) := by
  split_ifs with hk
  · rw [show (k : ℤ) - 150 = ((k - 150 : ℕ) : ℤ) by omega, zpow_natCast]
    exact_mod_cast Int.floor_natCast (α := ℚ) (n * 2 ^ (k - 150))
  · rw [show (k : ℤ) - 150 = -((150 - k : ℕ) : ℤ) by omega, zpow_neg, zpow_natCast,
      ← div_eq_mul_inv]
    exact_mod_cast Rat.floor_natCast_div_natCast n (2 ^ (150 - k))

lemma truncate_ofBits {b : ℕ} {q : ℚ} (hq : FloatNum.ofBits b = .fin q) :
    b / 2 ^ 23 % 2 ^ 8 ≠ 255 ∧ truncate q =
      let e := b / 2 ^ 23 % 2 ^ 8
      let sig := 2 ^ 23 + b % 2 ^ 23
      let mag : ℕ :=
        if e = 0 then 0 else if 150 ≤ e then sig * 2 ^ (e - 150) else sig / 2 ^ (150 - e)
      if b / 2 ^ 31 % 2 = 0 then (mag : ℤ) else -mag := by
  have hsign : ∀ x : ℚ, 0 ≤ x → q = (if b / 2 ^ 31 % 2 = 0 then 1 else -1) * x →
      truncate q = if b / 2 ^ 31 % 2 = 0 then ⌊x⌋ else -⌊x⌋ := by
    rintro x hx rfl
    split_ifs
    · rw [one_mul, truncate, if_pos hx]
    · rw [neg_one_mul, truncate_neg, truncate, if_pos hx]
  by_cases h255 : b / 2 ^ 23 % 2 ^ 8 = 255
  · simp only [FloatNum.ofBits, h255, if_true] at hq
    split_ifs at hq
  simp only [FloatNum.ofBits, h255, if_false] at hq
  refine ⟨h255, ?_⟩
  dsimp only
  have hsig : (2 : ℚ) ^ 23 + (b % 2 ^ 23 : ℕ) = ((2 ^ 23 + b % 2 ^ 23 : ℕ) : ℚ) := by push_cast; rfl
  by_cases h0 : b / 2 ^ 23 % 2 ^ 8 = 0
  · simp only [h0, if_true] at hq ⊢
    have hsub : ((b % 2 ^ 23 : ℕ) : ℚ) * 2 ^ (-149 : ℤ) =
        (b % 2 ^ 23 : ℕ) * 2 ^ (((1 : ℕ) : ℤ) - 150) := by norm_num
    rw [hsign _ (by positivity) ((FloatNum.fin.inj hq).symm.trans (mul_assoc _ _ _)), hsub,
      floor_natCast_mul_two_zpow, if_neg (show ¬150 ≤ 1 by norm_num),
      Nat.div_eq_of_lt (lt_trans (Nat.mod_lt _ (by norm_num)) (by norm_num))]
  · simp only [h0, if_false] at hq ⊢
    rw [hsign _ (mul_nonneg (by positivity) (zpow_nonneg (by norm_num) _))
      ((FloatNum.fin.inj hq).symm.trans (mul_assoc _ _ _)), hsig,
      floor_natCast_mul_two_zpow]

lemma floatToInt_of_fin {f : UInt32} {q : ℚ} (hq : FloatNum.ofBits f.toNat = .fin q) :
    floatToInt f = if truncate q < -2 ^ 31 ∨ 2 ^ 31 ≤ truncate q then -2 ^ 31 else truncate q := by
  obtain ⟨h255, ht⟩ := truncate_ofBits hq
  rw [ht]
  simp only [floatToInt, h255, false_or]

lemma truncate_intCast (n : ℤ) : truncate n = n := by
  unfold truncate
  split_ifs <;> simp

lemma truncate_mem_int32 {q : ℚ} (h1 : -2 ^ 31 - 1 < q) (h2 : q < 2 ^ 31) :
    -2 ^ 31 ≤ truncate q ∧ truncate q < 2 ^ 31 := by
  unfold truncate
  split_ifs with hq
  · exact ⟨by linarith [Int.floor_nonneg.mpr hq], Int.floor_lt.mpr (by exact_mod_cast h2)⟩
  · have hc : ⌈q⌉ ≤ 0 := Int.ceil_le.mpr (by push_cast; linarith)
    exact ⟨by linarith [Int.lt_ceil.mpr (show ((-2 ^ 31 - 1 : ℤ) : ℚ) < q by exact_mod_cast h1)],
      by linarith⟩

lemma floatToInt_eq_truncate {f : UInt32} {q : ℚ} (hq : FloatNum.ofBits f.toNat = .fin q)
    (h1 : -2 ^ 31 - 1 < q) (h2 : q < 2 ^ 31) : floatToInt f = truncate q := by
  have := truncate_mem_int32 h1 h2
  rw [floatToInt_of_fin hq, if_neg (by omega)]

lemma compareBy_truncate_iff (q : ℚ) :
    (∀ (v : ℤ) (op : CompOp), compareBy (· == ·) (fun a b => decide (a < b)) v (truncate q) op =
      compareBy (· == ·) (fun a b => decide (a < b)) (v : ℚ) q op) ↔ ∃ n : ℤ, q = n := by
  constructor
  · intro h
    have heq := h (truncate q) .eq
    simp only [compareBy, beq_self_eq_true] at heq
    exact ⟨truncate q, (beq_iff_eq.mp heq.symm).symm⟩
  · rintro ⟨n, rfl⟩ v op
    have hb : ((v : ℚ) == (n : ℚ)) = (v == n) := by
      rw [Bool.eq_iff_iff, beq_iff_eq, beq_iff_eq, Int.cast_inj]
    rw [truncate_intCast]
    cases op <;> simp [compareBy, hb]

end Rmdb.Analyze.Cast

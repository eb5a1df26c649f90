import Rmdb.Defs
import Mathlib.Algebra.Order.Field.Rat
import Mathlib.Tactic.Ring

/-! Column values and the condition check of `SeqScanExecutor::nextTuple`. -/

namespace Rmdb.Execution.Predicate

open Rmdb.Defs

inductive ColType
  | int
  | float
  | string
deriving DecidableEq, Repr

structure ColMeta where
  tabName : String
  name : String
  type : ColType
  len : Nat
  offset : Nat
deriving DecidableEq, Repr

structure TabCol where
  tabName : String
  colName : String
deriving DecidableEq, Repr

inductive CompOp
  | eq
  | ne
  | lt
  | gt
  | le
  | ge
deriving DecidableEq, Repr

/-- Modelled from the spec: a value is tagged with its type, and `init_raw` fills `raw` with its
column encoding; until then `raw` is null. -/
structure Value where
  type : ColType
  intVal : Int
  floatVal : UInt32
  strVal : Bytes
  raw : Option Bytes
deriving DecidableEq, Repr

/-- Modelled from the spec: a default-constructed `Value`, with no raw buffer; its type and
numbers are set before they are read. -/
def Value.blank : Value := ⟨.int, 0, 0, [], none⟩

/-- Modelled from the spec: `Value::set_int`. -/
def Value.setInt (v : Value) (i : Int) : Value := { v with type := .int, intVal := i }

/-- Modelled from the spec: `Value::set_float`. -/
def Value.setFloat (v : Value) (f : UInt32) : Value := { v with type := .float, floatVal := f }

/-- Modelled from the spec: `Value::set_str`. -/
def Value.setStr (v : Value) (s : Bytes) : Value := { v with type := .string, strVal := s }

structure Condition where
  lhsCol : TabCol
  op : CompOp
  isRhsVal : Bool
  rhsVal : Value
  rhsCol : TabCol
deriving DecidableEq, Repr

/-- Modelled from the spec: the bytes `init_raw(len)` puts in `raw`, the value in the on-disk
encoding of a column of `len` bytes. A string is padded with zeros on the right; a longer one
is rejected. -/
def Value.initRaw (v : Value) (len : Nat) : Option Bytes :=
  match v.type with
  | .int => some (encodeLE 4 v.intVal)
  | .float => some (encodeLE 4 v.floatVal.toNat)
  | .string => if len < v.strVal.length then none else some (v.strVal.rightpad len 0)

inductive CondError
  | columnNotFound (tabName colName : String)
  | nullRaw
deriving DecidableEq, Repr

/-- Modelled from the spec: `get_col` (executor_abstract.h is not in the sources) finds the
column a condition names by table and column name. -/
def getCol (cols : List ColMeta) (target : TabCol) : Except CondError ColMeta :=
  match cols.find? fun c => c.tabName = target.tabName ∧ c.name = target.colName with
  | some c => .ok c
  | none => .error (.columnNotFound target.tabName target.colName)

def slice (bs : Bytes) (off n : Nat) : Bytes :=
  (bs.drop off).take n

def decodeLE : Bytes → Nat
  | [] => 0
  | b :: bs => b.toNat + 256 * decodeLE bs

/-- `*(int *)p`: four bytes as a signed 32-bit integer. -/
def readInt (bs : Bytes) (off : Nat) : Int :=
  let n := decodeLE ((slice bs off 4).rightpad 4 0)
  if n < 2 ^ 31 then n else (n : Int) - 2 ^ 32

lemma decodeLE_append (xs ys : Bytes) :
    decodeLE (xs ++ ys) = decodeLE xs + 256 ^ xs.length * decodeLE ys := by
  induction xs with
  | nil => simp [decodeLE]
  | cons b bs ih =>
    rw [List.cons_append, decodeLE, decodeLE, ih, List.length_cons, pow_succ]
    ring

lemma decodeLE_range (N k : Nat) :
    decodeLE ((List.range k).map fun i => (N / 2 ^ (8 * i)).toUInt8) = N % 2 ^ (8 * k) := by
  induction k with
  | zero => simp [decodeLE, Nat.mod_one]
  | succ k ih =>
    have hb : (N / 2 ^ (8 * k)).toUInt8.toNat = N / 2 ^ (8 * k) % 2 ^ 8 := rfl
    have hw : (256 : Nat) ^ k = 2 ^ (8 * k) := by rw [pow_mul]; norm_num
    rw [List.range_succ, List.map_append, decodeLE_append, ih, List.length_map,
      List.length_range, Nat.mul_succ, pow_add, Nat.mod_mul, hw]
    simp [decodeLE, hb]

lemma decodeLE_encodeLE (n : Nat) (x : Int) : decodeLE (encodeLE n x) = (x % 2 ^ (8 * n)).toNat := by
  rw [encodeLE, decodeLE_range]
  apply Nat.mod_eq_of_lt
  have h1 := Int.emod_nonneg x (pow_ne_zero (8 * n) (show (2 : Int) ≠ 0 by norm_num))
  have h2 := Int.emod_lt_of_pos x (show (0 : Int) < 2 ^ (8 * n) by exact_mod_cast Nat.two_pow_pos _)
  exact (Int.toNat_lt h1).mpr (by exact_mod_cast h2)

lemma slice_encodeLE_four (x : Int) : (slice (encodeLE 4 x) 0 4).rightpad 4 0 = encodeLE 4 x := by
  simp [slice, List.rightpad, List.take_of_length_le]

inductive FloatNum
  | nan
  | negInf
  | fin (q : ℚ)
  | posInf
deriving DecidableEq

/-- Modelled from the spec: the IEEE single a bit pattern stands for. -/
def FloatNum.ofBits (b : Nat) : FloatNum :=
  let sign : ℚ := if (b / 2 ^ 31 % 2 : Nat) = 0 then 1 else -1
  let e : Nat := b / 2 ^ 23 % 2 ^ 8
  let m : Nat := b % 2 ^ 23
  if e = 255 then (if m = 0 then (if sign = 1 then .posInf else .negInf) else .nan)
  else if e = 0 then .fin (sign * m * (2 : ℚ) ^ (-149 : Int))
  else .fin (sign * (2 ^ 23 + m) * (2 : ℚ) ^ ((e : Int) - 150))

/-- `*(float *)p`: four bytes as an IEEE single. -/
def readFloat (bs : Bytes) (off : Nat) : FloatNum :=
  FloatNum.ofBits (decodeLE ((slice bs off 4).rightpad 4 0))

lemma readInt_encodeLE (x : Int) (h1 : -2 ^ 31 ≤ x) (h2 : x < 2 ^ 31) :
    readInt (encodeLE 4 x) 0 = x := by
  simp only [readInt, slice_encodeLE_four, decodeLE_encodeLE]
  split_ifs <;> omega

lemma readFloat_encodeLE (x : Nat) (h : x < 2 ^ 32) :
    readFloat (encodeLE 4 x) 0 = FloatNum.ofBits x := by
  simp only [readFloat, slice_encodeLE_four, decodeLE_encodeLE]
  congr 1
  omega

def FloatNum.lt : FloatNum → FloatNum → Bool
  | .nan, _ | _, .nan => false
  | .negInf, .negInf => false
  | .negInf, _ => true
  | .fin _, .negInf => false
  | .fin a, .fin b => decide (a < b)
  | .fin _, .posInf => true
  | .posInf, _ => false

def FloatNum.eq : FloatNum → FloatNum → Bool
  | .nan, _ | _, .nan => false
  | a, b => decide (a = b)

/-- Modelled from the spec: `compare` applies the operator to two values of one type. For
floats a comparison with NaN is false, except `≠`. -/
def compareBy (eq lt : α → α → Bool) (a b : α) : CompOp → Bool
  | .eq => eq a b
  | .ne => !eq a b
  | .lt => lt a b
  | .gt => lt b a
  | .le => lt a b || eq a b
  | .ge => lt b a || eq a b

/-- Byte strings compare as `std::string` does: lexicographically, as unsigned bytes. -/
def bytesLt : Bytes → Bytes → Bool
  | [], [] => false
  | [], _ :: _ => true
  | _ :: _, [] => false
  | a :: as, b :: bs => decide (a < b) || (a == b && bytesLt as bs)

/-- One condition of the loop in `SeqScanExecutor::nextTuple`, on the bytes of a record. -/
def condHolds (cols : List ColMeta) (rec : Bytes) (cond : Condition) : Except CondError Bool := do
  let lhsCol ← getCol cols cond.lhsCol
  let some rhs := cond.rhsVal.raw | throw .nullRaw
  return match lhsCol.type with
    | .int => compareBy (· == ·) (fun a b => decide (a < b))
        (readInt rec lhsCol.offset) (readInt rhs 0) cond.op
    | .float => compareBy FloatNum.eq FloatNum.lt
        (readFloat rec lhsCol.offset) (readFloat rhs 0) cond.op
    | .string => compareBy (· == ·) bytesLt (slice rec lhsCol.offset lhsCol.len) rhs cond.op

/-- The condition loop: every condition holds, checked in order, stopping at the first that
does not. -/
def satisfies (cols : List ColMeta) (rec : Bytes) : List Condition → Except CondError Bool
  | [] => return true
  | cond :: conds => do
    if ← condHolds cols rec cond then satisfies cols rec conds else return false

end Rmdb.Execution.Predicate

import Mathlib.Logic.Function.Basic
import Mathlib.Algebra.Group.Int

/-! Shared definitions of the storage core (`defs.h`) and the `run` lemmas of `EStateM`. -/

namespace Rmdb.Defs

abbrev Bytes := List UInt8

@[ext] structure Rid where
  pageNo : Int
  slotNo : Int
deriving DecidableEq, Repr

/-- The `n` low bytes of `x` in two's complement, least significant first: how a number is
laid out in a record or a log record on x86. -/
def encodeLE (n : Nat) (x : Int) : Bytes :=
  (List.range n).map fun i => ((x % 2 ^ (8 * n)).toNat / 2 ^ (8 * i)).toUInt8

@[simp] lemma length_encodeLE (n : Nat) (x : Int) : (encodeLE n x).length = n := by
  simp [encodeLE]

end Rmdb.Defs

namespace Except

variable {ε α β : Type}

lemma bind_eq_ok {x : Except ε α} {f : α → Except ε β} {b : β} :
    x >>= f = .ok b ↔ ∃ a, x = .ok a ∧ f a = .ok b := by
  cases x <;> simp [bind, Except.bind]

@[simp] lemma pure_eq_ok {a b : α} : (pure a : Except ε α) = .ok b ↔ a = b := by
  simp [pure, Except.pure]

end Except

namespace EStateM

variable {ε σ α β : Type}

def Result.state : Result ε σ α → σ
  | .ok _ s => s
  | .error _ s => s

@[simp] theorem Result.state_ok (a : α) (s : σ) : (Result.ok a s : Result ε σ α).state = s := rfl

@[simp] theorem Result.state_error (e : ε) (s : σ) :
    (Result.error e s : Result ε σ α).state = s := rfl

def Result.outcome : Result ε σ α → Except ε α
  | .ok a _ => .ok a
  | .error e _ => .error e

@[simp] theorem Result.outcome_ok (a : α) (s : σ) :
    (Result.ok a s : Result ε σ α).outcome = .ok a := rfl

@[simp] theorem Result.outcome_error (e : ε) (s : σ) :
    (Result.error e s : Result ε σ α).outcome = .error e := rfl

@[simp] theorem run_bind (x : EStateM ε σ α) (f : α → EStateM ε σ β) (s : σ) :
    (x >>= f).run s = match x.run s with
      | .ok a s' => (f a).run s'
      | .error e s' => .error e s' := rfl

@[simp] theorem Result.state_bind_pure (x : EStateM ε σ α) (f : α → β) (s : σ) :
    ((x >>= fun a => pure (f a)).run s).state = (x.run s).state := by
  simp only [run_bind]; cases x.run s <;> rfl

@[simp] theorem Result.outcome_bind_pure (x : EStateM ε σ α) (f : α → β) (s : σ) :
    ((x >>= fun a => pure (f a)).run s).outcome = f <$> (x.run s).outcome := by
  simp only [run_bind]; cases x.run s <;> rfl

theorem error_of_bind_pure {x : EStateM ε σ α} {f : α → β} {s s' : σ} {e : ε}
    (h : (x >>= fun a => pure (f a)).run s = .error e s') : x.run s = .error e s' := by
  simp only [run_bind] at h
  split at h <;> cases h
  assumption

@[simp] theorem run_fmap (f : α → β) (x : EStateM ε σ α) (s : σ) :
    (f <$> x).run s = match x.run s with
      | .ok a s' => .ok (f a) s'
      | .error e s' => .error e s' := rfl

@[simp] theorem run_pure (a : α) (s : σ) : (pure a : EStateM ε σ α).run s = .ok a s := rfl

@[simp] theorem run_throw (e : ε) (s : σ) : (throw e : EStateM ε σ α).run s = .error e s := rfl

@[simp] theorem run_get (s : σ) : (get : EStateM ε σ σ).run s = .ok s s := rfl

@[simp] theorem run_set (s s' : σ) : (set s' : EStateM ε σ PUnit).run s = .ok ⟨⟩ s' := rfl

@[simp] theorem run_modify (f : σ → σ) (s : σ) :
    (modify f : EStateM ε σ PUnit).run s = .ok ⟨⟩ (f s) := rfl

@[simp] theorem ite_ok (c : Prop) [Decidable c] (a : α) (x y : σ) :
    (if c then Result.ok a x else Result.ok a y : Result ε σ α) = .ok a (if c then x else y) := by
  split <;> rfl

@[simp] theorem run_ite (c : Prop) [Decidable c] (x y : EStateM ε σ α) (s : σ) :
    (if c then x else y).run s = if c then x.run s else y.run s := by
  split <;> rfl

end EStateM

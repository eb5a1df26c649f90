import Rmdb.Record.FileHandle

/-! The calls a client makes on a record file, and the files reachable from a fresh one. -/

namespace Rmdb.Record.Calls

open Rmdb.Defs Rmdb.Record.FileHandle

inductive RmCall
  | getRecord (rid : Rid) (ctx : Option Context)
  | insertRecord (buf : Bytes) (ctx : Option Context)
  | insertRecordAt (rid : Rid) (buf : Bytes)
  | deleteRecord (rid : Rid) (ctx : Option Context)
  | updateRecord (rid : Rid) (buf : Bytes) (ctx : Option Context)

inductive RmValue
  | record (buf : Bytes)
  | rid (rid : Rid)
  | none

def RmCall.run (fuel : Nat) : RmCall → RmM RmValue
  | .getRecord rid ctx => return .record (← FileHandle.getRecord rid ctx)
  | .insertRecord buf ctx => return .rid (← FileHandle.insertRecord fuel buf ctx)
  | .insertRecordAt rid buf => do FileHandle.insertRecordAt rid buf; return .none
  | .deleteRecord rid ctx => do FileHandle.deleteRecord rid ctx; return .none
  | .updateRecord rid buf ctx => do FileHandle.updateRecord rid buf ctx; return .none

def RmCall.rid? : RmCall → Option Rid
  | .getRecord rid _ | .insertRecordAt rid _ | .deleteRecord rid _ | .updateRecord rid _ _ =>
    some rid
  | .insertRecord _ _ => none

def Step (s : RmFile) (c : RmCall) (s' : RmFile) : Prop :=
  ∃ fuel r, (c.run fuel).run s = r ∧ r.state = s' ∧ ∀ t, r ≠ .error .outOfFuel t

structure IsEmptyFile (s : RmFile) : Prop where
  numPages_eq : s.numPages = 1
  firstFree_eq : s.firstFreePageNo = RM_NO_PAGE
  perPage_pos : 0 < s.numRecordsPerPage

/-- Modelled from the spec: `RmManager::create_file` is not in the sources. A new file has one
page, the header page, and no free page. The model keeps page 0 as an empty data page: the real
file holds its header there, and records live in pages from 1 on. -/
def emptyFile (n : Int) : RmFile :=
  ⟨1, n, RM_NO_PAGE, fun _ => ⟨0, 0, Bitmap.init, fun _ => []⟩, fun _ => 0⟩

def runCalls (fuel : Nat) (cs : List RmCall) (s : RmFile) : RmFile :=
  cs.foldl (fun s c => ((c.run fuel).run s).state) s

lemma numPages_le_createPageHandle (fuel : Nat) (s : RmFile) :
    s.numPages ≤ ((createPageHandle fuel).run s).state.numPages := by
  induction fuel generalizing s with
  | zero => exact le_rfl
  | succ fuel ih =>
    rw [createPageHandle_succ]
    split_ifs
    · simp
    · exact le_rfl
    · exact ih _
    · exact le_rfl

lemma numPages_le_run (fuel : Nat) (c : RmCall) (s : RmFile) :
    s.numPages ≤ ((c.run fuel).run s).state.numPages := by
  cases c with
  | getRecord rid ctx =>
    simp only [RmCall.run, EStateM.Result.state_bind_pure, getRecord_run]
    split_ifs <;> simp
  | insertRecord buf ctx =>
    simp only [RmCall.run, EStateM.Result.state_bind_pure, insertRecord_run]
    have := numPages_le_createPageHandle fuel s
    generalize (createPageHandle fuel).run s = r at this ⊢
    rcases r with ⟨p, s₁⟩ | ⟨e, s₁⟩
    · dsimp only at this ⊢
      split_ifs <;> simpa using this
    · exact this
  | insertRecordAt rid buf =>
    simp only [RmCall.run, EStateM.Result.state_bind_pure, insertRecordAt_run]
    split_ifs <;> simp
  | deleteRecord rid ctx =>
    simp only [RmCall.run, EStateM.Result.state_bind_pure, deleteRecord_run]
    split_ifs <;> simp
  | updateRecord rid buf ctx =>
    simp only [RmCall.run, EStateM.Result.state_bind_pure, updateRecord_run]
    split_ifs <;> simp

lemma numRecordsPerPage_createPageHandle (fuel : Nat) (s : RmFile) :
    ((createPageHandle fuel).run s).state.numRecordsPerPage = s.numRecordsPerPage := by
  induction fuel generalizing s with
  | zero => rfl
  | succ fuel ih =>
    rw [createPageHandle_succ]
    split_ifs
    · simp
    · rfl
    · exact ih _
    · rfl

lemma numRecordsPerPage_run (fuel : Nat) (c : RmCall) (s : RmFile) :
    ((c.run fuel).run s).state.numRecordsPerPage = s.numRecordsPerPage := by
  cases c with
  | insertRecord buf ctx =>
    simp only [RmCall.run, EStateM.Result.state_bind_pure, insertRecord_run]
    have := numRecordsPerPage_createPageHandle fuel s
    generalize (createPageHandle fuel).run s = r at this ⊢
    rcases r with ⟨p, s₁⟩ | ⟨e, s₁⟩
    · simpa only [apply_ite EStateM.Result.state, apply_ite RmFile.numRecordsPerPage,
        EStateM.Result.state_ok, EStateM.Result.state_error, RmFile.unpin_numRecordsPerPage,
        RmFile.setPage_numRecordsPerPage, ite_self] using this
    · exact this
  | _ =>
    simp only [RmCall.run, EStateM.Result.state_bind_pure, getRecord_run, insertRecordAt_run,
      deleteRecord_run, updateRecord_run, apply_ite EStateM.Result.state,
      apply_ite RmFile.numRecordsPerPage, EStateM.Result.state_ok, EStateM.Result.state_error,
      RmFile.pin_numRecordsPerPage, RmFile.unpin_numRecordsPerPage, RmFile.setPage_numRecordsPerPage,
      RmFile.releasePageHandle_numRecordsPerPage, ite_self]

lemma numPages_le_runCalls (fuel : Nat) (cs : List RmCall) (s : RmFile) :
    s.numPages ≤ (runCalls fuel cs s).numPages := by
  induction cs generalizing s with
  | nil => exact le_rfl
  | cons c cs ih => exact (numPages_le_run fuel c s).trans (ih _)

inductive Reachable (allowed : RmFile → RmCall → Prop) : RmFile → Prop
  | empty {s} : IsEmptyFile s → Reachable allowed s
  | step {s c s'} : Reachable allowed s → allowed s c → Step s c s' → Reachable allowed s'

lemma Step.of_run {s : RmFile} {c : RmCall} {fuel : Nat}
    (h : ∀ t, (c.run fuel).run s ≠ .error .outOfFuel t) : Step s c ((c.run fuel).run s).state :=
  ⟨fuel, _, rfl, rfl, h⟩

lemma Reachable.induct_inv {allowed : RmFile → RmCall → Prop} {P : RmFile → Prop}
    (h0 : ∀ s, IsEmptyFile s → P s) (hs : ∀ s c s', P s → allowed s c → Step s c s' → P s')
    {s : RmFile} (h : Reachable allowed s) : P s := by
  induction h with
  | empty he => exact h0 _ he
  | step _ ha hst ih => exact hs _ _ _ ih ha hst

lemma Reachable.run {allowed : RmFile → RmCall → Prop} {s : RmFile} (h : Reachable allowed s)
    (c : RmCall) (fuel : Nat) (ha : allowed s c)
    (hr : ∀ t, (c.run fuel).run s ≠ .error .outOfFuel t) :
    Reachable allowed ((c.run fuel).run s).state :=
  h.step ha (Step.of_run hr)

end Rmdb.Record.Calls

import Rmdb.Record.Refinement
import Rmdb.Record.Occupancy

/-! The error paths of the record manager's calls. -/

namespace Rmdb.Record.Errors

open Rmdb.Defs Rmdb.Record.FileHandle Rmdb.Record.Calls Rmdb.Record.FreeList
  Rmdb.Record.Occupancy Rmdb.Record.Refinement

variable {s s' : RmFile} {rid : Rid} {e : RmError}

lemma raise_of_rid_call {x : RmM α}
    (hx : ∀ e s', x.run s = .error e s' → s' = s ∨ s' = s.pin rid.pageNo)
    (hs : Inv s) (ho : OccInv s) (h : x.run s = .error e s') :
    records s' = records s ∧ Inv s' ∧ OccInv s' := by
  rcases hx e s' h with rfl | rfl
  · exact ⟨rfl, hs, ho⟩
  · exact ⟨records_pin, inv_pin.2 hs, occInv_pin.2 ho⟩

lemma getRecord_raise {ctx : Option Context} (h : (getRecord rid ctx).run s = .error e s') :
    s' = s ∨ s' = s.pin rid.pageNo := by
  rw [getRecord_run] at h
  split_ifs at h <;> cases h <;> simp

lemma deleteRecord_raise {ctx : Option Context} (h : (deleteRecord rid ctx).run s = .error e s') :
    s' = s ∨ s' = s.pin rid.pageNo := by
  rw [deleteRecord_run] at h
  split_ifs at h <;> cases h <;> simp

lemma updateRecord_raise {buf : Bytes} {ctx : Option Context}
    (h : (updateRecord rid buf ctx).run s = .error e s') : s' = s ∨ s' = s.pin rid.pageNo := by
  rw [updateRecord_run] at h
  split_ifs at h <;> cases h <;> simp

lemma insertRecordAt_raise {buf : Bytes} (h : (insertRecordAt rid buf).run s = .error e s') :
    s' = s ∨ s' = s.pin rid.pageNo := by
  rw [insertRecordAt_run] at h
  split_ifs at h <;> cases h <;> simp

lemma insertRecord_raise (hs : Inv s) (ho : OccInv s) {fuel : Nat} {buf : Bytes}
    {ctx : Option Context} (h : (insertRecord fuel buf ctx).run s = .error e s') :
    records s' = records s ∧ Inv s' ∧ OccInv s' := by
  rw [insertRecord_run] at h
  cases fuel with
  | zero =>
    obtain ⟨-, rfl⟩ : RmError.outOfFuel = e ∧ s = s' := by simpa [createPageHandle] using h
    exact ⟨rfl, hs, ho⟩
  | succ fuel =>
    obtain ⟨s₁, hr, hs₁, -⟩ := inv_createPageHandle hs fuel
    have ho₁ := occInv_createPageHandle (fuel + 1) ho
    rw [hr] at ho₁ h
    dsimp only at h
    split_ifs at h
    · cases h
      exact ⟨records_createPageHandle hs hr, hs₁, ho₁.1⟩

/-- Record-manager calls are atomic on errors: from a state of both invariants, a call that
raises leaves the map of live rids to bytes as it was, and both invariants hold after it. -/
theorem raise_keeps_records (s : RmFile) (hs : Inv s) (ho : OccInv s) (c : RmCall) (fuel : Nat)
    (e : RmError) (s' : RmFile) (h : (c.run fuel).run s = .error e s') :
    records s' = records s ∧ Inv s' ∧ OccInv s' := by
  cases c with
  | getRecord rid ctx =>
    exact raise_of_rid_call (fun _ _ => getRecord_raise) hs ho (EStateM.error_of_bind_pure h)
  | insertRecord buf ctx => exact insertRecord_raise hs ho (EStateM.error_of_bind_pure h)
  | insertRecordAt rid buf =>
    exact raise_of_rid_call (fun _ _ => insertRecordAt_raise) hs ho (EStateM.error_of_bind_pure h)
  | deleteRecord rid ctx =>
    exact raise_of_rid_call (fun _ _ => deleteRecord_raise) hs ho (EStateM.error_of_bind_pure h)
  | updateRecord rid buf ctx =>
    exact raise_of_rid_call (fun _ _ => updateRecord_raise) hs ho (EStateM.error_of_bind_pure h)

def refuseAll : Option Context :=
  some ⟨true, fun _ _ => false⟩

theorem raise_keeps_records_emptyFile :
    ∃ s', ((RmCall.insertRecord [1] refuseAll).run 1).run (emptyFile 1) =
        .error .transactionAbort s' ∧ s'.numPages = 2 ∧
      records s' = records (emptyFile 1) ∧ Inv s' ∧ OccInv s' :=
  ⟨_, rfl, rfl, raise_keeps_records (emptyFile 1) (inv_empty ⟨rfl, rfl, by decide⟩)
    (occInv_empty ⟨rfl, rfl, by decide⟩) (.insertRecord [1] refuseAll) 1 .transactionAbort _ rfl⟩

/-- The rid checks of the calls are incomplete: on any page of the file, the header page 0
included, and at any slot number, in range or not, `insert_record(rid, buf)` into a clear bit returns, after
which `get_record` reads the bytes back from that page and `delete_record` returns too; the
delete links the page into the free list when the page's count is one below
`num_records_per_page`. -/
theorem invalid_rid_written (s : RmFile) (rid : Rid) (buf : Bytes) (h0 : 0 ≤ rid.pageNo) (hp : rid.pageNo < s.numPages)
    (hb : (s.pages rid.pageNo).bitmap rid.slotNo = false) :
    ∃ s₁, (insertRecordAt rid buf).run s = .ok () s₁ ∧
      (getRecord rid none).run s₁ = .ok buf (s₁.pin rid.pageNo) ∧
      ∃ s₂, (deleteRecord rid none).run s₁ = .ok () s₂ ∧
        s₂.firstFreePageNo = if (s.pages rid.pageNo).numRecords = s.numRecordsPerPage - 1
          then rid.pageNo else s.firstFreePageNo := by
  have hin : ¬(rid.pageNo ≥ s.numPages ∨ rid.pageNo < 0) := by omega
  refine ⟨_, by rw [insertRecordAt_run, if_neg hin, hb]; rfl, ?_, ?_⟩
  · rw [getRecord_run]
    simp [hin, Context.refuses]
  · rw [deleteRecord_run]
    simp only [RmFile.setPage_numPages, hin, RmFile.setPage_pages, Function.update_same,
      RmPage.insertSlot_bitmap, Bitmap.set, if_false, Context.refuses, Option.isSome_none,
      Bool.false_eq_true, exists_eq_left']
    unfold RmFile.releasePageHandle
    split_ifs with h <;> simp_all

theorem invalid_rid_written_headerPage :
    ¬ IsSlot (emptyFile 1) ⟨0, 0⟩ ∧
    ∃ s₁, (insertRecordAt ⟨0, 0⟩ [7]).run (emptyFile 1) = .ok () s₁ ∧
      (getRecord ⟨0, 0⟩ none).run s₁ = .ok [7] (s₁.pin 0) ∧
      ∃ s₂, (deleteRecord ⟨0, 0⟩ none).run s₁ = .ok () s₂ ∧
        s₂.firstFreePageNo = if ((emptyFile 1).pages 0).numRecords = (emptyFile 1).numRecordsPerPage - 1
          then 0 else (emptyFile 1).firstFreePageNo :=
  have hrid : ¬ IsSlot (emptyFile 1) ⟨0, 0⟩ := by decide
  ⟨hrid, invalid_rid_written (emptyFile 1) ⟨0, 0⟩ [7] le_rfl (by decide) rfl⟩

example : ((emptyFile 1).pages 0).numRecords = (emptyFile 1).numRecordsPerPage - 1 := rfl

end Rmdb.Record.Errors

import Rmdb.Record.Scan
import Rmdb.Record.Calls

/-! Pin counts across record-manager calls and scans. -/

namespace Rmdb.Record.Pins

open Rmdb.Defs Rmdb.Record.FileHandle Rmdb.Record.Scan

variable {s : RmFile} {rid : Rid} {ctx : Option Context}

@[simp] lemma pin_pins_self (s : RmFile) (p : Int) : (s.pin p).pins p = s.pins p + 1 := by
  simp [RmFile.pin]

@[simp] lemma unpin_pins_self (s : RmFile) (p : Int) : (s.unpin p).pins p = s.pins p - 1 := by
  simp [RmFile.unpin]

lemma releasePageHandle_pins_of_edge (s : RmFile) (p : Int)
    (h : (s.pages p).numRecords = s.numRecordsPerPage - 1) :
    (s.releasePageHandle p).pins p = s.pins p - 1 := by
  simp [RmFile.releasePageHandle, h]

lemma getRecord_null_pins (h0 : 0 ≤ rid.pageNo) (h1 : rid.pageNo < s.numPages)
    (hb : (s.pages rid.pageNo).bitmap rid.slotNo = true) :
    ((getRecord rid none).run s).state.pins rid.pageNo = s.pins rid.pageNo + 1 := by
  rw [getRecord_run, if_neg (by omega), if_neg (by simp [hb])]
  simp [Context.refuses]

lemma recordNotFound_pins (h0 : 0 ≤ rid.pageNo) (h1 : rid.pageNo < s.numPages)
    (hb : (s.pages rid.pageNo).bitmap rid.slotNo = false) (buf : Bytes) :
    ((getRecord rid ctx).run s).state.pins rid.pageNo = s.pins rid.pageNo + 1 ∧
    ((deleteRecord rid ctx).run s).state.pins rid.pageNo = s.pins rid.pageNo + 1 ∧
    ((updateRecord rid buf ctx).run s).state.pins rid.pageNo = s.pins rid.pageNo + 1 := by
  have hp : ¬(rid.pageNo ≥ s.numPages ∨ rid.pageNo < 0) := by omega
  simp [getRecord_run, deleteRecord_run, updateRecord_run, hp, hb]

lemma deleteRecord_full_pins (h0 : 0 ≤ rid.pageNo) (h1 : rid.pageNo < s.numPages)
    (hb : (s.pages rid.pageNo).bitmap rid.slotNo = true)
    (hfull : (s.pages rid.pageNo).numRecords = s.numRecordsPerPage) (c : Context)
    (hl : Context.refuses (some c) .exclusive rid = false) :
    ((deleteRecord rid (some c)).run s).state.pins rid.pageNo = s.pins rid.pageNo - 1 := by
  have hp : ¬(rid.pageNo ≥ s.numPages ∨ rid.pageNo < 0) := by omega
  simp only [deleteRecord_run, hp, if_false, hb, Bool.true_eq_false, hl, Option.isSome_some,
    if_true, EStateM.Result.state_ok, unpin_pins_self, Bool.false_eq_true]
  rw [releasePageHandle_pins_of_edge _ _ (by simp [hfull])]
  simp

lemma init_pins (s : RmFile) (h : 2 ≤ s.numPages) : (init.run s).state.pins 1 = s.pins 1 + 1 := by
  obtain ⟨r, hr, hle⟩ := nextFrom_run (s.numPages - 1).toNat ⟨1, -1⟩ s (by decide) rfl
  have hinit : init.run s = .ok r (pinRange s 1 (min r.pageNo (s.numPages - 1))) := by
    simpa [init, next] using hr
  have hr1 : 1 ≤ r.pageNo := by
    by_cases h' : r.pageNo < s.numPages
    · simpa using hle h'
    · omega
  simp [hinit, pinRange, hr1]
  omega

/-- Pins do not balance. `get_record` with a null context leaves the page of the record it
returns pinned once more; `get_record`, `delete_record` and `update_record` raising
`RecordNotFound` leave the page pinned once more, whatever the context; `delete_record` with a
context on a full page leaves it pinned once less; and `RmScan`'s constructor leaves page 1 of
a file with a data page pinned once more. -/
theorem pins_not_balanced :
    (∀ (s : RmFile) (rid : Rid), 0 ≤ rid.pageNo → rid.pageNo < s.numPages →
      (s.pages rid.pageNo).bitmap rid.slotNo = true →
      ((getRecord rid none).run s).state.pins rid.pageNo = s.pins rid.pageNo + 1) ∧
    (∀ (s : RmFile) (rid : Rid) ctx buf, 0 ≤ rid.pageNo → rid.pageNo < s.numPages →
      (s.pages rid.pageNo).bitmap rid.slotNo = false →
      ((getRecord rid ctx).run s).state.pins rid.pageNo = s.pins rid.pageNo + 1 ∧
      ((deleteRecord rid ctx).run s).state.pins rid.pageNo = s.pins rid.pageNo + 1 ∧
      ((updateRecord rid buf ctx).run s).state.pins rid.pageNo = s.pins rid.pageNo + 1) ∧
    (∀ (s : RmFile) (rid : Rid) (c : Context), 0 ≤ rid.pageNo → rid.pageNo < s.numPages →
      (s.pages rid.pageNo).bitmap rid.slotNo = true →
      (s.pages rid.pageNo).numRecords = s.numRecordsPerPage →
      Context.refuses (some c) .exclusive rid = false →
      ((deleteRecord rid (some c)).run s).state.pins rid.pageNo = s.pins rid.pageNo - 1) ∧
    (∀ s : RmFile, 2 ≤ s.numPages → (init.run s).state.pins 1 = s.pins 1 + 1) :=
  ⟨fun _ _ h0 h1 hb => getRecord_null_pins h0 h1 hb,
    fun _ _ _ buf h0 h1 hb => recordNotFound_pins h0 h1 hb buf,
    fun _ _ c h0 h1 hb hfull hl => deleteRecord_full_pins h0 h1 hb hfull c hl,
    fun s h => init_pins s h⟩

def oneRecordFile : RmFile :=
  Calls.runCalls 1 [.insertRecord [1] none] (Calls.emptyFile 1)

theorem pins_not_balanced_oneRecordFile :
    ((getRecord ⟨1, 0⟩ none).run oneRecordFile).state.pins 1 = oneRecordFile.pins 1 + 1 ∧
    ((getRecord ⟨1, 1⟩ none).run oneRecordFile).state.pins 1 = oneRecordFile.pins 1 + 1 ∧
    ((deleteRecord ⟨1, 0⟩ (some ⟨true, fun _ _ => true⟩)).run oneRecordFile).state.pins 1 =
      oneRecordFile.pins 1 - 1 ∧
    (init.run oneRecordFile).state.pins 1 = oneRecordFile.pins 1 + 1 :=
  ⟨pins_not_balanced.1 oneRecordFile ⟨1, 0⟩ (by decide) (by decide) (by decide),
    (pins_not_balanced.2.1 oneRecordFile ⟨1, 1⟩ none [] (by decide) (by decide) (by decide)).1,
    pins_not_balanced.2.2.1 oneRecordFile ⟨1, 0⟩ ⟨true, fun _ _ => true⟩ (by decide) (by decide)
      (by decide) (by decide) (by decide),
    pins_not_balanced.2.2.2 oneRecordFile (by decide)⟩

end Rmdb.Record.Pins

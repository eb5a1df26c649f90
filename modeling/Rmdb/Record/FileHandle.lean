import Rmdb.Record.Bitmap

/-! The record file handle of `rm_file_handle.cpp`. -/

namespace Rmdb.Record.FileHandle

open Rmdb.Defs

def RM_NO_PAGE : Int := -1

lemma ne_noPage {p : Int} (h : 0 ≤ p) : p ≠ RM_NO_PAGE := by
  unfold RM_NO_PAGE; omega

structure RmPage where
  nextFreePageNo : Int
  numRecords : Int
  bitmap : Int → Bool
  slots : Int → Bytes

structure RmFile where
  numPages : Int
  numRecordsPerPage : Int
  firstFreePageNo : Int
  pages : Int → RmPage
  pins : Int → Int

inductive LockMode
  | shared
  | exclusive
deriving DecidableEq

structure Context where
  hasTxn : Bool
  grants : LockMode → Rid → Bool

/-- The exceptions of the record manager. `outOfFuel` is not one of them: it marks a
`create_page_handle` recursion that the model's fuel cut off, i.e. a call that has not
returned. -/
inductive RmError
  | pageNotExist (pageNo : Int)
  | recordNotFound (pageNo slotNo : Int)
  | internal (msg : String)
  | transactionAbort
  | outOfFuel
deriving DecidableEq

abbrev RmM := EStateM RmError RmFile

namespace RmPage

def insertSlot (pg : RmPage) (slotNo : Int) (buf : Bytes) : RmPage :=
  { pg with slots := Function.update pg.slots slotNo buf,
            bitmap := Bitmap.set pg.bitmap slotNo,
            numRecords := pg.numRecords + 1 }

def eraseSlot (pg : RmPage) (slotNo : Int) : RmPage :=
  { pg with bitmap := Bitmap.reset pg.bitmap slotNo, numRecords := pg.numRecords - 1 }

def writeSlot (pg : RmPage) (slotNo : Int) (buf : Bytes) : RmPage :=
  { pg with slots := Function.update pg.slots slotNo buf }

def fresh (pg : RmPage) : RmPage :=
  { pg with nextFreePageNo := RM_NO_PAGE, numRecords := 0, bitmap := Bitmap.init }

end RmPage

namespace RmFile

def pin (s : RmFile) (pageNo : Int) : RmFile :=
  { s with pins := Function.update s.pins pageNo (s.pins pageNo + 1) }

def unpin (s : RmFile) (pageNo : Int) : RmFile :=
  { s with pins := Function.update s.pins pageNo (s.pins pageNo - 1) }

def setPage (s : RmFile) (pageNo : Int) (pg : RmPage) : RmFile :=
  { s with pages := Function.update s.pages pageNo pg }

end RmFile

def Context.refuses : Option Context → LockMode → Rid → Bool
  | some ctx, mode, rid => ctx.hasTxn && !ctx.grants mode rid
  | none, _, _ => false

def lockOnRecord (mode : LockMode) (rid : Rid) (ctx : Option Context) : RmM Unit :=
  if Context.refuses ctx mode rid then throw .transactionAbort else pure ()

def unpinPage (pageNo : Int) : RmM Unit :=
  modify (·.unpin pageNo)

def fetchPageHandle (pageNo : Int) : RmM Unit := do
  if pageNo ≥ (← get).numPages ∨ pageNo < 0 then throw (.pageNotExist pageNo)
  modify (·.pin pageNo)

def getRecord (rid : Rid) (ctx : Option Context) : RmM Bytes := do
  fetchPageHandle rid.pageNo
  let pg := (← get).pages rid.pageNo
  if pg.bitmap rid.slotNo = false then throw (.recordNotFound rid.pageNo rid.slotNo)
  lockOnRecord .shared rid ctx
  if ctx.isSome then unpinPage rid.pageNo
  return pg.slots rid.slotNo

def RmFile.createNewPageHandle (s : RmFile) : RmFile :=
  let pageNo := s.numPages
  let s := (s.pin pageNo).setPage pageNo (s.pages pageNo).fresh
  let s := { s with numPages := s.numPages + 1 }
  if s.firstFreePageNo = RM_NO_PAGE then { s with firstFreePageNo := pageNo } else s

def createPageHandle : Nat → RmM Int
  | 0 => throw .outOfFuel
  | fuel + 1 => do
    let s ← get
    if s.firstFreePageNo = RM_NO_PAGE then
      set s.createNewPageHandle
      return s.numPages
    else
      let pageNo := s.firstFreePageNo
      fetchPageHandle pageNo
      let pg := (← get).pages pageNo
      if pg.numRecords = s.numRecordsPerPage then
        modify fun s => { s with firstFreePageNo := pg.nextFreePageNo }
        unpinPage pageNo
        createPageHandle fuel
      else
        return pageNo

def RmFile.releasePageHandle (s : RmFile) (pageNo : Int) : RmFile :=
  if (s.pages pageNo).numRecords = s.numRecordsPerPage - 1 then
    let s' := s.setPage pageNo { s.pages pageNo with nextFreePageNo := s.firstFreePageNo }
    { s' with firstFreePageNo := pageNo }.unpin pageNo
  else s

def insertRecord (fuel : Nat) (buf : Bytes) (ctx : Option Context) : RmM Rid := do
  let pageNo ← createPageHandle fuel
  let s ← get
  let slotNo := Bitmap.firstBit false (s.pages pageNo).bitmap s.numRecordsPerPage
  lockOnRecord .exclusive ⟨pageNo, slotNo⟩ ctx
  let pg := (s.pages pageNo).insertSlot slotNo buf
  modify (·.setPage pageNo pg)
  if pg.numRecords = s.numRecordsPerPage then
    modify fun s => { s with firstFreePageNo := pg.nextFreePageNo }
  if ctx.isSome then unpinPage pageNo
  return ⟨pageNo, slotNo⟩

def insertRecordAt (rid : Rid) (buf : Bytes) : RmM Unit := do
  fetchPageHandle rid.pageNo
  if ((← get).pages rid.pageNo).bitmap rid.slotNo then throw (.internal "Slot is already occupied")
  modify fun s => s.setPage rid.pageNo ((s.pages rid.pageNo).insertSlot rid.slotNo buf)
  unpinPage rid.pageNo

def deleteRecord (rid : Rid) (ctx : Option Context) : RmM Unit := do
  fetchPageHandle rid.pageNo
  if ((← get).pages rid.pageNo).bitmap rid.slotNo = false then
    throw (.recordNotFound rid.pageNo rid.slotNo)
  lockOnRecord .exclusive rid ctx
  modify fun s => s.setPage rid.pageNo ((s.pages rid.pageNo).eraseSlot rid.slotNo)
  modify (·.releasePageHandle rid.pageNo)
  if ctx.isSome then unpinPage rid.pageNo

def updateRecord (rid : Rid) (buf : Bytes) (ctx : Option Context) : RmM Unit := do
  fetchPageHandle rid.pageNo
  if ((← get).pages rid.pageNo).bitmap rid.slotNo = false then
    throw (.recordNotFound rid.pageNo rid.slotNo)
  lockOnRecord .exclusive rid ctx
  modify fun s => s.setPage rid.pageNo ((s.pages rid.pageNo).writeSlot rid.slotNo buf)
  if ctx.isSome then unpinPage rid.pageNo

end Rmdb.Record.FileHandle

namespace Rmdb.Record.FileHandle

open Rmdb.Defs

namespace RmPage

variable (pg : RmPage) (slotNo : Int) (buf : Bytes)

@[simp] lemma insertSlot_nextFreePageNo :
    (pg.insertSlot slotNo buf).nextFreePageNo = pg.nextFreePageNo := rfl
@[simp] lemma insertSlot_numRecords :
    (pg.insertSlot slotNo buf).numRecords = pg.numRecords + 1 := rfl
@[simp] lemma insertSlot_bitmap :
    (pg.insertSlot slotNo buf).bitmap = Bitmap.set pg.bitmap slotNo := rfl
@[simp] lemma insertSlot_slots :
    (pg.insertSlot slotNo buf).slots = Function.update pg.slots slotNo buf := rfl
@[simp] lemma eraseSlot_nextFreePageNo :
    (pg.eraseSlot slotNo).nextFreePageNo = pg.nextFreePageNo := rfl
@[simp] lemma eraseSlot_numRecords : (pg.eraseSlot slotNo).numRecords = pg.numRecords - 1 := rfl
@[simp] lemma eraseSlot_bitmap : (pg.eraseSlot slotNo).bitmap = Bitmap.reset pg.bitmap slotNo := rfl
@[simp] lemma eraseSlot_slots : (pg.eraseSlot slotNo).slots = pg.slots := rfl
@[simp] lemma writeSlot_nextFreePageNo :
    (pg.writeSlot slotNo buf).nextFreePageNo = pg.nextFreePageNo := rfl
@[simp] lemma writeSlot_numRecords : (pg.writeSlot slotNo buf).numRecords = pg.numRecords := rfl
@[simp] lemma writeSlot_bitmap : (pg.writeSlot slotNo buf).bitmap = pg.bitmap := rfl
@[simp] lemma writeSlot_slots :
    (pg.writeSlot slotNo buf).slots = Function.update pg.slots slotNo buf := rfl
@[simp] lemma fresh_nextFreePageNo : pg.fresh.nextFreePageNo = RM_NO_PAGE := rfl
@[simp] lemma fresh_numRecords : pg.fresh.numRecords = 0 := rfl
@[simp] lemma fresh_bitmap : pg.fresh.bitmap = Bitmap.init := rfl

end RmPage

namespace RmFile

variable (s : RmFile) (p : Int) (pg : RmPage)

@[simp] lemma pin_numPages : (s.pin p).numPages = s.numPages := rfl
@[simp] lemma pin_numRecordsPerPage : (s.pin p).numRecordsPerPage = s.numRecordsPerPage := rfl
@[simp] lemma pin_firstFreePageNo : (s.pin p).firstFreePageNo = s.firstFreePageNo := rfl
@[simp] lemma pin_pages : (s.pin p).pages = s.pages := rfl
@[simp] lemma unpin_numPages : (s.unpin p).numPages = s.numPages := rfl
@[simp] lemma unpin_numRecordsPerPage : (s.unpin p).numRecordsPerPage = s.numRecordsPerPage := rfl
@[simp] lemma unpin_firstFreePageNo : (s.unpin p).firstFreePageNo = s.firstFreePageNo := rfl
@[simp] lemma unpin_pages : (s.unpin p).pages = s.pages := rfl
@[simp] lemma setPage_numPages : (s.setPage p pg).numPages = s.numPages := rfl
@[simp] lemma setPage_numRecordsPerPage :
    (s.setPage p pg).numRecordsPerPage = s.numRecordsPerPage := rfl
@[simp] lemma setPage_firstFreePageNo : (s.setPage p pg).firstFreePageNo = s.firstFreePageNo := rfl
@[simp] lemma setPage_pins : (s.setPage p pg).pins = s.pins := rfl
@[simp] lemma setPage_pages : (s.setPage p pg).pages = Function.update s.pages p pg := rfl

@[simp] lemma unpin_pin : (s.pin p).unpin p = s := by
  cases s; simp [pin, unpin]

@[simp] lemma setPage_setPage (pg' : RmPage) :
    (s.setPage p pg).setPage p pg' = s.setPage p pg' := by
  simp [setPage]

@[simp] lemma setPage_unpin (q : Int) : (s.setPage q pg).unpin p = (s.unpin p).setPage q pg := rfl

@[simp] lemma createNewPageHandle_numPages : s.createNewPageHandle.numPages = s.numPages + 1 := by
  dsimp only [createNewPageHandle]; split_ifs <;> rfl

@[simp] lemma createNewPageHandle_numRecordsPerPage :
    s.createNewPageHandle.numRecordsPerPage = s.numRecordsPerPage := by
  dsimp only [createNewPageHandle]; split_ifs <;> rfl

@[simp] lemma createNewPageHandle_pages :
    s.createNewPageHandle.pages =
      Function.update s.pages s.numPages (s.pages s.numPages).fresh := by
  dsimp only [createNewPageHandle]; split_ifs <;> rfl

@[simp] lemma releasePageHandle_numPages : (s.releasePageHandle p).numPages = s.numPages := by
  dsimp only [releasePageHandle]; split_ifs <;> rfl

@[simp] lemma releasePageHandle_numRecordsPerPage :
    (s.releasePageHandle p).numRecordsPerPage = s.numRecordsPerPage := by
  dsimp only [releasePageHandle]; split_ifs <;> rfl

@[simp] lemma createNewPageHandle_firstFreePageNo :
    s.createNewPageHandle.firstFreePageNo =
      if s.firstFreePageNo = RM_NO_PAGE then s.numPages else s.firstFreePageNo := by
  by_cases h : s.firstFreePageNo = RM_NO_PAGE <;> simp [createNewPageHandle, h]

end RmFile

variable {s : RmFile} {rid : Rid} {ctx : Option Context}

@[simp] lemma unpinPage_run (p : Int) (s : RmFile) : (unpinPage p).run s = .ok () (s.unpin p) := rfl

lemma fetchPageHandle_run (p : Int) (s : RmFile) :
    (fetchPageHandle p).run s =
      if p ≥ s.numPages ∨ p < 0 then .error (.pageNotExist p) s else .ok () (s.pin p) := by
  by_cases h : p ≥ s.numPages ∨ p < 0 <;> simp [fetchPageHandle, h]

lemma lockOnRecord_run (mode : LockMode) (rid : Rid) (ctx : Option Context) (s : RmFile) :
    (lockOnRecord mode rid ctx).run s =
      if Context.refuses ctx mode rid then .error .transactionAbort s else .ok () s := by
  by_cases h : Context.refuses ctx mode rid <;> simp [lockOnRecord, h]

lemma getRecord_run (rid : Rid) (ctx : Option Context) (s : RmFile) :
    (getRecord rid ctx).run s =
      if rid.pageNo ≥ s.numPages ∨ rid.pageNo < 0 then .error (.pageNotExist rid.pageNo) s
      else if (s.pages rid.pageNo).bitmap rid.slotNo = false then
        .error (.recordNotFound rid.pageNo rid.slotNo) (s.pin rid.pageNo)
      else if Context.refuses ctx .shared rid then .error .transactionAbort (s.pin rid.pageNo)
      else .ok ((s.pages rid.pageNo).slots rid.slotNo)
        (if ctx.isSome then s else s.pin rid.pageNo) := by
  by_cases h1 : rid.pageNo ≥ s.numPages ∨ rid.pageNo < 0
  · simp [getRecord, fetchPageHandle_run, h1]
  by_cases h2 : (s.pages rid.pageNo).bitmap rid.slotNo = false
  · simp [getRecord, fetchPageHandle_run, h1, h2]
  by_cases h3 : Context.refuses ctx .shared rid <;>
    simp [getRecord, fetchPageHandle_run, lockOnRecord_run, h1, h2, h3]

lemma getRecord_ok {rid : Rid} {ctx : Option Context} {s s' : RmFile} {b : Bytes}
    (h : (getRecord rid ctx).run s = .ok b s') :
    (0 ≤ rid.pageNo ∧ rid.pageNo < s.numPages ∧ (s.pages rid.pageNo).bitmap rid.slotNo = true ∧
      Context.refuses ctx .shared rid = false) ∧
    b = (s.pages rid.pageNo).slots rid.slotNo ∧ s'.pages = s.pages ∧ s'.numPages = s.numPages := by
  rw [getRecord_run] at h
  split_ifs at h with h1 h2 h3 <;>
    simp only [not_or, not_le, Bool.not_eq_false, Bool.not_eq_true, EStateM.Result.ok.injEq]
      at h1 h2 h3 h <;>
    obtain ⟨rfl, rfl⟩ := h <;>
    exact ⟨⟨by omega, h1.1, h2, h3⟩, rfl, by simp, by simp⟩

lemma updateRecord_run (rid : Rid) (buf : Bytes) (ctx : Option Context) (s : RmFile) :
    (updateRecord rid buf ctx).run s =
      if rid.pageNo ≥ s.numPages ∨ rid.pageNo < 0 then .error (.pageNotExist rid.pageNo) s
      else if (s.pages rid.pageNo).bitmap rid.slotNo = false then
        .error (.recordNotFound rid.pageNo rid.slotNo) (s.pin rid.pageNo)
      else if Context.refuses ctx .exclusive rid then .error .transactionAbort (s.pin rid.pageNo)
      else
        let s' := (s.pin rid.pageNo).setPage rid.pageNo
          ((s.pages rid.pageNo).writeSlot rid.slotNo buf)
        .ok () (if ctx.isSome then s'.unpin rid.pageNo else s') := by
  by_cases h1 : rid.pageNo ≥ s.numPages ∨ rid.pageNo < 0
  · simp [updateRecord, fetchPageHandle_run, h1]
  by_cases h2 : (s.pages rid.pageNo).bitmap rid.slotNo = false
  · simp [updateRecord, fetchPageHandle_run, h1, h2]
  by_cases h3 : Context.refuses ctx .exclusive rid <;>
    simp [updateRecord, fetchPageHandle_run, lockOnRecord_run, h1, h2, h3]

lemma updateRecord_ok {rid : Rid} {buf : Bytes} {ctx : Option Context} {s s' : RmFile}
    (h : (updateRecord rid buf ctx).run s = .ok () s') :
    s'.pages =
      Function.update s.pages rid.pageNo ((s.pages rid.pageNo).writeSlot rid.slotNo buf) := by
  rw [updateRecord_run] at h
  split_ifs at h <;> cases h <;> simp

lemma deleteRecord_run (rid : Rid) (ctx : Option Context) (s : RmFile) :
    (deleteRecord rid ctx).run s =
      if rid.pageNo ≥ s.numPages ∨ rid.pageNo < 0 then .error (.pageNotExist rid.pageNo) s
      else if (s.pages rid.pageNo).bitmap rid.slotNo = false then
        .error (.recordNotFound rid.pageNo rid.slotNo) (s.pin rid.pageNo)
      else if Context.refuses ctx .exclusive rid then .error .transactionAbort (s.pin rid.pageNo)
      else
        let s' := ((s.pin rid.pageNo).setPage rid.pageNo
          ((s.pages rid.pageNo).eraseSlot rid.slotNo)).releasePageHandle rid.pageNo
        .ok () (if ctx.isSome then s'.unpin rid.pageNo else s') := by
  by_cases h1 : rid.pageNo ≥ s.numPages ∨ rid.pageNo < 0
  · simp [deleteRecord, fetchPageHandle_run, h1]
  by_cases h2 : (s.pages rid.pageNo).bitmap rid.slotNo = false
  · simp [deleteRecord, fetchPageHandle_run, h1, h2]
  by_cases h3 : Context.refuses ctx .exclusive rid <;>
    simp [deleteRecord, fetchPageHandle_run, lockOnRecord_run, h1, h2, h3]

lemma insertRecordAt_run (rid : Rid) (buf : Bytes) (s : RmFile) :
    (insertRecordAt rid buf).run s =
      if rid.pageNo ≥ s.numPages ∨ rid.pageNo < 0 then .error (.pageNotExist rid.pageNo) s
      else if (s.pages rid.pageNo).bitmap rid.slotNo then
        .error (.internal "Slot is already occupied") (s.pin rid.pageNo)
      else .ok () (s.setPage rid.pageNo ((s.pages rid.pageNo).insertSlot rid.slotNo buf)) := by
  by_cases h1 : rid.pageNo ≥ s.numPages ∨ rid.pageNo < 0
  · simp [insertRecordAt, fetchPageHandle_run, h1]
  by_cases h2 : (s.pages rid.pageNo).bitmap rid.slotNo <;>
    simp [insertRecordAt, fetchPageHandle_run, h1, h2]

lemma createPageHandle_succ (fuel : Nat) (s : RmFile) :
    (createPageHandle (fuel + 1)).run s =
      if s.firstFreePageNo = RM_NO_PAGE then .ok s.numPages s.createNewPageHandle
      else if s.firstFreePageNo ≥ s.numPages ∨ s.firstFreePageNo < 0 then
        .error (.pageNotExist s.firstFreePageNo) s
      else if (s.pages s.firstFreePageNo).numRecords = s.numRecordsPerPage then
        (createPageHandle fuel).run
          { s with firstFreePageNo := (s.pages s.firstFreePageNo).nextFreePageNo }
      else .ok s.firstFreePageNo (s.pin s.firstFreePageNo) := by
  by_cases h1 : s.firstFreePageNo = RM_NO_PAGE
  · simp [createPageHandle, h1]
  by_cases h2 : s.firstFreePageNo ≥ s.numPages ∨ s.firstFreePageNo < 0
  · simp [createPageHandle, fetchPageHandle_run, h1, h2]
  by_cases h3 : (s.pages s.firstFreePageNo).numRecords = s.numRecordsPerPage
  · simp [createPageHandle, fetchPageHandle_run, h1, h2, h3]
    congr 1
    simp [RmFile.pin, RmFile.unpin]
  · simp [createPageHandle, fetchPageHandle_run, h1, h2, h3]

lemma insertRecord_run (fuel : Nat) (buf : Bytes) (ctx : Option Context) (s : RmFile) :
    (insertRecord fuel buf ctx).run s =
      match (createPageHandle fuel).run s with
      | .ok p s₁ =>
        let slotNo := Bitmap.firstBit false (s₁.pages p).bitmap s₁.numRecordsPerPage
        if Context.refuses ctx .exclusive ⟨p, slotNo⟩ then .error .transactionAbort s₁
        else
          let pg := (s₁.pages p).insertSlot slotNo buf
          let s₂ := s₁.setPage p pg
          let s₃ := if pg.numRecords = s₁.numRecordsPerPage then
            { s₂ with firstFreePageNo := pg.nextFreePageNo } else s₂
          .ok ⟨p, slotNo⟩ (if ctx.isSome then s₃.unpin p else s₃)
      | .error e s₁ => .error e s₁ := by
  simp only [insertRecord, EStateM.run_bind]
  rcases (createPageHandle fuel).run s with ⟨p, s₁⟩ | ⟨e, s₁⟩
  · by_cases h : Context.refuses ctx .exclusive
        ⟨p, Bitmap.firstBit false (s₁.pages p).bitmap s₁.numRecordsPerPage⟩ <;>
      simp [lockOnRecord_run, h]
    split_ifs <;> rfl
  · rfl

end Rmdb.Record.FileHandle

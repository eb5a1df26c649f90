import Rmdb.Record.Calls

/-! The free-page list of a record file and the slot counts of its pages. -/

namespace Rmdb.Record.FreeList

open Rmdb.Defs Rmdb.Record.FileHandle Rmdb.Record.Calls Rmdb.Record.Bitmap

inductive FreeChain (pages : Int → RmPage) : Int → List Int → Prop
  | nil : FreeChain pages RM_NO_PAGE []
  | cons {p : Int} {L : List Int} : p ≠ RM_NO_PAGE →
      FreeChain pages (pages p).nextFreePageNo L → FreeChain pages p (p :: L)

namespace FreeChain

variable {pages pages' : Int → RmPage} {p : Int} {L : List Int}

lemma frame (h : FreeChain pages p L)
    (hf : ∀ q ∈ L, (pages' q).nextFreePageNo = (pages q).nextFreePageNo) :
    FreeChain pages' p L := by
  induction h with
  | nil => exact .nil
  | @cons p L hp _ ih =>
    refine .cons hp ?_
    rw [hf p (List.mem_cons_self _ _)]
    exact ih fun q hq => hf q (List.mem_cons_of_mem _ hq)

lemma eq_nil (h : FreeChain pages RM_NO_PAGE L) : L = [] := by
  cases h with
  | nil => rfl
  | cons hp _ => exact absurd rfl hp

lemma head (h : FreeChain pages p L) (hp : p ≠ RM_NO_PAGE) :
    ∃ L', L = p :: L' ∧ FreeChain pages (pages p).nextFreePageNo L' := by
  cases h with
  | nil => exact absurd rfl hp
  | cons _ h' => exact ⟨_, rfl, h'⟩

end FreeChain

def PageOccupied (n : Int) (pg : RmPage) : Prop :=
  pg.numRecords = popcount pg.bitmap n ∧ ∀ i, pg.bitmap i = true → 0 ≤ i ∧ i < n

def Occupied (s : RmFile) : Prop :=
  ∀ p, 1 ≤ p → p < s.numPages → PageOccupied s.numRecordsPerPage (s.pages p)

def FreeListExact (s : RmFile) : Prop :=
  ∃ L, FreeChain s.pages s.firstFreePageNo L ∧ L.Nodup ∧
    ∀ p, p ∈ L ↔ 1 ≤ p ∧ p < s.numPages ∧ (s.pages p).numRecords < s.numRecordsPerPage

structure Inv (s : RmFile) : Prop where
  perPage_pos : 0 < s.numRecordsPerPage
  numPages_pos : 1 ≤ s.numPages
  occupied : Occupied s
  freeList : FreeListExact s

variable {s : RmFile} {p : Int} {pg : RmPage}

@[simp] lemma inv_pin : Inv (s.pin p) ↔ Inv s :=
  ⟨fun ⟨h1, h2, h3, h4⟩ => ⟨h1, h2, h3, h4⟩, fun ⟨h1, h2, h3, h4⟩ => ⟨h1, h2, h3, h4⟩⟩

@[simp] lemma inv_unpin : Inv (s.unpin p) ↔ Inv s :=
  ⟨fun ⟨h1, h2, h3, h4⟩ => ⟨h1, h2, h3, h4⟩, fun ⟨h1, h2, h3, h4⟩ => ⟨h1, h2, h3, h4⟩⟩

lemma inv_empty (h : IsEmptyFile s) : Inv s := by
  refine ⟨h.perPage_pos, by rw [h.numPages_eq], fun p hp1 hp2 => ?_, [], ?_, List.nodup_nil,
    fun p => ?_⟩
  · rw [h.numPages_eq] at hp2; omega
  · rw [h.firstFree_eq]; exact .nil
  · simp only [List.not_mem_nil, false_iff, h.numPages_eq]; omega

lemma Occupied.setPage (h : Occupied s)
    (hp : 1 ≤ p → p < s.numPages → PageOccupied s.numRecordsPerPage pg) :
    Occupied (s.setPage p pg) := by
  intro q hq1 hq2
  by_cases hq : q = p
  · subst hq; simpa using hp hq1 hq2
  · simpa [Function.update_noteq hq] using h q hq1 hq2

section PageOccupied

variable {n q : Int}

lemma PageOccupied.insertSlot (h : PageOccupied n pg) (hq0 : 0 ≤ q) (hq1 : q < n)
    (hb : pg.bitmap q = false) (buf : Bytes) : PageOccupied n (pg.insertSlot q buf) := by
  refine ⟨by simp [popcount_set hq0 hq1 hb, h.1], fun i hi => ?_⟩
  by_cases hi' : i = q
  · exact hi' ▸ ⟨hq0, hq1⟩
  · exact h.2 i (by simpa [Bitmap.set_ne hi'] using hi)

lemma PageOccupied.eraseSlot (h : PageOccupied n pg) (hb : pg.bitmap q = true) :
    PageOccupied n (pg.eraseSlot q) := by
  obtain ⟨hq0, hq1⟩ := h.2 q hb
  have := popcount_reset hq0 hq1 hb
  refine ⟨by simp [h.1]; omega, fun i hi => ?_⟩
  by_cases hi' : i = q
  · subst hi'; simp at hi
  · exact h.2 i (by simpa [Bitmap.reset_ne hi'] using hi)

end PageOccupied

lemma FreeListExact.setPage (h : FreeListExact s)
    (hnext : pg.nextFreePageNo = (s.pages p).nextFreePageNo)
    (hfree : pg.numRecords < s.numRecordsPerPage ↔
      (s.pages p).numRecords < s.numRecordsPerPage) :
    FreeListExact (s.setPage p pg) := by
  obtain ⟨L, hL, hnd, hmem⟩ := h
  refine ⟨L, hL.frame fun q _ => ?_, hnd, fun q => ?_⟩
  · by_cases hq : q = p
    · subst hq; simpa using hnext
    · simp [Function.update_noteq hq]
  · by_cases hq : q = p
    · subst hq; simpa [hfree] using hmem q
    · simpa [Function.update_noteq hq] using hmem q

lemma FreeListExact.link (h : FreeListExact s) (hp1 : 1 ≤ p) (hp2 : p < s.numPages)
    (hfull : ¬ (s.pages p).numRecords < s.numRecordsPerPage)
    (hfree : pg.numRecords < s.numRecordsPerPage) :
    FreeListExact { s.setPage p { pg with nextFreePageNo := s.firstFreePageNo } with
      firstFreePageNo := p } := by
  obtain ⟨L, hL, hnd, hmem⟩ := h
  have hpL : p ∉ L := fun hp => hfull ((hmem p).1 hp).2.2
  refine ⟨p :: L, FreeChain.cons (p := p) (ne_noPage (by omega)) ?_,
    List.nodup_cons.2 ⟨hpL, hnd⟩, fun q => ?_⟩
  · simp only [RmFile.setPage_pages, Function.update_same]
    exact hL.frame fun q hq => by
      simp [Function.update_noteq (show q ≠ p by rintro rfl; exact hpL hq)]
  · by_cases hq : q = p
    · subst hq; simp [hp1, hp2, hfree]
    · simpa [Function.update_noteq hq, hq] using hmem q

lemma FreeListExact.unlinkHead (h : FreeListExact s) (hhead : s.firstFreePageNo = p)
    (hp : p ≠ RM_NO_PAGE) (hnext : pg.nextFreePageNo = (s.pages p).nextFreePageNo)
    (hfull : ¬ pg.numRecords < s.numRecordsPerPage) :
    FreeListExact { s.setPage p pg with firstFreePageNo := (s.pages p).nextFreePageNo } := by
  obtain ⟨L, hL, hnd, hmem⟩ := h
  rw [hhead] at hL
  obtain ⟨L', rfl, hL'⟩ := hL.head hp
  have hpL : p ∉ L' := (List.nodup_cons.1 hnd).1
  refine ⟨L', hL'.frame fun q hq => ?_, (List.nodup_cons.1 hnd).2, fun q => ?_⟩
  · simp [Function.update_noteq (show q ≠ p by rintro rfl; exact hpL hq)]
  · by_cases hq : q = p
    · subst hq; simp [hpL, hfull]
    · simpa [Function.update_noteq hq, hq] using hmem q

lemma Inv.head (hs : Inv s) (hp : s.firstFreePageNo ≠ RM_NO_PAGE) :
    1 ≤ s.firstFreePageNo ∧ s.firstFreePageNo < s.numPages ∧
      (s.pages s.firstFreePageNo).numRecords < s.numRecordsPerPage := by
  obtain ⟨L, hL, -, hmem⟩ := hs.freeList
  obtain ⟨L', rfl, -⟩ := hL.head hp
  exact (hmem _).1 (List.mem_cons_self _ _)

lemma Inv.firstBit_clear (hs : Inv s) (hp1 : 1 ≤ p) (hp2 : p < s.numPages)
    (hfree : (s.pages p).numRecords < s.numRecordsPerPage) :
    let slotNo := firstBit false (s.pages p).bitmap s.numRecordsPerPage
    0 ≤ slotNo ∧ slotNo < s.numRecordsPerPage ∧ (s.pages p).bitmap slotNo = false := by
  apply Bitmap.firstBit_clear
  have := (hs.occupied p hp1 hp2).1
  omega

lemma Occupied.createNewPageHandle (h : Occupied s) : Occupied s.createNewPageHandle := by
  intro q hq1 hq2
  simp only [RmFile.createNewPageHandle_numPages, RmFile.createNewPageHandle_pages,
    RmFile.createNewPageHandle_numRecordsPerPage] at hq2 ⊢
  by_cases hq : q = s.numPages
  · subst hq; simp [PageOccupied, Bitmap.init]
  · simpa [Function.update_noteq hq] using h q hq1 (by omega)

lemma inv_createNewPageHandle (hs : Inv s) (he : s.firstFreePageNo = RM_NO_PAGE) :
    Inv s.createNewPageHandle := by
  obtain ⟨hN, hnp, hocc, L, hL, -, hmem⟩ := hs
  rw [he] at hL
  obtain rfl := hL.eq_nil
  refine ⟨by simpa using hN, by simp; omega, hocc.createNewPageHandle, [s.numPages], ?_,
    List.nodup_singleton _, fun q => ?_⟩
  · simp only [RmFile.createNewPageHandle_firstFreePageNo, he, if_true]
    exact FreeChain.cons (ne_noPage (by omega)) (by simpa using FreeChain.nil)
  · by_cases hq : q = s.numPages
    · subst hq; simp [hN]; omega
    · have := hmem q
      simp only [List.not_mem_nil, false_iff] at this
      simp [Function.update_noteq hq, hq]
      omega

lemma createPageHandle_of_inv (hs : Inv s) (fuel : Nat) :
    (createPageHandle (fuel + 1)).run s =
      if s.firstFreePageNo = RM_NO_PAGE then .ok s.numPages s.createNewPageHandle
      else .ok s.firstFreePageNo (s.pin s.firstFreePageNo) := by
  rw [createPageHandle_succ]
  by_cases he : s.firstFreePageNo = RM_NO_PAGE
  · simp only [he, if_true]
  obtain ⟨h1, h2, h3⟩ := hs.head he
  simp only [he, if_false, show ¬(s.firstFreePageNo ≥ s.numPages ∨ s.firstFreePageNo < 0) by omega,
    h3.ne]

lemma inv_createPageHandle (hs : Inv s) (fuel : Nat) :
    ∃ s₁, (createPageHandle (fuel + 1)).run s = .ok s₁.firstFreePageNo s₁ ∧ Inv s₁ ∧
      s₁.firstFreePageNo ≠ RM_NO_PAGE := by
  rw [createPageHandle_of_inv hs]
  split_ifs with he
  · refine ⟨s.createNewPageHandle, ?_, inv_createNewPageHandle hs he, ?_⟩ <;> simp only [he,
      RmFile.createNewPageHandle_firstFreePageNo, if_true]
    exact ne_noPage (by have := hs.numPages_pos; omega)
  · exact ⟨s.pin s.firstFreePageNo, rfl, by simpa using hs, he⟩

lemma inv_insertHead (hs : Inv s) (hhead : s.firstFreePageNo = p) (hp : p ≠ RM_NO_PAGE)
    {slotNo : Int} (hslot : slotNo = firstBit false (s.pages p).bitmap s.numRecordsPerPage)
    (buf : Bytes) :
    Inv (if ((s.pages p).insertSlot slotNo buf).numRecords = s.numRecordsPerPage then
      { s.setPage p ((s.pages p).insertSlot slotNo buf) with
        firstFreePageNo := ((s.pages p).insertSlot slotNo buf).nextFreePageNo }
      else s.setPage p ((s.pages p).insertSlot slotNo buf)) := by
  subst hhead hslot
  obtain ⟨h1, h2, h3⟩ := hs.head hp
  obtain ⟨hb1, hb2, hb3⟩ := hs.firstBit_clear h1 h2 h3
  have hocc := hs.occupied.setPage (p := s.firstFreePageNo) fun _ _ =>
    (hs.occupied _ h1 h2).insertSlot hb1 hb2 hb3 buf
  split_ifs with hfull <;> simp only [RmPage.insertSlot_numRecords] at hfull
  · exact ⟨hs.perPage_pos, hs.numPages_pos, hocc,
      hs.freeList.unlinkHead rfl hp rfl (by simp; omega)⟩
  · exact ⟨hs.perPage_pos, hs.numPages_pos, hocc, hs.freeList.setPage rfl (by simp; omega)⟩

lemma inv_writeSlot (hs : Inv s) (slotNo : Int) (buf : Bytes) :
    Inv (s.setPage p ((s.pages p).writeSlot slotNo buf)) :=
  ⟨hs.perPage_pos, hs.numPages_pos,
    hs.occupied.setPage fun h1 h2 => hs.occupied p h1 h2, hs.freeList.setPage rfl Iff.rfl⟩

lemma inv_erase (hs : Inv s) (hp1 : 1 ≤ p) (hp2 : p < s.numPages) {slotNo : Int}
    (hb : (s.pages p).bitmap slotNo = true) :
    Inv ((s.setPage p ((s.pages p).eraseSlot slotNo)).releasePageHandle p) := by
  have hocc := (hs.occupied p hp1 hp2).eraseSlot hb
  have hc := (hs.occupied p hp1 hp2).1
  obtain ⟨hq1, hq2⟩ := (hs.occupied p hp1 hp2).2 slotNo hb
  have hpop := popcount_reset hq1 hq2 hb
  have hle := popcount_le (s.pages p).bitmap s.numRecordsPerPage
  unfold RmFile.releasePageHandle
  split_ifs with hedge
  · simp only [inv_unpin, RmFile.setPage_pages, Function.update_same, RmFile.setPage_setPage,
      RmFile.setPage_firstFreePageNo]
    exact ⟨hs.perPage_pos, hs.numPages_pos, hs.occupied.setPage fun _ _ => hocc,
      hs.freeList.link hp1 hp2 (by simp at hedge; omega) (by simp; omega)⟩
  · exact ⟨hs.perPage_pos, hs.numPages_pos, hs.occupied.setPage fun _ _ => hocc,
      hs.freeList.setPage rfl (by simp at hedge ⊢; omega)⟩

def IsSlot (s : RmFile) (rid : Rid) : Prop :=
  1 ≤ rid.pageNo ∧ rid.pageNo < s.numPages ∧ 0 ≤ rid.slotNo ∧ rid.slotNo < s.numRecordsPerPage

instance (s : RmFile) (rid : Rid) : Decidable (IsSlot s rid) :=
  inferInstanceAs (Decidable (1 ≤ rid.pageNo ∧ rid.pageNo < s.numPages ∧ 0 ≤ rid.slotNo ∧
    rid.slotNo < s.numRecordsPerPage))

lemma IsSlot.fetchable {s : RmFile} {rid : Rid} (h : IsSlot s rid) :
    ¬(rid.pageNo ≥ s.numPages ∨ rid.pageNo < 0) := by
  have := h.1
  have := h.2.1
  omega

lemma IsSlot.run {s : RmFile} {rid : Rid} (h : IsSlot s rid) (fuel : Nat) (c : RmCall) :
    IsSlot ((c.run fuel).run s).state rid :=
  ⟨h.1, lt_of_lt_of_le h.2.1 (numPages_le_run fuel c s), h.2.2.1,
    (numRecordsPerPage_run fuel c s).symm ▸ h.2.2.2⟩

def InRange (s : RmFile) : RmCall → Prop
  | .insertRecord _ _ => True
  | .insertRecordAt _ _ => False
  | .getRecord rid _ | .deleteRecord rid _ | .updateRecord rid _ _ => IsSlot s rid

lemma inv_step {c : RmCall} {s' : RmFile} (hs : Inv s) (hc : InRange s c) (h : Step s c s') :
    Inv s' := by
  obtain ⟨fuel, r, rfl, rfl, hnf⟩ := h
  cases c with
  | getRecord rid ctx =>
    simp only [RmCall.run, EStateM.Result.state_bind_pure, getRecord_run]
    split_ifs <;> simp [hs]
  | insertRecord buf ctx =>
    cases fuel with
    | zero => exact absurd rfl (hnf _)
    | succ fuel =>
      obtain ⟨s₁, hr, hs₁, hp⟩ := inv_createPageHandle hs fuel
      simp only [RmCall.run, EStateM.Result.state_bind_pure, insertRecord_run, hr]
      split
      · exact hs₁
      · have h₃ := inv_insertHead hs₁ rfl hp rfl buf
        simp only [EStateM.Result.state_ok]
        split
        · exact inv_unpin.2 h₃
        · exact h₃
  | insertRecordAt rid buf => exact hc.elim
  | deleteRecord rid ctx =>
    simp only [RmCall.run, EStateM.Result.state_bind_pure, deleteRecord_run]
    split_ifs with h1 h2 <;>
      simp only [EStateM.Result.state_ok, EStateM.Result.state_error, inv_pin, inv_unpin]
    any_goals exact hs
    all_goals exact inv_erase (inv_pin.2 hs) hc.1 hc.2.1 (by simpa using h2)
  | updateRecord rid buf ctx =>
    simp only [RmCall.run, EStateM.Result.state_bind_pure, updateRecord_run]
    split_ifs <;>
      simp only [EStateM.Result.state_ok, EStateM.Result.state_error, inv_pin, inv_unpin]
    any_goals exact hs
    all_goals exact inv_writeSlot (inv_pin.2 hs) rid.slotNo buf

lemma inv_reachable {s : RmFile} (h : Reachable InRange s) : Inv s :=
  h.induct_inv (fun _ he => inv_empty he) fun _ _ _ hs hc hst => inv_step hs hc hst

lemma createPageHandle_selfLoop (h0 : 0 ≤ s.firstFreePageNo)
    (h1 : s.firstFreePageNo < s.numPages)
    (hfull : (s.pages s.firstFreePageNo).numRecords = s.numRecordsPerPage)
    (hloop : (s.pages s.firstFreePageNo).nextFreePageNo = s.firstFreePageNo) (fuel : Nat) :
    (createPageHandle fuel).run s = .error .outOfFuel s := by
  induction fuel with
  | zero => rfl
  | succ fuel ih =>
    rw [createPageHandle_succ, if_neg (ne_noPage h0), if_neg (by omega), if_pos hfull, hloop]
    exact ih

/-- Calls where `insert_record(rid, buf)` names a clear slot position of a data page; the other
calls are unrestricted. -/
def FreeListCalls (s : RmFile) : RmCall → Prop
  | .insertRecordAt rid _ =>
    1 ≤ rid.pageNo ∧ rid.pageNo < s.numPages ∧ 0 ≤ rid.slotNo ∧
      rid.slotNo < s.numRecordsPerPage ∧ (s.pages rid.pageNo).bitmap rid.slotNo = false
  | _ => True

instance (s : RmFile) (c : RmCall) : Decidable (FreeListCalls s c) := by
  cases c <;> unfold FreeListCalls <;> infer_instance

def relinkCalls : List RmCall :=
  [.insertRecord [1] none, .deleteRecord ⟨1, 0⟩ none, .insertRecordAt ⟨1, 0⟩ [1],
    .deleteRecord ⟨1, 0⟩ none, .insertRecord [1] none]

theorem insertRecordAt_breaks_freeList :
    Reachable FreeListCalls (runCalls 1 relinkCalls (emptyFile 1)) ∧
    ¬ FreeListExact (runCalls 1 (relinkCalls.take 3) (emptyFile 1)) ∧
    ∀ fuel, (insertRecord fuel [1] none).run (runCalls 1 relinkCalls (emptyFile 1)) =
      .error .outOfFuel (runCalls 1 relinkCalls (emptyFile 1)) := by
  refine ⟨?_, fun ⟨L, hL, _, hmem⟩ => ?_, fun fuel => ?_⟩
  · exact ((((((Reachable.empty (s := emptyFile 1) ⟨rfl, rfl, by decide⟩).run
      (.insertRecord [1] none) 1 (by trivial) nofun).run (.deleteRecord ⟨1, 0⟩ none) 1 (by trivial) nofun).run
      (.insertRecordAt ⟨1, 0⟩ [1]) 1 (by decide) nofun).run (.deleteRecord ⟨1, 0⟩ none) 1
      (by trivial) nofun).run (.insertRecord [1] none) 1 (by trivial) nofun)
  · have h : (runCalls 1 (relinkCalls.take 3) (emptyFile 1)).firstFreePageNo = 1 ∧
        ((runCalls 1 (relinkCalls.take 3) (emptyFile 1)).pages 1).numRecords = 1 ∧
        (runCalls 1 (relinkCalls.take 3) (emptyFile 1)).numRecordsPerPage = 1 := by decide
    obtain ⟨L', rfl, -⟩ := hL.head (by rw [h.1]; decide)
    have := ((hmem _).1 (List.mem_cons_self _ _)).2.2
    rw [h.1, h.2.1, h.2.2] at this
    exact lt_irrefl _ this
  · have h : (runCalls 1 relinkCalls (emptyFile 1)).firstFreePageNo = 1 ∧
        (runCalls 1 relinkCalls (emptyFile 1)).numPages = 2 ∧
        ((runCalls 1 relinkCalls (emptyFile 1)).pages 1).numRecords = 1 ∧
        (runCalls 1 relinkCalls (emptyFile 1)).numRecordsPerPage = 1 ∧
        ((runCalls 1 relinkCalls (emptyFile 1)).pages 1).nextFreePageNo = 1 := by decide
    rw [insertRecord_run, createPageHandle_selfLoop (by omega) (by omega) (by simp [h])
      (by simp [h])]

end Rmdb.Record.FreeList

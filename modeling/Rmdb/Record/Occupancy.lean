import Rmdb.Record.FreeList

/-! The slot-occupancy invariant over calls that may name a slot of any page. -/

namespace Rmdb.Record.Occupancy

open Rmdb.Defs Rmdb.Record.FileHandle Rmdb.Record.Calls Rmdb.Record.Bitmap Rmdb.Record.FreeList

def Linkable (s : RmFile) (p : Int) : Prop :=
  p = RM_NO_PAGE ∨ 0 ≤ p ∧ p < s.numPages ∧
    (popcount (s.pages p).bitmap s.numRecordsPerPage : Int) ≤ (s.pages p).numRecords

structure LinkClosed (s : RmFile) (S : Int → Prop) : Prop where
  first_mem : S s.firstFreePageNo
  linkable : ∀ p, S p → Linkable s p
  next_mem : ∀ p, S p → p ≠ RM_NO_PAGE → S (s.pages p).nextFreePageNo

structure OccInv (s : RmFile) : Prop where
  perPage_pos : 0 < s.numRecordsPerPage
  numPages_pos : 1 ≤ s.numPages
  occupied : Occupied s
  links : ∃ S, LinkClosed s S

/-- Calls where every call that writes a slot names a slot position, on any page. -/
def SlotInRange (s : RmFile) : RmCall → Prop
  | .getRecord _ _ | .insertRecord _ _ => True
  | .insertRecordAt rid _ | .deleteRecord rid _ | .updateRecord rid _ _ =>
    0 ≤ rid.slotNo ∧ rid.slotNo < s.numRecordsPerPage

variable {s : RmFile} {p q : Int} {pg : RmPage}

@[simp] lemma occInv_pin : OccInv (s.pin p) ↔ OccInv s :=
  ⟨fun ⟨h1, h2, h3, S, h4, h5, h6⟩ => ⟨h1, h2, h3, S, h4, h5, h6⟩,
    fun ⟨h1, h2, h3, S, h4, h5, h6⟩ => ⟨h1, h2, h3, S, h4, h5, h6⟩⟩

@[simp] lemma occInv_unpin : OccInv (s.unpin p) ↔ OccInv s :=
  ⟨fun ⟨h1, h2, h3, S, h4, h5, h6⟩ => ⟨h1, h2, h3, S, h4, h5, h6⟩,
    fun ⟨h1, h2, h3, S, h4, h5, h6⟩ => ⟨h1, h2, h3, S, h4, h5, h6⟩⟩

lemma occInv_empty (h : IsEmptyFile s) : OccInv s :=
  ⟨h.perPage_pos, by rw [h.numPages_eq], (inv_empty h).occupied,
    ⟨(· = RM_NO_PAGE), h.firstFree_eq, fun _ hp => .inl hp, fun _ hp hp' => absurd hp hp'⟩⟩

lemma Linkable.setPage (h : Linkable s q)
    (hpg : (popcount (s.pages p).bitmap s.numRecordsPerPage : Int) ≤ (s.pages p).numRecords →
      (popcount pg.bitmap s.numRecordsPerPage : Int) ≤ pg.numRecords) :
    Linkable (s.setPage p pg) q := by
  rcases h with h | ⟨h0, h1, h2⟩
  · exact .inl h
  · refine .inr ⟨h0, h1, ?_⟩
    by_cases hq : q = p
    · subst hq; simpa using hpg h2
    · simpa [Function.update_noteq hq] using h2

lemma OccInv.setPage (hs : OccInv s)
    (hocc : 1 ≤ p → p < s.numPages → PageOccupied s.numRecordsPerPage pg)
    (hpg : (popcount (s.pages p).bitmap s.numRecordsPerPage : Int) ≤ (s.pages p).numRecords →
      (popcount pg.bitmap s.numRecordsPerPage : Int) ≤ pg.numRecords)
    (hnext : pg.nextFreePageNo = (s.pages p).nextFreePageNo) :
    OccInv (s.setPage p pg) := by
  obtain ⟨S, hfirst, hlink, hnext'⟩ := hs.links
  refine ⟨hs.perPage_pos, hs.numPages_pos, hs.occupied.setPage hocc,
    S, hfirst, fun q hq => (hlink q hq).setPage hpg, fun q hq hq' => ?_⟩
  by_cases hqp : q = p
  · subst hqp; simpa [hnext] using hnext' q hq hq'
  · simpa [Function.update_noteq hqp] using hnext' q hq hq'

lemma OccInv.advance (hs : OccInv s) (hp : s.firstFreePageNo ≠ RM_NO_PAGE) :
    OccInv { s with firstFreePageNo := (s.pages s.firstFreePageNo).nextFreePageNo } := by
  obtain ⟨S, hfirst, hlink, hnext⟩ := hs.links
  exact ⟨hs.perPage_pos, hs.numPages_pos, hs.occupied, S, hnext _ hfirst hp, hlink, hnext⟩

lemma OccInv.link (hs : OccInv s) (h0 : 0 ≤ p) (hp : p < s.numPages)
    (hpop : (popcount (s.pages p).bitmap s.numRecordsPerPage : Int) ≤ (s.pages p).numRecords) :
    OccInv { s.setPage p { s.pages p with nextFreePageNo := s.firstFreePageNo } with
      firstFreePageNo := p } := by
  obtain ⟨S, hfirst, hlink, hnext⟩ := hs.links
  refine ⟨hs.perPage_pos, hs.numPages_pos, hs.occupied.setPage fun h1 h2 => hs.occupied p h1 h2,
    fun q => S q ∨ q = p, .inr rfl, ?_, fun q hq hq' => ?_⟩
  · rintro q (hq | rfl)
    · show Linkable (s.setPage p { s.pages p with nextFreePageNo := s.firstFreePageNo }) q
      exact (hlink q hq).setPage id
    · exact .inr ⟨h0, hp, by simpa using hpop⟩
  · by_cases hqp : q = p
    · subst hqp; simp [hfirst]
    · have hq : S q := hq.resolve_right hqp
      simp [Function.update_noteq hqp, hnext q hq hq']

lemma Linkable.createNewPageHandle (h : Linkable s p) : Linkable s.createNewPageHandle p := by
  rcases h with h | ⟨h0, h1, h2⟩
  · exact .inl h
  · refine .inr ⟨h0, by simp; omega, ?_⟩
    simpa [Function.update_noteq (show p ≠ s.numPages by omega)] using h2

lemma occInv_createNewPageHandle (hs : OccInv s) (he : s.firstFreePageNo = RM_NO_PAGE) :
    OccInv s.createNewPageHandle := by
  have hN := hs.perPage_pos
  have hnp := hs.numPages_pos
  obtain ⟨S, hfirst, hlink, hnext⟩ := hs.links
  refine ⟨by simpa using hN, by simp; omega, hs.occupied.createNewPageHandle,
    fun q => S q ∨ q = s.numPages, .inr (by simp [he]), ?_, fun q hq hq' => ?_⟩
  · rintro q (hq | rfl)
    · exact (hlink q hq).createNewPageHandle
    · exact .inr ⟨by omega, by simp, by simp⟩
  · rw [RmFile.createNewPageHandle_pages]
    by_cases hqp : q = s.numPages
    · subst hqp; simpa [he] using Or.inl hfirst
    · have hq : S q := hq.resolve_right hqp
      rw [Function.update_noteq hqp]
      exact .inl (hnext q hq hq')

lemma occInv_createPageHandle (fuel : Nat) : ∀ {s : RmFile}, OccInv s →
    match (createPageHandle fuel).run s with
    | .ok p s₁ => OccInv s₁ ∧ p = s₁.firstFreePageNo ∧ 0 ≤ p ∧ p < s₁.numPages ∧
        (popcount (s₁.pages p).bitmap s₁.numRecordsPerPage : Int) ≤ (s₁.pages p).numRecords ∧
        (s₁.pages p).numRecords ≠ s₁.numRecordsPerPage
    | .error _ s₁ => OccInv s₁ := by
  induction fuel with
  | zero => exact fun hs => hs
  | succ fuel ih =>
    intro s hs
    rw [createPageHandle_succ]
    split_ifs with h1 h2 h3
    · have hN := hs.perPage_pos
      have hnp := hs.numPages_pos
      exact ⟨occInv_createNewPageHandle hs h1, by simp [h1], by omega, by simp, by simp,
        by simp; omega⟩
    · exact hs
    · exact ih (hs.advance h1)
    · obtain ⟨S, hfirst, hlink, -⟩ := hs.links
      rcases hlink _ hfirst with h | ⟨h0, hlt, hpop⟩
      · exact absurd h h1
      · exact ⟨by simpa using hs, rfl, h0, hlt, hpop, h3⟩

lemma OccInv.insertSlot (hs : OccInv s)
    (hq : 1 ≤ p → p < s.numPages →
      0 ≤ q ∧ q < s.numRecordsPerPage ∧ (s.pages p).bitmap q = false) (buf : Bytes) :
    OccInv (s.setPage p ((s.pages p).insertSlot q buf)) := by
  refine hs.setPage (fun h1 h2 => ?_) (fun h => ?_) rfl
  · obtain ⟨hq0, hq1, hb⟩ := hq h1 h2
    exact (hs.occupied p h1 h2).insertSlot hq0 hq1 hb buf
  · have := popcount_set_le (s.pages p).bitmap q s.numRecordsPerPage
    simp only [RmPage.insertSlot_bitmap, RmPage.insertSlot_numRecords]
    omega

lemma OccInv.writeSlot (hs : OccInv s) (q : Int) (buf : Bytes) :
    OccInv (s.setPage p ((s.pages p).writeSlot q buf)) :=
  hs.setPage (fun h1 h2 => hs.occupied p h1 h2) id rfl

lemma occInv_insertHead (hs : OccInv s) (hhead : p = s.firstFreePageNo) (h0 : 0 ≤ p)
    (hne : (s.pages p).numRecords ≠ s.numRecordsPerPage) (buf : Bytes) :
    OccInv (if ((s.pages p).insertSlot (firstBit false (s.pages p).bitmap s.numRecordsPerPage)
        buf).numRecords = s.numRecordsPerPage then
      { s.setPage p ((s.pages p).insertSlot (firstBit false (s.pages p).bitmap s.numRecordsPerPage)
          buf) with firstFreePageNo := (s.pages p).nextFreePageNo }
      else s.setPage p ((s.pages p).insertSlot
        (firstBit false (s.pages p).bitmap s.numRecordsPerPage) buf)) := by
  have h₂ := hs.insertSlot (q := firstBit false (s.pages p).bitmap s.numRecordsPerPage)
    (fun h1 h2 => by
      have hc := (hs.occupied p h1 h2).1
      have := popcount_le (s.pages p).bitmap s.numRecordsPerPage
      have := hs.perPage_pos
      exact firstBit_clear (by omega)) buf
  split_ifs
  · simpa [← hhead] using h₂.advance (by simpa [← hhead] using ne_noPage h0)
  · exact h₂

lemma OccInv.releasePageHandle (hs : OccInv s) (h0 : 0 ≤ p) (hp : p < s.numPages)
    (hclear : ∃ q, 0 ≤ q ∧ q < s.numRecordsPerPage ∧ (s.pages p).bitmap q = false) :
    OccInv (s.releasePageHandle p) := by
  unfold RmFile.releasePageHandle
  split_ifs with hedge
  · obtain ⟨q, hq0, hq1, hb⟩ := hclear
    have := popcount_lt_of_clear hq0 hq1 hb
    exact occInv_unpin.2 (hs.link h0 hp (by omega))
  · exact hs

lemma occInv_erase (hs : OccInv s) (h0 : 0 ≤ p) (hp : p < s.numPages) (hq0 : 0 ≤ q)
    (hq1 : q < s.numRecordsPerPage) (hb : (s.pages p).bitmap q = true) :
    OccInv ((s.setPage p ((s.pages p).eraseSlot q)).releasePageHandle p) := by
  have hpop := popcount_reset hq0 hq1 hb
  refine (hs.setPage (fun h1 h2 => (hs.occupied p h1 h2).eraseSlot hb) (fun h => ?_) rfl)
    |>.releasePageHandle h0 hp ⟨q, hq0, hq1, by simp⟩
  simp only [RmPage.eraseSlot_bitmap, RmPage.eraseSlot_numRecords]
  omega

lemma occInv_step {c : RmCall} {s' : RmFile} (hs : OccInv s) (hc : SlotInRange s c)
    (h : Step s c s') : OccInv s' := by
  obtain ⟨fuel, r, rfl, rfl, -⟩ := h
  cases c with
  | getRecord rid ctx =>
    simp only [RmCall.run, EStateM.Result.state_bind_pure, getRecord_run]
    split_ifs <;> simp [hs]
  | insertRecord buf ctx =>
    have hcp := occInv_createPageHandle fuel hs
    simp only [RmCall.run, EStateM.Result.state_bind_pure, insertRecord_run]
    rcases hr : (createPageHandle fuel).run s with ⟨p, s₁⟩ | ⟨e, s₁⟩ <;> rw [hr] at hcp <;>
      dsimp only
    · obtain ⟨hs₁, hhead, h0, -, -, hne⟩ := hcp
      have h₃ := occInv_insertHead hs₁ hhead h0 hne buf
      split
      · exact hs₁
      · simp only [EStateM.Result.state_ok]
        split
        · exact occInv_unpin.2 h₃
        · exact h₃
    · exact hcp
  | insertRecordAt rid buf =>
    simp only [RmCall.run, EStateM.Result.state_bind_pure, insertRecordAt_run]
    split_ifs with h1 h2
    · exact hs
    · simpa using hs
    · exact hs.insertSlot (fun _ _ => ⟨hc.1, hc.2, by simpa using h2⟩) buf
  | deleteRecord rid ctx =>
    simp only [RmCall.run, EStateM.Result.state_bind_pure, deleteRecord_run]
    split_ifs with h1 h2 <;>
      simp only [EStateM.Result.state_ok, EStateM.Result.state_error, occInv_pin, occInv_unpin]
    any_goals exact hs
    all_goals exact occInv_erase (s := s.pin rid.pageNo) (by simpa using hs) (by omega) (by simpa using
      (by omega : rid.pageNo < s.numPages)) hc.1 hc.2 (by simpa using h2)
  | updateRecord rid buf ctx =>
    simp only [RmCall.run, EStateM.Result.state_bind_pure, updateRecord_run]
    split_ifs <;>
      simp only [EStateM.Result.state_ok, EStateM.Result.state_error, occInv_pin, occInv_unpin]
    any_goals exact hs
    all_goals exact OccInv.writeSlot (s := s.pin rid.pageNo) (by simpa using hs) rid.slotNo buf

lemma occInv_reachable {s : RmFile} (h : Reachable SlotInRange s) : OccInv s :=
  h.induct_inv (fun _ he => occInv_empty he) fun _ _ _ hs hc hst => occInv_step hs hc hst

/-- From a freshly created file, through calls whose slots are slot positions of any page,
every data page counts exactly its set bits, all of them at slot positions; hence whenever
`create_page_handle` gives `insert_record` a page whose count is below `num_records_per_page`,
`first_bit(false, …)` finds a clear slot position on it. -/
theorem occupied_of_reachable {s : RmFile} (h : Reachable SlotInRange s) :
    Occupied s ∧
    ∀ fuel p s₁, (createPageHandle fuel).run s = .ok p s₁ →
      (s₁.pages p).numRecords < s₁.numRecordsPerPage →
      0 ≤ firstBit false (s₁.pages p).bitmap s₁.numRecordsPerPage ∧
        firstBit false (s₁.pages p).bitmap s₁.numRecordsPerPage < s₁.numRecordsPerPage ∧
        (s₁.pages p).bitmap (firstBit false (s₁.pages p).bitmap s₁.numRecordsPerPage) = false := by
  have hs := occInv_reachable h
  refine ⟨hs.occupied, fun fuel p s₁ hr hlt => firstBit_clear ?_⟩
  have hcp := occInv_createPageHandle fuel hs
  rw [hr] at hcp
  have hpop := hcp.2.2.2.2.1
  omega

theorem occupied_of_reachable_emptyFile :
    Occupied (emptyFile 1) ∧
      firstBit false (((createPageHandle 1).run (emptyFile 1)).state.pages 1).bitmap 1 < 1 :=
  ⟨(occupied_of_reachable (.empty ⟨rfl, rfl, by decide⟩)).1,
    ((occupied_of_reachable (s := emptyFile 1) (.empty ⟨rfl, rfl, by decide⟩)).2 1 1 _ rfl
      (by decide)).2.1⟩

end Rmdb.Record.Occupancy

import Rmdb.Record.FreeList

/-! The record file as a finite map from rids to record bytes. -/

namespace Rmdb.Record.Refinement

open Rmdb.Defs Rmdb.Record.FileHandle Rmdb.Record.Calls Rmdb.Record.FreeList

def records (s : RmFile) (rid : Rid) : Option Bytes :=
  if IsSlot s rid ∧ (s.pages rid.pageNo).bitmap rid.slotNo = true then
    some ((s.pages rid.pageNo).slots rid.slotNo)
  else none

def RaisesFor (m : Rid → Option Bytes) (rid : Rid) (e : RmError) : Prop :=
  if m rid = none then e = .recordNotFound rid.pageNo rid.slotNo else e = .transactionAbort

def MapStep (m : Rid → Option Bytes) :
    RmCall → Except RmError RmValue → (Rid → Option Bytes) → Prop
  | .insertRecord buf _, .ok v, m' =>
    ∃ rid, m rid = none ∧ v = .rid rid ∧ m' = Function.update m rid (some buf)
  | .getRecord rid _, .ok v, m' => ∃ b, m rid = some b ∧ v = .record b ∧ m' = m
  | .deleteRecord rid _, .ok v, m' => m rid ≠ none ∧ v = .none ∧ m' = Function.update m rid none
  | .updateRecord rid buf _, .ok v, m' =>
    m rid ≠ none ∧ v = .none ∧ m' = Function.update m rid (some buf)
  | .insertRecord _ _, .error e, m' => e = .transactionAbort ∧ m' = m
  | .getRecord rid _, .error e, m' | .deleteRecord rid _, .error e, m'
  | .updateRecord rid _ _, .error e, m' => RaisesFor m rid e ∧ m' = m
  | .insertRecordAt _ _, _, _ => False

variable {s : RmFile} {p q : Int} {pg : RmPage}

@[simp] lemma records_pin : records (s.pin p) = records s := rfl

@[simp] lemma records_unpin : records (s.unpin p) = records s := rfl

lemma records_eq_some {rid : Rid} {b : Bytes} :
    records s rid = some b ↔
      IsSlot s rid ∧ (s.pages rid.pageNo).bitmap rid.slotNo = true ∧
        (s.pages rid.pageNo).slots rid.slotNo = b := by
  unfold records
  split_ifs with h
  · simp [h]
  · simpa using fun h1 h2 _ => h ⟨h1, h2⟩

lemma records_eq_none {rid : Rid} :
    records s rid = none ↔ ¬ (IsSlot s rid ∧ (s.pages rid.pageNo).bitmap rid.slotNo = true) := by
  unfold records; split_ifs with h <;> simp [h]

lemma records_setPage (rid : Rid) :
    records (s.setPage p pg) rid =
      if rid.pageNo = p then
        (if IsSlot s rid ∧ pg.bitmap rid.slotNo = true then some (pg.slots rid.slotNo) else none)
      else records s rid := by
  by_cases hp : rid.pageNo = p
  · subst hp; simp [records, IsSlot]
  · simp [records, IsSlot, hp]

lemma records_isSlot {rid : Rid} (h : IsSlot s rid) :
    records s rid = if (s.pages rid.pageNo).bitmap rid.slotNo then
      some ((s.pages rid.pageNo).slots rid.slotNo) else none := by
  simp [records, h]

lemma records_setPage_slot (rid : Rid) (pg : RmPage)
    (hbit : ∀ i, i ≠ rid.slotNo → pg.bitmap i = (s.pages rid.pageNo).bitmap i)
    (hslot : ∀ i, i ≠ rid.slotNo → pg.slots i = (s.pages rid.pageNo).slots i) :
    records (s.setPage rid.pageNo pg) =
      Function.update (records s) rid (records (s.setPage rid.pageNo pg) rid) := by
  funext r
  by_cases hr : r = rid
  · subst hr; simp
  rw [Function.update_noteq hr, records_setPage]
  by_cases hp : r.pageNo = rid.pageNo
  · have hq : r.slotNo ≠ rid.slotNo := fun hq => hr (Rid.ext hp hq)
    rw [if_pos hp, hbit _ hq, hslot _ hq, records, hp]
  · rw [if_neg hp]

lemma records_eraseSlot (rid : Rid) :
    records (s.setPage rid.pageNo ((s.pages rid.pageNo).eraseSlot rid.slotNo)) =
      Function.update (records s) rid none := by
  rw [records_setPage_slot rid ((s.pages rid.pageNo).eraseSlot rid.slotNo)
    (fun i hi => Bitmap.reset_ne hi) fun _ _ => rfl]
  simp [records_setPage]

lemma records_writeSlot {rid : Rid} (h : records s rid ≠ none) (buf : Bytes) :
    records (s.setPage rid.pageNo ((s.pages rid.pageNo).writeSlot rid.slotNo buf)) =
      Function.update (records s) rid (some buf) := by
  rw [Ne, records_eq_none, not_not] at h
  rw [records_setPage_slot rid ((s.pages rid.pageNo).writeSlot rid.slotNo buf) (fun _ _ => rfl)
    fun i hi => Function.update_noteq hi _ _]
  simp [records_setPage, h]

lemma records_insertSlot {rid : Rid} (h : IsSlot s rid) (buf : Bytes) :
    records (s.setPage rid.pageNo ((s.pages rid.pageNo).insertSlot rid.slotNo buf)) =
      Function.update (records s) rid (some buf) := by
  rw [records_setPage_slot rid ((s.pages rid.pageNo).insertSlot rid.slotNo buf)
    (fun i hi => Bitmap.set_ne hi) fun i hi => Function.update_noteq hi _ _]
  simp [records_setPage, h]

@[simp] lemma records_pin_setPage : records ((s.pin p).setPage q pg) = records (s.setPage q pg) :=
  rfl

@[simp] lemma records_firstFreePageNo (p : Int) :
    records { s with firstFreePageNo := p } = records s := rfl

lemma records_setPage_same (hb : pg.bitmap = (s.pages p).bitmap)
    (hs : pg.slots = (s.pages p).slots) : records (s.setPage p pg) = records s := by
  funext rid
  rw [records_setPage]
  by_cases hp : rid.pageNo = p
  · rw [if_pos hp, hb, hs, records, hp]
  · rw [if_neg hp]

lemma records_releasePageHandle : records (s.releasePageHandle p) = records s := by
  unfold RmFile.releasePageHandle
  split_ifs
  · simp only [records_unpin, records_firstFreePageNo]
    exact records_setPage_same rfl rfl
  · rfl

lemma records_createNewPageHandle : records s.createNewPageHandle = records s := by
  funext rid
  by_cases hp : rid.pageNo = s.numPages
  · simp [records, IsSlot, hp, Bitmap.init]
  · have h : rid.pageNo < s.numPages + 1 ↔ rid.pageNo < s.numPages := by omega
    simp [records, IsSlot, Function.update_noteq hp, h]

lemma records_createPageHandle (hs : Inv s) {fuel : Nat} {s₁ : RmFile}
    (hr : (createPageHandle (fuel + 1)).run s = .ok p s₁) : records s₁ = records s := by
  rw [createPageHandle_of_inv hs] at hr
  split_ifs at hr <;> cases hr
  · exact records_createNewPageHandle
  · exact records_pin

lemma records_emptyFile (h : IsEmptyFile s) : records s = fun _ => none := by
  funext rid
  rw [records_eq_none]
  rintro ⟨⟨h1, h2, -⟩, -⟩
  rw [h.numPages_eq] at h2
  omega

lemma raisesFor_absent {rid : Rid} (hs : IsSlot s rid)
    (hb : (s.pages rid.pageNo).bitmap rid.slotNo = false) :
    RaisesFor (records s) rid (.recordNotFound rid.pageNo rid.slotNo) := by
  simp [RaisesFor, records_isSlot hs, hb]

lemma raisesFor_refused {rid : Rid} (hs : IsSlot s rid)
    (hb : ¬ (s.pages rid.pageNo).bitmap rid.slotNo = false) :
    RaisesFor (records s) rid .transactionAbort := by
  simp at hb
  simp [RaisesFor, records_isSlot hs, hb]

lemma mapStep_of_inv (hs : Inv s) {c : RmCall} (hc : InRange s c) (fuel : Nat) :
    MapStep (records s) c ((c.run (fuel + 1)).run s).outcome
      (records ((c.run (fuel + 1)).run s).state) := by
  cases c with
  | getRecord rid ctx =>
    have hp := IsSlot.fetchable hc
    simp only [RmCall.run, EStateM.Result.state_bind_pure, EStateM.Result.outcome_bind_pure,
      getRecord_run, if_neg hp]
    by_cases hb : (s.pages rid.pageNo).bitmap rid.slotNo = false
    · simp [MapStep, hb, raisesFor_absent hc hb]
    by_cases hl : Context.refuses ctx .shared rid
    · simp [MapStep, hb, hl, raisesFor_refused hc hb]
    · simp at hb
      simp [MapStep, hb, hl, records_isSlot hc, apply_ite records]
  | insertRecord buf ctx =>
    obtain ⟨s₁, hr, hs₁, hp⟩ := inv_createPageHandle hs fuel
    have hrec := records_createPageHandle hs hr
    obtain ⟨h1, h2, h3⟩ := hs₁.head hp
    obtain ⟨hb1, hb2, hb3⟩ := hs₁.firstBit_clear h1 h2 h3
    simp only [RmCall.run, EStateM.Result.state_bind_pure, EStateM.Result.outcome_bind_pure,
      insertRecord_run, hr]
    split
    · simp [MapStep, hrec]
    · have hslot : IsSlot s₁ ⟨s₁.firstFreePageNo,
          Bitmap.firstBit false (s₁.pages s₁.firstFreePageNo).bitmap s₁.numRecordsPerPage⟩ :=
        ⟨h1, h2, hb1, hb2⟩
      have hins := records_insertSlot hslot buf
      simp only at hins
      refine ⟨_, ?_, rfl, ?_⟩
      · rw [← hrec, records_isSlot hslot]; simp [hb3]
      · simp only [EStateM.Result.state_ok, apply_ite records, records_unpin,
          records_firstFreePageNo, hins, hrec, ite_self]
  | insertRecordAt rid buf => exact hc.elim
  | deleteRecord rid ctx =>
    have hp := IsSlot.fetchable hc
    simp only [RmCall.run, EStateM.Result.state_bind_pure, EStateM.Result.outcome_bind_pure,
      deleteRecord_run, if_neg hp]
    by_cases hb : (s.pages rid.pageNo).bitmap rid.slotNo = false
    · simp [MapStep, hb, raisesFor_absent hc hb]
    by_cases hl : Context.refuses ctx .exclusive rid
    · simp [MapStep, hb, hl, raisesFor_refused hc hb]
    · simp at hb
      simp [MapStep, hb, hl, records_isSlot hc, apply_ite records, records_releasePageHandle,
        records_eraseSlot]
  | updateRecord rid buf ctx =>
    have hp := IsSlot.fetchable hc
    simp only [RmCall.run, EStateM.Result.state_bind_pure, EStateM.Result.outcome_bind_pure,
      updateRecord_run, if_neg hp]
    by_cases hb : (s.pages rid.pageNo).bitmap rid.slotNo = false
    · simp [MapStep, hb, raisesFor_absent hc hb]
    by_cases hl : Context.refuses ctx .exclusive rid
    · simp [MapStep, hb, hl, raisesFor_refused hc hb]
    · have hpres : records s rid ≠ none := by simp at hb; simp [records_isSlot hc, hb]
      simp [MapStep, hb, hl, hpres, apply_ite records, records_writeSlot hpres]

/-- The record file refines a finite map from rids to record bytes: a freshly created file
holds no record, and from every state reachable through in-range calls each call, run with any
positive fuel, returns or raises as the finite-map operation on the map it starts from and
leaves the map that operation gives. -/
theorem records_refinement :
    (∀ s, IsEmptyFile s → records s = fun _ => none) ∧
    ∀ s, Reachable InRange s → ∀ c, InRange s c → ∀ fuel,
      MapStep (records s) c ((c.run (fuel + 1)).run s).outcome
        (records ((c.run (fuel + 1)).run s).state) :=
  ⟨fun _ => records_emptyFile, fun _ h _ hc => mapStep_of_inv (inv_reachable h) hc⟩

theorem records_refinement_emptyFile :
    records (emptyFile 1) = (fun _ => none) ∧
    MapStep (records (emptyFile 1)) (.insertRecord [1] none)
      (((RmCall.insertRecord [1] none).run 1).run (emptyFile 1)).outcome
      (records (((RmCall.insertRecord [1] none).run 1).run (emptyFile 1)).state) :=
  ⟨records_refinement.1 _ ⟨rfl, rfl, by decide⟩,
    records_refinement.2 (emptyFile 1) (.empty ⟨rfl, rfl, by decide⟩) (.insertRecord [1] none)
      trivial 0⟩

end Rmdb.Record.Refinement

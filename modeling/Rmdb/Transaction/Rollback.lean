import Rmdb.Record.Refinement
import Rmdb.Transaction.LogChain
import Rmdb.Recovery.Latch
import Mathlib.Logic.Equiv.Basic

/-! The rollback of `abort` against the record file. -/

namespace Rmdb.Transaction.Rollback

open Rmdb.Defs Rmdb.Record.FileHandle Rmdb.Record.Calls Rmdb.Record.FreeList
  Rmdb.Record.Refinement Rmdb.Recovery Rmdb.Recovery.LogFormat Rmdb.Recovery.Log
  Rmdb.Transaction.Manager

variable {s s' : RmFile} {rid : Rid} {buf : Bytes} {ctx : Option Context}

lemma records_ne_none : records s rid ≠ none ↔
    IsSlot s rid ∧ (s.pages rid.pageNo).bitmap rid.slotNo = true := by
  rw [Ne, records_eq_none, not_not]

lemma step_of_ok (hs : Inv s) (c : RmCall) (hc : InRange s c) (fuel : Nat) {v : RmValue}
    (h : (c.run (fuel + 1)).run s = .ok v s') :
    Inv s' ∧ MapStep (records s) c (.ok v) (records s') := by
  have hm := mapStep_of_inv hs hc fuel
  rw [h] at hm
  exact ⟨inv_step hs hc ⟨fuel + 1, _, h, rfl, fun _ h' => by cases h'⟩, hm⟩

lemma insertRecord_step (hs : Inv s) {fuel : Nat}
    (h : (insertRecord fuel buf ctx).run s = .ok rid s') :
    Inv s' ∧ records s rid = none ∧ records s' = Function.update (records s) rid (some buf) := by
  cases fuel with
  | zero => simp [insertRecord_run, createPageHandle] at h
  | succ fuel =>
    have h' : ((RmCall.insertRecord buf ctx).run (fuel + 1)).run s = .ok (.rid rid) s' := by
      simp [RmCall.run, h]
    obtain ⟨hs', r, hr, hv, hm⟩ := step_of_ok hs (.insertRecord buf ctx) trivial fuel h'
    cases hv
    exact ⟨hs', hr, hm⟩

lemma deleteRecord_step (hs : Inv s) (hr : records s rid ≠ none)
    (h : (deleteRecord rid ctx).run s = .ok () s') :
    Inv s' ∧ records s' = Function.update (records s) rid none := by
  have h' : ((RmCall.deleteRecord rid ctx).run 1).run s = .ok .none s' := by simp [RmCall.run, h]
  obtain ⟨hs', -, -, hm⟩ := step_of_ok hs (.deleteRecord rid ctx) (records_ne_none.1 hr).1 0 h'
  exact ⟨hs', hm⟩

lemma updateRecord_step (hs : Inv s) (hr : records s rid ≠ none)
    (h : (updateRecord rid buf ctx).run s = .ok () s') :
    Inv s' ∧ records s' = Function.update (records s) rid (some buf) := by
  have h' : ((RmCall.updateRecord rid buf ctx).run 1).run s = .ok .none s' := by
    simp [RmCall.run, h]
  obtain ⟨hs', -, -, hm⟩ := step_of_ok hs (.updateRecord rid buf ctx) (records_ne_none.1 hr).1 0 h'
  exact ⟨hs', hm⟩

/-! With a null context nothing refuses a lock: on a present rid, `delete_record` and
`update_record` return, and under the invariant `insert_record` always returns. -/

lemma deleteRecord_null_ok (hr : records s rid ≠ none) :
    ∃ s', (deleteRecord rid none).run s = .ok () s' := by
  obtain ⟨⟨h1, h2, -⟩, hb⟩ := records_ne_none.1 hr
  rw [deleteRecord_run, if_neg (by omega), if_neg (by simp [hb]),
    if_neg (by simp [Context.refuses])]
  exact ⟨_, rfl⟩

lemma updateRecord_null_ok (hr : records s rid ≠ none) (buf : Bytes) :
    ∃ s', (updateRecord rid buf none).run s = .ok () s' := by
  obtain ⟨⟨h1, h2, -⟩, hb⟩ := records_ne_none.1 hr
  rw [updateRecord_run, if_neg (by omega), if_neg (by simp [hb]),
    if_neg (by simp [Context.refuses])]
  exact ⟨_, rfl⟩

lemma insertRecord_null_ok (hs : Inv s) (fuel : Nat) (buf : Bytes) :
    ∃ rid s', (insertRecord (fuel + 1) buf none).run s = .ok rid s' := by
  obtain ⟨s₁, hr, -, -⟩ := inv_createPageHandle hs fuel
  simp only [insertRecord_run, hr, Context.refuses, if_false, Bool.false_eq_true]
  exact ⟨_, _, rfl⟩

def Fresh (w w' : WriteRecord) : Prop :=
  w'.wtype = .deleteTuple → w.rid ≠ w'.rid

instance : DecidableRel Fresh := fun _ _ => inferInstanceAs (Decidable (_ → _))

inductive Writes (tabName : String) (s₀ : RmFile) : List WriteRecord → RmFile → Prop
  | nil : Writes tabName s₀ [] s₀
  | insert {ws s s' fuel buf ctx rid} : Writes tabName s₀ ws s →
      (insertRecord fuel buf ctx).run s = .ok rid s' →
      Writes tabName s₀ (ws ++ [⟨.insertTuple, tabName, rid, []⟩]) s'
  | delete {ws s s' rid ctx b} : Writes tabName s₀ ws s → records s rid = some b →
      (deleteRecord rid ctx).run s = .ok () s' →
      Writes tabName s₀ (ws ++ [⟨.deleteTuple, tabName, rid, b⟩]) s'
  | update {ws s s' rid buf ctx b} : Writes tabName s₀ ws s → records s rid = some b →
      (updateRecord rid buf ctx).run s = .ok () s' →
      Writes tabName s₀ (ws ++ [⟨.updateTuple, tabName, rid, b⟩]) s'

variable {tab : String} {s₀ : RmFile} {ws : List WriteRecord}

lemma Writes.inv (h₀ : Inv s₀) (hw : Writes tab s₀ ws s) : Inv s := by
  induction hw with
  | nil => exact h₀
  | insert _ h ih => exact (insertRecord_step ih h).1
  | delete _ hb h ih => exact (deleteRecord_step ih (by simp [hb]) h).1
  | update _ hb h ih => exact (updateRecord_step ih (by simp [hb]) h).1

lemma live_append_of_set {w' : WriteRecord} {v : Bytes}
    (ih : ∀ w ∈ ws, w.wtype ≠ .deleteTuple → records s w.rid ≠ none)
    (hm : records s' = Function.update (records s) w'.rid (some v)) :
    ∀ w ∈ ws ++ [w'], w.wtype ≠ .deleteTuple → records s' w.rid ≠ none := by
  intro w hw hd
  rw [hm, Function.update_apply]
  split_ifs with he
  · simp
  rcases List.mem_append.1 hw with hw | hw
  · exact ih w hw hd
  · exact absurd (by rw [List.mem_singleton.1 hw]) he

lemma Writes.live (h₀ : Inv s₀) (hw : Writes tab s₀ ws s) (hf : ws.Pairwise Fresh) :
    ∀ w ∈ ws, w.wtype ≠ .deleteTuple → records s w.rid ≠ none := by
  induction hw with
  | nil => simp
  | insert hw' h ih =>
    exact live_append_of_set (ih (List.pairwise_append.1 hf).1)
      (insertRecord_step (hw'.inv h₀) h).2.2
  | @delete ws s s' rid ctx b hw' hb h ih =>
    obtain ⟨hf', -, hlast⟩ := List.pairwise_append.1 hf
    obtain ⟨-, hm⟩ := deleteRecord_step (hw'.inv h₀) (by simp [hb]) h
    intro w hw hd
    rcases List.mem_append.1 hw with hw | hw
    · rw [hm, Function.update_noteq (hlast w hw _ (List.mem_singleton_self _) rfl)]
      exact ih hf' w hw hd
    · exact absurd (by rw [List.mem_singleton.1 hw]) hd
  | update hw' hb h ih =>
    exact live_append_of_set (ih (List.pairwise_append.1 hf).1)
      (updateRecord_step (hw'.inv h₀) (by simp [hb]) h).2

lemma onTable_run (tabName : String) (x : RmM α) (m : TxnManager) :
    (onTable tabName x).run m = match x.run (m.tables tabName) with
      | .ok a t => .ok a { m with tables := Function.update m.tables tabName t }
      | .error e t => .error (.rm e) { m with tables := Function.update m.tables tabName t } :=
  rfl

lemma records_undo_fixed {u t s : RmFile} {σ : Equiv.Perm Rid} {x : Option Bytes}
    (hσ : ∀ r, records u (σ r) = records s' r) (hr : σ rid = rid)
    (hs' : records s' = Function.update (records s) rid x)
    (ht : records t = Function.update (records u) rid (records s rid)) (r : Rid) :
    records t (σ r) = records s r := by
  rw [ht, Function.update_apply]
  split_ifs with he
  · rw [σ.injective (he.trans hr.symm)]
  · rw [hσ, hs', Function.update_noteq fun hrr => he (by rw [hrr, hr])]

lemma rollback_simulates (h₀ : Inv s₀) (fuel : Nat) (hw : Writes tab s₀ ws s)
    (hf : ws.Pairwise Fresh) (m : TxnManager) (σ : Equiv.Perm Rid) (hu : Inv (m.tables tab))
    (hσ : ∀ r, records (m.tables tab) (σ r) = records s r)
    (hfix : ∀ w ∈ ws, w.wtype ≠ .deleteTuple → σ w.rid = w.rid) :
    ∃ m', ∃ σ' : Equiv.Perm Rid, (rollback (fuel + 1) ws.reverse).run m = .ok () m' ∧
      ∀ r, records (m'.tables tab) (σ' r) = records s₀ r := by
  induction hw generalizing m σ with
  | nil => exact ⟨m, σ, rfl, hσ⟩
  | @insert ws s s' fuel' buf ctx rid hw' h ih =>
    obtain ⟨-, hnone, hm⟩ := insertRecord_step (hw'.inv h₀) h
    have hr : σ rid = rid := hfix ⟨.insertTuple, tab, rid, []⟩ (by simp) nofun
    have hlive : records (m.tables tab) rid ≠ none := by rw [← hr, hσ, hm]; simp
    obtain ⟨t, hd⟩ := deleteRecord_null_ok hlive
    obtain ⟨ht, hrt⟩ := deleteRecord_step hu hlive hd
    have hσt := records_undo_fixed hσ hr hm (by rw [hrt, hnone])
    obtain ⟨m', σ', hrun, hres⟩ := ih (List.pairwise_append.1 hf).1
      { m with tables := Function.update m.tables tab t } σ (by simpa using ht) (by simpa using hσt)
      (fun w hw hd => hfix w (List.mem_append_left _ hw) hd)
    exact ⟨m', σ', by simp [rollback, rollbackWrite, onTable_run, hd, hrun], hres⟩
  | @update ws s s' rid buf ctx b hw' hb h ih =>
    obtain ⟨-, hm⟩ := updateRecord_step (hw'.inv h₀) (by simp [hb]) h
    have hr : σ rid = rid := hfix ⟨.updateTuple, tab, rid, b⟩ (by simp) nofun
    have hlive : records (m.tables tab) rid ≠ none := by rw [← hr, hσ, hm]; simp
    obtain ⟨t, hd⟩ := updateRecord_null_ok hlive b
    obtain ⟨ht, hrt⟩ := updateRecord_step hu hlive hd
    have hσt := records_undo_fixed hσ hr hm (by rw [hrt, hb])
    obtain ⟨m', σ', hrun, hres⟩ := ih (List.pairwise_append.1 hf).1
      { m with tables := Function.update m.tables tab t } σ (by simpa using ht) (by simpa using hσt)
      (fun w hw hd => hfix w (List.mem_append_left _ hw) hd)
    exact ⟨m', σ', by simp [rollback, rollbackWrite, onTable_run, hd, hrun], hres⟩
  | @delete ws s s' rid ctx b hw' hb h ih =>
    obtain ⟨hf', -, hlast⟩ := List.pairwise_append.1 hf
    obtain ⟨-, hm⟩ := deleteRecord_step (hw'.inv h₀) (by simp [hb]) h
    have hlive := (hw'.delete hb h).live h₀ hf
    obtain ⟨r'', t, hi⟩ := insertRecord_null_ok hu fuel b
    obtain ⟨ht, hnone, hrt⟩ := insertRecord_step hu hi
    set σ₁ := σ.trans (Equiv.swap (σ rid) r'')
    have hσt : ∀ r, records t (σ₁ r) = records s r := by
      intro r
      rw [hrt, Equiv.trans_apply]
      by_cases hr : r = rid
      · rw [hr, Equiv.swap_apply_left, Function.update_same, hb]
      have hσr : σ r ≠ σ rid := σ.injective.ne hr
      have hs : records s r = records s' r := by rw [hm, Function.update_noteq hr]
      by_cases h2 : σ r = r''
      · rw [h2, Equiv.swap_apply_right, Function.update_noteq (h2 ▸ hσr.symm), hσ, hm,
          Function.update_same, hs, ← hσ, h2, hnone]
      · rw [Equiv.swap_apply_of_ne_of_ne hσr h2, Function.update_noteq h2, hσ, hs]
    have hfix₁ : ∀ w ∈ ws, w.wtype ≠ .deleteTuple → σ₁ w.rid = w.rid := by
      intro w hw hd
      have hne : w.rid ≠ rid := hlast w hw _ (List.mem_singleton_self _) rfl
      have hσw := hfix w (List.mem_append_left _ hw) hd
      rw [Equiv.trans_apply, hσw, Equiv.swap_apply_of_ne_of_ne]
      · exact fun he => hne (σ.injective (hσw.trans he))
      · intro he
        apply hlive w (List.mem_append_left _ hw) hd
        rw [← hσ, hσw, he, hnone]
    obtain ⟨m', σ', hrun, hres⟩ := ih hf' { m with tables := Function.update m.tables tab t } σ₁
      (by simpa using ht) (by simpa using hσt) hfix₁
    exact ⟨m', σ', by simp [rollback, rollbackWrite, onTable_run, hi, hrun], hres⟩

/-- `abort` undoes a write set whose deletes are fresh: from a table file reachable through the
record manager, whatever calls the transaction made (no entry naming a rid it later deleted),
`abort` returns, and the table holds the records it held when the transaction began, each
under a rid of a permutation of rids. With a log manager, its `ABORT` record must fit in the
space left in the buffer: the `add_log_to_buffer` and `flush_log_to_disk` it makes then return,
the latch free before and after each, and leave the log `abort` leaves. -/
theorem abort_restores_fresh_writes (size fuel : Nat) (lm : Bool) (m : TxnManager)
    (txnId : Int) (tab : String) (s₀ : RmFile) (h₀ : Reachable InRange s₀)
    (hw : Writes tab s₀ (m.txns txnId).writeSet (m.tables tab))
    (hf : (m.txns txnId).writeSet.Pairwise Fresh)
    (hfit : lm = true → isFull size m.log.offset LOG_HEADER_SIZE = false) :
    ∃ m', (abort size (fuel + 1) txnId lm).run m = .ok () m' ∧
      (lm = true → ∀ lfuel, ∃ r l, (Latch.addLogToBuffer size (lfuel + 1)
          (.ofType .abort (m.txns txnId).txnId (m.txns txnId).prevLsn)).run ⟨m.log, false⟩ =
          .ok r ⟨l, false⟩ ∧
        (Latch.flushLogToDisk (lfuel + 1)).run ⟨l, false⟩ = .ok () ⟨m'.log, false⟩) ∧
      ∃ σ : Equiv.Perm Rid, ∀ rid, records (m'.tables tab) (σ rid) = records s₀ rid := by
  have hi := inv_reachable h₀
  obtain ⟨m₁, σ, hr, hres⟩ := rollback_simulates hi fuel hw hf m (Equiv.refl _) (hw.inv hi)
    (fun _ => rfl) fun _ _ _ => rfl
  obtain ⟨tables, hm₁⟩ := LogChain.tablesOnly_rollback (fuel + 1) (m.txns txnId).writeSet.reverse m
  rw [hr, EStateM.Result.state_ok] at hm₁
  subst hm₁
  obtain ⟨m', ha, ht, hlog⟩ := Lifecycle.abort_of_rollback size (fuel + 1) lm hr
  refine ⟨m', ha, fun hlm lfuel => ⟨_, _, Latch.addLogToBuffer_fits size lfuel m.log
    (.ofType .abort (m.txns txnId).txnId (m.txns txnId).prevLsn) (hfit hlm), ?_⟩, σ,
    fun r => ht ▸ hres r⟩
  rw [hlog, if_pos hlm]
  exact Latch.flushLogToDisk_free lfuel _

lemma isSlot_updateRecord {s s' : RmFile} {rid r : Rid} {buf : Bytes} {ctx : Option Context}
    (hs : IsSlot s r) (h : (updateRecord rid buf ctx).run s = .ok () s') : IsSlot s' r := by
  simpa [RmCall.run, h] using hs.run 0 (.updateRecord rid buf ctx)

lemma isSlot_deleteRecord {s s' : RmFile} {rid r : Rid} {ctx : Option Context}
    (hs : IsSlot s r) (h : (deleteRecord rid ctx).run s = .ok () s') : IsSlot s' r := by
  simpa [RmCall.run, h] using hs.run 0 (.deleteRecord rid ctx)

lemma isSlot_insertRecord {s s' : RmFile} {rid r : Rid} {buf : Bytes} {ctx : Option Context}
    {fuel : Nat} (hs : IsSlot s r) (h : (insertRecord fuel buf ctx).run s = .ok rid s') :
    IsSlot s' r := by
  simpa [RmCall.run, h] using hs.run fuel (.insertRecord buf ctx)

/-- Undoing a delete puts the record back wherever `insert_record` puts it, while the entry of an
update before it still names the old rid. From a table file reachable through the record
manager, if the transaction updated the record at `rid` and then deleted it, and `insert_record`
of the deleted bytes returns another rid, `abort` raises `RecordNotFound` on `rid`: the record
is back under the other rid with the bytes the update wrote, and `rid` holds nothing. -/
theorem abort_raises_on_update_then_delete (size fuel : Nat) (lm : Bool) (m : TxnManager)
    (txnId : Int) (tab : String) (s₀ s₁ : RmFile) (h₀ : Reachable InRange s₀) (rid : Rid)
    (b b' : Bytes) (ctx ctx' : Option Context) (hb : records s₀ rid = some b)
    (hupd : (updateRecord rid b' ctx).run s₀ = .ok () s₁)
    (hdel : (deleteRecord rid ctx').run s₁ = .ok () (m.tables tab))
    (hws : (m.txns txnId).writeSet =
      [⟨.updateTuple, tab, rid, b⟩, ⟨.deleteTuple, tab, rid, b'⟩])
    (hmoved : ∀ rid' s', (insertRecord (fuel + 1) b' none).run (m.tables tab) = .ok rid' s' →
      rid' ≠ rid) :
    ∃ m', (abort size (fuel + 1) txnId lm).run m =
        .error (.rm (.recordNotFound rid.pageNo rid.slotNo)) m' ∧
      records (m'.tables tab) rid = none ∧
      ∃ rid', rid' ≠ rid ∧ records (m'.tables tab) rid' = some b' := by
  have hs₀ := inv_reachable h₀
  obtain ⟨hs₁, hm₁⟩ := updateRecord_step hs₀ (by simp [hb]) hupd
  have hr₁ : records s₁ rid = some b' := by rw [hm₁, Function.update_same]
  obtain ⟨hs₂, hm₂⟩ := deleteRecord_step hs₁ (by simp [hr₁]) hdel
  obtain ⟨rid', s₃, hi⟩ := insertRecord_null_ok hs₂ fuel b'
  obtain ⟨-, -, hm₃⟩ := insertRecord_step hs₂ hi
  have hne := hmoved rid' s₃ hi
  have hslot : IsSlot s₃ rid := isSlot_insertRecord (isSlot_deleteRecord (isSlot_updateRecord
    (records_eq_some.1 hb).1 hupd) hdel) hi
  have hnone : records s₃ rid = none := by rw [hm₃, Function.update_noteq hne.symm, hm₂,
    Function.update_same]
  have hbit : (s₃.pages rid.pageNo).bitmap rid.slotNo = false := by
    simpa [records_isSlot hslot] using hnone
  have hu : (updateRecord rid b none).run s₃ =
      .error (.recordNotFound rid.pageNo rid.slotNo) (s₃.pin rid.pageNo) := by
    rw [updateRecord_run, if_neg hslot.fetchable, if_pos hbit]
  refine ⟨{ m with tables := Function.update m.tables tab (s₃.pin rid.pageNo) },
    by simp [abort, hws, rollback, rollbackWrite, onTable_run, hi, hu], by simpa using hnone, rid',
    hne, by simp [hm₃]⟩

def halfPage : RmFile :=
  runCalls 1 [.insertRecord [0] none, .insertRecord [1] none, .deleteRecord ⟨1, 0⟩ none]
    (emptyFile 2)

lemma halfPage_reachable : Reachable InRange halfPage :=
  (((Reachable.empty (s := emptyFile 2) ⟨rfl, rfl, by decide⟩).run (.insertRecord [0] none) 1
    trivial fun _ h => by cases h).run (.insertRecord [1] none) 1 trivial fun _ h => by cases h).run
    (.deleteRecord ⟨1, 0⟩ none) 1 (show IsSlot _ ⟨1, 0⟩ by decide) fun _ h => by cases h

def txnContext : Option Context :=
  some ⟨true, fun _ _ => true⟩

def withWrites (ws : List WriteRecord) (file : RmFile) : TxnManager :=
  { Lifecycle.initManager with
    txns := fun _ => { Transaction.new 0 with state := .growing, writeSet := ws },
    tables := fun _ => file }

def updatedOnce : RmFile :=
  ((updateRecord ⟨1, 1⟩ [2] txnContext).run halfPage).state

def updatedThenDeleted : RmFile :=
  ((deleteRecord ⟨1, 1⟩ txnContext).run updatedOnce).state

theorem abort_raises_on_update_then_delete_halfPage :
    let m := withWrites [⟨.updateTuple, "t", ⟨1, 1⟩, [1]⟩, ⟨.deleteTuple, "t", ⟨1, 1⟩, [2]⟩]
      updatedThenDeleted
    (Reachable InRange halfPage ∧ records halfPage ⟨1, 1⟩ = some [1] ∧
      (updateRecord ⟨1, 1⟩ [2] txnContext).run halfPage = .ok () updatedOnce ∧
      (deleteRecord ⟨1, 1⟩ txnContext).run updatedOnce = .ok () (m.tables "t") ∧
      (m.txns 0).writeSet = [⟨.updateTuple, "t", ⟨1, 1⟩, [1]⟩, ⟨.deleteTuple, "t", ⟨1, 1⟩, [2]⟩] ∧
      ∀ rid' s', (insertRecord (0 + 1) [2] none).run (m.tables "t") = .ok rid' s' →
        rid' ≠ ⟨1, 1⟩) ∧
    ∃ m', (abort 64 (0 + 1) 0 true).run m = .error (.rm (.recordNotFound 1 1)) m' ∧
      records (m'.tables "t") ⟨1, 1⟩ = none ∧
      ∃ rid', rid' ≠ ⟨1, 1⟩ ∧ records (m'.tables "t") rid' = some [2] :=
  have hmoved : ∀ rid' s', (insertRecord (0 + 1) [2] none).run updatedThenDeleted =
      .ok rid' s' → rid' ≠ ⟨1, 1⟩ := fun rid' s' h => by
    rw [show (insertRecord (0 + 1) [2] none).run updatedThenDeleted =
      .ok ⟨1, 0⟩ ((insertRecord 1 [2] none).run updatedThenDeleted).state from rfl] at h
    cases h
    decide
  ⟨⟨halfPage_reachable, by decide, rfl, rfl, rfl, hmoved⟩,
    abort_raises_on_update_then_delete 64 0 true _ 0 "t" halfPage updatedOnce halfPage_reachable
      ⟨1, 1⟩ [1] [2] txnContext txnContext (by decide) rfl rfl rfl hmoved⟩

def deletedOnce : RmFile :=
  ((deleteRecord ⟨1, 1⟩ txnContext).run halfPage).state

lemma writes_deletedOnce :
    Writes "t" halfPage [⟨.deleteTuple, "t", ⟨1, 1⟩, [1]⟩] deletedOnce :=
  @Writes.delete "t" halfPage [] halfPage deletedOnce ⟨1, 1⟩ txnContext [1] .nil (by decide) rfl

theorem abort_restores_fresh_writes_deletedOnce :
    let m := withWrites [⟨.deleteTuple, "t", ⟨1, 1⟩, [1]⟩] deletedOnce
    records (((abort 64 1 0 true).run m).state.tables "t") ⟨1, 0⟩ = some [1] ∧
    (Reachable InRange halfPage ∧ Writes "t" halfPage (m.txns 0).writeSet (m.tables "t") ∧
      (m.txns 0).writeSet.Pairwise Fresh ∧
      (true = true → isFull 64 m.log.offset LOG_HEADER_SIZE = false)) ∧
    ∃ m', (abort 64 (0 + 1) 0 true).run m = .ok () m' ∧
      (true = true → ∀ lfuel, ∃ r l, (Latch.addLogToBuffer 64 (lfuel + 1)
          (.ofType .abort (m.txns 0).txnId (m.txns 0).prevLsn)).run ⟨m.log, false⟩ =
          .ok r ⟨l, false⟩ ∧
        (Latch.flushLogToDisk (lfuel + 1)).run ⟨l, false⟩ = .ok () ⟨m'.log, false⟩) ∧
      ∃ σ : Equiv.Perm Rid, ∀ rid, records (m'.tables "t") (σ rid) = records halfPage rid :=
  ⟨by decide, ⟨halfPage_reachable, writes_deletedOnce, by decide, fun _ => rfl⟩,
    abort_restores_fresh_writes 64 0 true _ 0 "t" halfPage halfPage_reachable writes_deletedOnce
      (by decide) fun _ => rfl⟩

end Rmdb.Transaction.Rollback

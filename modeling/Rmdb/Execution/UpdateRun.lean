import Rmdb.Execution.Update

/-! One iteration of `UpdateExecutor::Next`, and the exceptions it can raise. -/

namespace Rmdb.Execution.Update

open Rmdb.Defs Rmdb.Record.FileHandle Rmdb.Execution.Predicate

lemma applySetClause_ok {tab : TabMeta} {record r : Bytes} {setClause : SetClause}
    (h : applySetClause tab record setClause = .ok r) :
    ∃ col raw, tab.getCol setClause.lhs.colName = .ok col ∧ col.type = setClause.rhs.type ∧
      setClause.rhs.initRaw col.len = some raw ∧ r = memcpy record col.offset raw col.len := by
  simp only [applySetClause, Except.bind_eq_ok] at h
  obtain ⟨col, hc, h⟩ := h
  split_ifs at h with hty
  · cases h
  split at h
  · next raw hraw => exact ⟨col, raw, hc, not_not.mp hty, hraw, (Except.pure_eq_ok.mp h).symm⟩
  · cases h

lemma applySetClause_error {tab : TabMeta} {record : Bytes} {setClause : SetClause} {e : UpdateError}
    (h : applySetClause tab record setClause = .error e) :
    tab.getCol setClause.lhs.colName = .error e ∨
      (∃ col, tab.getCol setClause.lhs.colName = .ok col ∧ col.type ≠ setClause.rhs.type ∧
        e = .incompatibleType col.type setClause.rhs.type) ∨ e = .stringOverflow := by
  unfold applySetClause at h
  rcases hc : tab.getCol setClause.lhs.colName with e' | col <;>
    simp only [hc, bind, Except.bind] at h
  · exact .inl (by rw [Except.error.inj h])
  split_ifs at h with hty
  · exact .inr (.inl ⟨col, rfl, hty, (Except.error.inj h).symm⟩)
  · rcases hraw : setClause.rhs.initRaw col.len with _ | raw <;> simp only [hraw] at h
    · exact .inr (.inr (Except.error.inj h).symm)
    · cases h

lemma applySetClauses_not_incompatible {tab : TabMeta} :
    ∀ {setClauses : List SetClause}, (∀ sc ∈ setClauses, ∃ col, tab.getCol sc.lhs.colName = .ok col ∧
      sc.rhs.type = col.type) → ∀ record e, applySetClauses tab record setClauses = .error e →
      ∀ l r, e ≠ .incompatibleType l r
  | [], _, _, _, h => by cases h
  | sc :: scs, hsc, record, e, h => by
    simp only [applySetClauses, bind, Except.bind] at h
    rcases ha : applySetClause tab record sc with e' | r <;> rw [ha] at h
    · cases h
      obtain ⟨col, hcol, hty⟩ := hsc sc (List.mem_cons_self _ _)
      rcases applySetClause_error ha with hg | ⟨col', hg, hne, rfl⟩ | rfl
      · rw [hcol] at hg; cases hg
      · rw [hcol, Except.ok.injEq] at hg; subst hg; exact absurd hty.symm hne
      · intro l r; nofun
    · exact applySetClauses_not_incompatible (fun sc' hs => hsc sc' (List.mem_cons_of_mem _ hs)) r e h

def RaisesOnly (P : UpdateError → Prop) (x : DbM α) : Prop :=
  ∀ db e db', x.run db = .error e db' → P e

namespace RaisesOnly

variable {P : UpdateError → Prop}

lemma bind {x : DbM α} {f : α → DbM β} (hx : RaisesOnly P x) (hf : ∀ a, RaisesOnly P (f a)) :
    RaisesOnly P (x >>= f) := by
  intro db e db' h
  rw [EStateM.run_bind] at h
  rcases hr : x.run db with ⟨a, d⟩ | ⟨e', d⟩ <;> rw [hr] at h
  · exact hf a d e db' h
  · cases h
    exact hx _ _ _ hr

lemma pure (a : α) : RaisesOnly P (pure a : DbM α) := by
  intro db e db' h; cases h

lemma indexes (hnull : P .nullContext) (tabName : String) (tab : TabMeta) (ctx : Option Context)
    (record newRecord : Bytes) (rid : Rid) :
    RaisesOnly P (updateIndexes tabName tab ctx record newRecord rid) := by
  intro db e db' h
  rw [updateIndexes_run] at h
  split_ifs at h
  cases h
  exact hnull

lemma onFh (hrm : ∀ e, P (.rm e)) (tabName : String) (x : RmM α) : RaisesOnly P (onFh tabName x) := by
  intro db e db' h
  rw [onFh_run] at h
  split at h <;> cases h
  exact hrm _

lemma ofExcept {r : Except UpdateError α} (hr : ∀ e, r = .error e → P e) :
    RaisesOnly P (ofExcept r) := by
  cases r with
  | error e => intro db e' db' h; cases h; exact hr e rfl
  | ok a => exact .pure a

lemma forM (xs : List β) {f : β → DbM PUnit} (hf : ∀ b, RaisesOnly P (f b)) :
    RaisesOnly P (xs.forM f) := by
  induction xs with
  | nil => exact .pure _
  | cons x xs ih => exact (hf x).bind fun _ => ih

end RaisesOnly

namespace UpdateExecutor

variable (ex : UpdateExecutor)

lemma raisesOnly_next {P : UpdateError → Prop} (hrm : ∀ e, P (.rm e))
    (happly : ∀ record e, applySetClauses ex.tab record ex.setClauses = .error e → P e)
    (hnull : P .nullContext) : RaisesOnly P ex.next := by
  unfold next
  split
  · exact .pure _
  · exact .forM _ fun rid => (RaisesOnly.onFh hrm _ _).bind fun record =>
      (RaisesOnly.ofExcept (happly record)).bind fun _ =>
        (RaisesOnly.indexes hnull _ _ _ _ _ _).bind fun _ => RaisesOnly.onFh hrm _ _

lemma updateRid_refused (db : Db) (rid : Rid) (newRecord : Bytes)
    (h0 : 0 ≤ rid.pageNo) (hp : rid.pageNo < (db.mgr.tables ex.tabName).numPages)
    (hb : ((db.mgr.tables ex.tabName).pages rid.pageNo).bitmap rid.slotNo = true)
    (hshared : Context.refuses ex.ctx .shared rid = false)
    (hexcl : Context.refuses ex.ctx .exclusive rid = true)
    (happly : applySetClauses ex.tab (((db.mgr.tables ex.tabName).pages rid.pageNo).slots rid.slotNo)
      ex.setClauses = .ok newRecord) :
    ∃ db', (ex.updateRid rid).run db = .error (.rm .transactionAbort) db' ∧
      (db'.mgr.tables ex.tabName).pages = (db.mgr.tables ex.tabName).pages ∧
      db'.ihs = ex.tab.indexes.foldl (reindex ex.tabName
        (((db.mgr.tables ex.tabName).pages rid.pageNo).slots rid.slotNo) newRecord rid) db.ihs := by
  have hin : ¬(rid.pageNo ≥ (db.mgr.tables ex.tabName).numPages ∨ rid.pageNo < 0) := by omega
  have hb' : ¬((db.mgr.tables ex.tabName).pages rid.pageNo).bitmap rid.slotNo = false := by
    simp [hb]
  rcases hget : (getRecord rid ex.ctx).run (db.mgr.tables ex.tabName) with ⟨b, s₁⟩ | ⟨e, s₁⟩
  swap
  · simp [getRecord_run, hin, hb', hshared] at hget
  obtain ⟨-, rfl, hpg, hnp⟩ := getRecord_ok hget
  have hupd : (updateRecord rid newRecord ex.ctx).run s₁ =
      .error .transactionAbort (s₁.pin rid.pageNo) := by
    simp [updateRecord_run, hnp, hpg, hin, hb', hexcl]
  have hidx : (ex.ctx.isNone && !ex.tab.indexes.isEmpty) = false := by
    cases hc : ex.ctx <;> simp_all [Context.refuses]
  rcases hrun : (ex.updateRid rid).run db with ⟨_, db'⟩ | ⟨e, db'⟩ <;>
    simp [updateRid, onFh_run, hget, ofExcept, happly, updateIndexes_run, hidx, hupd] at hrun
  obtain ⟨rfl, rfl⟩ := hrun
  exact ⟨_, rfl, by simp [hpg], rfl⟩

/-- A row of `UPDATE` is not atomic: when `Next` begins with a rid whose record it may read,
whose set clauses apply, and whose `update_record` is refused its lock, `Next` raises with the
record's bytes as they were and every index of the table already moved to the record's new
key. -/
theorem next_leaves_row_half_updated (db : Db) (rid : Rid) (rids : List Rid) (newRecord : Bytes)
    (hr : ex.rids = rid :: rids)
    (h0 : 0 ≤ rid.pageNo) (hp : rid.pageNo < (db.mgr.tables ex.tabName).numPages)
    (hb : ((db.mgr.tables ex.tabName).pages rid.pageNo).bitmap rid.slotNo = true)
    (hshared : Context.refuses ex.ctx .shared rid = false)
    (hexcl : Context.refuses ex.ctx .exclusive rid = true)
    (happly : applySetClauses ex.tab (((db.mgr.tables ex.tabName).pages rid.pageNo).slots rid.slotNo)
      ex.setClauses = .ok newRecord) :
    ∃ db', ex.next.run db = .error (.rm .transactionAbort) db' ∧
      (db'.mgr.tables ex.tabName).pages = (db.mgr.tables ex.tabName).pages ∧
      db'.ihs = ex.tab.indexes.foldl (reindex ex.tabName
        (((db.mgr.tables ex.tabName).pages rid.pageNo).slots rid.slotNo) newRecord rid) db.ihs := by
  obtain ⟨db', hrun, hpages, hihs⟩ :=
    ex.updateRid_refused db rid newRecord h0 hp hb hshared hexcl happly
  refine ⟨db', ?_, hpages, hihs⟩
  simp only [next, hr, List.isEmpty_cons, Bool.false_eq_true, if_false, List.forM,
    EStateM.run_bind, EStateM.run_pure, hrun]

def updateRowSharedOnly : UpdateExecutor :=
  { updateRow with ctx := some ⟨true, fun mode _ => decide (mode = .shared)⟩ }

theorem next_leaves_row_half_updated_beganOnRow :
    ∃ db', updateRowSharedOnly.next.run beganOnRow = .error (.rm .transactionAbort) db' ∧
      (db'.mgr.tables "t").pages = (beganOnRow.mgr.tables "t").pages ∧
      db'.ihs = tabT.indexes.foldl (reindex "t" (row 1 10) (row 2 20) ⟨1, 0⟩) beganOnRow.ihs :=
  updateRowSharedOnly.next_leaves_row_half_updated beganOnRow ⟨1, 0⟩ [] (row 2 20) rfl
    (by decide) (by decide) rfl rfl rfl rfl

example : ((beganOnRow.mgr.tables "t").pages 1).slots 0 = row 1 10 ∧
    tabT.indexes.foldl (reindex "t" (row 1 10) (row 2 20) ⟨1, 0⟩) beganOnRow.ihs "t" ["k"]
      (encodeLE 4 1) = none ∧
    tabT.indexes.foldl (reindex "t" (row 1 10) (row 2 20) ⟨1, 0⟩) beganOnRow.ihs "t" ["k"]
      (encodeLE 4 2) = some ⟨1, 0⟩ :=
  ⟨rfl, rfl, rfl⟩

end UpdateExecutor

end Rmdb.Execution.Update

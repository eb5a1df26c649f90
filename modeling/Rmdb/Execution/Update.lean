import Rmdb.Execution.Predicate
import Rmdb.Transaction.Lifecycle

/-! The update executor of `executor_update.h`. -/

namespace Rmdb.Execution.Update

open Rmdb.Defs Rmdb.Record.FileHandle Rmdb.Execution.Predicate Rmdb.Transaction.Manager

structure SetClause where
  lhs : TabCol
  rhs : Value

/-- Modelled from the spec: an index names its columns in declaration order. -/
structure IndexMeta where
  cols : List ColMeta
  colTotLen : Nat

/-- Modelled from the spec: a table's columns and indexes. -/
structure TabMeta where
  name : String
  cols : List ColMeta
  indexes : List IndexMeta

inductive UpdateError
  | rm (e : RmError)
  | columnNotFound (colName : String)
  | incompatibleType (lhs rhs : ColType)
  | stringOverflow
  | nullContext

/-- Modelled from the spec: `TabMeta::get_col` finds a column by name. -/
def TabMeta.getCol (tab : TabMeta) (colName : String) : Except UpdateError ColMeta :=
  match tab.cols.find? (·.name = colName) with
  | some col => .ok col
  | none => .error (.columnNotFound colName)

/-- Modelled from the spec: an index is an associative map from key bytes to a rid. -/
abbrev IxIndex := Bytes → Option Rid

/-- Modelled from the spec: `insert_entry(key, rid, txn)`. -/
def insertEntry (key : Bytes) (rid : Rid) (ih : IxIndex) : IxIndex :=
  Function.update ih key (some rid)

/-- Modelled from the spec: `delete_entry(key, txn)`. -/
def deleteEntry (key : Bytes) (ih : IxIndex) : IxIndex :=
  Function.update ih key none

/-- Modelled from the spec: a key is the record's bytes at the index's columns, concatenated in
declaration order. -/
def IndexMeta.key (index : IndexMeta) (record : Bytes) : Bytes :=
  index.cols.flatMap fun col => slice record col.offset col.len

/-- `memcpy(dst + off, src, n)` on the bytes of a record. -/
def memcpy (dst : Bytes) (off : Nat) (src : Bytes) (n : Nat) : Bytes :=
  dst.take off ++ src.take n ++ dst.drop (off + n)

/-- What the executors work on: the transaction manager, whose table files are
`sm_manager_->fhs_`, and the index handles of `sm_manager_->ihs_`, named by the table and the
index's column names. -/
structure Db where
  mgr : TxnManager
  ihs : String → List String → IxIndex

abbrev DbM := EStateM UpdateError Db

/-- A record-manager call on the file of table `tabName`. -/
def onFh (tabName : String) (x : RmM α) : DbM α := fun db =>
  let withFile t := { db with mgr := { db.mgr with tables := Function.update db.mgr.tables tabName t } }
  match x.run (db.mgr.tables tabName) with
  | .ok a t => .ok a (withFile t)
  | .error e t => .error (.rm e) (withFile t)

def ofExcept : Except UpdateError α → DbM α
  | .ok a => pure a
  | .error e => throw e

/-- The fields of the executor `Next` reads: the table, the set clauses, the rids of the plan
and the context. -/
structure UpdateExecutor where
  tabName : String
  tab : TabMeta
  setClauses : List SetClause
  rids : List Rid
  ctx : Option Context

/-- One set clause on the copy of a record: find the column, check the type, encode the value
and copy it over the column's bytes. -/
def applySetClause (tab : TabMeta) (record : Bytes) (setClause : SetClause) :
    Except UpdateError Bytes := do
  let col ← tab.getCol setClause.lhs.colName
  if col.type ≠ setClause.rhs.type then throw (.incompatibleType col.type setClause.rhs.type)
  let some raw := setClause.rhs.initRaw col.len | throw .stringOverflow
  return memcpy record col.offset raw col.len

def applySetClauses (tab : TabMeta) : Bytes → List SetClause → Except UpdateError Bytes
  | record, [] => pure record
  | record, setClause :: setClauses => do
    applySetClauses tab (← applySetClause tab record setClause) setClauses

/-- One index moved from the key of the old record to the key of the new one. -/
def reindex (tabName : String) (record newRecord : Bytes) (rid : Rid)
    (ihs : String → List String → IxIndex) (index : IndexMeta) : String → List String → IxIndex :=
  let name := index.cols.map (·.name)
  Function.update ihs tabName (Function.update (ihs tabName) name
    (insertEntry (index.key newRecord) rid (deleteEntry (index.key record) (ihs tabName name))))

/-- The index loop of `Next`: every index moved from the old record's key to the new one's.
Its first `delete_entry` dereferences `context_`, so a null context fails there. -/
def updateIndexes (tabName : String) (tab : TabMeta) (ctx : Option Context)
    (record newRecord : Bytes) (rid : Rid) : DbM Unit :=
  if ctx.isNone && !tab.indexes.isEmpty then throw .nullContext
  else modify fun db => { db with ihs := tab.indexes.foldl (reindex tabName record newRecord rid) db.ihs }

namespace UpdateExecutor

variable (ex : UpdateExecutor)

/-- The body of `Next`'s loop for one rid. -/
def updateRid (rid : Rid) : DbM Unit := do
  let record ← onFh ex.tabName (getRecord rid ex.ctx)
  let newRecord ← ofExcept (applySetClauses ex.tab record ex.setClauses)
  updateIndexes ex.tabName ex.tab ex.ctx record newRecord rid
  onFh ex.tabName (updateRecord rid newRecord ex.ctx)

/-- `Next`: it returns `nullptr` in every case. -/
def next : DbM Unit := do
  if ex.rids.isEmpty then return
  ex.rids.forM ex.updateRid

end UpdateExecutor

lemma onFh_run (tabName : String) (x : RmM α) (db : Db) :
    (onFh tabName x).run db = match x.run (db.mgr.tables tabName) with
      | .ok a t =>
        .ok a { db with mgr := { db.mgr with tables := Function.update db.mgr.tables tabName t } }
      | .error e t => .error (.rm e)
        { db with mgr := { db.mgr with tables := Function.update db.mgr.tables tabName t } } :=
  rfl

lemma updateIndexes_run (tabName : String) (tab : TabMeta) (ctx : Option Context)
    (record newRecord : Bytes) (rid : Rid) (db : Db) :
    (updateIndexes tabName tab ctx record newRecord rid).run db =
      if ctx.isNone && !tab.indexes.isEmpty then .error .nullContext db
      else .ok () { db with ihs := tab.indexes.foldl (reindex tabName record newRecord rid) db.ihs } := by
  unfold updateIndexes
  split_ifs <;> rfl

lemma updateIndexes_of_ctx {ctx : Option Context} {tab : TabMeta} (h : ctx.isSome ∨ tab.indexes = [])
    (tabName : String) (record newRecord : Bytes) (rid : Rid) (db : Db) :
    (updateIndexes tabName tab ctx record newRecord rid).run db =
      .ok () { db with ihs := tab.indexes.foldl (reindex tabName record newRecord rid) db.ihs } := by
  rw [updateIndexes_run, if_neg]
  cases ctx <;> simp_all

def KeepsTxns (x : DbM α) : Prop :=
  ∀ db a db', x.run db = .ok a db' → db'.mgr.txns = db.mgr.txns

lemma KeepsTxns.bind {x : DbM α} {f : α → DbM β} (hx : KeepsTxns x)
    (hf : ∀ a, KeepsTxns (f a)) : KeepsTxns (x >>= f) := by
  intro db b db' h
  rw [EStateM.run_bind] at h
  rcases hr : x.run db with ⟨a, d⟩ | ⟨e, d⟩ <;> rw [hr] at h
  · exact (hf a d b db' h).trans (hx db a d hr)
  · cases h

lemma keepsTxns_pure (a : α) : KeepsTxns (pure a : DbM α) := by
  intro db b db' h; cases h; rfl

lemma keepsTxns_onFh (tabName : String) (x : RmM α) : KeepsTxns (onFh tabName x) := by
  intro db a db' h
  rw [onFh_run] at h
  split at h <;> cases h
  rfl

lemma keepsTxns_ofExcept (r : Except UpdateError α) : KeepsTxns (ofExcept r) := by
  cases r
  · intro db a db' h; cases h
  · exact keepsTxns_pure _

lemma keepsTxns_updateIndexes (tabName : String) (tab : TabMeta) (ctx : Option Context)
    (record newRecord : Bytes) (rid : Rid) :
    KeepsTxns (updateIndexes tabName tab ctx record newRecord rid) := by
  intro db a db' h
  rw [updateIndexes_run] at h
  split_ifs at h
  cases h
  rfl

lemma KeepsTxns.forM (xs : List β) {f : β → DbM PUnit} (hf : ∀ b, KeepsTxns (f b)) :
    KeepsTxns (xs.forM f) := by
  induction xs with
  | nil => exact keepsTxns_pure _
  | cons x xs ih => exact (hf x).bind fun _ => ih

namespace UpdateExecutor

variable {ex : UpdateExecutor}

lemma keepsTxns_updateRid (rid : Rid) : KeepsTxns (ex.updateRid rid) :=
  (keepsTxns_onFh _ _).bind fun _ => (keepsTxns_ofExcept _).bind fun _ =>
    (keepsTxns_updateIndexes _ _ _ _ _ _).bind fun _ => keepsTxns_onFh _ _

lemma keepsTxns_next : KeepsTxns ex.next := by
  unfold next
  split
  · exact keepsTxns_pure _
  · exact KeepsTxns.forM _ keepsTxns_updateRid

lemma next_singleton {rid : Rid} {db db₁ : Db} (hr : ex.rids = [rid])
    (h : ex.next.run db = .ok () db₁) :
    ∃ newRecord, applySetClauses ex.tab
        (((db.mgr.tables ex.tabName).pages rid.pageNo).slots rid.slotNo) ex.setClauses =
        .ok newRecord ∧
      ((db₁.mgr.tables ex.tabName).pages rid.pageNo).slots rid.slotNo = newRecord := by
  simp only [next, hr, List.isEmpty_cons, Bool.false_eq_true, if_false, List.forM,
    EStateM.run_bind, EStateM.run_pure, updateRid] at h
  rcases hg : (getRecord rid ex.ctx).run (db.mgr.tables ex.tabName) with ⟨record, t⟩ | ⟨e, t⟩
  · obtain ⟨-, rfl, -, -⟩ := getRecord_ok hg
    rcases ha : applySetClauses ex.tab
      (((db.mgr.tables ex.tabName).pages rid.pageNo).slots rid.slotNo) ex.setClauses
      with e | newRecord
    · simp [onFh_run, hg, ha, ofExcept] at h
    refine ⟨newRecord, rfl, ?_⟩
    cases hx : ex.ctx.isNone && !ex.tab.indexes.isEmpty
    swap
    · simp [onFh_run, hg, ha, ofExcept, updateIndexes_run, hx] at h
    rcases hu : (updateRecord rid newRecord ex.ctx).run t with ⟨⟨⟩, t'⟩ | ⟨e, t'⟩
    · simp only [onFh_run, hg, ha, ofExcept, EStateM.run_bind, EStateM.run_pure,
        updateIndexes_run, hx, Bool.false_eq_true, if_false, Function.update_same, hu,
        EStateM.Result.ok.injEq,
        true_and] at h
      subst h
      simp [updateRecord_ok hu]
    · simp [onFh_run, hg, ha, ofExcept, updateIndexes_run, hx, hu] at h
  · simp [onFh_run, hg] at h

/-- `Next` appends nothing to the write set, so `abort` does not undo it. When `Next` returns,
the transaction objects are those it started from. If the transaction's write set was empty,
`abort` then returns and leaves the table files as `Next` left them (and it never touches the
indexes): on a plan of one rid, the record there keeps the values of the set clauses. -/
theorem update_not_undone_by_abort (ex : UpdateExecutor) (size fuel : Nat) (txnId : Int)
    (db db₁ : Db) (hnext : ex.next.run db = .ok () db₁)
    (hws : (db.mgr.txns txnId).writeSet = []) :
    db₁.mgr.txns = db.mgr.txns ∧
    ∃ m', (abort size fuel txnId true).run db₁.mgr = .ok () m' ∧ m'.tables = db₁.mgr.tables ∧
      ∀ rid, ex.rids = [rid] → ∃ newRecord,
        applySetClauses ex.tab (((db.mgr.tables ex.tabName).pages rid.pageNo).slots rid.slotNo)
          ex.setClauses = .ok newRecord ∧
        ((m'.tables ex.tabName).pages rid.pageNo).slots rid.slotNo = newRecord := by
  have ht := keepsTxns_next db () db₁ hnext
  obtain ⟨m', ha, hm⟩ := Transaction.Lifecycle.abort_of_writeSet_nil size fuel true
    (show (db₁.mgr.txns txnId).writeSet = [] by rw [ht]; exact hws)
  exact ⟨ht, m', ha, hm, fun rid hr => hm ▸ next_singleton hr hnext⟩

def row (k v : Int) : Bytes :=
  encodeLE 4 k ++ encodeLE 4 v

def colK : ColMeta := ⟨"t", "k", .int, 4, 0⟩

def colV : ColMeta := ⟨"t", "v", .int, 4, 4⟩

def tabT : TabMeta := ⟨"t", [colK, colV], [⟨[colK], 4⟩]⟩

def beganOnRow : Db :=
  ⟨{ ((Transaction.Manager.begin 64 none true).run Transaction.Lifecycle.initManager).state with
      tables := fun _ => Record.Calls.runCalls 1 [.insertRecord (row 1 10) none]
        (Record.Calls.emptyFile 1) },
    fun tab cols => if tab = "t" ∧ cols = ["k"] then
      fun key => if key = encodeLE 4 1 then some ⟨1, 0⟩ else none else fun _ => none⟩

def updateRow : UpdateExecutor :=
  ⟨"t", tabT, [⟨⟨"t", "k"⟩, ⟨.int, 2, 0, [], none⟩⟩, ⟨⟨"t", "v"⟩, ⟨.int, 20, 0, [], none⟩⟩],
    [⟨1, 0⟩], some ⟨true, fun _ _ => true⟩⟩

theorem update_not_undone_by_abort_beganOnRow :
    updateRow.next.run beganOnRow = .ok () (updateRow.next.run beganOnRow).state ∧
    (beganOnRow.mgr.txns 0).writeSet = [] ∧
    ((beganOnRow.mgr.tables "t").pages 1).slots 0 = row 1 10 ∧
    applySetClauses tabT (row 1 10) updateRow.setClauses = .ok (row 2 20) ∧
    (updateRow.next.run beganOnRow).state.ihs "t" ["k"] (encodeLE 4 1) = none ∧
    (updateRow.next.run beganOnRow).state.ihs "t" ["k"] (encodeLE 4 2) = some ⟨1, 0⟩ ∧
    ((updateRow.next.run beganOnRow).state.mgr.txns = beganOnRow.mgr.txns ∧
    ∃ m', (abort 64 1 0 true).run (updateRow.next.run beganOnRow).state.mgr = .ok () m' ∧
      m'.tables = (updateRow.next.run beganOnRow).state.mgr.tables ∧
      ∀ rid, updateRow.rids = [rid] → ∃ newRecord,
        applySetClauses updateRow.tab
          (((beganOnRow.mgr.tables updateRow.tabName).pages rid.pageNo).slots rid.slotNo)
          updateRow.setClauses = .ok newRecord ∧
        ((m'.tables updateRow.tabName).pages rid.pageNo).slots rid.slotNo = newRecord) :=
  ⟨rfl, rfl, rfl, rfl, rfl, rfl,
    update_not_undone_by_abort updateRow 64 1 0 beganOnRow _ rfl rfl⟩

end UpdateExecutor

end Rmdb.Execution.Update

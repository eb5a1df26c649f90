import Rmdb.Transaction.Lifecycle

/-! `commit` when the components it calls outside the sources can throw. -/

namespace Rmdb.Transaction.CommitFailure

open Rmdb.Defs Rmdb.Recovery.LogFormat Rmdb.Recovery.Log Rmdb.Transaction.Manager

/-- Modelled from the spec: what the components outside the sources answer during `commit`,
whether the lock manager's `unlock` throws on a lock and whether the disk manager's `write_log`
throws. -/
structure Outside where
  unlockThrows : LockDataId → Bool
  writeLogThrows : Bool

def Outside.quiet : Outside :=
  ⟨fun _ => false, false⟩

/-- The exceptions `commit` can raise: its assertion, and those of the outside components. -/
inductive CommitError
  | assertion
  | unlock (lock : LockDataId)
  | writeLog

abbrev CommitM := EStateM CommitError TxnManager

/-- The unlock loop of `commit`. -/
def unlockAll (o : Outside) : List LockDataId → CommitM Unit
  | [] => pure ()
  | lock :: locks => do
    if o.unlockThrows lock then throw (.unlock lock)
    unlockAll o locks

/-- `add_log_to_buffer` of the transaction's `COMMIT` record: its only write is the flush of a
full, non-empty buffer, which raises after the record got its LSN. -/
def appendCommit (o : Outside) (LOG_BUFFER_SIZE : Nat) (txnId : Int) : CommitM Unit := do
  let m ← get
  let txn := m.txns txnId
  let logRecord := LogRecord.ofType .commit txn.txnId txn.prevLsn
  if isFull LOG_BUFFER_SIZE m.log.offset logRecord.logTotLen ∧ m.log.offset ≠ 0 ∧
      o.writeLogThrows then
    set { m with log := { m.log with globalLsn := m.log.globalLsn + 1 } }
    throw .writeLog
  let (r, log) := addLogToBuffer LOG_BUFFER_SIZE m.log logRecord
  set { m.setTxn txnId { txn with prevLsn := r.lsn } with log := log }

/-- `flush_log_to_disk`: an empty buffer is not written. -/
def flushLog (o : Outside) : CommitM Unit := do
  let m ← get
  if m.log.offset ≠ 0 ∧ o.writeLogThrows then throw .writeLog
  set { m with log := flushLogToDisk m.log }

/-- The logging step of `commit`: append the `COMMIT` record, then flush. -/
def logCommit (o : Outside) (LOG_BUFFER_SIZE : Nat) (txnId : Int) : CommitM Unit := do
  appendCommit o LOG_BUFFER_SIZE txnId
  flushLog o

/-- `commit`, its steps in the order of the source. -/
def commit (o : Outside) (LOG_BUFFER_SIZE : Nat) (txnId : Int) (logManager : Bool) :
    CommitM Unit := do
  if ((← get).txns txnId).state = .committed then throw .assertion
  unlockAll o ((← get).txns txnId).lockSet
  modify fun m => m.setTxn txnId { m.txns txnId with writeSet := [], lockSet := [] }
  if logManager then logCommit o LOG_BUFFER_SIZE txnId
  modify fun m => m.setTxn txnId { m.txns txnId with state := .committed }

lemma unlockAll_run (o : Outside) (locks : List LockDataId)
    (h : ∀ l ∈ locks, o.unlockThrows l = false) (m : TxnManager) :
    (unlockAll o locks).run m = .ok () m := by
  induction locks with
  | nil => rfl
  | cons l ls ih =>
    simp only [unlockAll, EStateM.run_bind, h l (List.mem_cons_self _ _), Bool.false_eq_true,
      if_false, EStateM.run_pure]
    exact ih fun l' hl' => h l' (List.mem_cons_of_mem _ hl')

lemma commit_quiet (size : Nat) (txnId : Int) (lm : Bool) (m : TxnManager) :
    (commit .quiet size txnId lm).run m = match (Manager.commit size txnId lm).run m with
      | .ok u m' => .ok u m'
      | .error _ m' => .error .assertion m' := by
  by_cases hc : (m.txns txnId).state = .committed
  · simp [commit, Manager.commit, hc]
  · simp only [commit, Manager.commit, EStateM.run_bind, EStateM.run_get, hc, if_false,
      EStateM.run_pure, unlockAll_run .quiet _ (fun _ _ => rfl), releaseAll, EStateM.run_modify]
    cases lm <;> simp [logCommit, appendCommit, flushLog, logAndFlush, Outside.quiet]

lemma logCommit_raise (o : Outside) (size : Nat) (txnId : Int) (m : TxnManager)
    (hwrite : o.writeLogThrows = true) :
    ∃ m', (logCommit o size txnId).run m = .error .writeLog m' ∧
      m'.txns txnId = { m.txns txnId with prevLsn := m'.txns txnId |>.prevLsn } ∧
      m'.tables = m.tables := by
  simp only [logCommit, EStateM.run_bind, appendCommit, EStateM.run_get]
  split_ifs with hfull
  · exact ⟨_, rfl, rfl, rfl⟩
  · set r := addLogToBuffer size m.log (.ofType .commit (m.txns txnId).txnId (m.txns txnId).prevLsn)
    have hoff : r.2.offset ≠ 0 := by
      simp only [r, addLogToBuffer]
      split_ifs <;> simp [LogRecord.logTotLen, LOG_HEADER_SIZE]
    refine ⟨{ m.setTxn txnId { m.txns txnId with prevLsn := r.1.lsn } with log := r.2 },
      by simp [flushLog, hoff, hwrite], by simp [TxnManager.setTxn], rfl⟩

/-- `commit` empties the write set before it logs: when the disk's `write_log` throws, `commit`
of a transaction that is not committed, whose locks the lock manager releases, raises after the
write set and the lock set are emptied, the transaction still in its state. An `abort` after
it then returns and leaves every table file as it was before the commit, whatever the
transaction wrote. -/
theorem commit_raises_after_clearing (o : Outside) (size fuel : Nat) (m : TxnManager)
    (txnId : Int) (lm : Bool) (hst : (m.txns txnId).state ≠ .committed)
    (hunlock : ∀ l ∈ (m.txns txnId).lockSet, o.unlockThrows l = false)
    (hwrite : o.writeLogThrows = true) :
    ∃ m', (commit o size txnId true).run m = .error .writeLog m' ∧
      (m'.txns txnId).state = (m.txns txnId).state ∧ (m'.txns txnId).writeSet = [] ∧
      (m'.txns txnId).lockSet = [] ∧
      ∃ m'', (abort size fuel txnId lm).run m' = .ok () m'' ∧ m''.tables = m.tables := by
  obtain ⟨m', hr, htxn, htab⟩ := logCommit_raise o size txnId
    (m.setTxn txnId { m.txns txnId with writeSet := [], lockSet := [] }) hwrite
  have hws : (m'.txns txnId).writeSet = [] := by rw [htxn]; simp
  obtain ⟨m'', ha, htab'⟩ := Lifecycle.abort_of_writeSet_nil size fuel lm hws
  refine ⟨m', ?_, by rw [htxn]; simp, hws, by rw [htxn]; simp, m'', ha, htab'.trans htab⟩
  simp only [commit, EStateM.run_bind, EStateM.run_get, hst, if_false, EStateM.run_pure,
    unlockAll_run o _ hunlock, EStateM.run_modify, if_true, hr]

def insertedOne : TxnManager :=
  { Lifecycle.initManager with
    txns := Function.update Transaction.new 0
      { Transaction.new 0 with state := .growing, writeSet := [⟨.insertTuple, "t", ⟨1, 0⟩, [1]⟩] }
    tables := fun _ => Record.Calls.runCalls 1 [.insertRecord [1] none] (Record.Calls.emptyFile 1) }

def failingDisk : Outside :=
  ⟨fun _ => false, true⟩

theorem commit_raises_after_clearing_insertedOne :
    (insertedOne.txns 0).writeSet ≠ [] ∧ ((insertedOne.tables "t").pages 1).bitmap 0 = true ∧
    ∃ m', (commit failingDisk 64 0 true).run insertedOne = .error .writeLog m' ∧
      (m'.txns 0).state = (insertedOne.txns 0).state ∧ (m'.txns 0).writeSet = [] ∧
      (m'.txns 0).lockSet = [] ∧
      ∃ m'', (abort 64 1 0 true).run m' = .ok () m'' ∧ m''.tables = insertedOne.tables :=
  ⟨List.cons_ne_nil _ _, rfl, commit_raises_after_clearing failingDisk 64 1 insertedOne 0 true (by decide)
    (fun _ _ => rfl) rfl⟩

end Rmdb.Transaction.CommitFailure

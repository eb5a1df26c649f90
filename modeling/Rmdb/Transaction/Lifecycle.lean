import Rmdb.Transaction.Manager
import Rmdb.Record.Calls

/-! The lifecycle of a transaction and the log records it emits. -/

namespace Rmdb.Transaction.Lifecycle

open Rmdb.Defs Rmdb.Record.FileHandle Rmdb.Recovery.LogFormat Rmdb.Recovery.Log
  Rmdb.Transaction.Manager

variable {size fuel : Nat} {m : TxnManager} {txnId : Int}

def finalRecord (m : TxnManager) (logType : LogType) (txnId : Int) : LogRecord :=
  { LogRecord.ofType logType (m.txns txnId).txnId (m.txns txnId).prevLsn with
    lsn := m.log.globalLsn + 1 }

@[simp] lemma setTxn_txns_self (m : TxnManager) (txnId : Int) (txn : Transaction) :
    (m.setTxn txnId txn).txns txnId = txn := by
  simp [TxnManager.setTxn]

@[simp] lemma setTxn_log (m : TxnManager) (txnId : Int) (txn : Transaction) :
    (m.setTxn txnId txn).log = m.log := rfl

lemma logAndFlush_run (size : Nat) (logType : LogType) (txnId : Int) (m : TxnManager) :
    ∃ m', (logAndFlush size logType txnId).run m = .ok () m' ∧
      m'.log.written = m.log.written ++ m.log.contents ++ (finalRecord m logType txnId).serialize ∧
      m'.txns txnId = { m.txns txnId with prevLsn := m.log.globalLsn + 1 } := by
  obtain ⟨h1, -, h3, -⟩ := addLogToBuffer_spec size m.log
    (.ofType logType (m.txns txnId).txnId (m.txns txnId).prevLsn)
  refine ⟨_, rfl, ?_, by simp [h1]⟩
  have hf := flush_written_contents (addLogToBuffer size m.log
    (.ofType logType (m.txns txnId).txnId (m.txns txnId).prevLsn)).2
  rw [contents_empty_offset (flush_offset _), List.append_nil, h3, h1] at hf
  exact hf

lemma abort_of_rollback (size fuel : Nat) (lm : Bool) {m₁ : TxnManager}
    (hr : (rollback fuel (m.txns txnId).writeSet.reverse).run m = .ok () m₁) :
    ∃ m', (abort size fuel txnId lm).run m = .ok () m' ∧ m'.tables = m₁.tables ∧
      m'.log = if lm then flushLogToDisk (addLogToBuffer size m₁.log
        (.ofType .abort (m₁.txns txnId).txnId (m₁.txns txnId).prevLsn)).2 else m₁.log := by
  simp only [abort, EStateM.run_bind, EStateM.run_get, hr, releaseAll, EStateM.run_modify]
  cases lm <;> simp [logAndFlush, TxnManager.setTxn]

lemma abort_of_writeSet_nil (size fuel : Nat) (lm : Bool) (hws : (m.txns txnId).writeSet = []) :
    ∃ m', (abort size fuel txnId lm).run m = .ok () m' ∧ m'.tables = m.tables :=
  let ⟨m', ha, ht, _⟩ := abort_of_rollback size fuel lm (by rw [hws]; rfl)
  ⟨m', ha, ht⟩

/-- A finished transaction is not terminal. `abort` of a committed transaction with an empty
write set (as `commit` leaves it) returns, moves the transaction to `ABORTED`, and appends an
`ABORT` record of it whose `prev_lsn` is the LSN of its last record; `commit` of an aborted
transaction returns, moves it to `COMMITTED` and appends a `COMMIT` record the same way. -/
theorem finished_txn_refinished (size fuel : Nat) (m : TxnManager) (txnId : Int) :
    ((m.txns txnId).state = .committed → (m.txns txnId).writeSet = [] →
      ∃ m', (abort size fuel txnId true).run m = .ok () m' ∧
        (m'.txns txnId).state = .aborted ∧
        m'.log.written = m.log.written ++ m.log.contents ++ (finalRecord m .abort txnId).serialize ∧
        (finalRecord m .abort txnId).prevLsn = (m.txns txnId).prevLsn) ∧
    ((m.txns txnId).state = .aborted →
      ∃ m', (commit size txnId true).run m = .ok () m' ∧
        (m'.txns txnId).state = .committed ∧
        m'.log.written = m.log.written ++ m.log.contents ++
          (finalRecord m .commit txnId).serialize ∧
        (finalRecord m .commit txnId).prevLsn = (m.txns txnId).prevLsn) := by
  refine ⟨fun _ hws => ?_, fun ha => ?_⟩
  · obtain ⟨m₂, hl, hw, -⟩ := logAndFlush_run size .abort txnId
      (m.setTxn txnId { m.txns txnId with writeSet := [], lockSet := [] })
    refine ⟨m₂.setTxn txnId { m₂.txns txnId with state := .aborted }, ?_, by simp, ?_, rfl⟩
    · simp only [abort, EStateM.run_bind, EStateM.run_get, hws, List.reverse_nil, rollback,
        EStateM.run_pure, releaseAll, EStateM.run_modify, if_true, hl]
    · simpa [finalRecord] using hw
  · obtain ⟨m₂, hl, hw, -⟩ := logAndFlush_run size .commit txnId
      (m.setTxn txnId { m.txns txnId with writeSet := [], lockSet := [] })
    have hnc : ¬(m.txns txnId).state = .committed := by rw [ha]; decide
    refine ⟨m₂.setTxn txnId { m₂.txns txnId with state := .committed }, ?_, by simp, ?_, rfl⟩
    · simp only [commit, EStateM.run_bind, EStateM.run_get, hnc, if_false, EStateM.run_pure,
        releaseAll, EStateM.run_modify, if_true, hl]
    · simpa [finalRecord] using hw

def initManager : TxnManager :=
  ⟨0, 0, Transaction.new, emptyLog, fun _ => Rmdb.Record.Calls.emptyFile 1⟩

def committedOnce : TxnManager :=
  ((begin 64 none true >>= fun txnId => commit 64 txnId true).run initManager).state

theorem finished_txn_refinished_committedOnce :
    (committedOnce.txns 0).state = .committed ∧ (committedOnce.txns 0).writeSet = [] ∧
    ∃ m', (abort 64 1 0 true).run committedOnce = .ok () m' ∧ (m'.txns 0).state = .aborted ∧
      m'.log.written = committedOnce.log.written ++ committedOnce.log.contents ++
        (finalRecord committedOnce .abort 0).serialize ∧
      (finalRecord committedOnce .abort 0).prevLsn = (committedOnce.txns 0).prevLsn :=
  ⟨rfl, rfl, (finished_txn_refinished 64 1 committedOnce 0).1 rfl rfl⟩

end Rmdb.Transaction.Lifecycle

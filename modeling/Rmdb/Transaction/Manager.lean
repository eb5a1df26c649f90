import Rmdb.Record.FileHandle
import Rmdb.Recovery.Log

/-! The transaction manager of `transaction_manager.cpp`. -/

namespace Rmdb.Transaction.Manager

open Rmdb.Defs Rmdb.Record.FileHandle Rmdb.Recovery.LogFormat Rmdb.Recovery.Log

inductive TransactionState
  | default
  | growing
  | shrinking
  | committed
  | aborted
deriving DecidableEq, Repr

inductive WType
  | insertTuple
  | deleteTuple
  | updateTuple
deriving DecidableEq, Repr

/-- One entry of a write set: the kind of write, the table, the rid and the record bytes (the
before-image for a delete or an update). -/
structure WriteRecord where
  wtype : WType
  tabName : String
  rid : Rid
  record : Bytes

/-- Modelled from the spec: a lock names a record of a table file (lock_manager.h is not in
the sources). -/
structure LockDataId where
  fd : Int
  rid : Rid

structure Transaction where
  txnId : Int
  state : TransactionState
  startTs : Int
  prevLsn : Int
  writeSet : List WriteRecord
  lockSet : List LockDataId

/-- Modelled from the spec: a new transaction (transaction.h is not in the sources) is in state
`DEFAULT`, has no log record and holds nothing. -/
def Transaction.new (txnId : Int) : Transaction :=
  ⟨txnId, .default, 0, INVALID_LSN, [], []⟩

structure TxnManager where
  nextTxnId : Int
  nextTimestamp : Int
  txns : Int → Transaction
  log : LogManager
  tables : String → RmFile

/-- The exceptions of the transaction manager: those of the record manager during a rollback,
and a failed `assert`, which stops the process. -/
inductive TxnError
  | rm (e : RmError)
  | assertion

abbrev TxnM := EStateM TxnError TxnManager

def TxnManager.setTxn (m : TxnManager) (txnId : Int) (txn : Transaction) : TxnManager :=
  { m with txns := Function.update m.txns txnId txn }

/-- A record-manager call on the file of table `tabName`. -/
def onTable (tabName : String) (x : RmM α) : TxnM α := fun m =>
  match x.run (m.tables tabName) with
  | .ok a t => .ok a { m with tables := Function.update m.tables tabName t }
  | .error e t => .error (.rm e) { m with tables := Function.update m.tables tabName t }

/-- The logging step `commit` and `abort` share: append a record of type `logType` after the
transaction's last record, remember its LSN, and flush. -/
def logAndFlush (LOG_BUFFER_SIZE : Nat) (logType : LogType) (txnId : Int) : TxnM Unit :=
  modify fun m =>
    let txn := m.txns txnId
    let (r, log) := addLogToBuffer LOG_BUFFER_SIZE m.log (.ofType logType txn.txnId txn.prevLsn)
    { m.setTxn txnId { txn with prevLsn := r.lsn } with log := flushLogToDisk log }

/-- `begin`: a null `txn` starts a new transaction; a given one is only registered in
`txn_map`, which nothing modelled reads. `logManager` says whether a log manager is passed. -/
def begin (LOG_BUFFER_SIZE : Nat) (txn : Option Int) (logManager : Bool) : TxnM Int := do
  match txn with
  | some txnId => return txnId
  | none =>
    let m ← get
    let txnId := m.nextTxnId
    let txn := { Transaction.new txnId with state := .growing, startTs := m.nextTimestamp }
    set { m with nextTxnId := txnId + 1, nextTimestamp := m.nextTimestamp + 1 }
    modify (·.setTxn txnId txn)
    if logManager then
      modify fun m =>
        let (r, log) := addLogToBuffer LOG_BUFFER_SIZE m.log (.ofType .begin txnId INVALID_LSN)
        { m.setTxn txnId { txn with prevLsn := r.lsn } with log := log }
    return txnId

/-- Release the locks (a lock-manager call) and clear the write and lock sets. -/
def releaseAll (txnId : Int) : TxnM Unit :=
  modify fun m => m.setTxn txnId { m.txns txnId with writeSet := [], lockSet := [] }

def commit (LOG_BUFFER_SIZE : Nat) (txnId : Int) (logManager : Bool) : TxnM Unit := do
  if ((← get).txns txnId).state = .committed then throw .assertion
  releaseAll txnId
  if logManager then logAndFlush LOG_BUFFER_SIZE .commit txnId
  modify fun m => m.setTxn txnId { m.txns txnId with state := .committed }

/-- The inverse of one write, through the record manager with a null context. -/
def rollbackWrite (fuel : Nat) (w : WriteRecord) : TxnM Unit :=
  match w.wtype with
  | .insertTuple => onTable w.tabName (deleteRecord w.rid none)
  | .deleteTuple => do let _ ← onTable w.tabName (insertRecord fuel w.record none)
  | .updateTuple => onTable w.tabName (updateRecord w.rid w.record none)

/-- The write set rolled back from its last entry to its first. -/
def rollback (fuel : Nat) : List WriteRecord → TxnM Unit
  | [] => pure ()
  | w :: ws => do rollbackWrite fuel w; rollback fuel ws

def abort (LOG_BUFFER_SIZE fuel : Nat) (txnId : Int) (logManager : Bool) : TxnM Unit := do
  rollback fuel ((← get).txns txnId).writeSet.reverse
  releaseAll txnId
  if logManager then logAndFlush LOG_BUFFER_SIZE .abort txnId
  modify fun m => m.setTxn txnId { m.txns txnId with state := .aborted }

end Rmdb.Transaction.Manager

import Rmdb.Recovery.Log

/-! The log manager under `latch_`, a `std::mutex` its calls hold for their whole body. -/

namespace Rmdb.Recovery.Latch

open Rmdb.Recovery.LogFormat

/-- The log manager with its latch. -/
structure LatchedLog where
  log : Log.LogManager
  held : Bool

/-- The call has not returned within its fuel. -/
inductive LatchError
  | outOfFuel

abbrev LatchM := EStateM LatchError LatchedLog

/-- `std::unique_lock<std::mutex> lock(latch_)`: wait while the latch is held, then take it. -/
def lockLatch : Nat → LatchM Unit
  | 0 => throw .outOfFuel
  | fuel + 1 => do
    if (← get).held then lockLatch fuel
    else modify fun l => { l with held := true }

/-- The lock's destructor at the end of its scope. -/
def unlockLatch : LatchM Unit :=
  modify fun l => { l with held := false }

def flushLogToDisk (fuel : Nat) : LatchM Unit := do
  lockLatch fuel
  modify fun l => { l with log := Log.flushLogToDisk l.log }
  unlockLatch

def addLogToBuffer (LOG_BUFFER_SIZE fuel : Nat) (logRecord : LogRecord) : LatchM LogRecord := do
  lockLatch fuel
  modify fun l => { l with log := { l.log with globalLsn := l.log.globalLsn + 1 } }
  let logRecord := { logRecord with lsn := (← get).log.globalLsn }
  if Log.isFull LOG_BUFFER_SIZE (← get).log.offset logRecord.logTotLen then
    flushLogToDisk fuel
    modify fun l => { l with log := { l.log with offset := 0 } }
  modify fun l => { l with log := { l.log with
    buffer := Log.writeBytes l.log.buffer l.log.offset logRecord.serialize
    offset := l.log.offset + logRecord.logTotLen } }
  unlockLatch
  return logRecord

lemma lockLatch_held (fuel : Nat) (l : LatchedLog) (h : l.held = true) :
    (lockLatch fuel).run l = .error .outOfFuel l := by
  induction fuel with
  | zero => rfl
  | succ fuel ih => simp [lockLatch, h, ih]

@[simp] lemma lockLatch_free (fuel : Nat) (log : Log.LogManager) :
    (lockLatch (fuel + 1)).run ⟨log, false⟩ = .ok () ⟨log, true⟩ := rfl

lemma flushLogToDisk_free (fuel : Nat) (log : Log.LogManager) :
    (flushLogToDisk (fuel + 1)).run ⟨log, false⟩ = .ok () ⟨Log.flushLogToDisk log, false⟩ := rfl

lemma addLogToBuffer_fits (size fuel : Nat) (log : Log.LogManager) (logRecord : LogRecord)
    (hfit : Log.isFull size log.offset logRecord.logTotLen = false) :
    (addLogToBuffer size (fuel + 1) logRecord).run ⟨log, false⟩ =
      .ok (Log.addLogToBuffer size log logRecord).1
        ⟨(Log.addLogToBuffer size log logRecord).2, false⟩ := by
  simp [addLogToBuffer, unlockLatch, Log.addLogToBuffer, hfit]

/-- `add_log_to_buffer` deadlocks on a full buffer: from any log manager with its latch free,
when the record does not fit in the space left, the nested `flush_log_to_disk` asks for the
latch the call holds, and the call does not return for any fuel. -/
theorem addLogToBuffer_full_never_returns (size : Nat) (log : Log.LogManager)
    (logRecord : LogRecord) (hfull : Log.isFull size log.offset logRecord.logTotLen = true)
    (fuel : Nat) :
    ∃ l, (addLogToBuffer size fuel logRecord).run ⟨log, false⟩ = .error .outOfFuel l := by
  cases fuel with
  | zero => exact ⟨_, rfl⟩
  | succ fuel =>
    refine ⟨⟨{ log with globalLsn := log.globalLsn + 1 }, true⟩, ?_⟩
    simp [addLogToBuffer, hfull, flushLogToDisk, lockLatch_held]

def fortyBytes : Log.LogManager :=
  { Log.emptyLog with offset := 40 }

theorem addLogToBuffer_full_never_returns_fortyBytes :
    (LogRecord.ofType .commit 0 INVALID_LSN).logTotLen ≤ 64 ∧
    Log.isFull 64 fortyBytes.offset (LogRecord.ofType .commit 0 INVALID_LSN).logTotLen = true ∧
    ∃ l, (addLogToBuffer 64 5 (.ofType .commit 0 INVALID_LSN)).run ⟨fortyBytes, false⟩ =
      .error .outOfFuel l :=
  ⟨by decide, rfl, addLogToBuffer_full_never_returns 64 fortyBytes (.ofType .commit 0 INVALID_LSN)
    rfl 5⟩

end Rmdb.Recovery.Latch

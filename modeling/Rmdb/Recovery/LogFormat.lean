import Rmdb.Defs
import Mathlib.Data.List.Range

/-! Log records and their serialization. -/

namespace Rmdb.Recovery.LogFormat

open Rmdb.Defs

def INVALID_LSN : Int := -1

inductive LogType
  | begin
  | commit
  | abort
  | insert
  | delete
  | update
deriving DecidableEq, Repr

/-- Modelled from the spec: the type codes are not in the sources; the header holds one byte
per type. -/
def LogType.code : LogType → UInt8
  | .begin => 0
  | .commit => 1
  | .abort => 2
  | .insert => 3
  | .delete => 4
  | .update => 5

structure LogRecord where
  logType : LogType
  lsn : Int
  txnId : Int
  prevLsn : Int
  payload : Bytes
deriving DecidableEq, Repr

/-- Modelled from the spec: `log_defs.h` is not in the sources. The header
`{log_type: u8, lsn: i64, log_tot_len: u32, txn_id: i64, prev_lsn: i64}` takes 1 + 8 + 4 + 8 + 8
bytes. -/
def LOG_HEADER_SIZE : Nat := 29

namespace LogRecord

def logTotLen (r : LogRecord) : Nat :=
  LOG_HEADER_SIZE + r.payload.length

/-- Modelled from the spec: `LogRecord::serialize` (`log_recorder.h` is not in the sources)
writes the header fields in order, integers little endian, then the payload of the record's
type; `log_tot_len_` is the length of the whole. -/
def serialize (r : LogRecord) : Bytes :=
  [r.logType.code] ++ encodeLE 8 r.lsn ++ encodeLE 4 r.logTotLen ++ encodeLE 8 r.txnId ++
    encodeLE 8 r.prevLsn ++ r.payload

/-- Modelled from the spec: the records `BEGIN`, `COMMIT` and `ABORT` carry no payload. -/
def ofType (logType : LogType) (txnId : Int) (prevLsn : Int) : LogRecord :=
  ⟨logType, INVALID_LSN, txnId, prevLsn, []⟩

@[simp] lemma length_serialize (r : LogRecord) : r.serialize.length = r.logTotLen := by
  simp [serialize, logTotLen, LOG_HEADER_SIZE]
  omega

@[simp] lemma logTotLen_withLsn (r : LogRecord) (lsn : Int) :
    { r with lsn := lsn }.logTotLen = r.logTotLen := rfl

end LogRecord

end Rmdb.Recovery.LogFormat

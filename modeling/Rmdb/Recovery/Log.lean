import Rmdb.Recovery.LogFormat

/-! The log manager of `log_manager.cpp`, each call atomic. -/

namespace Rmdb.Recovery.Log

open Rmdb.Defs Rmdb.Recovery.LogFormat

structure LogManager where
  globalLsn : Int
  persistLsn : Int
  buffer : Nat → UInt8
  offset : Nat
  written : Bytes

/-- `log_buffer_[0, offset_)`. -/
def LogManager.contents (s : LogManager) : Bytes :=
  (List.range s.offset).map s.buffer

def writeBytes (buf : Nat → UInt8) (off : Nat) (bs : Bytes) : Nat → UInt8 :=
  fun i => if off ≤ i ∧ i < off + bs.length then bs.getD (i - off) 0 else buf i

/-- Modelled from the spec: `LogBuffer::is_full` (log_defs.h is not in the sources) says a
record of `len` bytes does not fit in the space left. -/
def isFull (LOG_BUFFER_SIZE offset len : Nat) : Bool :=
  decide (LOG_BUFFER_SIZE < offset + len)

def flushLogToDisk (s : LogManager) : LogManager :=
  if s.offset = 0 then s
  else { s with written := s.written ++ s.contents, persistLsn := s.globalLsn,
                buffer := fun _ => 0, offset := 0 }

/-- `add_log_to_buffer`: the record with the LSN it was given, and the manager after. -/
def addLogToBuffer (LOG_BUFFER_SIZE : Nat) (s : LogManager) (logRecord : LogRecord) :
    LogRecord × LogManager :=
  let s := { s with globalLsn := s.globalLsn + 1 }
  let logRecord := { logRecord with lsn := s.globalLsn }
  let s := if isFull LOG_BUFFER_SIZE s.offset logRecord.logTotLen then
      { flushLogToDisk s with offset := 0 } else s
  (logRecord,
    { s with
      buffer := writeBytes s.buffer s.offset logRecord.serialize
      offset := s.offset + logRecord.logTotLen })

def streamBytes (rs : List LogRecord) : Bytes :=
  (rs.map LogRecord.serialize).flatten

inductive LogOp
  | add (logRecord : LogRecord)
  | flush

def runLog (LOG_BUFFER_SIZE : Nat) : List LogOp → LogManager → LogManager × List LogRecord
  | [], s => (s, [])
  | .flush :: ops, s => runLog LOG_BUFFER_SIZE ops (flushLogToDisk s)
  | .add logRecord :: ops, s =>
    ((runLog LOG_BUFFER_SIZE ops (addLogToBuffer LOG_BUFFER_SIZE s logRecord).2).1,
      (addLogToBuffer LOG_BUFFER_SIZE s logRecord).1 ::
        (runLog LOG_BUFFER_SIZE ops (addLogToBuffer LOG_BUFFER_SIZE s logRecord).2).2)

variable {size : Nat} {s : LogManager} {logRecord : LogRecord}

@[simp] lemma streamBytes_nil : streamBytes [] = [] := rfl

@[simp] lemma streamBytes_cons (r : LogRecord) (rs : List LogRecord) :
    streamBytes (r :: rs) = r.serialize ++ streamBytes rs := rfl

@[simp] lemma streamBytes_append (rs rs' : List LogRecord) :
    streamBytes (rs ++ rs') = streamBytes rs ++ streamBytes rs' := by
  simp [streamBytes]

lemma map_writeBytes (buf : Nat → UInt8) (off : Nat) (bs : Bytes) :
    (List.range (off + bs.length)).map (writeBytes buf off bs) =
      (List.range off).map buf ++ bs := by
  rw [List.range_add, List.map_append, List.map_map]
  congr 1
  · exact List.map_congr_left fun i hi => by
      simp only [writeBytes, List.mem_range] at hi ⊢
      rw [if_neg (by omega)]
  · refine List.ext_get (by simp) fun n h1 h2 => ?_
    simp only [List.length_map, List.length_range] at h1
    simp [writeBytes, h1]

@[simp] lemma contents_empty_offset {t : LogManager} (h : t.offset = 0) : t.contents = [] := by
  simp [LogManager.contents, h]

lemma flush_written_contents (s : LogManager) :
    (flushLogToDisk s).written ++ (flushLogToDisk s).contents = s.written ++ s.contents := by
  unfold flushLogToDisk
  split_ifs with h
  · rfl
  · simp [LogManager.contents]

@[simp] lemma flush_offset (s : LogManager) : (flushLogToDisk s).offset = 0 := by
  unfold flushLogToDisk; split_ifs with h <;> simp [h]

@[simp] lemma flush_globalLsn (s : LogManager) :
    (flushLogToDisk s).globalLsn = s.globalLsn := by
  unfold flushLogToDisk; split_ifs <;> rfl

lemma addLogToBuffer_spec (size : Nat) (s : LogManager) (logRecord : LogRecord) :
    (addLogToBuffer size s logRecord).1 = { logRecord with lsn := s.globalLsn + 1 } ∧
    (addLogToBuffer size s logRecord).2.globalLsn = s.globalLsn + 1 ∧
    (addLogToBuffer size s logRecord).2.written ++ (addLogToBuffer size s logRecord).2.contents =
      s.written ++ s.contents ++ (addLogToBuffer size s logRecord).1.serialize ∧
    (s.offset ≤ size → logRecord.logTotLen ≤ size →
      (addLogToBuffer size s logRecord).2.offset ≤ size) := by
  refine ⟨rfl, ?_, ?_, fun h1 h2 => ?_⟩
  · simp only [addLogToBuffer]; split_ifs <;> simp
  · simp only [addLogToBuffer]
    split_ifs with hfull
    · have := flush_written_contents { s with globalLsn := s.globalLsn + 1 }
      simp only [LogManager.contents] at this ⊢
      rw [← LogRecord.length_serialize, map_writeBytes]
      simp only [List.range_zero, List.map_nil, List.nil_append, ← List.append_assoc]
      simp only [flush_offset, List.range_zero, List.map_nil, List.append_nil] at this
      rw [this]
    · simp only [LogManager.contents]
      rw [← LogRecord.length_serialize, map_writeBytes, List.append_assoc]
  · simp only [addLogToBuffer, isFull] at h1 ⊢
    split_ifs with hfull
    · simpa using h2
    · simp at hfull; simpa using hfull

lemma runLog_spec (size : Nat) (ops : List LogOp) (s : LogManager) :
    (runLog size ops s).1.written ++ (runLog size ops s).1.contents =
      s.written ++ s.contents ++ streamBytes (runLog size ops s).2 ∧
    (runLog size ops s).2.map LogRecord.lsn =
      (List.range (runLog size ops s).2.length).map (fun i : Nat => s.globalLsn + 1 + (i : Int)) ∧
    (runLog size ops s).1.globalLsn = s.globalLsn + (runLog size ops s).2.length ∧
    (s.offset ≤ size → (∀ r, LogOp.add r ∈ ops → r.logTotLen ≤ size) →
      (runLog size ops s).1.offset ≤ size) := by
  induction ops generalizing s with
  | nil => simp [runLog]
  | cons op ops ih =>
    cases op with
    | flush =>
      obtain ⟨h1, h2, h3, h4⟩ := ih (flushLogToDisk s)
      simp only [runLog, flush_globalLsn] at h1 h2 h3 h4 ⊢
      refine ⟨by rw [h1, flush_written_contents], h2, h3, fun _ hlen => h4 (by simp)
        fun r hr => hlen r (List.mem_cons_of_mem _ hr)⟩
    | add r =>
      obtain ⟨ha1, ha2, ha3, ha4⟩ := addLogToBuffer_spec size s r
      obtain ⟨h1, h2, h3, h4⟩ := ih (addLogToBuffer size s r).2
      simp only [runLog]
      refine ⟨by rw [h1, ha3]; simp, ?_, by rw [h3, ha2, List.length_cons]; omega,
        fun h0 hlen => h4 (ha4 h0 (hlen r (List.mem_cons_self _ _)))
          fun r' hr' => hlen r' (List.mem_cons_of_mem _ hr')⟩
      rw [List.map_cons, h2, ha1, ha2, List.length_cons, List.range_succ_eq_map, List.map_cons,
        List.map_map]
      congr 1
      · simp
      · exact List.map_congr_left fun i _ => by simp only [Function.comp_apply]; omega

lemma runLog_append (size : Nat) (ops ops' : List LogOp) (s : LogManager) :
    runLog size (ops ++ ops') s = ((runLog size ops' (runLog size ops s).1).1,
      (runLog size ops s).2 ++ (runLog size ops' (runLog size ops s).1).2) := by
  induction ops generalizing s with
  | nil => rfl
  | cons op ops ih =>
    cases op with
    | flush => exact ih _
    | add r => simp only [List.cons_append, runLog, List.append_eq, ih]

theorem log_stream_exact (size : Nat) (ops : List LogOp) (s : LogManager) (hs : s.offset ≤ size)
    (hlen : ∀ r, LogOp.add r ∈ ops → r.logTotLen ≤ size) :
    (runLog size ops s).1.written ++ (runLog size ops s).1.contents =
      s.written ++ s.contents ++ streamBytes (runLog size ops s).2 ∧
    (runLog size ops s).2.map LogRecord.lsn =
      (List.range (runLog size ops s).2.length).map (fun i : Nat => s.globalLsn + 1 + (i : Int)) ∧
    (runLog size ops s).1.offset ≤ size ∧
    (runLog size (ops ++ [.flush]) s).1.written =
      s.written ++ s.contents ++ streamBytes (runLog size (ops ++ [.flush]) s).2 := by
  obtain ⟨h1, h2, -, h4⟩ := runLog_spec size ops s
  refine ⟨h1, h2, h4 hs hlen, ?_⟩
  have hf := flush_written_contents (runLog size ops s).1
  rw [contents_empty_offset (flush_offset _), List.append_nil] at hf
  rw [runLog_append]
  simpa [runLog, h1] using hf

def emptyLog : LogManager :=
  ⟨0, INVALID_LSN, fun _ => 0, 0, []⟩

def twoBegins : List LogOp :=
  [.add (.ofType .begin 1 INVALID_LSN), .add (.ofType .begin 2 INVALID_LSN)]

def PersistSound (s₀ s : LogManager) (rs : List LogRecord) : Prop :=
  ∀ i (h : i < rs.length), (rs.get ⟨i, h⟩).lsn ≤ s.persistLsn →
    s₀.written ++ streamBytes (rs.take (i + 1)) <+: s.written

/-- `add_log_to_buffer` gives a record its LSN before it flushes: when the record does not fit
in a non-empty buffer, the flush sets `persist_lsn_` to that LSN, and only then is the record
copied into the buffer. So after any run from an empty buffer that ends with such an append,
the record `persist_lsn_` names is not in the log file. -/
theorem persistLsn_ahead_of_log (size : Nat) (ops : List LogOp) (s₀ : LogManager)
    (logRecord : LogRecord) (hs₀ : s₀.offset = 0) (h0 : 0 < (runLog size ops s₀).1.offset)
    (hfull : size < (runLog size ops s₀).1.offset + logRecord.logTotLen) :
    ¬ PersistSound s₀ (runLog size (ops ++ [.add logRecord]) s₀).1
      (runLog size (ops ++ [.add logRecord]) s₀).2 := by
  intro hsound
  set s₁ := (runLog size ops s₀).1 with hs₁
  set rs := (runLog size ops s₀).2 with hrs
  obtain ⟨h1, -, h3, -⟩ := runLog_spec size ops s₀
  have hadd : (addLogToBuffer size s₁ logRecord).2.persistLsn =
      (addLogToBuffer size s₁ logRecord).1.lsn ∧
      (addLogToBuffer size s₁ logRecord).2.written = s₁.written ++ s₁.contents := by
    have hne : s₁.offset ≠ 0 := by omega
    simp [addLogToBuffer, isFull, hfull, flushLogToDisk, hne, LogManager.contents]
  rw [runLog_append] at hsound
  simp only [runLog, List.length_append, List.length_singleton] at hsound
  have hp := hsound rs.length (by simp) (by
    simp only [List.get_eq_getElem, List.getElem_append_right (le_refl _), Nat.sub_self,
      List.getElem_singleton]
    exact hadd.1 ▸ Int.le_refl _)
  rw [List.take_append_eq_append_take, List.take_of_length_le (by simp), hadd.2] at hp
  rw [← hs₁, h1, contents_empty_offset hs₀, List.append_nil] at hp
  have := hp.length_le
  have hk : rs.length + 1 - (runLog size ops s₀).2.length = 1 := by rw [← hrs]; omega
  simp only [streamBytes_append, List.length_append, hk, List.take_succ_cons, List.take_zero,
    streamBytes_cons, streamBytes_nil, List.append_nil, LogRecord.length_serialize,
    LogRecord.logTotLen,
    LOG_HEADER_SIZE] at this
  omega

theorem persistLsn_ahead_of_log_twoBegins :
    ¬ PersistSound emptyLog (runLog 29 twoBegins emptyLog).1 (runLog 29 twoBegins emptyLog).2 :=
  persistLsn_ahead_of_log 29 [.add (.ofType .begin 1 INVALID_LSN)] emptyLog
    (.ofType .begin 2 INVALID_LSN) rfl (by decide) (by decide)

end Rmdb.Recovery.Log

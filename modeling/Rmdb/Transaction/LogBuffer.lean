import Rmdb.Transaction.Analysis
import Rmdb.Recovery.Latch

/-! The log buffer under the calls of the transaction manager. -/

namespace Rmdb.Transaction.LogBuffer

open Rmdb.Defs Rmdb.Recovery Rmdb.Recovery.LogFormat Rmdb.Recovery.Log Rmdb.Transaction.Manager
  Rmdb.Transaction.Lifecycle Rmdb.Transaction.LogChain Rmdb.Transaction.Analysis

variable {m : TxnManager}

lemma length_streamBytes_headers {bs : List LogRecord} (h : ∀ r ∈ bs, r.payload = []) :
    (streamBytes bs).length = LOG_HEADER_SIZE * bs.length := by
  induction bs with
  | nil => rfl
  | cons b bs ih =>
    rw [streamBytes_cons, List.length_append, LogRecord.length_serialize, LogRecord.logTotLen,
      h b (List.mem_cons_self _ _), ih fun r hr => h r (List.mem_cons_of_mem _ hr),
      List.length_cons, Nat.mul_succ]
    simp only [List.length_nil]
    omega

lemma length_contents (s : LogManager) : s.contents.length = s.offset := by
  simp [LogManager.contents]

lemma latched_append_returns_iff (size fuel : Nat) (log : LogManager) (r : LogRecord) :
    (∃ r' l, (Latch.addLogToBuffer size (fuel + 1) r).run ⟨log, false⟩ = .ok r' l) ↔
      isFull size log.offset r.logTotLen = false := by
  cases hfull : isFull size log.offset r.logTotLen
  · exact iff_of_true ⟨_, _, Latch.addLogToBuffer_fits size fuel log r hfull⟩ rfl
  · refine iff_of_false ?_ nofun
    rintro ⟨r', l, h⟩
    simp [Latch.addLogToBuffer, hfull, Latch.flushLogToDisk, Latch.lockLatch_held] at h

lemma call_log (size fuel : Nat) (c : TxnCall) (m : TxnManager) :
    ((c.run size fuel).run m).state.log = m.log ∨
      ∃ r : LogRecord, r.payload = [] ∧
        (((c.run size fuel).run m).state.log = (addLogToBuffer size m.log r).2 ∨
          ((c.run size fuel).run m).state.log = flushLogToDisk (addLogToBuffer size m.log r).2) := by
  cases c with
  | begin =>
    obtain ⟨m', hrun, -, hlog, -⟩ := begin_run size m
    refine .inr ⟨.ofType .begin m.nextTxnId INVALID_LSN, rfl, .inl ?_⟩
    rw [TxnCall.run, EStateM.Result.state_bind_pure, hrun, EStateM.Result.state_ok, hlog]
  | commit t =>
    by_cases hc : (m.txns t).state = .committed
    · exact .inl (by rw [TxnCall.run, commit_run_committed size hc]; rfl)
    · refine .inr ⟨.ofType .commit (m.txns t).txnId (m.txns t).prevLsn, rfl, .inr ?_⟩
      rw [TxnCall.run, commit_run size hc, EStateM.Result.state_ok, finishState_log]
  | abort t =>
    obtain ⟨tables, hr | hr⟩ := abort_state size fuel m t <;> rw [TxnCall.run, hr]
    · exact .inl rfl
    · exact .inr ⟨.ofType .abort (m.txns t).txnId (m.txns t).prevLsn, rfl,
        .inr (finishState_log _ _ _ _ _)⟩

/-- The transaction manager under the real log latch. In every manager a fresh one reaches,
the log buffer holds the serializations of `k` `BEGIN` records and nothing else, and each call
either leaves the log alone or appends one record without payload to it; under `latch_`, that
append returns exactly when `29 * (k + 1) ≤ LOG_BUFFER_SIZE`, and otherwise never returns. So
the real manager stops for ever at the first call that finds `⌊LOG_BUFFER_SIZE / 29⌋`
transactions begun since the last `commit` or `abort`. -/
theorem next_append_returns_iff {size : Nat} (h : Reachable size m) :
    ∃ bs, m.log.contents = streamBytes bs ∧ (∀ r ∈ bs, r.logType = .begin) ∧
      ∀ (c : TxnCall) (fuel : Nat),
        ((c.run size fuel).run m).state.log = m.log ∨
        ∃ r : LogRecord, r.payload = [] ∧
          (((c.run size fuel).run m).state.log = (addLogToBuffer size m.log r).2 ∨
            ((c.run size fuel).run m).state.log = flushLogToDisk (addLogToBuffer size m.log r).2) ∧
          ∀ lfuel, (∃ r' l, (Latch.addLogToBuffer size (lfuel + 1) r).run ⟨m.log, false⟩ =
            .ok r' l) ↔ LOG_HEADER_SIZE * (bs.length + 1) ≤ size := by
  obtain ⟨rs, hi⟩ := analysisInv_reachable h
  obtain ⟨fs, bs, rfl, hf, hbs⟩ := hi.flushed
  have hc : m.log.contents = streamBytes bs := by
    have hs := hi.chain.stream
    rw [hf, streamBytes_append] at hs
    exact List.append_cancel_left hs
  have hoff : m.log.offset = LOG_HEADER_SIZE * bs.length := by
    rw [← length_contents, hc,
      length_streamBytes_headers fun r hr => (hi.chain.records r (List.mem_append_right _ hr)).1]
  refine ⟨bs, hc, hbs, fun c fuel => (call_log size fuel c m).imp_right
    fun ⟨r, hr, hlog⟩ => ⟨r, hr, hlog, fun lfuel => ?_⟩⟩
  rw [latched_append_returns_iff, isFull, hoff, LogRecord.logTotLen, hr, decide_eq_false_iff_not,
    List.length_nil, Nat.add_zero, Nat.mul_succ, not_lt]

lemma twoBegun_reachable : Reachable 64 (runTxnCalls 64 1 initManager [.begin, .begin]) := by
  simp only [runTxnCalls]
  exact @Reachable.step 64 _ .begin 1 (@Reachable.step 64 _ .begin 1
    (.fresh initManager_fresh) trivial) trivial

theorem next_append_returns_iff_twoBegun :
    let m := runTxnCalls 64 1 initManager [.begin, .begin]
    ∃ bs, m.log.contents = streamBytes bs ∧ (∀ r ∈ bs, r.logType = .begin) ∧
      ∀ (c : TxnCall) (fuel : Nat),
        ((c.run 64 fuel).run m).state.log = m.log ∨
        ∃ r : LogRecord, r.payload = [] ∧
          (((c.run 64 fuel).run m).state.log = (addLogToBuffer 64 m.log r).2 ∨
            ((c.run 64 fuel).run m).state.log = flushLogToDisk (addLogToBuffer 64 m.log r).2) ∧
          ∀ lfuel, (∃ r' l, (Latch.addLogToBuffer 64 (lfuel + 1) r).run ⟨m.log, false⟩ =
            .ok r' l) ↔ LOG_HEADER_SIZE * (bs.length + 1) ≤ 64 :=
  next_append_returns_iff twoBegun_reachable

lemma offset_le_call {size : Nat} (hsize : LOG_HEADER_SIZE ≤ size) (c : TxnCall) (fuel : Nat)
    (hm : m.log.offset ≤ size) : ((c.run size fuel).run m).state.log.offset ≤ size := by
  rcases call_log size fuel c m with he | ⟨r, hr, he | he⟩ <;> rw [he]
  · exact hm
  · exact (addLogToBuffer_spec size m.log r).2.2.2 hm (by rw [LogRecord.logTotLen, hr]; exact hsize)
  · rw [flush_offset]
    exact Nat.zero_le _

lemma offset_le_reachable {size : Nat} (hsize : LOG_HEADER_SIZE ≤ size) (h : Reachable size m) :
    m.log.offset ≤ size := by
  induction h with
  | fresh h => rw [h.offset_eq]; exact Nat.zero_le _
  | step fuel _ _ ih => exact offset_le_call hsize _ fuel ih

/-- Memory safety of the log buffer in the manager's model: in every manager a fresh one
reaches, with a buffer that holds at least one header, `offset_` is within the buffer, and the
append any call makes copies its record to bytes that end within it. -/
theorem log_appends_in_bounds {size : Nat} (h : Reachable size m)
    (hsize : LOG_HEADER_SIZE ≤ size) :
    m.log.offset ≤ size ∧ ∀ (c : TxnCall) (fuel : Nat),
      ((c.run size fuel).run m).state.log = m.log ∨
      ∃ r : LogRecord, r.payload = [] ∧
        (((c.run size fuel).run m).state.log = (addLogToBuffer size m.log r).2 ∨
          ((c.run size fuel).run m).state.log = flushLogToDisk (addLogToBuffer size m.log r).2) ∧
        (addLogToBuffer size m.log r).2.offset ≤ size := by
  have hm := offset_le_reachable hsize h
  refine ⟨hm, fun c fuel => (call_log size fuel c m).imp_right fun ⟨r, hr, hlog⟩ =>
    ⟨r, hr, hlog, (addLogToBuffer_spec size m.log r).2.2.2 hm ?_⟩⟩
  rw [LogRecord.logTotLen, hr]
  exact hsize

theorem log_appends_in_bounds_commitAndAbort :
    let m := runTxnCalls 64 1 initManager commitAndAbort
    LOG_HEADER_SIZE ≤ 64 ∧ m.log.offset ≤ 64 ∧ ∀ (c : TxnCall) (fuel : Nat),
      ((c.run 64 fuel).run m).state.log = m.log ∨
      ∃ r : LogRecord, r.payload = [] ∧
        (((c.run 64 fuel).run m).state.log = (addLogToBuffer 64 m.log r).2 ∨
          ((c.run 64 fuel).run m).state.log = flushLogToDisk (addLogToBuffer 64 m.log r).2) ∧
        (addLogToBuffer 64 m.log r).2.offset ≤ 64 :=
  ⟨by decide, log_appends_in_bounds commitAndAbort_reachable (by decide)⟩

end Rmdb.Transaction.LogBuffer

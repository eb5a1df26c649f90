import Rmdb.Transaction.LogChain
import Rmdb.Recovery.Latch

/-! What the log holds once a call on the transaction manager returns. -/

namespace Rmdb.Transaction.Durability

open Rmdb.Defs Rmdb.Recovery Rmdb.Recovery.LogFormat Rmdb.Recovery.Log Rmdb.Recovery.LogReader
  Rmdb.Transaction.Manager Rmdb.Transaction.Lifecycle Rmdb.Transaction.LogChain

variable {m : TxnManager} {rs : List LogRecord}

lemma flush_persistLsn {s : LogManager} (h : s.offset ≠ 0) :
    (flushLogToDisk s).persistLsn = s.globalLsn := by
  simp [flushLogToDisk, h]

lemma addLogToBuffer_offset_ne_zero (size : Nat) (s : LogManager) (r : LogRecord) :
    (addLogToBuffer size s r).2.offset ≠ 0 := by
  simp only [addLogToBuffer, LogRecord.logTotLen, LOG_HEADER_SIZE]
  omega

lemma commit_flushed {size : Nat} (h : Reachable size m) {t : Int} (h0 : 0 ≤ t)
    (ht : t < m.nextTxnId) (hlsn : m.log.globalLsn + 1 < 2 ^ 63) (hid : m.nextTxnId ≤ 2 ^ 63) :
    let m' := finishState size .commit t .committed m
    (m'.txns t).state = .committed ∧ m'.log.contents = [] ∧ m'.log.persistLsn = m'.log.globalLsn ∧
      ∃ rs, readLog m'.log.written = some rs ∧
        rs.map LogRecord.lsn = (List.range rs.length).map (fun i : Nat => (i : Int) + 1) ∧
        (m'.txns t).prevLsn = rs.length ∧
        ∃ r, (recordsOf rs t).getLast? = some r ∧ r.logType = .commit ∧
          r.lsn = (m'.txns t).prevLsn := by
  obtain ⟨rs, hi⟩ := chainInv_reachable h
  have hi' := hi.finish (by decide : LogType.commit ≠ .begin) h0 ht size .committed
  have hoff : (finishState size .commit t .committed m).log.offset = 0 := by simp
  refine ⟨by simp [finishState_txns], contents_empty_offset hoff, ?_, ?_⟩
  · rw [finishState_log, flush_persistLsn (addLogToBuffer_offset_ne_zero _ _ _), flush_globalLsn]
  · have hw := hi'.stream
    rw [contents_empty_offset hoff, List.append_nil] at hw
    refine ⟨_, ?_, hi'.lsns, ?_, finalRecord m .commit t, ?_, rfl, ?_⟩
    · rw [hw]
      refine readLog_streamBytes fun r hr => hi'.fits ?_ hid hr
      rw [hi'.globalLsn, List.length_append, List.length_singleton, Nat.cast_succ, ← hi.globalLsn]
      exact hlsn
    · rw [← hi'.globalLsn]
      simp [finishState_txns, (addLogToBuffer_spec _ _ _).2.1]
    · rw [recordsOf_append, if_pos (show (finalRecord m .commit t).txnId = t from hi.ids t),
        List.getLast?_concat]
    · simp [finishState_txns, finalRecord]

/-- The log stream is exact, and `commit` forces it to disk. Over any run of appends and
flushes, each atomic under the latch and every record fitting in the buffer, the log file
followed by the buffer is what it was followed by the serializations of the appended records,
each once and in order, with LSNs following `global_lsn_` one by one, and a run that ends in a
flush has put them all in the log file. And in any manager a fresh one reaches through calls
that run atomically, the flush nested in an append included, `commit` of a begun transaction
that is not committed returns with the buffer empty and the log file alone reading back as the
records with LSNs `1, …, n`, `n` being the LSN of the transaction's `COMMIT`, its last record. -/
theorem log_stream_exact_to_commit (size : Nat) (ops : List LogOp) (s : LogManager)
    (hs : s.offset ≤ size) (hlen : ∀ r, LogOp.add r ∈ ops → r.logTotLen ≤ size)
    (h : Reachable size m) {t : Int} (h0 : 0 ≤ t) (ht : t < m.nextTxnId)
    (hc : (m.txns t).state ≠ .committed) (hlsn : m.log.globalLsn + 1 < 2 ^ 63)
    (hid : m.nextTxnId ≤ 2 ^ 63) :
    ((runLog size ops s).1.written ++ (runLog size ops s).1.contents =
        s.written ++ s.contents ++ streamBytes (runLog size ops s).2 ∧
      (runLog size ops s).2.map LogRecord.lsn =
        (List.range (runLog size ops s).2.length).map (fun i : Nat => s.globalLsn + 1 + (i : Int)) ∧
      (runLog size ops s).1.offset ≤ size ∧
      (runLog size (ops ++ [.flush]) s).1.written =
        s.written ++ s.contents ++ streamBytes (runLog size (ops ++ [.flush]) s).2) ∧
    ∃ m', (Manager.commit size t true).run m = .ok () m' ∧ (m'.txns t).state = .committed ∧
      m'.log.contents = [] ∧ m'.log.persistLsn = m'.log.globalLsn ∧
      ∃ rs, readLog m'.log.written = some rs ∧
        rs.map LogRecord.lsn = (List.range rs.length).map (fun i : Nat => (i : Int) + 1) ∧
        (m'.txns t).prevLsn = rs.length ∧
        ∃ r, (recordsOf rs t).getLast? = some r ∧ r.logType = .commit ∧
          r.lsn = (m'.txns t).prevLsn :=
  ⟨log_stream_exact size ops s hs hlen, _, commit_run size hc, commit_flushed h h0 ht hlsn hid⟩

lemma oneBegun_reachable : Reachable 64 (runTxnCalls 64 1 initManager [.begin]) := by
  simp only [runTxnCalls]
  exact @Reachable.step 64 _ .begin 1 (.fresh initManager_fresh) trivial

theorem log_stream_exact_to_commit_oneBegun :
    let m := runTxnCalls 64 1 initManager [.begin]
    (emptyLog.offset ≤ 64 ∧ (∀ r, LogOp.add r ∈ twoBegins → r.logTotLen ≤ 64) ∧
      (0 : Int) < m.nextTxnId ∧ (m.txns 0).state ≠ .committed ∧ m.log.globalLsn + 1 < 2 ^ 63 ∧
      m.nextTxnId ≤ 2 ^ 63) ∧
    ((runLog 64 twoBegins emptyLog).1.written ++ (runLog 64 twoBegins emptyLog).1.contents =
        emptyLog.written ++ emptyLog.contents ++ streamBytes (runLog 64 twoBegins emptyLog).2 ∧
      (runLog 64 twoBegins emptyLog).2.map LogRecord.lsn =
        (List.range (runLog 64 twoBegins emptyLog).2.length).map
          (fun i : Nat => emptyLog.globalLsn + 1 + (i : Int)) ∧
      (runLog 64 twoBegins emptyLog).1.offset ≤ 64 ∧
      (runLog 64 (twoBegins ++ [.flush]) emptyLog).1.written =
        emptyLog.written ++ emptyLog.contents ++
          streamBytes (runLog 64 (twoBegins ++ [.flush]) emptyLog).2) ∧
    ∃ m', (Manager.commit 64 0 true).run m = .ok () m' ∧ (m'.txns 0).state = .committed ∧
      m'.log.contents = [] ∧ m'.log.persistLsn = m'.log.globalLsn ∧
      ∃ rs, readLog m'.log.written = some rs ∧
        rs.map LogRecord.lsn = (List.range rs.length).map (fun i : Nat => (i : Int) + 1) ∧
        (m'.txns 0).prevLsn = rs.length ∧
        ∃ r, (recordsOf rs 0).getLast? = some r ∧ r.logType = .commit ∧
          r.lsn = (m'.txns 0).prevLsn :=
  have hlen : ∀ r, LogOp.add r ∈ twoBegins → r.logTotLen ≤ 64 := by
    simp [twoBegins, LogRecord.logTotLen, LogRecord.ofType, LOG_HEADER_SIZE]
  ⟨⟨by decide, hlen, by decide, by decide, by decide, by decide⟩,
    log_stream_exact_to_commit 64 twoBegins emptyLog (by decide) hlen oneBegun_reachable le_rfl
      (by decide) (by decide) (by decide) (by decide)⟩

/-- The write-ahead rule at commit, under the real latch. In any manager a fresh one reaches,
`commit` of a begun transaction that is not committed, whose `COMMIT` record fits in the space
left in the buffer, makes an `add_log_to_buffer` that returns without a nested flush and a
`flush_log_to_disk` that returns, the latch free before and after each. When `commit` returns
the buffer is empty, `persist_lsn_` is `global_lsn_`, and the log file alone reads back as
records with LSNs `1, …, n` ending at the transaction's final LSN `n`; its last record is its
`COMMIT`. -/
theorem commit_forces_log {size : Nat} (h : Reachable size m) {t : Int} (h0 : 0 ≤ t)
    (ht : t < m.nextTxnId) (hc : (m.txns t).state ≠ .committed)
    (hfit : isFull size m.log.offset LOG_HEADER_SIZE = false)
    (hlsn : m.log.globalLsn + 1 < 2 ^ 63) (hid : m.nextTxnId ≤ 2 ^ 63) :
    ∃ m', (Manager.commit size t true).run m = .ok () m' ∧
      (∀ fuel, ∃ l, (Latch.addLogToBuffer size (fuel + 1)
          (.ofType .commit (m.txns t).txnId (m.txns t).prevLsn)).run ⟨m.log, false⟩ =
          .ok { LogRecord.ofType .commit (m.txns t).txnId (m.txns t).prevLsn with
            lsn := (m'.txns t).prevLsn } ⟨l, false⟩ ∧
        (Latch.flushLogToDisk (fuel + 1)).run ⟨l, false⟩ = .ok () ⟨m'.log, false⟩) ∧
      (m'.txns t).state = .committed ∧ m'.log.contents = [] ∧
      m'.log.persistLsn = m'.log.globalLsn ∧
      ∃ rs, readLog m'.log.written = some rs ∧
        rs.map LogRecord.lsn = (List.range rs.length).map (fun i : Nat => (i : Int) + 1) ∧
        (m'.txns t).prevLsn = rs.length ∧
        ∃ r, (recordsOf rs t).getLast? = some r ∧ r.logType = .commit ∧
          r.lsn = (m'.txns t).prevLsn := by
  refine ⟨_, commit_run size hc, fun fuel => ⟨(addLogToBuffer size m.log
    (.ofType .commit (m.txns t).txnId (m.txns t).prevLsn)).2, ?_, ?_⟩, commit_flushed h h0 ht hlsn hid⟩
  · rw [Latch.addLogToBuffer_fits size fuel m.log (.ofType .commit (m.txns t).txnId (m.txns t).prevLsn)
      hfit]
    simp [finishState_txns, addLogToBuffer]
  · rw [finishState_log]
    exact Latch.flushLogToDisk_free fuel _

theorem commit_forces_log_oneBegun :
    let m := runTxnCalls 64 1 initManager [.begin]
    ((0 : Int) < m.nextTxnId ∧ (m.txns 0).state ≠ .committed ∧
      isFull 64 m.log.offset LOG_HEADER_SIZE = false ∧ m.log.globalLsn + 1 < 2 ^ 63 ∧
      m.nextTxnId ≤ 2 ^ 63) ∧
    ∃ m', (Manager.commit 64 0 true).run m = .ok () m' ∧
      (∀ fuel, ∃ l, (Latch.addLogToBuffer 64 (fuel + 1)
          (.ofType .commit (m.txns 0).txnId (m.txns 0).prevLsn)).run ⟨m.log, false⟩ =
          .ok { LogRecord.ofType .commit (m.txns 0).txnId (m.txns 0).prevLsn with
            lsn := (m'.txns 0).prevLsn } ⟨l, false⟩ ∧
        (Latch.flushLogToDisk (fuel + 1)).run ⟨l, false⟩ = .ok () ⟨m'.log, false⟩) ∧
      (m'.txns 0).state = .committed ∧ m'.log.contents = [] ∧
      m'.log.persistLsn = m'.log.globalLsn ∧
      ∃ rs, readLog m'.log.written = some rs ∧
        rs.map LogRecord.lsn = (List.range rs.length).map (fun i : Nat => (i : Int) + 1) ∧
        (m'.txns 0).prevLsn = rs.length ∧
        ∃ r, (recordsOf rs 0).getLast? = some r ∧ r.logType = .commit ∧
          r.lsn = (m'.txns 0).prevLsn :=
  ⟨⟨by decide, by decide, by decide, by decide, by decide⟩, commit_forces_log oneBegun_reachable
    le_rfl (by decide) (by decide) (by decide) (by decide) (by decide)⟩

/-- Modelled from the spec: the record of the log with LSN `lsn`, found by its header. -/
def recordAt (rs : List LogRecord) (lsn : Int) : Option LogRecord :=
  rs.find? fun r => r.lsn = lsn

/-- Modelled from the spec: the records reached from `lsn` by following `prev_lsn` through the
log until `INVALID_LSN`, newest first, at most `fuel` of them. -/
def walkBack (rs : List LogRecord) : Nat → Int → Option (List LogRecord)
  | 0, lsn => if lsn = INVALID_LSN then some [] else none
  | fuel + 1, lsn =>
    if lsn = INVALID_LSN then some [] else do
      let r ← recordAt rs lsn
      return r :: (← walkBack rs fuel r.prevLsn)

lemma recordAt_of_mem (hnd : (rs.map LogRecord.lsn).Nodup) {r : LogRecord} (hr : r ∈ rs) :
    recordAt rs r.lsn = some r := by
  induction rs with
  | nil => simp at hr
  | cons a rs ih =>
    rw [List.map_cons, List.nodup_cons] at hnd
    rcases List.mem_cons.mp hr with rfl | hr
    · simp [recordAt]
    · have hne : a.lsn ≠ r.lsn := fun he => hnd.1 (he ▸ List.mem_map_of_mem _ hr)
      rw [recordAt, List.find?_cons, decide_eq_false hne]
      exact ih hnd.2 hr

lemma walkBack_of_chain {cs : List LogRecord} {last : Int} (h : Chain cs last)
    (hsub : ∀ r ∈ cs, r ∈ rs) (hnd : (rs.map LogRecord.lsn).Nodup)
    (hpos : ∀ r ∈ rs, 1 ≤ r.lsn) {fuel : Nat} (hfuel : cs.length ≤ fuel) :
    walkBack rs fuel last = some cs.reverse := by
  induction h generalizing fuel with
  | nil => cases fuel <;> rfl
  | @snoc cs r _ _ ih =>
    obtain ⟨fuel, rfl⟩ : ∃ f, fuel = f + 1 :=
      ⟨fuel - 1, by rw [List.length_append, List.length_singleton] at hfuel; omega⟩
    have hr : r ∈ rs := hsub r (List.mem_append_right _ (List.mem_singleton_self r))
    have hinv : r.lsn ≠ INVALID_LSN := by have := hpos r hr; simp only [INVALID_LSN]; omega
    have hrest := ih (fun r' hr' => hsub r' (List.mem_append_left _ hr')) (by simpa using hfuel)
    simp [walkBack, hinv, recordAt_of_mem hnd hr, hrest]

/-- What the `prev_lsn` chains give a reader of the log, in any manager a fresh one reaches:
each transaction's records, found by looking up its `prev_lsn_` in the log and following
`prev_lsn` until `INVALID_LSN`, newest first, with LSNs strictly increasing in log order. -/
theorem prevLsn_walk_finds_records {size : Nat} (h : Reachable size m)
    (hlsn : m.log.globalLsn < 2 ^ 63) (hid : m.nextTxnId ≤ 2 ^ 63) :
    ∃ rs, readLog (m.log.written ++ m.log.contents) = some rs ∧ ∀ t,
      walkBack rs rs.length (m.txns t).prevLsn = some (recordsOf rs t).reverse ∧
      ((recordsOf rs t).map LogRecord.lsn).Pairwise (· < ·) := by
  obtain ⟨rs, hi⟩ := chainInv_reachable h
  have hsorted : (rs.map LogRecord.lsn).Pairwise (· < ·) := by
    rw [hi.lsns, List.pairwise_map]
    exact (List.pairwise_lt_range _).imp fun h => by omega
  refine ⟨rs, hi.reads_back hlsn hid, fun t => ⟨?_, ?_⟩⟩
  · exact walkBack_of_chain (hi.chains t) (fun r hr => (List.mem_filter.mp hr).1)
      (hsorted.imp ne_of_lt) (fun r hr => (hi.lsn_mem hr).1) (List.length_filter_le _ _)
  · exact hsorted.sublist ((List.filter_sublist rs).map LogRecord.lsn)

theorem prevLsn_walk_finds_records_commitAndAbort :
    let m := runTxnCalls 64 1 initManager commitAndAbort
    (m.log.globalLsn < 2 ^ 63 ∧ m.nextTxnId ≤ 2 ^ 63) ∧
    ∃ rs, readLog (m.log.written ++ m.log.contents) = some rs ∧ ∀ t,
      walkBack rs rs.length (m.txns t).prevLsn = some (recordsOf rs t).reverse ∧
      ((recordsOf rs t).map LogRecord.lsn).Pairwise (· < ·) :=
  ⟨⟨by decide, by decide⟩, prevLsn_walk_finds_records commitAndAbort_reachable (by decide)
    (by decide)⟩

end Rmdb.Transaction.Durability

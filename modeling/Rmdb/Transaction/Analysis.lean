import Rmdb.Transaction.LogChain

/-! What the log tells a recovery about the transactions. -/

namespace Rmdb.Transaction.Analysis

open Rmdb.Defs Rmdb.Record.FileHandle Rmdb.Recovery.LogFormat Rmdb.Recovery.Log
  Rmdb.Recovery.LogReader Rmdb.Transaction.Manager Rmdb.Transaction.Lifecycle
  Rmdb.Transaction.LogChain

/-- Modelled from the spec: the state a record leaves its transaction in, by the transitions of
the transaction manager: `COMMIT` committed, `ABORT` aborted, any other record running. -/
def statusAfter : LogType → TransactionState
  | .commit => .committed
  | .abort => .aborted
  | _ => .growing

/-- Modelled from the spec: the state of a transaction whose records, in log order, are `rs`:
`DEFAULT` before its `BEGIN`, then the state its last record leaves it in. -/
def statusOf (rs : List LogRecord) : TransactionState :=
  match rs.getLast? with
  | none => .default
  | some r => statusAfter r.logType

@[simp] lemma statusOf_nil : statusOf [] = .default := rfl

@[simp] lemma statusOf_concat (rs : List LogRecord) (r : LogRecord) :
    statusOf (rs ++ [r]) = statusAfter r.logType := by
  simp [statusOf]

lemma statusOf_begins {rs : List LogRecord} (h : ∀ r ∈ rs, r.logType = .begin) :
    statusOf rs ≠ .committed ∧ statusOf rs ≠ .aborted := by
  unfold statusOf
  split
  · exact ⟨nofun, nofun⟩
  · next r hr => rw [h r (List.mem_of_getLast?_eq_some hr)]; exact ⟨nofun, nofun⟩

lemma exists_commit_of_statusOf {rs : List LogRecord} (h : statusOf rs = .committed) :
    ∃ r, rs.getLast? = some r ∧ r.logType = .commit := by
  unfold statusOf at h
  split at h
  · cases h
  · next r hr => exact ⟨r, hr, by cases hl : r.logType <;> simp_all [statusAfter]⟩

lemma lsn_getLast_of_chain {cs : List LogRecord} {last : Int} (h : Chain cs last) {r : LogRecord}
    (hr : cs.getLast? = some r) : r.lsn = last := by
  cases h with
  | nil => cases hr
  | snoc _ _ => rw [List.getLast?_concat, Option.some.injEq] at hr; rw [hr]

lemma tail_not_begin {cs : List LogRecord} {last : Int} (h : Chain cs last) :
    ∀ r ∈ cs.tail, r.logType ≠ .begin := by
  induction h with
  | nil => nofun
  | @snoc rs r _ hb ih =>
    intro r' hr'
    rcases rs with _ | ⟨a, rs⟩
    · simp at hr'
    · simp only [List.cons_append, List.tail_cons, List.mem_append, List.mem_singleton] at hr'
      rcases hr' with hr' | rfl
      · exact ih r' hr'
      · exact fun h => List.cons_ne_nil a rs (hb.1 h)

lemma recordsOf_file {fs bs : List LogRecord} (hbs : ∀ r ∈ bs, r.logType = .begin) {t last : Int}
    (h : Chain (recordsOf (fs ++ bs) t) last) :
    recordsOf (fs ++ bs) t = recordsOf fs t ∨
      recordsOf fs t = [] ∧ ∀ r ∈ recordsOf (fs ++ bs) t, r.logType = .begin := by
  have hsplit : recordsOf (fs ++ bs) t = recordsOf fs t ++ recordsOf bs t := List.filter_append _ _
  have hb : ∀ r ∈ recordsOf bs t, r.logType = .begin := fun r hr => hbs r (List.mem_filter.1 hr).1
  rcases hfs : recordsOf fs t with _ | ⟨a, as⟩
  · rw [hsplit, hfs, List.nil_append]
    exact .inr ⟨rfl, hb⟩
  · rcases hbt : recordsOf bs t with _ | ⟨b, bs'⟩
    · rw [hsplit, hfs, hbt, List.append_nil]
      exact .inl rfl
    · refine absurd (hb b (by rw [hbt]; exact List.mem_cons_self _ _)) (tail_not_begin h b ?_)
      rw [hsplit, hfs, hbt]
      simp

lemma lsns_of_prefix {fs bs : List LogRecord}
    (h : (fs ++ bs).map LogRecord.lsn =
      (List.range (fs ++ bs).length).map fun i : Nat => (i : Int) + 1) :
    fs.map LogRecord.lsn = (List.range fs.length).map fun i : Nat => (i : Int) + 1 := by
  rw [List.length_append, List.range_add, List.map_append, List.map_append] at h
  exact (List.append_inj h (by simp)).1

def Flushed (m : TxnManager) (rs : List LogRecord) : Prop :=
  ∃ fs bs, rs = fs ++ bs ∧ m.log.written = streamBytes fs ∧ ∀ r ∈ bs, r.logType = .begin

structure AnalysisInv (m : TxnManager) (rs : List LogRecord) : Prop where
  chain : ChainInv m rs
  flushed : Flushed m rs
  states : ∀ t, (m.txns t).state = statusOf (recordsOf rs t)

variable {m : TxnManager} {rs : List LogRecord}

lemma analysisInv_fresh (h : IsFresh m) : AnalysisInv m [] where
  chain := chainInv_fresh h
  flushed := ⟨[], [], rfl, h.written_eq, nofun⟩
  states t := by rw [h.txns_eq]; rfl

lemma AnalysisInv.withTables (h : AnalysisInv m rs) (tables : String → RmFile) :
    AnalysisInv { m with tables := tables } rs :=
  ⟨h.chain.frame rfl rfl fun _ => ⟨rfl, rfl⟩, h.flushed, h.states⟩

lemma addLogToBuffer_written (size : Nat) (s : LogManager) (r : LogRecord) :
    (addLogToBuffer size s r).2.written = s.written ∨
      (addLogToBuffer size s r).2.written = s.written ++ s.contents := by
  simp only [addLogToBuffer, flushLogToDisk]
  split_ifs <;> simp [LogManager.contents]

lemma Flushed.append_begin {m' : TxnManager} (h : Flushed m rs)
    (hs : m.log.written ++ m.log.contents = streamBytes rs) {r : LogRecord}
    (hb : r.logType = .begin)
    (hw : m'.log.written = m.log.written ∨ m'.log.written = m.log.written ++ m.log.contents) :
    Flushed m' (rs ++ [r]) := by
  obtain ⟨fs, bs, rfl, hf, hbs⟩ := h
  rcases hw with hw | hw
  · refine ⟨fs, bs ++ [r], List.append_assoc _ _ _, hw.trans hf, fun x hx => ?_⟩
    rcases List.mem_append.1 hx with hx | hx
    · exact hbs x hx
    · rw [List.mem_singleton.1 hx]; exact hb
  · exact ⟨fs ++ bs, [r], rfl, hw.trans hs, fun x hx => by rw [List.mem_singleton.1 hx]; exact hb⟩

lemma analysisInv_begin (h : AnalysisInv m rs) (size : Nat) :
    AnalysisInv ((Manager.begin size none true).run m).state
      (rs ++ [{ LogRecord.ofType .begin m.nextTxnId INVALID_LSN with lsn := m.log.globalLsn + 1 }]) := by
  obtain ⟨m', hrun, -, hlog, -, -, hgrow, hother⟩ := begin_run size m
  have hc := chainInv_begin h.chain size
  rw [hrun, EStateM.Result.state_ok] at hc ⊢
  refine ⟨hc, h.flushed.append_begin h.chain.stream rfl (hlog ▸ addLogToBuffer_written _ _ _),
    fun t => ?_⟩
  rw [recordsOf_append]
  split_ifs with ht
  · subst ht
    rw [statusOf_concat]
    exact hgrow
  · rw [List.append_nil, hother t (Ne.symm ht)]
    exact h.states t

lemma AnalysisInv.finish (h : AnalysisInv m rs) {logType : LogType} (hlt : logType ≠ .begin)
    {t : Int} (h0 : 0 ≤ t) (ht : t < m.nextTxnId) (size : Nat) :
    AnalysisInv (finishState size logType t (statusAfter logType) m)
      (rs ++ [finalRecord m logType t]) := by
  have hc := h.chain.finish hlt h0 ht size (statusAfter logType)
  have hid : (finalRecord m logType t).txnId = t := h.chain.ids t
  have hoff : (finishState size logType t (statusAfter logType) m).log.offset = 0 := by simp
  have hw := hc.stream
  rw [contents_empty_offset hoff, List.append_nil] at hw
  refine ⟨hc, ⟨_, [], (List.append_nil _).symm, hw, nofun⟩, fun t' => ?_⟩
  rw [finishState_txns, recordsOf_append]
  by_cases ht' : t' = t
  · subst ht'
    rw [if_pos rfl, if_pos hid, statusOf_concat]
    rfl
  · rw [if_neg ht', if_neg fun he => ht' (he.symm.trans hid), List.append_nil]
    exact h.states t'

lemma analysisInv_commit (h : AnalysisInv m rs) {t : Int} (h0 : 0 ≤ t) (ht : t < m.nextTxnId)
    (size : Nat) : ∃ rs', AnalysisInv ((Manager.commit size t true).run m).state rs' := by
  by_cases hc : (m.txns t).state = .committed
  · exact ⟨rs, by rw [commit_run_committed size hc]; exact h⟩
  · exact ⟨_, by rw [commit_run size hc]; exact h.finish (by decide : LogType.commit ≠ .begin) h0 ht size⟩

lemma analysisInv_abort (h : AnalysisInv m rs) {t : Int} (h0 : 0 ≤ t) (ht : t < m.nextTxnId)
    (size fuel : Nat) : ∃ rs', AnalysisInv ((Manager.abort size fuel t true).run m).state rs' := by
  obtain ⟨tables, hr | hr⟩ := abort_state size fuel m t <;> rw [hr]
  · exact ⟨rs, h.withTables tables⟩
  · exact ⟨_, (h.withTables tables).finish (by decide : LogType.abort ≠ .begin) h0 ht size⟩

lemma analysisInv_step (h : AnalysisInv m rs) {c : TxnCall} (hc : c.Begun m) (size fuel : Nat) :
    ∃ rs', AnalysisInv ((c.run size fuel).run m).state rs' := by
  cases c with
  | begin =>
    exact ⟨_, by rw [TxnCall.run, EStateM.Result.state_bind_pure]; exact analysisInv_begin h size⟩
  | commit t => exact analysisInv_commit h hc.1 hc.2 size
  | abort t => exact analysisInv_abort h hc.1 hc.2 size fuel

lemma analysisInv_reachable {size : Nat} (h : Reachable size m) : ∃ rs, AnalysisInv m rs := by
  induction h with
  | fresh h => exact ⟨[], analysisInv_fresh h⟩
  | step fuel _ hc ih =>
    obtain ⟨rs, ih⟩ := ih
    exact analysisInv_step ih hc size fuel

lemma file_reads_back {fs bs : List LogRecord} (h : ChainInv m (fs ++ bs))
    (hf : m.log.written = streamBytes fs) (hlsn : m.log.globalLsn < 2 ^ 63)
    (hid : m.nextTxnId ≤ 2 ^ 63) : readLog m.log.written = some fs := by
  rw [hf]
  exact readLog_streamBytes fun r hr => h.fits hlsn hid (List.mem_append_left _ hr)

/-- The transaction table can be read back from the log, over any run of calls by any number
of transactions: the log file followed by the buffer reads back as records, and each
transaction's state is the one its last record leaves it in, `DEFAULT` when it has none, also
when a finished transaction is finished again. The LSNs and the ids must fit the header's
8-byte fields. -/
theorem txn_states_follow_log {size : Nat} (h : Reachable size m)
    (hlsn : m.log.globalLsn < 2 ^ 63) (hid : m.nextTxnId ≤ 2 ^ 63) :
    ∃ rs, readLog (m.log.written ++ m.log.contents) = some rs ∧
      ∀ t, (m.txns t).state = statusOf (recordsOf rs t) := by
  obtain ⟨rs, hi⟩ := analysisInv_reachable h
  exact ⟨rs, hi.chain.reads_back hlsn hid, hi.states⟩

theorem txn_states_follow_log_commitAndAbort :
    let m := runTxnCalls 64 1 initManager commitAndAbort
    (m.log.globalLsn < 2 ^ 63 ∧ m.nextTxnId ≤ 2 ^ 63) ∧
    ∃ rs, readLog (m.log.written ++ m.log.contents) = some rs ∧
      ∀ t, (m.txns t).state = statusOf (recordsOf rs t) :=
  ⟨⟨by decide, by decide⟩, txn_states_follow_log commitAndAbort_reachable (by decide) (by decide)⟩

/-- The write-ahead rule over whole runs. In every manager a fresh one reaches, the log file
alone reads back as the records with LSNs `1, …, n`, only `BEGIN` records follow them in the
buffer, and every committed transaction has its final LSN at most `n`: the file holds every
record up to it, the record with that LSN being the transaction's `COMMIT`. -/
theorem committed_log_on_disk {size : Nat} (h : Reachable size m)
    (hlsn : m.log.globalLsn < 2 ^ 63) (hid : m.nextTxnId ≤ 2 ^ 63) :
    ∃ fs bs, readLog m.log.written = some fs ∧
      readLog (m.log.written ++ m.log.contents) = some (fs ++ bs) ∧
      (∀ r ∈ bs, r.logType = .begin) ∧
      fs.map LogRecord.lsn = (List.range fs.length).map (fun i : Nat => (i : Int) + 1) ∧
      ∀ t, (m.txns t).state = .committed → (m.txns t).prevLsn ≤ fs.length ∧
        ∃ r ∈ fs, r.txnId = t ∧ r.lsn = (m.txns t).prevLsn ∧ r.logType = .commit := by
  obtain ⟨rs, hi⟩ := analysisInv_reachable h
  obtain ⟨fs, bs, rfl, hf, hbs⟩ := hi.flushed
  have hfl := lsns_of_prefix hi.chain.lsns
  refine ⟨fs, bs, file_reads_back hi.chain hf hlsn hid, hi.chain.reads_back hlsn hid, hbs, hfl,
    fun t hc => ?_⟩
  have hch := hi.chain.chains t
  have hst := (hi.states t).symm.trans hc
  rcases recordsOf_file hbs hch with he | ⟨-, hb⟩
  · rw [he] at hch hst
    obtain ⟨r, hr, hcom⟩ := exists_commit_of_statusOf hst
    have hlast := lsn_getLast_of_chain hch hr
    obtain ⟨hrfs, hrt⟩ := List.mem_filter.1 (List.mem_of_getLast?_eq_some hr)
    exact ⟨hlast ▸ (lsn_bounds_of_mem hfl hrfs).2, r, hrfs, of_decide_eq_true hrt, hlast, hcom⟩
  · exact absurd hst (statusOf_begins hb).1

theorem committed_log_on_disk_commitAndAbort :
    let m := runTxnCalls 64 1 initManager commitAndAbort
    (m.log.globalLsn < 2 ^ 63 ∧ m.nextTxnId ≤ 2 ^ 63) ∧
    ∃ fs bs, readLog m.log.written = some fs ∧
      readLog (m.log.written ++ m.log.contents) = some (fs ++ bs) ∧
      (∀ r ∈ bs, r.logType = .begin) ∧
      fs.map LogRecord.lsn = (List.range fs.length).map (fun i : Nat => (i : Int) + 1) ∧
      ∀ t, (m.txns t).state = .committed → (m.txns t).prevLsn ≤ fs.length ∧
        ∃ r ∈ fs, r.txnId = t ∧ r.lsn = (m.txns t).prevLsn ∧ r.logType = .commit :=
  ⟨⟨by decide, by decide⟩, committed_log_on_disk commitAndAbort_reachable (by decide) (by decide)⟩

/-- What a recovery reading only the log file finds. In every manager a fresh one reaches, a
transaction is committed exactly when its records in the file leave it committed, and aborted
exactly when they leave it aborted: a crash loses from the buffer only `BEGIN` records of
transactions still running. -/
theorem log_file_finds_finished {size : Nat} (h : Reachable size m)
    (hlsn : m.log.globalLsn < 2 ^ 63) (hid : m.nextTxnId ≤ 2 ^ 63) :
    ∃ fs, readLog m.log.written = some fs ∧ ∀ t,
      ((m.txns t).state = .committed ↔ statusOf (recordsOf fs t) = .committed) ∧
      ((m.txns t).state = .aborted ↔ statusOf (recordsOf fs t) = .aborted) := by
  obtain ⟨rs, hi⟩ := analysisInv_reachable h
  obtain ⟨fs, bs, rfl, hf, hbs⟩ := hi.flushed
  refine ⟨fs, file_reads_back hi.chain hf hlsn hid, fun t => ?_⟩
  rw [hi.states t]
  rcases recordsOf_file hbs (hi.chain.chains t) with he | ⟨hnil, hb⟩
  · rw [he]
    exact ⟨Iff.rfl, Iff.rfl⟩
  · rw [hnil, statusOf_nil]
    exact ⟨iff_of_false (statusOf_begins hb).1 nofun, iff_of_false (statusOf_begins hb).2 nofun⟩

theorem log_file_finds_finished_commitAndAbort :
    let m := runTxnCalls 64 1 initManager commitAndAbort
    (m.log.globalLsn < 2 ^ 63 ∧ m.nextTxnId ≤ 2 ^ 63) ∧
    ∃ fs, readLog m.log.written = some fs ∧ ∀ t,
      ((m.txns t).state = .committed ↔ statusOf (recordsOf fs t) = .committed) ∧
      ((m.txns t).state = .aborted ↔ statusOf (recordsOf fs t) = .aborted) :=
  ⟨⟨by decide, by decide⟩, log_file_finds_finished commitAndAbort_reachable (by decide) (by decide)⟩

end Rmdb.Transaction.Analysis

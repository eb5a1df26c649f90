import Rmdb.Transaction.Lifecycle
import Rmdb.Recovery.LogReader

/-! The log records of the transaction manager over any run of `begin`, `commit` and `abort`. -/

namespace Rmdb.Transaction.LogChain

open Rmdb.Defs Rmdb.Record.FileHandle Rmdb.Recovery.LogFormat Rmdb.Recovery.Log
  Rmdb.Recovery.LogReader Rmdb.Transaction.Manager Rmdb.Transaction.Lifecycle

inductive TxnCall
  | begin
  | commit (txnId : Int)
  | abort (txnId : Int)

def TxnCall.run (size fuel : Nat) : TxnCall → TxnM Unit
  | .begin => do let _ ← Manager.begin size none true
  | .commit txnId => Manager.commit size txnId true
  | .abort txnId => Manager.abort size fuel txnId true

def TxnCall.Begun (m : TxnManager) : TxnCall → Prop
  | .begin => True
  | .commit txnId | .abort txnId => 0 ≤ txnId ∧ txnId < m.nextTxnId

structure IsFresh (m : TxnManager) : Prop where
  nextTxnId_eq : m.nextTxnId = 0
  txns_eq : m.txns = Transaction.new
  globalLsn_eq : m.log.globalLsn = 0
  written_eq : m.log.written = []
  offset_eq : m.log.offset = 0

inductive Reachable (size : Nat) : TxnManager → Prop
  | fresh {m} : IsFresh m → Reachable size m
  | step {m : TxnManager} {c : TxnCall} (fuel : Nat) : Reachable size m → c.Begun m →
      Reachable size ((c.run size fuel).run m).state

inductive Chain : List LogRecord → Int → Prop
  | nil : Chain [] INVALID_LSN
  | snoc {rs : List LogRecord} {r : LogRecord} : Chain rs r.prevLsn →
      (r.logType = .begin ↔ rs = []) → Chain (rs ++ [r]) r.lsn

def recordsOf (rs : List LogRecord) (txnId : Int) : List LogRecord :=
  rs.filter fun r => r.txnId = txnId

structure ChainInv (m : TxnManager) (rs : List LogRecord) : Prop where
  stream : m.log.written ++ m.log.contents = streamBytes rs
  lsns : rs.map LogRecord.lsn = (List.range rs.length).map fun i : Nat => (i : Int) + 1
  globalLsn : m.log.globalLsn = rs.length
  records : ∀ r ∈ rs, r.payload = [] ∧ 0 ≤ r.txnId ∧ r.txnId < m.nextTxnId ∧
    -1 ≤ r.prevLsn ∧ r.prevLsn < r.lsn
  ids : ∀ t, (m.txns t).txnId = t
  prevLsn : ∀ t, -1 ≤ (m.txns t).prevLsn ∧ (m.txns t).prevLsn ≤ m.log.globalLsn
  chains : ∀ t, Chain (recordsOf rs t) (m.txns t).prevLsn
  begun : ∀ t, 0 ≤ t → t < m.nextTxnId → recordsOf rs t ≠ []
  nextTxnId_nonneg : 0 ≤ m.nextTxnId

lemma Chain.eq_invalid {rs : List LogRecord} {last : Int} (h : Chain rs last) (hrs : rs = []) :
    last = INVALID_LSN := by
  cases h with
  | nil => rfl
  | snoc _ _ => simp at hrs

lemma recordsOf_append (rs : List LogRecord) (r : LogRecord) (t : Int) :
    recordsOf (rs ++ [r]) t = recordsOf rs t ++ if r.txnId = t then [r] else [] := by
  by_cases h : r.txnId = t <;> simp [recordsOf, List.filter_append, h]

lemma setTxn_txns (m : TxnManager) (t : Int) (txn : Transaction) (t' : Int) :
    (m.setTxn t txn).txns t' = if t' = t then txn else m.txns t' := by
  simp [TxnManager.setTxn, Function.update_apply]

@[simp] lemma setTxn_nextTxnId (m : TxnManager) (t : Int) (txn : Transaction) :
    (m.setTxn t txn).nextTxnId = m.nextTxnId := rfl

variable {m m' : TxnManager} {rs : List LogRecord}

lemma chainInv_fresh (h : IsFresh m) : ChainInv m [] where
  stream := by simp [h.written_eq, contents_empty_offset h.offset_eq]
  lsns := rfl
  globalLsn := h.globalLsn_eq
  records := by simp
  ids t := by rw [h.txns_eq]; rfl
  prevLsn t := by simp [h.txns_eq, h.globalLsn_eq, Transaction.new, INVALID_LSN]
  chains t := by rw [h.txns_eq]; exact .nil
  begun t h0 ht := by rw [h.nextTxnId_eq] at ht; omega
  nextTxnId_nonneg := by rw [h.nextTxnId_eq]

lemma ChainInv.frame (h : ChainInv m rs) (hlog : m'.log = m.log)
    (hnext : m'.nextTxnId = m.nextTxnId)
    (htx : ∀ t, (m'.txns t).txnId = (m.txns t).txnId ∧ (m'.txns t).prevLsn = (m.txns t).prevLsn) :
    ChainInv m' rs where
  stream := hlog ▸ h.stream
  lsns := h.lsns
  globalLsn := hlog ▸ h.globalLsn
  records := hnext ▸ h.records
  ids t := (htx t).1.trans (h.ids t)
  prevLsn t := hlog ▸ (htx t).2 ▸ h.prevLsn t
  chains t := (htx t).2 ▸ h.chains t
  begun := hnext ▸ h.begun
  nextTxnId_nonneg := hnext ▸ h.nextTxnId_nonneg

lemma ChainInv.append (h : ChainInv m rs) {r : LogRecord}
    (hstream : m'.log.written ++ m'.log.contents = m.log.written ++ m.log.contents ++ r.serialize)
    (hglobal : m'.log.globalLsn = m.log.globalLsn + 1) (hlsn : r.lsn = m.log.globalLsn + 1)
    (hpayload : r.payload = []) (hid0 : 0 ≤ r.txnId) (hid : r.txnId < m'.nextTxnId)
    (hprev : r.prevLsn = (m.txns r.txnId).prevLsn)
    (hbegin : r.logType = .begin ↔ recordsOf rs r.txnId = [])
    (hnext : m.nextTxnId ≤ m'.nextTxnId)
    (hbegun : ∀ t, 0 ≤ t → t < m'.nextTxnId → t = r.txnId ∨ t < m.nextTxnId)
    (hself : (m'.txns r.txnId).txnId = r.txnId ∧ (m'.txns r.txnId).prevLsn = r.lsn)
    (htx : ∀ t, t ≠ r.txnId →
      (m'.txns t).txnId = (m.txns t).txnId ∧ (m'.txns t).prevLsn = (m.txns t).prevLsn) :
    ChainInv m' (rs ++ [r]) where
  stream := by rw [hstream, h.stream, streamBytes_append, streamBytes_cons, streamBytes_nil,
    List.append_nil]
  lsns := by
    rw [List.map_append, h.lsns, List.length_append, List.length_singleton, List.range_succ,
      List.map_append, List.map_singleton, List.map_singleton, hlsn, h.globalLsn]
  globalLsn := by rw [hglobal, h.globalLsn, List.length_append, List.length_singleton]; push_cast; rfl
  records r' hr' := by
    rcases List.mem_append.1 hr' with hr' | hr'
    · obtain ⟨h1, h2, h3, h4⟩ := h.records r' hr'
      exact ⟨h1, h2, by omega, h4⟩
    · obtain rfl := List.mem_singleton.1 hr'
      have := h.prevLsn r'.txnId
      exact ⟨hpayload, hid0, hid, by omega, by omega⟩
  ids t := by
    by_cases ht : t = r.txnId
    · subst ht; exact hself.1
    · exact (htx t ht).1.trans (h.ids t)
  prevLsn t := by
    by_cases ht : t = r.txnId
    · subst ht; rw [hself.2, hglobal, hlsn]; have := h.globalLsn; omega
    · have := h.prevLsn t; rw [(htx t ht).2]; omega
  chains t := by
    rw [recordsOf_append]
    by_cases ht : r.txnId = t
    · subst ht
      rw [if_pos rfl, hself.2]
      exact .snoc (hprev ▸ h.chains r.txnId) hbegin
    · rw [if_neg ht, List.append_nil, (htx t (Ne.symm ht)).2]
      exact h.chains t
  begun t h0 ht := by
    rw [recordsOf_append]
    rcases hbegun t h0 ht with rfl | ht'
    · simp
    · exact fun hnil => h.begun t h0 ht' (List.append_eq_nil.1 hnil).1
  nextTxnId_nonneg := le_trans h.nextTxnId_nonneg hnext

lemma begin_run (size : Nat) (m : TxnManager) :
    ∃ m', (Manager.begin size none true).run m = .ok m.nextTxnId m' ∧
      m'.nextTxnId = m.nextTxnId + 1 ∧
      m'.log = (addLogToBuffer size m.log (.ofType .begin m.nextTxnId INVALID_LSN)).2 ∧
      (m'.txns m.nextTxnId).txnId = m.nextTxnId ∧
      (m'.txns m.nextTxnId).prevLsn = m.log.globalLsn + 1 ∧
      (m'.txns m.nextTxnId).state = .growing ∧
      ∀ t, t ≠ m.nextTxnId → m'.txns t = m.txns t :=
  ⟨_, rfl, rfl, rfl, by simp [TxnManager.setTxn, Transaction.new], by simp [TxnManager.setTxn, addLogToBuffer],
    by simp [TxnManager.setTxn], fun t ht => by simp [TxnManager.setTxn, ht]⟩

lemma ChainInv.recordsOf_eq_nil (h : ChainInv m rs) {t : Int} (ht : m.nextTxnId ≤ t) :
    recordsOf rs t = [] :=
  List.filter_eq_nil_iff.2 fun r hr => by have := (h.records r hr).2.2.1; simp; omega

lemma chainInv_begin (h : ChainInv m rs) (size : Nat) :
    ChainInv ((Manager.begin size none true).run m).state
      (rs ++ [{ LogRecord.ofType .begin m.nextTxnId INVALID_LSN with lsn := m.log.globalLsn + 1 }]) := by
  obtain ⟨m', hrun, hnext, hlog, hid, hprev, -, hother⟩ := begin_run size m
  obtain ⟨-, hglobal, hstream, -⟩ :=
    addLogToBuffer_spec size m.log (.ofType .begin m.nextTxnId INVALID_LSN)
  have hnil := h.recordsOf_eq_nil (le_refl m.nextTxnId)
  rw [hrun, EStateM.Result.state_ok]
  refine h.append (hlog ▸ hstream) (hlog ▸ hglobal) rfl rfl h.nextTxnId_nonneg
    (show m.nextTxnId < m'.nextTxnId by omega) (Chain.eq_invalid (h.chains _) hnil).symm
    (iff_of_true rfl hnil) (by omega) (fun t _ ht => ?_) ⟨hid, hprev⟩
    fun t ht => by rw [hother t ht]; exact ⟨rfl, rfl⟩
  show t = m.nextTxnId ∨ t < m.nextTxnId
  omega

lemma ChainInv.setTxn (h : ChainInv m rs) (t : Int) (txn : Transaction)
    (hid : txn.txnId = (m.txns t).txnId) (hprev : txn.prevLsn = (m.txns t).prevLsn) :
    ChainInv (m.setTxn t txn) rs :=
  h.frame rfl rfl fun t' => by
    rw [setTxn_txns]
    split_ifs with ht
    · subst ht; exact ⟨hid, hprev⟩
    · exact ⟨rfl, rfl⟩

lemma logAndFlush_state (size : Nat) (logType : LogType) (t : Int) (m : TxnManager) :
    ((logAndFlush size logType t).run m).state =
      { m.setTxn t { m.txns t with prevLsn := m.log.globalLsn + 1 } with
        log := flushLogToDisk
          (addLogToBuffer size m.log (.ofType logType (m.txns t).txnId (m.txns t).prevLsn)).2 } :=
  rfl

lemma ChainInv.logAndFlush (h : ChainInv m rs) {logType : LogType} (hlt : logType ≠ .begin)
    {t : Int} (h0 : 0 ≤ t) (ht : t < m.nextTxnId) (size : Nat) :
    ChainInv ((logAndFlush size logType t).run m).state (rs ++ [finalRecord m logType t]) := by
  obtain ⟨-, hglobal, hstream, -⟩ := addLogToBuffer_spec size m.log
    (.ofType logType (m.txns t).txnId (m.txns t).prevLsn)
  have hid : (finalRecord m logType t).txnId = t := h.ids t
  rw [logAndFlush_state]
  refine h.append ?_ ?_ rfl rfl (by rw [hid]; exact h0) (by rw [hid]; exact ht)
    (by rw [hid]; rfl) (by rw [hid]; exact iff_of_false hlt (h.begun t h0 ht)) le_rfl
    (fun t' _ ht' => .inr ht') ?_ fun t' ht' => ?_
  · rw [flush_written_contents, hstream]
    rfl
  · rw [flush_globalLsn, hglobal]
  · rw [hid]
    simp [h.ids t, finalRecord]
  · rw [hid] at ht'
    simp [setTxn_txns, ht']

def finishState (size : Nat) (logType : LogType) (t : Int) (st : TransactionState)
    (m : TxnManager) : TxnManager :=
  let m₁ := m.setTxn t { m.txns t with writeSet := [], lockSet := [] }
  let m₂ := ((Manager.logAndFlush size logType t).run m₁).state
  m₂.setTxn t { m₂.txns t with state := st }

@[simp] lemma finishState_log (size : Nat) (logType : LogType) (t : Int) (st : TransactionState)
    (m : TxnManager) : (finishState size logType t st m).log =
      flushLogToDisk (addLogToBuffer size m.log (.ofType logType (m.txns t).txnId (m.txns t).prevLsn)).2 := by
  simp [finishState, logAndFlush_state]

lemma finishState_txns (size : Nat) (logType : LogType) (t : Int) (st : TransactionState)
    (m : TxnManager) (t' : Int) : (finishState size logType t st m).txns t' =
      if t' = t then
        { m.txns t with writeSet := [], lockSet := [], prevLsn := m.log.globalLsn + 1, state := st }
      else m.txns t' := by
  by_cases h : t' = t <;> simp [finishState, logAndFlush_state, setTxn_txns, h]

@[simp] lemma finalRecord_clearSets (m : TxnManager) (logType : LogType) (t : Int) :
    finalRecord (m.setTxn t { m.txns t with writeSet := [], lockSet := [] }) logType t =
      finalRecord m logType t := by
  simp [finalRecord]

lemma ChainInv.finish (h : ChainInv m rs) {logType : LogType} (hlt : logType ≠ .begin)
    {t : Int} (h0 : 0 ≤ t) (ht : t < m.nextTxnId) (size : Nat) (st : TransactionState) :
    ChainInv (finishState size logType t st m) (rs ++ [finalRecord m logType t]) := by
  have h₁ := h.setTxn t { m.txns t with writeSet := [], lockSet := [] } rfl rfl
  rw [← finalRecord_clearSets]
  exact (h₁.logAndFlush hlt h0 ht size).setTxn t _ rfl rfl

lemma commit_run (size : Nat) {t : Int} (hc : (m.txns t).state ≠ .committed) :
    (Manager.commit size t true).run m = .ok () (finishState size .commit t .committed m) := by
  simp only [Manager.commit, EStateM.run_bind, EStateM.run_get, hc, if_false, releaseAll,
    EStateM.run_modify, if_true, EStateM.run_pure]
  rfl

lemma commit_run_committed (size : Nat) {t : Int} (hc : (m.txns t).state = .committed) :
    (Manager.commit size t true).run m = .error .assertion m := by
  simp [Manager.commit, hc]

def TablesOnly (x : TxnM α) : Prop :=
  ∀ m, ∃ tables, (x.run m).state = { m with tables := tables }

lemma tablesOnly_pure (a : α) : TablesOnly (pure a : TxnM α) := fun m => ⟨m.tables, rfl⟩

lemma tablesOnly_onTable (tabName : String) (x : RmM α) : TablesOnly (onTable tabName x) :=
  fun m => ⟨Function.update m.tables tabName (x.run (m.tables tabName)).state, by
    show (onTable tabName x m).state = _
    unfold onTable
    cases x.run (m.tables tabName) <;> rfl⟩

lemma TablesOnly.bind {x : TxnM α} {f : α → TxnM β} (hx : TablesOnly x)
    (hf : ∀ a, TablesOnly (f a)) : TablesOnly (x >>= f) := fun m => by
  obtain ⟨tables, h⟩ := hx m
  rw [EStateM.run_bind]
  cases hr : x.run m with
  | ok a m' =>
    rw [hr, EStateM.Result.state_ok] at h
    subst h
    exact hf a _
  | error e m' => exact ⟨tables, by rw [hr] at h; exact h⟩

lemma tablesOnly_rollback (fuel : Nat) (ws : List WriteRecord) : TablesOnly (rollback fuel ws) := by
  induction ws with
  | nil => exact tablesOnly_pure ()
  | cons w ws ih =>
    refine TablesOnly.bind ?_ fun _ => ih
    unfold rollbackWrite
    split
    · exact tablesOnly_onTable _ _
    · exact (tablesOnly_onTable _ _).bind fun _ => tablesOnly_pure ()
    · exact tablesOnly_onTable _ _

lemma abort_state (size fuel : Nat) (m : TxnManager) (t : Int) : ∃ tables,
    ((Manager.abort size fuel t true).run m).state = { m with tables := tables } ∨
    ((Manager.abort size fuel t true).run m).state =
      finishState size .abort t .aborted { m with tables := tables } := by
  obtain ⟨tables, hr⟩ := tablesOnly_rollback fuel (m.txns t).writeSet.reverse m
  refine ⟨tables, ?_⟩
  simp only [Manager.abort, EStateM.run_bind, EStateM.run_get]
  cases hrun : (rollback fuel (m.txns t).writeSet.reverse).run m with
  | ok _ m₁ =>
    rw [hrun, EStateM.Result.state_ok] at hr
    subst hr
    exact .inr rfl
  | error _ m₁ =>
    rw [hrun, EStateM.Result.state_error] at hr
    exact .inl hr

lemma chainInv_commit (h : ChainInv m rs) {t : Int} (h0 : 0 ≤ t) (ht : t < m.nextTxnId)
    (size : Nat) : ∃ rs', ChainInv ((Manager.commit size t true).run m).state rs' := by
  by_cases hc : (m.txns t).state = .committed
  · exact ⟨rs, by rw [commit_run_committed size hc]; exact h⟩
  · exact ⟨_, by rw [commit_run size hc]; exact h.finish (by decide : LogType.commit ≠ .begin) h0 ht size .committed⟩

lemma chainInv_abort (h : ChainInv m rs) {t : Int} (h0 : 0 ≤ t) (ht : t < m.nextTxnId)
    (size fuel : Nat) : ∃ rs', ChainInv ((Manager.abort size fuel t true).run m).state rs' := by
  obtain ⟨tables, hr⟩ := abort_state size fuel m t
  have h₁ : ChainInv { m with tables := tables } rs := h.frame rfl rfl fun _ => ⟨rfl, rfl⟩
  rcases hr with hr | hr <;> rw [hr]
  · exact ⟨rs, h₁⟩
  · exact ⟨_, h₁.finish (by decide : LogType.abort ≠ .begin) h0 ht size .aborted⟩

lemma chainInv_step (h : ChainInv m rs) {c : TxnCall} (hc : c.Begun m) (size fuel : Nat) :
    ∃ rs', ChainInv ((c.run size fuel).run m).state rs' := by
  cases c with
  | begin =>
    exact ⟨_, by rw [TxnCall.run, EStateM.Result.state_bind_pure]; exact chainInv_begin h size⟩
  | commit t => exact chainInv_commit h hc.1 hc.2 size
  | abort t => exact chainInv_abort h hc.1 hc.2 size fuel

lemma chainInv_reachable {size : Nat} (h : Reachable size m) : ∃ rs, ChainInv m rs := by
  induction h with
  | fresh h => exact ⟨[], chainInv_fresh h⟩
  | step fuel _ hc ih =>
    obtain ⟨rs, ih⟩ := ih
    exact chainInv_step ih hc size fuel

lemma lsn_bounds_of_mem
    (hl : rs.map LogRecord.lsn = (List.range rs.length).map fun i : Nat => (i : Int) + 1)
    {r : LogRecord} (hr : r ∈ rs) : 1 ≤ r.lsn ∧ r.lsn ≤ rs.length := by
  obtain ⟨i, hi, he⟩ := List.mem_map.1 (hl ▸ List.mem_map_of_mem LogRecord.lsn hr)
  rw [List.mem_range] at hi
  omega

lemma ChainInv.lsn_mem (h : ChainInv m rs) {r : LogRecord} (hr : r ∈ rs) :
    1 ≤ r.lsn ∧ r.lsn ≤ rs.length :=
  lsn_bounds_of_mem h.lsns hr

lemma ChainInv.fits (h : ChainInv m rs) (hlsn : m.log.globalLsn < 2 ^ 63)
    (hid : m.nextTxnId ≤ 2 ^ 63) {r : LogRecord} (hr : r ∈ rs) : Fits r := by
  obtain ⟨hp, h0, ht, hp1, hp2⟩ := h.records r hr
  have := h.lsn_mem hr
  have := h.globalLsn
  simp only [Fits, LogRecord.logTotLen, hp, List.length_nil, LOG_HEADER_SIZE]
  omega

lemma ChainInv.reads_back (h : ChainInv m rs) (hlsn : m.log.globalLsn < 2 ^ 63)
    (hid : m.nextTxnId ≤ 2 ^ 63) : readLog (m.log.written ++ m.log.contents) = some rs := by
  rw [h.stream]
  exact readLog_streamBytes fun r hr => h.fits hlsn hid hr

def commitAndAbort : List TxnCall :=
  [.begin, .begin, .commit 0, .abort 1]

def runTxnCalls (size fuel : Nat) (m : TxnManager) : List TxnCall → TxnManager
  | [] => m
  | c :: cs => runTxnCalls size fuel ((c.run size fuel).run m).state cs

lemma initManager_fresh : IsFresh initManager :=
  ⟨rfl, rfl, rfl, rfl, rfl⟩

lemma commitAndAbort_reachable : Reachable 64 (runTxnCalls 64 1 initManager commitAndAbort) := by
  simp only [commitAndAbort, runTxnCalls]
  have h₂ := @Reachable.step 64 _ .begin 1 (@Reachable.step 64 _ .begin 1
    (.fresh initManager_fresh) trivial) trivial
  have h₃ := @Reachable.step 64 _ (.commit 0) 1 h₂ ⟨by decide, by decide⟩
  exact @Reachable.step 64 _ (.abort 1) 1 h₃ ⟨by decide, by decide⟩

end Rmdb.Transaction.LogChain

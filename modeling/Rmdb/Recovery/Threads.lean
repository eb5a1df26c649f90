import Rmdb.Recovery.Latch

/-! Threads calling the log manager, their statements interleaved by any schedule. -/

namespace Rmdb.Recovery.Threads

open Rmdb.Recovery.LogFormat Rmdb.Recovery.Log

/-- The statement a thread's log call is at. A flush carries the record of the append it is
nested in, if any, whose `log_buffer_.offset_ = 0` it returns to. -/
inductive Pc
  | idle
  | addLock (logRecord : LogRecord)
  | addLsn (logRecord : LogRecord)
  | addTest (logRecord : LogRecord)
  | addReset (logRecord : LogRecord)
  | addCopy (logRecord : LogRecord)
  | addAdvance (logRecord : LogRecord)
  | addUnlock (logRecord : LogRecord)
  | flushLock (caller : Option LogRecord)
  | flushTest (caller : Option LogRecord)
  | flushWrite (caller : Option LogRecord)
  | flushPersist (caller : Option LogRecord)
  | flushClear (caller : Option LogRecord)
  | flushReset (caller : Option LogRecord)
  | flushUnlock (caller : Option LogRecord)

/-- The thread holds `latch_`: its call took it and has not released it. -/
def Pc.holds : Pc → Bool
  | .idle | .addLock _ | .flushLock none => false
  | _ => true

structure Sys extends Latch.LatchedLog where
  pc : Nat → Pc

def Sys.setPc (s : Sys) (i : Nat) (p : Pc) : Sys :=
  { s with pc := Function.update s.pc i p }

inductive Event
  | added (logRecord : LogRecord)
  | flushed

def Event.op : Event → LogOp
  | .added logRecord => .add logRecord
  | .flushed => .flush

def Event.record : Event → Option LogRecord
  | .added logRecord => some logRecord
  | .flushed => none

/-- Thread `i` runs the statement it is at; the call it returns from, if any, and the system
after. A thread that is idle, or waits for the latch while it is held, stays where it is. -/
def Sys.runThread (size : Nat) (s : Sys) (i : Nat) : Option Event × Sys :=
  match s.pc i with
  | .idle => (none, s)
  | .addLock r => if s.held then (none, s) else (none, { s.setPc i (.addLsn r) with held := true })
  | .addLsn r =>
    (none, { s.setPc i (.addTest { r with lsn := s.log.globalLsn + 1 }) with
      log := { s.log with globalLsn := s.log.globalLsn + 1 } })
  | .addTest r =>
    (none, s.setPc i (if isFull size s.log.offset r.logTotLen then .flushLock (some r)
      else .addCopy r))
  | .addReset r => (none, { s.setPc i (.addCopy r) with log := { s.log with offset := 0 } })
  | .addCopy r =>
    (none, { s.setPc i (.addAdvance r) with
      log := { s.log with buffer := writeBytes s.log.buffer s.log.offset r.serialize } })
  | .addAdvance r =>
    (none, { s.setPc i (.addUnlock r) with
      log := { s.log with offset := s.log.offset + r.logTotLen } })
  | .addUnlock r => (some (.added r), { s.setPc i .idle with held := false })
  | .flushLock c => if s.held then (none, s) else (none, { s.setPc i (.flushTest c) with held := true })
  | .flushTest c => (none, s.setPc i (if s.log.offset = 0 then .flushUnlock c else .flushWrite c))
  | .flushWrite c =>
    (none, { s.setPc i (.flushPersist c) with
      log := { s.log with written := s.log.written ++ s.log.contents } })
  | .flushPersist c =>
    (none, { s.setPc i (.flushClear c) with log := { s.log with persistLsn := s.log.globalLsn } })
  | .flushClear c =>
    (none, { s.setPc i (.flushReset c) with log := { s.log with buffer := fun _ => 0 } })
  | .flushReset c => (none, { s.setPc i (.flushUnlock c) with log := { s.log with offset := 0 } })
  | .flushUnlock none => (some .flushed, { s.setPc i .idle with held := false })
  | .flushUnlock (some r) => (none, { s.setPc i (.addReset r) with held := false })

inductive Move
  | call (i : Nat) (op : LogOp)
  | run (i : Nat)

/-- The first statement of a call. -/
def callStart : LogOp → Pc
  | .add logRecord => .addLock logRecord
  | .flush => .flushLock none

/-- A move; calling a thread that is in a call does nothing. -/
def Sys.move (size : Nat) (s : Sys) : Move → Option Event × Sys
  | .call i op =>
    match s.pc i with
    | .idle => (none, s.setPc i (callStart op))
    | _ => (none, s)
  | .run i => s.runThread size i

/-- A schedule: the calls that return, in order, and the system after. -/
def runMoves (size : Nat) : Sys → List Move → List Event × Sys
  | s, [] => ([], s)
  | s, m :: ms =>
    ((s.move size m).1.toList ++ (runMoves size (s.move size m).2 ms).1,
      (runMoves size (s.move size m).2 ms).2)

def idle (l : LogManager) : Sys :=
  ⟨⟨l, false⟩, fun _ => .idle⟩

def replay (size : Nat) (l₀ : LogManager) (evs : List Event) : LogManager × List LogRecord :=
  runLog size (evs.map Event.op) l₀

def AllFit (size : Nat) : List LogOp → LogManager → Prop
  | [], _ => True
  | .flush :: ops, l => AllFit size ops (flushLogToDisk l)
  | .add r :: ops, l =>
    isFull size l.offset r.logTotLen = false ∧ AllFit size ops (addLogToBuffer size l r).2

def During (size : Nat) (a : LogManager) : Pc → LogManager → Prop
  | .addLsn _, l => l = a
  | .addTest r, l => l = { a with globalLsn := a.globalLsn + 1 } ∧ r.lsn = a.globalLsn + 1
  | .flushLock (some r), l => l = { a with globalLsn := a.globalLsn + 1 } ∧ r.lsn = a.globalLsn + 1
  | .addCopy r, l => l = { a with globalLsn := a.globalLsn + 1 } ∧ r.lsn = a.globalLsn + 1 ∧
      isFull size a.offset r.logTotLen = false
  | .addAdvance r, l =>
    l = { a with globalLsn := a.globalLsn + 1, buffer := writeBytes a.buffer a.offset r.serialize } ∧
      r.lsn = a.globalLsn + 1 ∧ isFull size a.offset r.logTotLen = false
  | .addUnlock r, l => addLogToBuffer size a r = (r, l) ∧ isFull size a.offset r.logTotLen = false
  | .flushTest none, l => l = a
  | .flushWrite none, l => l = a ∧ a.offset ≠ 0
  | .flushPersist none, l => l = { a with written := a.written ++ a.contents } ∧ a.offset ≠ 0
  | .flushClear none, l =>
    l = { a with written := a.written ++ a.contents, persistLsn := a.globalLsn } ∧ a.offset ≠ 0
  | .flushReset none, l =>
    l = { a with written := a.written ++ a.contents, persistLsn := a.globalLsn
                 buffer := fun _ => 0 } ∧ a.offset ≠ 0
  | .flushUnlock none, l => l = flushLogToDisk a
  | _, _ => False

structure Inv (size : Nat) (l₀ : LogManager) (evs : List Event) (s : Sys) : Prop where
  excl : ∀ i j, (s.pc i).holds → (s.pc j).holds → i = j
  held : s.held = true ↔ ∃ i, (s.pc i).holds = true
  free : (∀ i, (s.pc i).holds = false) → s.log = (replay size l₀ evs).1
  during : ∀ i, (s.pc i).holds → During size (replay size l₀ evs).1 (s.pc i) s.log
  returned : evs.filterMap Event.record = (replay size l₀ evs).2
  fit : AllFit size (evs.map Event.op) l₀

variable {size : Nat} {l₀ : LogManager} {evs : List Event} {s : Sys} {i : Nat}

lemma holds_setPc (s : Sys) (i : Nat) (p : Pc) (j : Nat) :
    ((s.setPc i p).pc j).holds = if j = i then p.holds else (s.pc j).holds := by
  by_cases h : j = i <;> simp [Sys.setPc, h]

lemma addLogToBuffer_of_fits {a : LogManager} {r : LogRecord} (hlsn : r.lsn = a.globalLsn + 1)
    (hfit : isFull size a.offset r.logTotLen = false) :
    addLogToBuffer size a r =
      (r, { a with globalLsn := a.globalLsn + 1,
                   buffer := writeBytes a.buffer a.offset r.serialize,
                   offset := a.offset + r.logTotLen }) := by
  have hr : { r with lsn := a.globalLsn + 1 } = r := by rw [← hlsn]
  simp only [addLogToBuffer, LogRecord.logTotLen_withLsn, hfit, if_false, Bool.false_eq_true, hr]

lemma allFit_append (ops ops' : List LogOp) (l : LogManager) :
    AllFit size (ops ++ ops') l ↔ AllFit size ops l ∧ AllFit size ops' (runLog size ops l).1 := by
  induction ops generalizing l with
  | nil => simp [AllFit, runLog]
  | cons op ops ih => cases op <;> simp [AllFit, runLog, ih, and_assoc]

lemma replay_concat (e : Event) :
    replay size l₀ (evs ++ [e]) =
      ((runLog size [e.op] (replay size l₀ evs).1).1,
        (replay size l₀ evs).2 ++ (runLog size [e.op] (replay size l₀ evs).1).2) := by
  simp only [replay, List.map_append, List.map_singleton, runLog_append]

lemma inv_sole (hh : ∀ j, (s.pc j).holds = decide (j = i)) (hheld : s.held = true)
    (hd : During size (replay size l₀ evs).1 (s.pc i) s.log)
    (hr : evs.filterMap Event.record = (replay size l₀ evs).2)
    (hfit : AllFit size (evs.map Event.op) l₀) : Inv size l₀ evs s := by
  refine ⟨fun j k hj hk => ?_, ⟨fun _ => ⟨i, by simp [hh]⟩, fun _ => hheld⟩,
    fun hf => absurd (hf i) (by simp [hh]), fun j hj => ?_, hr, hfit⟩
  · simp only [hh, decide_eq_true_eq] at hj hk
    rw [hj, hk]
  · obtain rfl : j = i := by simpa [hh] using hj
    exact hd

lemma inv_free (hh : ∀ j, (s.pc j).holds = false) (hheld : s.held = false)
    (hl : s.log = (replay size l₀ evs).1)
    (hr : evs.filterMap Event.record = (replay size l₀ evs).2)
    (hfit : AllFit size (evs.map Event.op) l₀) : Inv size l₀ evs s :=
  ⟨fun j _ hj => absurd hj (by simp [hh]), ⟨fun h => absurd h (by simp [hheld]),
    fun ⟨j, hj⟩ => absurd hj (by simp [hh])⟩, fun _ => hl, fun j hj => absurd hj (by simp [hh]), hr,
    hfit⟩

lemma inv_idle (size : Nat) (l : LogManager) : Inv size l [] (idle l) :=
  inv_free (fun _ => rfl) rfl rfl rfl trivial

lemma Inv.noHolder (h : Inv size l₀ evs s) (hheld : s.held = false) (j : Nat) :
    (s.pc j).holds = false := by
  by_contra hc
  have := h.held.2 ⟨j, by simpa using hc⟩
  rw [hheld] at this
  exact Bool.false_ne_true this

lemma Inv.unique (h : Inv size l₀ evs s) (hi : (s.pc i).holds) {j : Nat} (hj : j ≠ i) :
    (s.pc j).holds = false := by
  by_contra hc
  exact hj (h.excl j i (by simpa using hc) hi)

lemma holds_setPc_sole (hother : ∀ j, j ≠ i → (s.pc j).holds = false) {p : Pc} (hp : p.holds)
    (j : Nat) : ((s.setPc i p).pc j).holds = decide (j = i) := by
  rw [holds_setPc]
  by_cases hj : j = i <;> simp [hj, hp, hother]

lemma Inv.setPc_waiting (h : Inv size l₀ evs s) (hi : (s.pc i).holds = false) {p : Pc}
    (hp : p.holds = false) : Inv size l₀ evs (s.setPc i p) := by
  have hh : ∀ j, ((s.setPc i p).pc j).holds = (s.pc j).holds := fun j => by
    rw [holds_setPc]; split_ifs with hj <;> simp [hj, hi, hp]
  have hpc : ∀ j, (s.pc j).holds → (s.setPc i p).pc j = s.pc j := fun j hj => by
    have : j ≠ i := fun he => by rw [he, hi] at hj; exact Bool.false_ne_true hj
    simp [Sys.setPc, this]
  refine ⟨fun j k hj hk => h.excl j k (hh j ▸ hj) (hh k ▸ hk), ?_, fun hf => h.free fun j =>
    hh j ▸ hf j, fun j hj => ?_, h.returned, h.fit⟩
  · simpa only [hh] using h.held
  · rw [hpc j (hh j ▸ hj)]
    exact h.during j (hh j ▸ hj)

lemma Inv.body (h : Inv size l₀ evs s) (hi : (s.pc i).holds) {p : Pc} (hp : p.holds)
    {l : LogManager} (hd : During size (replay size l₀ evs).1 p l) :
    Inv size l₀ evs { s.setPc i p with log := l } :=
  inv_sole (holds_setPc_sole (fun _ => h.unique hi) hp) (h.held.2 ⟨i, hi⟩)
    (by simpa [Sys.setPc] using hd) h.returned h.fit

lemma Inv.acquire (h : Inv size l₀ evs s) (hheld : s.held = false) {p : Pc} (hp : p.holds)
    (hd : During size (replay size l₀ evs).1 p s.log) :
    Inv size l₀ evs { s.setPc i p with held := true } :=
  inv_sole (holds_setPc_sole (fun j _ => h.noHolder hheld j) hp) rfl
    (by simpa [Sys.setPc] using hd) h.returned h.fit

lemma Inv.release (h : Inv size l₀ evs s) (hi : (s.pc i).holds) {p : Pc} (hp : p.holds = false)
    {evs' : List Event} (hr : replay size l₀ evs' = (s.log, evs'.filterMap Event.record))
    (hfit : AllFit size (evs'.map Event.op) l₀) :
    Inv size l₀ evs' { s.setPc i p with held := false } := by
  refine inv_free (fun j => ?_) rfl (by rw [hr]; rfl) (by rw [hr]) hfit
  show ((s.setPc i p).pc j).holds = _
  rw [holds_setPc]
  split_ifs with hj
  · exact hp
  · exact h.unique hi hj

lemma Inv.runThread (h : Inv size l₀ evs s) (i : Nat) :
    Inv size l₀ (evs ++ (s.runThread size i).1.toList) (s.runThread size i).2 := by
  have hd := h.during i
  revert hd
  cases hp : s.pc i with
  | idle => intro; simpa [Sys.runThread, hp] using h
  | addLock r =>
    intro
    cases hheld : s.held
    · simpa [Sys.runThread, hp, hheld] using
        h.acquire hheld (p := .addLsn r) rfl (h.free (h.noHolder hheld))
    · simpa [Sys.runThread, hp, hheld] using h
  | addLsn r =>
    intro hd
    simp only [Sys.runThread, hp, Option.toList, List.append_nil]
    refine h.body (by rw [hp]; rfl) (by rfl) ?_
    rw [hd rfl]
    exact ⟨rfl, rfl⟩
  | addTest r =>
    intro hd
    obtain ⟨hl, hlsn⟩ := hd rfl
    simp only [Sys.runThread, hp, Option.toList, List.append_nil]
    by_cases hfull : isFull size s.log.offset r.logTotLen = true
    · rw [if_pos hfull]
      exact h.body (by rw [hp]; rfl) (by rfl) ⟨hl, hlsn⟩
    · rw [if_neg hfull]
      refine h.body (by rw [hp]; rfl) (by rfl) ⟨hl, hlsn, ?_⟩
      rw [hl] at hfull
      simpa using hfull
  | addReset r => intro hd; exact False.elim (hd rfl)
  | addCopy r =>
    intro hd
    obtain ⟨hl, hlsn, hfull⟩ := hd rfl
    simp only [Sys.runThread, hp, Option.toList, List.append_nil]
    refine h.body (by rw [hp]; rfl) (by rfl) ?_
    rw [hl]
    exact ⟨rfl, hlsn, hfull⟩
  | addAdvance r =>
    intro hd
    obtain ⟨hl, hlsn, hfull⟩ := hd rfl
    simp only [Sys.runThread, hp, Option.toList, List.append_nil]
    refine h.body (by rw [hp]; rfl) (by rfl) ?_
    rw [hl]
    exact ⟨addLogToBuffer_of_fits hlsn hfull, hfull⟩
  | addUnlock r =>
    intro hd
    obtain ⟨hr, hfull⟩ := hd rfl
    simp only [Sys.runThread, hp, Option.toList]
    refine h.release (by rw [hp]; rfl) (by rfl) ?_ ?_
    · rw [replay_concat, List.filterMap_append, h.returned]
      simp only [Event.op, runLog, hr, Event.record, List.filterMap_cons, List.filterMap_nil]
    · rw [List.map_append, allFit_append]
      exact ⟨h.fit, hfull, trivial⟩
  | flushLock c =>
    intro
    cases c with
    | none =>
      cases hheld : s.held
      · simpa [Sys.runThread, hp, hheld] using
          h.acquire hheld (p := .flushTest none) rfl (h.free (h.noHolder hheld))
      · simpa [Sys.runThread, hp, hheld] using h
    | some r =>
      have hheld : s.held = true := h.held.2 ⟨i, by rw [hp]; rfl⟩
      simpa [Sys.runThread, hp, hheld] using h
  | flushTest c =>
    intro hd
    cases c with
    | some r => exact False.elim (hd rfl)
    | none =>
      have hl := hd rfl
      simp only [Sys.runThread, hp, Option.toList, List.append_nil]
      by_cases h0 : s.log.offset = 0
      · rw [if_pos h0]
        refine h.body (by rw [hp]; rfl) (by rfl) ?_
        rw [hl] at h0 ⊢
        exact (if_pos h0).symm
      · rw [if_neg h0]
        exact h.body (by rw [hp]; rfl) (by rfl) ⟨hl, hl ▸ h0⟩
  | flushWrite c | flushPersist c | flushClear c =>
    intro hd
    cases c with
    | some r => exact False.elim (hd rfl)
    | none =>
      obtain ⟨hl, h0⟩ := hd rfl
      simp only [Sys.runThread, hp, Option.toList, List.append_nil]
      refine h.body (by rw [hp]; rfl) (by rfl) ?_
      rw [hl]
      exact ⟨rfl, h0⟩
  | flushReset c =>
    intro hd
    cases c with
    | some r => exact False.elim (hd rfl)
    | none =>
      obtain ⟨hl, h0⟩ := hd rfl
      simp only [Sys.runThread, hp, Option.toList, List.append_nil]
      refine h.body (by rw [hp]; rfl) (by rfl) ?_
      rw [hl]
      exact (if_neg h0).symm
  | flushUnlock c =>
    intro hd
    cases c with
    | some r => exact False.elim (hd rfl)
    | none =>
      have hl : s.log = flushLogToDisk (replay size l₀ evs).1 := hd rfl
      simp only [Sys.runThread, hp, Option.toList]
      refine h.release (by rw [hp]; rfl) (by rfl) ?_ ?_
      · rw [replay_concat, List.filterMap_append, h.returned]
        simp only [Event.op, runLog, hl, Event.record, List.filterMap_cons, List.filterMap_nil,
          List.append_nil]
      · rw [List.map_append, allFit_append]
        exact ⟨h.fit, trivial⟩

lemma Inv.move (h : Inv size l₀ evs s) :
    ∀ m : Move, Inv size l₀ (evs ++ (s.move size m).1.toList) (s.move size m).2
  | .call i op => by
    simp only [Sys.move]
    split <;> simp only [Option.toList, List.append_nil]
    · next hp => exact h.setPc_waiting (by rw [hp]; rfl) (by cases op <;> rfl)
    · exact h
  | .run i => h.runThread i

lemma inv_runMoves (h : Inv size l₀ evs s) (ms : List Move) :
    Inv size l₀ (evs ++ (runMoves size s ms).1) (runMoves size s ms).2 := by
  induction ms generalizing evs s with
  | nil => simpa [runMoves] using h
  | cons m ms ih => simpa [runMoves, List.append_assoc] using ih (h.move m)

/-- Mutual exclusion. In every state that any schedule of any number of threads reaches from
idle threads, at most one thread is between taking `latch_` and releasing it, and the latch is
held exactly when one is. -/
theorem latch_excludes (size : Nat) (l : LogManager) (ms : List Move) :
    let s := (runMoves size (idle l) ms).2
    (∀ i j, (s.pc i).holds → (s.pc j).holds → i = j) ∧
      (s.held = true ↔ ∃ i, (s.pc i).holds = true) := by
  have h := inv_runMoves (inv_idle size l) ms
  exact ⟨h.excl, h.held⟩

/-- The latched calls are atomic. Whenever the latch is free, after any schedule of any number
of threads from idle threads, the log manager is what the calls that returned give, run
atomically one after another in the order they returned, and each append returned the record
that run gives it. So the log file followed by the buffer is what it was followed by the
returned records' serializations, each once, in the order they returned, and their LSNs follow
`global_lsn_` one by one. -/
theorem returned_calls_replay (size : Nat) (l : LogManager) (ms : List Move)
    (hfree : (runMoves size (idle l) ms).2.held = false) :
    let evs := (runMoves size (idle l) ms).1
    let s := (runMoves size (idle l) ms).2
    let rs := evs.filterMap Event.record
    s.log = (runLog size (evs.map Event.op) l).1 ∧ rs = (runLog size (evs.map Event.op) l).2 ∧
      s.log.written ++ s.log.contents = l.written ++ l.contents ++ streamBytes rs ∧
      rs.map LogRecord.lsn = (List.range rs.length).map (fun k : Nat => l.globalLsn + 1 + (k : Int)) := by
  intro evs s rs
  have h := inv_runMoves (inv_idle size l) ms
  rw [List.nil_append] at h
  have hlog : s.log = (runLog size (evs.map Event.op) l).1 := h.free (h.noHolder hfree)
  have hrs : rs = (runLog size (evs.map Event.op) l).2 := h.returned
  obtain ⟨h1, h2, -, -⟩ := runLog_spec size (evs.map Event.op) l
  refine ⟨hlog, hrs, ?_, ?_⟩
  · rw [hlog, hrs, h1]
  · rw [hrs, h2]

def twoAppends : List Move :=
  [.call 0 (.add (.ofType .begin 0 INVALID_LSN)), .call 1 (.add (.ofType .begin 1 INVALID_LSN)),
    .run 0, .run 1, .run 0, .run 1, .run 0, .run 1, .run 0, .run 0, .run 1, .run 0,
    .run 1, .run 1, .run 1, .run 1, .run 1, .run 1, .call 2 .flush,
    .run 2, .run 2, .run 2, .run 2, .run 2, .run 2, .run 2]

theorem returned_calls_replay_twoAppends :
    (runMoves 64 (idle emptyLog) twoAppends).2.held = false ∧
    let evs := (runMoves 64 (idle emptyLog) twoAppends).1
    let s := (runMoves 64 (idle emptyLog) twoAppends).2
    let rs := evs.filterMap Event.record
    s.log = (runLog 64 (evs.map Event.op) emptyLog).1 ∧
      rs = (runLog 64 (evs.map Event.op) emptyLog).2 ∧
      s.log.written ++ s.log.contents = emptyLog.written ++ emptyLog.contents ++ streamBytes rs ∧
      rs.map LogRecord.lsn =
        (List.range rs.length).map (fun k : Nat => emptyLog.globalLsn + 1 + (k : Int)) :=
  ⟨rfl, returned_calls_replay 64 emptyLog twoAppends rfl⟩

/-! ### `persist_lsn_` under the latch -/

structure PersistInv (l₀ a : LogManager) (rs : List LogRecord) : Prop where
  le : a.persistLsn ≤ a.globalLsn
  stream : a.written ++ a.contents = l₀.written ++ streamBytes rs
  sound : PersistSound l₀ a rs

lemma addLogToBuffer_room {a : LogManager} {r : LogRecord}
    (hfit : isFull size a.offset r.logTotLen = false) :
    (addLogToBuffer size a r).2.persistLsn = a.persistLsn ∧
      (addLogToBuffer size a r).2.written = a.written := by
  simp [addLogToBuffer, hfit]

lemma streamBytes_take_begins (rs : List LogRecord) (n : Nat) :
    streamBytes (rs.take n) <+: streamBytes rs := by
  conv_rhs => rw [← List.take_append_drop n rs, streamBytes_append]
  exact List.prefix_append _ _

lemma PersistInv.add {l₀ a : LogManager} {rs : List LogRecord} (h : PersistInv l₀ a rs)
    {r : LogRecord} (hfit : isFull size a.offset r.logTotLen = false) :
    PersistInv l₀ (addLogToBuffer size a r).2 (rs ++ [(addLogToBuffer size a r).1]) := by
  obtain ⟨h1, h2, h3, -⟩ := addLogToBuffer_spec size a r
  obtain ⟨hp, hw⟩ := addLogToBuffer_room hfit
  have hle := h.le
  refine ⟨by rw [hp, h2]; omega, by rw [h3, h.stream, streamBytes_append, streamBytes_cons,
    streamBytes_nil, List.append_nil, List.append_assoc], fun k hk hlsn => ?_⟩
  rw [hp] at hlsn
  rw [hw]
  rw [List.length_append, List.length_singleton] at hk
  rcases Nat.lt_or_ge k rs.length with hk' | hk'
  · rw [List.get_eq_getElem, List.getElem_append_left hk'] at hlsn
    rw [List.take_append_of_le_length (by omega)]
    exact h.sound k hk' (by rwa [List.get_eq_getElem])
  · obtain rfl : k = rs.length := by omega
    rw [List.get_eq_getElem, List.getElem_append_right (le_refl _)] at hlsn
    simp only [Nat.sub_self, List.getElem_singleton, h1] at hlsn
    omega

lemma PersistInv.flush {l₀ a : LogManager} {rs : List LogRecord} (h : PersistInv l₀ a rs) :
    PersistInv l₀ (flushLogToDisk a) rs := by
  have hs := h.stream
  unfold flushLogToDisk
  split_ifs with h0
  · exact h
  · refine ⟨show a.globalLsn ≤ a.globalLsn from Int.le_refl _, ?_, fun k _ _ => ?_⟩
    · show a.written ++ a.contents ++ (List.range 0).map _ = _
      rw [List.range_zero, List.map_nil, List.append_nil, hs]
    · show l₀.written ++ streamBytes (rs.take (k + 1)) <+: a.written ++ a.contents
      rw [hs]
      exact (List.prefix_append_right_inj _).2 (streamBytes_take_begins rs _)

lemma PersistInv.run {l₀ : LogManager} : ∀ {ops : List LogOp} {a : LogManager}
    {rs : List LogRecord}, PersistInv l₀ a rs → AllFit size ops a →
      PersistInv l₀ (runLog size ops a).1 (rs ++ (runLog size ops a).2)
  | [], _, _, h, _ => by simpa [runLog] using h
  | .flush :: _, _, _, h, hfit => (PersistInv.run h.flush hfit :)
  | .add _ :: _, _, _, h, hfit => by
    simpa [runLog, List.append_assoc] using PersistInv.run (h.add hfit.1) hfit.2

/-- `persist_lsn_` under the real latch. From a log manager with an empty buffer and
`persist_lsn_` at most `global_lsn_`, whenever the latch is free after any schedule of any number
of threads, every returned record whose LSN is at most `persist_lsn_` lies wholly in the log
file, after everything the log file held before; and when the latest call to return is a
`flush_log_to_disk`, the buffer is empty and the log file holds every returned record. The
append that would set `persist_lsn_` past the log file, the flush nested in a full append,
never runs: it waits for the latch its thread holds. -/
theorem persistLsn_sound_latched (size : Nat) (l : LogManager) (ms : List Move)
    (h0 : l.offset = 0) (hp : l.persistLsn ≤ l.globalLsn)
    (hfree : (runMoves size (idle l) ms).2.held = false) :
    let evs := (runMoves size (idle l) ms).1
    let s := (runMoves size (idle l) ms).2
    let rs := evs.filterMap Event.record
    PersistSound l s.log rs ∧
      (evs.getLast? = some .flushed →
        s.log.contents = [] ∧ s.log.written = l.written ++ streamBytes rs) := by
  intro evs s rs
  have h := inv_runMoves (inv_idle size l) ms
  rw [List.nil_append] at h
  have hlog : s.log = (replay size l evs).1 := h.free (h.noHolder hfree)
  have hrs : rs = (replay size l evs).2 := h.returned
  have hinit : PersistInv l l [] :=
    ⟨hp, by rw [contents_empty_offset h0, streamBytes_nil], fun _ hk => absurd hk (by simp)⟩
  have hP : PersistInv l s.log rs := by
    rw [hlog, hrs]
    simpa using hinit.run h.fit
  refine ⟨hP.sound, fun hlast => ?_⟩
  obtain ⟨evs', hevs⟩ := List.getLast?_eq_some_iff.1 hlast
  have hc : s.log.contents = [] := by
    rw [hlog, hevs, replay_concat]
    exact contents_empty_offset (flush_offset _)
  refine ⟨hc, ?_⟩
  simpa [hc] using hP.stream

theorem persistLsn_sound_latched_twoAppends :
    (emptyLog.offset = 0 ∧ emptyLog.persistLsn ≤ emptyLog.globalLsn ∧
      (runMoves 64 (idle emptyLog) twoAppends).2.held = false) ∧
    let evs := (runMoves 64 (idle emptyLog) twoAppends).1
    let s := (runMoves 64 (idle emptyLog) twoAppends).2
    let rs := evs.filterMap Event.record
    PersistSound emptyLog s.log rs ∧
      (evs.getLast? = some .flushed →
        s.log.contents = [] ∧ s.log.written = emptyLog.written ++ streamBytes rs) :=
  ⟨⟨rfl, by decide, rfl⟩,
    persistLsn_sound_latched 64 emptyLog twoAppends rfl (by decide) rfl⟩

def Stalled (i : Nat) (r : LogRecord) (s : Sys) : Prop :=
  s.held = true ∧ s.pc i = .flushLock (some r) ∧ ∀ j, (s.pc j).holds → j = i

lemma runThread_waits (hheld : s.held = true)
    (hj : (s.pc i).holds = false ∨ ∃ r, s.pc i = .flushLock (some r)) :
    s.runThread size i = (none, s) := by
  rcases hj with hj | ⟨r, hp⟩
  · cases hp : s.pc i <;> simp [Pc.holds, hp] at hj <;> simp [Sys.runThread, hp, hheld]
  · simp [Sys.runThread, hp, hheld]

lemma Stalled.move {r : LogRecord} (h : Stalled i r s) (size : Nat) (m : Move) :
    (s.move size m).1 = none ∧ (s.move size m).2.log = s.log ∧ Stalled i r (s.move size m).2 := by
  obtain ⟨hheld, hpi, hone⟩ := h
  cases m with
  | call j op =>
    simp only [Sys.move]
    split
    · next hp =>
      have hji : j ≠ i := fun he => by rw [he, hpi] at hp; cases hp
      refine ⟨rfl, rfl, hheld, by simp [Sys.setPc, hji.symm, hpi], fun k hk => hone k ?_⟩
      rw [holds_setPc] at hk
      split_ifs at hk with hkj
      · cases op <;> simp [callStart, Pc.holds] at hk
      · exact hk
    · exact ⟨rfl, rfl, hheld, hpi, hone⟩
  | run j =>
    have hw : s.runThread size j = (none, s) := by
      refine runThread_waits hheld ?_
      by_cases hji : j = i
      · exact .inr ⟨r, hji ▸ hpi⟩
      · exact .inl (by by_contra hc; exact hji (hone j (by simpa using hc)))
    rw [show s.move size (.run j) = (none, s) from hw]
    exact ⟨rfl, rfl, hheld, hpi, hone⟩

lemma Stalled.runMoves {r : LogRecord} (h : Stalled i r s) (size : Nat) (ms : List Move) :
    (runMoves size s ms).1 = [] ∧ (runMoves size s ms).2.log = s.log ∧
      Stalled i r (runMoves size s ms).2 := by
  induction ms generalizing s with
  | nil => exact ⟨rfl, rfl, h⟩
  | cons m ms ih =>
    obtain ⟨he, hl, hs⟩ := h.move size m
    obtain ⟨he', hl', hs'⟩ := ih hs
    simp only [runMoves, he, Option.toList, List.nil_append, he', hl', hl]
    exact ⟨trivial, trivial, hs'⟩

/-- A full buffer stops the log for every thread. Once, after any schedule from idle threads, a
thread's append has found the buffer full and its nested `flush_log_to_disk` asks for the latch
the thread holds, then whatever the threads do next, no log call of any thread returns, the log
manager does not change, and the thread stays at that request. -/
theorem full_append_stalls (size : Nat) (l : LogManager) (ms : List Move) (i : Nat)
    (r : LogRecord) (hwait : (runMoves size (idle l) ms).2.pc i = .flushLock (some r))
    (ms' : List Move) :
    let s := (runMoves size (idle l) ms).2
    (runMoves size s ms').1 = [] ∧ (runMoves size s ms').2.log = s.log ∧
      (runMoves size s ms').2.pc i = .flushLock (some r) := by
  intro s
  have h := inv_runMoves (inv_idle size l) ms
  have hi : (s.pc i).holds := by rw [hwait]; rfl
  have hst : Stalled i r s := ⟨h.held.2 ⟨i, hi⟩, hwait, fun j hj => h.excl j i hj hi⟩
  obtain ⟨he, hl, -, hpi, -⟩ := hst.runMoves size ms'
  exact ⟨he, hl, hpi⟩

def commitOnForty : List Move :=
  [.call 0 (.add (.ofType .commit 0 INVALID_LSN)), .run 0, .run 0, .run 0]

theorem full_append_stalls_commitOnForty :
    (runMoves 64 (idle Latch.fortyBytes) commitOnForty).2.pc 0 =
      .flushLock (some { LogRecord.ofType .commit 0 INVALID_LSN with lsn := 1 }) ∧
    let s := (runMoves 64 (idle Latch.fortyBytes) commitOnForty).2
    let ms' : List Move := [.call 1 .flush, .run 1, .run 0, .run 1]
    (runMoves 64 s ms').1 = [] ∧ (runMoves 64 s ms').2.log = s.log ∧
      (runMoves 64 s ms').2.pc 0 =
        .flushLock (some { LogRecord.ofType .commit 0 INVALID_LSN with lsn := 1 }) :=
  ⟨rfl, full_append_stalls 64 Latch.fortyBytes commitOnForty 0 _ rfl _⟩

end Rmdb.Recovery.Threads

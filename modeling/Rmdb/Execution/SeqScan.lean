import Rmdb.Execution.Predicate
import Rmdb.Record.Scan
import Rmdb.Record.Calls

/-! The sequential-scan executor of `executor_seq_scan.h`. -/

namespace Rmdb.Execution.SeqScan

open Rmdb.Defs Rmdb.Record Rmdb.Record.FileHandle Rmdb.Execution.Predicate

/-- The fields of the executor that its calls do not change. -/
structure SeqScanExecutor where
  cols : List ColMeta
  conds : List Condition
  ctx : Option Context

/-- The fields its calls change: the table file behind `fh_`, `rid_`, and the rid of
`scan_`. -/
structure SeqScanState where
  file : RmFile
  rid : Rid
  scan : Rid

/-- The exceptions of the executor, and `outOfFuel` for a loop the model's fuel cut off. -/
inductive ExecError
  | rm (e : RmError)
  | cond (e : CondError)
  | outOfFuel

abbrev ExecM := EStateM ExecError SeqScanState

/-- A record-manager call on the table file. -/
def onFile (x : RmM α) : ExecM α := fun st =>
  match x.run st.file with
  | .ok a f => .ok a { st with file := f }
  | .error e f => .error (.rm e) { st with file := f }

def ofExcept : Except CondError α → ExecM α
  | .ok a => pure a
  | .error e => throw (.cond e)

def isEnd (st : SeqScanState) : Bool :=
  Scan.isEnd st.file st.scan

namespace SeqScanExecutor

variable (ex : SeqScanExecutor)

/-- `nextTuple`, with `fuel` bounding the iterations of its loop. -/
def nextTuple : Nat → ExecM Unit
  | 0 => throw .outOfFuel
  | fuel + 1 => do
    let st ← get
    if isEnd st then return
    set { st with rid := st.scan }
    let record ← onFile (getRecord st.scan ex.ctx)
    if ← ofExcept (satisfies ex.cols record ex.conds) then return
    let r ← onFile (Scan.next st.scan)
    modify fun st => { st with scan := r }
    nextTuple fuel

def beginTuple (fuel : Nat) : ExecM Unit := do
  let r ← onFile Scan.init
  modify fun st => { st with scan := r }
  ex.nextTuple fuel

/-- `Next`: the record at `rid_`, and the scan moved to the next record, matching or not. -/
def next : ExecM (Option Bytes) := do
  let st ← get
  if isEnd st then return none
  let record ← onFile (getRecord st.rid ex.ctx)
  let r ← onFile (Scan.next st.scan)
  modify fun st => { st with scan := r }
  return some record

/-- The caller's loop `while (!is_end()) { body; nextTuple(); }`, run for at most `n`
iterations: the rid `rid()` reports at the start of each iteration, with what `body`
returned. -/
def drive (body : ExecM β) (fuel : Nat) : Nat → ExecM (List (Rid × β))
  | 0 => throw .outOfFuel
  | n + 1 => do
    let st ← get
    if isEnd st then return []
    let b ← body
    ex.nextTuple fuel
    let rest ← drive body fuel n
    return (st.rid, b) :: rest

end SeqScanExecutor

lemma onFile_run (x : RmM α) (st : SeqScanState) :
    (onFile x).run st = match x.run st.file with
      | .ok a f => .ok a { st with file := f }
      | .error e f => .error (.rm e) { st with file := f } := rfl

@[simp] lemma ofExcept_ok (a : α) (st : SeqScanState) : (ofExcept (.ok a)).run st = .ok a st := rfl

@[simp] lemma ofExcept_error (e : CondError) (st : SeqScanState) :
    (ofExcept (.error e) : ExecM α).run st = .error (.cond e) st := rfl

lemma SeqScanExecutor.nextTuple_succ_run (ex : SeqScanExecutor) (fuel : Nat) (st : SeqScanState) :
    (ex.nextTuple (fuel + 1)).run st =
      if isEnd st then .ok () st else
      match (getRecord st.scan ex.ctx).run st.file with
      | .error e f => .error (.rm e) ⟨f, st.scan, st.scan⟩
      | .ok record f =>
        match satisfies ex.cols record ex.conds with
        | .error e => .error (.cond e) ⟨f, st.scan, st.scan⟩
        | .ok b =>
          if b then .ok () ⟨f, st.scan, st.scan⟩ else
          match (Scan.next st.scan).run f with
          | .error e f' => .error (.rm e) ⟨f', st.scan, st.scan⟩
          | .ok r f' => (ex.nextTuple fuel).run ⟨f', st.scan, r⟩ := by
  simp only [SeqScanExecutor.nextTuple, EStateM.run_bind, EStateM.run_get]
  split_ifs
  · rfl
  simp only [EStateM.run_bind, EStateM.run_pure, EStateM.run_set, onFile_run]
  rcases (getRecord st.scan ex.ctx).run st.file with ⟨record, f⟩ | ⟨e, f⟩
  · dsimp only
    rcases satisfies ex.cols record ex.conds with e | _ | _
    · rfl
    · simp only [ofExcept_ok, Bool.false_eq_true, if_false, EStateM.run_pure, EStateM.run_bind,
        onFile_run, EStateM.run_modify]
      rcases (Scan.next st.scan).run f with ⟨r, f'⟩ | ⟨e, f'⟩ <;> rfl
    · rfl
  · rfl

structure OnMatch (ex : SeqScanExecutor) (st : SeqScanState) : Prop where
  rid_eq : st.rid = st.scan
  page_nonneg : 0 ≤ st.scan.pageNo
  page_lt : st.scan.pageNo < st.file.numPages
  live : (st.file.pages st.scan.pageNo).bitmap st.scan.slotNo = true
  granted : Context.refuses ex.ctx .shared st.scan = false
  passes : satisfies ex.cols ((st.file.pages st.scan.pageNo).slots st.scan.slotNo) ex.conds =
    .ok true

variable {ex : SeqScanExecutor} {st : SeqScanState}

lemma OnMatch.isEnd_eq_false (h : OnMatch ex st) : isEnd st = false := by
  simpa [isEnd, Scan.isEnd] using h.page_lt

namespace SeqScanExecutor

lemma nextTuple_of_onMatch (h : OnMatch ex st) (fuel : Nat) :
    ∃ st', (ex.nextTuple (fuel + 1)).run st = .ok () st' ∧ OnMatch ex st' := by
  have hg : (getRecord st.scan ex.ctx).run st.file =
      .ok ((st.file.pages st.scan.pageNo).slots st.scan.slotNo)
        (if ex.ctx.isSome then st.file else st.file.pin st.scan.pageNo) := by
    rw [getRecord_run, if_neg (by have := h.page_lt; have := h.page_nonneg; omega),
      if_neg (by simp [h.live]), if_neg (by simp [h.granted])]
  rw [nextTuple_succ_run, h.isEnd_eq_false, hg]
  refine ⟨_, by simp only [h.passes]; rfl, ?_⟩
  have hp := h.page_lt
  constructor <;> split <;> simp [h.page_nonneg, h.live, h.granted, h.passes, hp]

lemma drive_pure_of_onMatch (h : OnMatch ex st) (fuel n : Nat) :
    ∃ st', (ex.drive (pure ()) fuel n).run st = .error .outOfFuel st' := by
  induction n generalizing st with
  | zero => exact ⟨st, rfl⟩
  | succ n ih =>
    cases fuel with
    | zero =>
      exact ⟨st, by simp [drive, h.isEnd_eq_false, nextTuple]⟩
    | succ fuel =>
      obtain ⟨st', hr, h'⟩ := nextTuple_of_onMatch h fuel
      obtain ⟨st'', hd⟩ := ih h'
      exact ⟨st'', by simp [drive, h.isEnd_eq_false, hr, hd]⟩

lemma nextTuple_ok {fuel : Nat} {st st' : SeqScanState}
    (h : (ex.nextTuple fuel).run st = .ok () st') : isEnd st' = true ∨ OnMatch ex st' := by
  induction fuel generalizing st with
  | zero => cases h
  | succ fuel ih =>
    rw [nextTuple_succ_run] at h
    split_ifs at h with hend
    · cases h; exact .inl hend
    split at h
    · cases h
    · next record f hg =>
      obtain ⟨⟨h0, h1, hb, hl⟩, rfl, hp, hn⟩ := getRecord_ok hg
      split at h
      · cases h
      · next b hs =>
        split_ifs at h with hb'
        · cases h; exact .inr ⟨rfl, h0, hn ▸ h1, hp ▸ hb, hl, hp ▸ hb' ▸ hs⟩
        · split at h
          · cases h
          · exact ih h

lemma beginTuple_ok {fuel : Nat} {st st₁ : SeqScanState}
    (h : (ex.beginTuple fuel).run st = .ok () st₁) : isEnd st₁ = true ∨ OnMatch ex st₁ := by
  rcases hi : Scan.init.run st.file with ⟨r, f⟩ | ⟨e, f⟩
  · simp only [beginTuple, EStateM.run_bind, onFile_run, hi, EStateM.run_modify] at h
    exact nextTuple_ok h
  · simp [beginTuple, onFile_run, hi] at h

/-- The loop `while (!is_end()) nextTuple();` never ends on a table where `beginTuple` finds a
record: whatever fuel the loop and `nextTuple` are given, it runs out of it. -/
theorem seqScan_loop_never_ends (ex : SeqScanExecutor) (st st₁ : SeqScanState) (fuel : Nat)
    (hb : (ex.beginTuple fuel).run st = .ok () st₁) (hne : isEnd st₁ = false) (fuel' n : Nat) :
    ∃ st', (ex.drive (pure ()) fuel' n).run st₁ = .error .outOfFuel st' :=
  drive_pure_of_onMatch ((beginTuple_ok hb).resolve_left (by simp [hne])) fuel' n

def scanAll : SeqScanExecutor := ⟨[], [], none⟩

def oneRecordScan : SeqScanState :=
  ⟨Calls.runCalls 1 [.insertRecord [1] none] (Calls.emptyFile 1), ⟨-1, -1⟩, ⟨-1, -1⟩⟩

theorem seqScan_loop_never_ends_oneRecordScan :
    (scanAll.beginTuple 2).run oneRecordScan =
      .ok () ((scanAll.beginTuple 2).run oneRecordScan).state ∧
    isEnd ((scanAll.beginTuple 2).run oneRecordScan).state = false ∧
    ∃ st', (scanAll.drive (pure ()) 2 3).run ((scanAll.beginTuple 2).run oneRecordScan).state =
      .error .outOfFuel st' :=
  ⟨rfl, rfl, seqScan_loop_never_ends scanAll oneRecordScan _ 2 rfl rfl 2 3⟩

end SeqScanExecutor

end Rmdb.Execution.SeqScan

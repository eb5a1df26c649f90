import Rmdb.Execution.SeqScan

/-! What the sequential scan reports when it is driven to its end. -/

namespace Rmdb.Execution.SeqScan

open Rmdb.Defs Rmdb.Record Rmdb.Record.FileHandle Rmdb.Record.Scan Rmdb.Execution.Predicate

def dataSlots (s : RmFile) : Nat :=
  ((s.numPages - 1) * s.numRecordsPerPage).toNat

lemma remaining_le_dataSlots {s : RmFile} {p r : Rid} (hr : NextLive s p r) :
    remaining s r ≤ dataSlots s := by
  rcases hr with ⟨⟨hr1, hr2, hr3, hr4, -⟩, -⟩ | ⟨rfl, -⟩
  · have := Int.mul_le_mul_of_nonneg_right
      (show s.numPages - r.pageNo ≤ s.numPages - 1 by omega) (show 0 ≤ s.numRecordsPerPage by omega)
    unfold remaining dataSlots
    omega
  · simp [remaining]

def Matches (ex : SeqScanExecutor) (s : RmFile) (q : Rid) : Prop :=
  Live s q ∧ satisfies ex.cols ((s.pages q.pageNo).slots q.slotNo) ex.conds = .ok true

structure Total (ex : SeqScanExecutor) (s : RmFile) : Prop where
  evaluates : ∀ q, Live s q →
    ∃ b, satisfies ex.cols ((s.pages q.pageNo).slots q.slotNo) ex.conds = .ok b
  granted : ∀ q, Context.refuses ex.ctx .shared q = false

def StopsAfter (ex : SeqScanExecutor) (s : RmFile) (lo : Rid) (st : SeqScanState) : Prop :=
  (isEnd st = true ∧ ∀ q, lo < q → ¬ Matches ex s q) ∨
    (st.rid = st.scan ∧ Matches ex s st.scan ∧ lo < st.scan ∧
      ∀ q, lo < q → q < st.scan → ¬ Matches ex s q)

structure Reports (ex : SeqScanExecutor) (s : RmFile) (lo : Rid)
    (L : List (Rid × Option Bytes)) : Prop where
  sorted : (L.map Prod.fst).Pairwise (· < ·)
  mem_iff : ∀ q, q ∈ L.map Prod.fst ↔ lo < q ∧ Matches ex s q
  records : ∀ x ∈ L, x.2 = some ((s.pages x.1.pageNo).slots x.1.slotNo)

variable {ex : SeqScanExecutor} {s₀ : RmFile}

lemma getRecord_live {s : RmFile} {q : Rid} {ctx : Option Context} (hl : Live s q)
    (hg : Context.refuses ctx .shared q = false) :
    ∃ f, SameData s f ∧ (getRecord q ctx).run s = .ok ((s.pages q.pageNo).slots q.slotNo) f := by
  obtain ⟨h1, h2, -, -, hb⟩ := hl
  rw [getRecord_run, if_neg (by omega), if_neg (by simp [hb]), if_neg (by simp [hg])]
  exact ⟨_, by split <;> first | exact SameData.refl _ | exact sameData_pin _ _, rfl⟩

lemma nextLive_not_matches {s : RmFile} {p r : Rid} (h : NextLive s p r) :
    ∀ q, p < q → q < r → ¬ Matches ex s q := by
  intro q hpq hqr hm
  rcases h with ⟨-, -, hmin⟩ | ⟨-, hnone⟩
  · exact hmin q hpq hqr hm.1
  · exact hnone q hpq hm.1

lemma isEnd_iff_of_sameData {st : SeqScanState} (hd : SameData s₀ st.file) :
    isEnd st = true ↔ s₀.numPages ≤ st.scan.pageNo := by
  simp [isEnd, Scan.isEnd, hd.numPages]

lemma isEnd_eq_false_of_live {st : SeqScanState} (hd : SameData s₀ st.file)
    (hl : Live s₀ st.scan) : isEnd st = false := by
  simpa [isEnd, Scan.isEnd, hd.numPages] using hl.2.1

namespace SeqScanExecutor

lemma nextTuple_stopsAfter (ht : Total ex s₀) (lo : Rid) (fuel : Nat) (st : SeqScanState)
    (hd : SameData s₀ st.file) (hskip : ∀ q, lo < q → q < st.scan → ¬ Matches ex s₀ q)
    (hpos : Live s₀ st.scan ∧ lo < st.scan ∨ isEnd st = true)
    (hfuel : remaining s₀ st.scan < fuel) :
    ∃ st', (ex.nextTuple fuel).run st = .ok () st' ∧ SameData s₀ st'.file ∧
      remaining s₀ st'.scan ≤ remaining s₀ st.scan ∧ StopsAfter ex s₀ lo st' := by
  induction fuel generalizing st with
  | zero => omega
  | succ fuel ih =>
    rw [nextTuple_succ_run]
    by_cases hend : isEnd st = true
    · refine ⟨st, if_pos hend, hd, le_rfl, .inl ⟨hend, fun q hq hm => hskip q hq ?_ hm⟩⟩
      rw [isEnd_iff_of_sameData hd] at hend
      exact Rid.lt_iff.mpr (.inl (by have := hm.1.2.1; omega))
    rw [if_neg hend]
    obtain ⟨hl, hlo⟩ := hpos.resolve_right hend
    obtain ⟨f, hf, hg⟩ := getRecord_live (hd.live ▸ hl) (ht.granted st.scan)
    have hf₀ := hd.trans hf
    obtain ⟨b, hb⟩ := ht.evaluates _ hl
    rw [hg, hd.pages]
    dsimp only
    rw [hb]
    cases b with
    | true => exact ⟨_, rfl, hf₀, le_rfl, .inr ⟨rfl, ⟨hl, hb⟩, hlo, hskip⟩⟩
    | false =>
      obtain ⟨r, hn, hnl⟩ := next_nextLive st.scan f hl.1 (by have := hl.2.2.1; omega)
      rw [hf.nextLive, hd.nextLive] at hnl
      have hskip' : ∀ q, lo < q → q < r → ¬ Matches ex s₀ q := by
        intro q hq hqr hm
        rcases Rid.lt_trichotomy q st.scan with h | rfl | h
        · exact hskip q hq h hm
        · exact absurd (hb.symm.trans hm.2) (by simp)
        · exact nextLive_not_matches hnl q h hqr hm
      have hd' := hf₀.trans (sameData_pinRange f st.scan.pageNo (min r.pageNo (f.numPages - 1)))
      have hpos' : Live s₀ r ∧ lo < r ∨
          isEnd ⟨pinRange f st.scan.pageNo (min r.pageNo (f.numPages - 1)), st.scan, r⟩ = true :=
        hnl.live_or_end.imp (fun h => ⟨h.1, Rid.lt_trans hlo h.2⟩) (isEnd_iff_of_sameData hd').mpr
      have hlt := remaining_lt_of_nextLive hl hnl
      obtain ⟨st', h1, h2, h3, h4⟩ := ih ⟨_, st.scan, r⟩ hd' hskip' hpos' (by dsimp only; omega)
      dsimp only at h3
      simp only [Bool.false_eq_true, if_false, hn]
      exact ⟨st', h1, h2, by omega, h4⟩

lemma next_live {st : SeqScanState} (ht : Total ex s₀) (hd : SameData s₀ st.file)
    (hrid : st.rid = st.scan) (hl : Live s₀ st.scan) :
    ∃ f r, SameData s₀ f ∧ NextLive s₀ st.scan r ∧
      ex.next.run st = .ok (some ((s₀.pages st.scan.pageNo).slots st.scan.slotNo)) ⟨f, st.rid, r⟩ := by
  obtain ⟨f, hf, hg⟩ := getRecord_live (hd.live ▸ hl) (ht.granted st.scan)
  obtain ⟨r, hn, hnl⟩ := next_nextLive st.scan f hl.1 (by have := hl.2.2.1; omega)
  have hend := isEnd_eq_false_of_live hd hl
  refine ⟨pinRange f st.scan.pageNo (min r.pageNo (f.numPages - 1)), r,
    (hd.trans hf).trans (sameData_pinRange _ _ _), by rwa [hf.nextLive, hd.nextLive] at hnl, ?_⟩
  simp [next, hend, onFile_run, hrid, hg, hn, hd.pages]

lemma drive_next_reports (ht : Total ex s₀) (fuel : Nat) (n : Nat) (lo : Rid) (st : SeqScanState)
    (hd : SameData s₀ st.file) (hst : StopsAfter ex s₀ lo st)
    (hfuel : remaining s₀ st.scan < fuel) (hn : remaining s₀ st.scan < n) :
    ∃ L st', (ex.drive ex.next fuel n).run st = .ok L st' ∧ SameData s₀ st'.file ∧
      Reports ex s₀ lo L := by
  induction n generalizing lo st with
  | zero => omega
  | succ n ih =>
    rcases hst with ⟨hend, hnone⟩ | ⟨hrid, hm, hlo, hskip⟩
    · refine ⟨[], st, by simp [drive, hend], hd, ⟨List.Pairwise.nil, ?_, nofun⟩⟩
      exact fun q => ⟨nofun, fun ⟨hq, hmq⟩ => (hnone q hq hmq).elim⟩
    have hend := isEnd_eq_false_of_live hd hm.1
    obtain ⟨f, r, hf, hnl, hnext⟩ := next_live ht hd hrid hm.1
    have hlt := remaining_lt_of_nextLive hm.1 hnl
    have hpos : Live s₀ r ∧ st.scan < r ∨ isEnd ⟨f, st.rid, r⟩ = true :=
      hnl.live_or_end.imp_right (isEnd_iff_of_sameData hf).mpr
    obtain ⟨st', h1, h2, h3, h4⟩ :=
      nextTuple_stopsAfter ht st.scan fuel ⟨f, st.rid, r⟩ hf (nextLive_not_matches hnl) hpos
        (by dsimp only; omega)
    dsimp only at h3
    obtain ⟨L, st'', hL, hd'', hrep⟩ := ih st.scan st' h2 h4 (by omega) (by omega)
    refine ⟨(st.rid, some ((s₀.pages st.scan.pageNo).slots st.scan.slotNo)) :: L, st'',
      by simp [drive, hend, hnext, h1, hL], hd'', ?_⟩
    refine ⟨?_, fun q => ?_, fun x hx => ?_⟩
    · rw [List.map_cons, List.pairwise_cons, hrid]
      exact ⟨fun q hq => ((hrep.mem_iff q).mp hq).1, hrep.sorted⟩
    · rw [List.map_cons, List.mem_cons, hrep.mem_iff q, hrid]
      constructor
      · rintro (rfl | ⟨hq, hmq⟩)
        · exact ⟨hlo, hm⟩
        · exact ⟨Rid.lt_trans hlo hq, hmq⟩
      · rintro ⟨hq, hmq⟩
        rcases Rid.lt_trichotomy q st.scan with h | h | h
        · exact absurd hmq (hskip q hq h)
        · exact .inl h
        · exact .inr ⟨h, hmq⟩
    · rcases List.mem_cons.mp hx with rfl | hx
      · simp [hrid]
      · exact hrep.records x hx

lemma beginTuple_stopsAfter (st : SeqScanState) (ht : Total ex st.file) (fuel : Nat)
    (hfuel : dataSlots st.file < fuel) :
    ∃ st₁, (ex.beginTuple fuel).run st = .ok () st₁ ∧ SameData st.file st₁.file ∧
      remaining st.file st₁.scan ≤ dataSlots st.file ∧ StopsAfter ex st.file ⟨1, -1⟩ st₁ := by
  obtain ⟨r, hn, hnl⟩ := next_nextLive ⟨1, -1⟩ st.file le_rfl le_rfl
  have hd := sameData_pinRange st.file 1 (min r.pageNo (st.file.numPages - 1))
  have hle := remaining_le_dataSlots hnl
  obtain ⟨st₁, h1, h2, h3, h4⟩ := nextTuple_stopsAfter ht ⟨1, -1⟩ fuel
    ⟨pinRange st.file 1 (min r.pageNo (st.file.numPages - 1)), st.rid, r⟩ hd
    (nextLive_not_matches hnl) (hnl.live_or_end.imp_right (isEnd_iff_of_sameData hd).mpr)
    (by dsimp only; omega)
  dsimp only at h3
  exact ⟨st₁, by simp [beginTuple, onFile_run, Scan.init, hn, h1], h2, by omega, h4⟩

lemma driven_scan_reports_matches (ex : SeqScanExecutor) (st : SeqScanState)
    (ht : Total ex st.file) (fuel n : Nat) (hfuel : dataSlots st.file < fuel)
    (hn : dataSlots st.file < n) :
    ∃ L st', (do ex.beginTuple fuel; ex.drive ex.next fuel n).run st = .ok L st' ∧
      SameData st.file st'.file ∧ (L.map Prod.fst).Pairwise (· < ·) ∧
      (∀ q, q ∈ L.map Prod.fst ↔ Matches ex st.file q) ∧
      ∀ x ∈ L, x.2 = some ((st.file.pages x.1.pageNo).slots x.1.slotNo) := by
  obtain ⟨st₁, h1, hd₁, hle, hst⟩ := beginTuple_stopsAfter st ht fuel hfuel
  obtain ⟨L, st', hL, hd', hrep⟩ :=
    drive_next_reports ht fuel n ⟨1, -1⟩ st₁ hd₁ hst (by omega) (by omega)
  refine ⟨L, st', by simp [h1, hL], hd', hrep.sorted, fun q => ?_, hrep.records⟩
  rw [hrep.mem_iff q]
  exact and_iff_right_of_imp fun hm => start_lt_of_live hm.1

/-- Driven as `beginTuple(); while (!is_end()) { Next(); nextTuple(); }`, with as many
iterations, and as much fuel for each `nextTuple`, as the data pages have slots, the sequential
scan returns when its conditions evaluate on every record and its context grants every lock: it
reports each live record that passes the conditions exactly once, in rid order, with the record
`Next` read at that rid, and it leaves the table's data unchanged. -/
theorem seqScan_next_loop_reports_matches (ex : SeqScanExecutor) (st : SeqScanState)
    (ht : Total ex st.file) (fuel n : Nat) (hfuel : dataSlots st.file < fuel)
    (hn : dataSlots st.file < n) :
    ∃ L st', (do ex.beginTuple fuel; ex.drive ex.next fuel n).run st = .ok L st' ∧
      SameData st.file st'.file ∧ (L.map Prod.fst).Pairwise (· < ·) ∧
      (∀ q, q ∈ L.map Prod.fst ↔ Matches ex st.file q) ∧
      ∀ x ∈ L, x.2 = some ((st.file.pages x.1.pageNo).slots x.1.slotNo) :=
  driven_scan_reports_matches ex st ht fuel n hfuel hn

lemma total_scanAll (s : RmFile) : Total scanAll s :=
  ⟨fun _ _ => ⟨true, rfl⟩, fun _ => rfl⟩

theorem seqScan_next_loop_reports_matches_oneRecordScan :
    Total scanAll oneRecordScan.file ∧ dataSlots oneRecordScan.file < 2 ∧
    ∃ L st', (do scanAll.beginTuple 2; scanAll.drive scanAll.next 2 2).run oneRecordScan =
        .ok L st' ∧
      SameData oneRecordScan.file st'.file ∧ (L.map Prod.fst).Pairwise (· < ·) ∧
      (∀ q, q ∈ L.map Prod.fst ↔ Matches scanAll oneRecordScan.file q) ∧
      ∀ x ∈ L, x.2 = some ((oneRecordScan.file.pages x.1.pageNo).slots x.1.slotNo) :=
  ⟨total_scanAll _, by decide, seqScan_next_loop_reports_matches scanAll oneRecordScan
    (total_scanAll _) 2 2 (by decide) (by decide)⟩

example : (match (do scanAll.beginTuple 2; scanAll.drive scanAll.next 2 2).run oneRecordScan with
    | .ok L _ => L | .error _ _ => []) = [(⟨1, 0⟩, some [1])] := rfl

end SeqScanExecutor

end Rmdb.Execution.SeqScan

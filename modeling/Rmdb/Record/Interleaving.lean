import Rmdb.Record.Scan
import Rmdb.Record.Calls

/-! A record scan interleaved with calls on its file. -/

namespace Rmdb.Record.Interleaving

open Rmdb.Defs Rmdb.Record.FileHandle Rmdb.Record.Calls Rmdb.Record.Scan

def scanRun (fuel : Nat) (muts : Nat → List RmCall) : Nat → RmM Rid
  | 0 => init
  | k + 1 => do
    let rid ← scanRun fuel muts k
    modify (runCalls fuel (muts k))
    next rid

structure Rounds (calls : Nat → RmFile → RmFile) (s : RmFile) (rids : Nat → Rid)
    (files : Nat → RmFile) : Prop where
  start : SameData s (files 0) ∧ NextLive s ⟨1, -1⟩ (rids 0)
  round : ∀ k, SameData (calls k (files k)) (files (k + 1)) ∧
    NextLive (calls k (files k)) (rids k) (rids (k + 1))

namespace Rounds

variable {calls : Nat → RmFile → RmFile} {s : RmFile} {rids : Nat → Rid}
  {files : Nat → RmFile}

lemma stands (hr : Rounds calls s rids files) : ∀ k, Stands (files k) (rids k)
  | 0 => hr.start.1.stands hr.start.2.stands
  | k + 1 => (hr.round k).1.stands (hr.round k).2.stands

lemma live (hr : Rounds calls s rids files) (k : Nat) (h : isEnd (files k) (rids k) = false) :
    Live (files k) (rids k) :=
  (hr.stands k).live_of_isEnd h

lemma lt_succ (hr : Rounds calls s rids files) (k : Nat)
    (h : isEnd (files (k + 1)) (rids (k + 1)) = false) :
    rids k < rids (k + 1) := by
  have hlive := hr.live (k + 1) h
  rw [(hr.round k).1.live] at hlive
  exact (hr.round k).2.lt_of_live hlive

lemma le_succ (hr : Rounds calls s rids files)
    (hgrow : ∀ k t, t.numPages ≤ (calls k t).numPages) (k : Nat) : rids k ≤ rids (k + 1) :=
  (hr.round k).2.le (hr.stands k) (hgrow k _)

lemma le_of_le (hr : Rounds calls s rids files)
    (hgrow : ∀ k t, t.numPages ≤ (calls k t).numPages) {j j' : Nat} (h : j ≤ j') :
    rids j ≤ rids j' := by
  induction h with
  | refl => exact Rid.le_refl _
  | step _ ih => exact Rid.le_trans ih (hr.le_succ hgrow _)

lemma lt_of_lt (hr : Rounds calls s rids files)
    (hgrow : ∀ k t, t.numPages ≤ (calls k t).numPages) {j j' : Nat} (h : j < j')
    (hend : isEnd (files j') (rids j') = false) :
    rids j < rids j' := by
  obtain ⟨k, rfl⟩ := Nat.exists_eq_add_of_lt h
  exact Rid.lt_of_le_of_lt (hr.le_of_le hgrow (Nat.le_add_right j k)) (hr.lt_succ _ hend)

lemma covers (hr : Rounds calls s rids files) {m : Nat} {x : Rid}
    (hend : isEnd (files m) (rids m) = true) (hx : Live s x)
    (hxk : ∀ k < m, Live (calls k (files k)) x) :
    ∃ j < m, rids j = x ∧ isEnd (files j) (rids j) = false := by
  have hlive : ∀ k ≤ m, Live (files k) x := by
    intro k hk
    cases k with
    | zero => rw [hr.start.1.live]; exact hx
    | succ k => rw [(hr.round k).1.live]; exact hxk k hk
  have hbefore : ∀ k ≤ m, (∃ j < k, rids j = x ∧ isEnd (files j) (rids j) = false) ∨
      rids k ≤ x := by
    intro k hk
    induction k with
    | zero => exact .inr (hr.start.2.le_of_live hx (start_lt_of_live hx))
    | succ k ih =>
      rcases ih (by omega) with ⟨j, hj, hjx⟩ | hle
      · exact .inl ⟨j, by omega, hjx⟩
      rcases Rid.eq_or_lt_of_le hle with rfl | hlt
      · exact .inl ⟨k, by omega, rfl,
          isEnd_eq_false_of_le (hlive k (by omega)) (Rid.le_refl _)⟩
      · exact .inr ((hr.round k).2.le_of_live (hxk k (by omega)) hlt)
  rcases hbefore m le_rfl with h | hle
  · exact h
  · rw [isEnd_eq_false_of_le (hlive m le_rfl) hle] at hend
    cases hend

lemma reaches_end (hr : Rounds calls s rids files) (K : Nat)
    (hK : ∀ k, K ≤ k → ∀ t, calls k t = t) :
    ∃ m, isEnd (files m) (rids m) = true := by
  have hsame : ∀ k, K ≤ k → SameData (files K) (files k) := by
    intro k hk
    induction k, hk using Nat.le_induction with
    | base => exact .refl _
    | succ k hk ih =>
      have h := (hr.round k).1
      rw [hK k hk] at h
      exact ih.trans h
  suffices h : ∀ n k, K ≤ k → remaining (files K) (rids k) < n →
      ∃ m, isEnd (files m) (rids m) = true from h _ K le_rfl (Nat.lt_succ_self _)
  intro n
  induction n with
  | zero => intro k _ h; exact absurd h (Nat.not_lt_zero _)
  | succ n ih =>
    intro k hk hn
    cases hend : isEnd (files k) (rids k)
    · have hlive := hr.live k hend
      have hnext := (hr.round k).2
      rw [hK k hk] at hnext
      rw [(hsame k hk).live] at hlive
      rw [(hsame k hk).nextLive] at hnext
      have := remaining_lt_of_nextLive hlive hnext
      exact ih (k + 1) (by omega) (by omega)
    · exact ⟨k, hend⟩

end Rounds

section Run

variable (fuel : Nat) (muts : Nat → List RmCall)

lemma scanRun_succ {k : Nat} {s t : RmFile} {r : Rid} (h : (scanRun fuel muts k).run s = .ok r t) :
    (scanRun fuel muts (k + 1)).run s = (next r).run (runCalls fuel (muts k) t) := by
  simp only [scanRun, EStateM.run_bind, h, EStateM.run_modify]

lemma next_ok {G t' : RmFile} {r r' : Rid} (h1 : 1 ≤ r.pageNo) (h0 : -1 ≤ r.slotNo)
    (h : (next r).run G = .ok r' t') : SameData G t' ∧ NextLive G r r' := by
  obtain ⟨r'', hr, hnext⟩ := next_nextLive r G h1 h0
  rw [hr, EStateM.Result.ok.injEq] at h
  obtain ⟨rfl, rfl⟩ := h
  exact ⟨sameData_pinRange _ _ _, hnext⟩

lemma scanRun_stands {s : RmFile} (hs : 1 ≤ s.numPages) :
    ∀ k, ∃ r t, (scanRun fuel muts k).run s = .ok r t ∧ Stands t r ∧ 1 ≤ t.numPages
  | 0 => by
    obtain ⟨r, hr, hnext⟩ := next_nextLive ⟨1, -1⟩ s le_rfl le_rfl
    exact ⟨r, _, hr, (sameData_pinRange _ _ _).stands hnext.stands, hs⟩
  | k + 1 => by
    obtain ⟨r, t, hrun, hst, ht⟩ := scanRun_stands hs k
    obtain ⟨h1, h0⟩ := hst.startable ht
    obtain ⟨r', hr', hnext⟩ := next_nextLive r (runCalls fuel (muts k) t) h1 h0
    refine ⟨r', _, by rw [scanRun_succ fuel muts hrun, hr'],
      (sameData_pinRange _ _ _).stands hnext.stands, ?_⟩
    simpa using ht.trans (numPages_le_runCalls fuel (muts k) t)

lemma scanRun_rounds {s : RmFile} (hs : 1 ≤ s.numPages) :
    ∃ rids files, (∀ k, (scanRun fuel muts k).run s = .ok (rids k) (files k)) ∧
      Rounds (fun k => runCalls fuel (muts k)) s rids files := by
  choose rids files hrun hst hpos using scanRun_stands fuel muts hs
  refine ⟨rids, files, hrun, ⟨next_ok le_rfl le_rfl (hrun 0), fun k => ?_⟩⟩
  obtain ⟨h1, h0⟩ := (hst k).startable (hpos k)
  have h := hrun (k + 1)
  rw [scanRun_succ fuel muts (hrun k)] at h
  exact next_ok h1 h0 h

end Run

/-- `RmScan` enumerates a file that calls change between its steps. On a file with its header
page, with the calls `muts k` made before the `k + 1`-th `next()` and none from round `K` on,
every round returns; the scan reaches `is_end()`; after every round that leaves `is_end()`
false it stands on a slot live at that moment; those rids strictly increase; and every slot
live from the constructor until a round at the end is one of them. -/
theorem scan_interleaved_enumerates (fuel : Nat) (muts : Nat → List RmCall) (K : Nat)
    (hK : ∀ k, K ≤ k → muts k = []) (s : RmFile) (hs : 1 ≤ s.numPages) :
    ∃ (rids : Nat → Rid) (files : Nat → RmFile),
      (∀ k, (scanRun fuel muts k).run s = .ok (rids k) (files k)) ∧
      (∃ m, isEnd (files m) (rids m) = true) ∧
      (∀ k, isEnd (files k) (rids k) = false → Live (files k) (rids k)) ∧
      (∀ j j', j < j' → isEnd (files j') (rids j') = false → rids j < rids j') ∧
      ∀ m x, isEnd (files m) (rids m) = true → Live s x →
        (∀ k < m, Live (runCalls fuel (muts k) (files k)) x) →
        ∃ j < m, rids j = x ∧ isEnd (files j) (rids j) = false := by
  obtain ⟨rids, files, hrun, hr⟩ := scanRun_rounds fuel muts hs
  have hgrow : ∀ k t, t.numPages ≤ (runCalls fuel (muts k) t).numPages :=
    fun k t => numPages_le_runCalls fuel (muts k) t
  exact ⟨rids, files, hrun, hr.reaches_end K fun k hk t => by rw [hK k hk]; rfl, hr.live,
    fun _ _ h => hr.lt_of_lt hgrow h, fun _ _ hend hx hxk => hr.covers hend hx hxk⟩

def insertOnce (k : Nat) : List RmCall :=
  if k = 0 then [.insertRecord [1] none] else []

theorem scan_interleaved_enumerates_insertOnce :
    (∀ k, 1 ≤ k → insertOnce k = []) ∧ 1 ≤ (emptyFile 2).numPages ∧
    ∃ (rids : Nat → Rid) (files : Nat → RmFile),
      (∀ k, (scanRun 1 insertOnce k).run (emptyFile 2) = .ok (rids k) (files k)) ∧
      (∃ m, isEnd (files m) (rids m) = true) ∧
      (∀ k, isEnd (files k) (rids k) = false → Live (files k) (rids k)) ∧
      (∀ j j', j < j' → isEnd (files j') (rids j') = false → rids j < rids j') ∧
      ∀ m x, isEnd (files m) (rids m) = true → Live (emptyFile 2) x →
        (∀ k < m, Live (runCalls 1 (insertOnce k) (files k)) x) →
        ∃ j < m, rids j = x ∧ isEnd (files j) (rids j) = false :=
  ⟨fun k hk => if_neg (by omega), by decide,
    scan_interleaved_enumerates 1 insertOnce 1 (fun k hk => if_neg (by omega)) (emptyFile 2)
      (by decide)⟩

example : ((scanRun 1 insertOnce 0).run (emptyFile 2)).outcome = .ok ⟨1, 0⟩ ∧
    ((scanRun 1 insertOnce 1).run (emptyFile 2)).outcome = .ok ⟨2, 0⟩ :=
  ⟨rfl, rfl⟩

end Rmdb.Record.Interleaving

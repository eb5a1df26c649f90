import Rmdb.Record.FileHandle

/-! The record scan of `rm_scan.cpp`. -/

namespace Rmdb.Record.Scan

open Rmdb.Defs Rmdb.Record.FileHandle

/-- The inner loop of `RmScan::next`: the first set bit among the `k` positions from `i`. -/
def nextSetSlot (bm : Int → Bool) : Nat → Int → Option Int
  | 0, _ => none
  | k + 1, i => if bm i then some i else nextSetSlot bm k (i + 1)

/-- The outer loop of `RmScan::next` from `rid`, with `k` pages left to look at. -/
def nextFrom : Nat → Rid → RmM Rid
  | 0, _ => do return ⟨(← get).numPages, 0⟩
  | k + 1, rid => do
    let s ← get
    if rid.pageNo < s.numPages then
      fetchPageHandle rid.pageNo
      match nextSetSlot (s.pages rid.pageNo).bitmap
          (s.numRecordsPerPage - (rid.slotNo + 1)).toNat (rid.slotNo + 1) with
      | some slotNo => return ⟨rid.pageNo, slotNo⟩
      | none => nextFrom k ⟨rid.pageNo + 1, -1⟩
    else return ⟨s.numPages, 0⟩

/-- `RmScan::next`: the loop runs while `rid_.page_no < num_pages`. -/
def next (rid : Rid) : RmM Rid := do
  nextFrom ((← get).numPages - rid.pageNo).toNat rid

/-- `RmScan::RmScan`: start before slot 0 of page 1 and move to the first record. -/
def init : RmM Rid :=
  next ⟨1, -1⟩

def isEnd (s : RmFile) (rid : Rid) : Bool :=
  decide (rid.pageNo ≥ s.numPages)

lemma nextSetSlot_spec (bm : Int → Bool) (k : Nat) (i : Int) :
    match nextSetSlot bm k i with
    | some j => i ≤ j ∧ j < i + k ∧ bm j = true ∧ ∀ l, i ≤ l → l < j → bm l = false
    | none => ∀ l, i ≤ l → l < i + k → bm l = false := by
  induction k generalizing i with
  | zero => intro l h1 h2; omega
  | succ k ih =>
    simp only [nextSetSlot]
    split_ifs with h
    · exact ⟨le_rfl, by omega, h, fun l h1 h2 => by omega⟩
    · have ih' := ih (i + 1)
      simp only [Bool.not_eq_true] at h
      split at ih'
      · next j hj =>
        obtain ⟨h1, h2, h3, h4⟩ := ih'
        refine ⟨by omega, by omega, h3, fun l hl1 hl2 => ?_⟩
        rcases eq_or_lt_of_le hl1 with rfl | hl
        · exact h
        · exact h4 l (by omega) hl2
      · next hj =>
        intro l hl1 hl2
        rcases eq_or_lt_of_le hl1 with rfl | hl
        · exact h
        · exact ih' l (by omega) (by omega)

def pinRange (s : RmFile) (a b : Int) : RmFile :=
  { s with pins := fun p => s.pins p + if a ≤ p ∧ p ≤ b then 1 else 0 }

@[simp] lemma pinRange_numPages (s : RmFile) (a b : Int) : (pinRange s a b).numPages = s.numPages :=
  rfl

@[simp] lemma pinRange_numRecordsPerPage (s : RmFile) (a b : Int) :
    (pinRange s a b).numRecordsPerPage = s.numRecordsPerPage := rfl

@[simp] lemma pinRange_pages (s : RmFile) (a b : Int) : (pinRange s a b).pages = s.pages := rfl

lemma pinRange_of_lt (s : RmFile) {a b : Int} (h : b < a) : pinRange s a b = s := by
  simp only [pinRange]
  cases s
  simp only [RmFile.mk.injEq, true_and]
  funext p
  split_ifs <;> omega

lemma pinRange_self (s : RmFile) (a : Int) : pinRange s a a = s.pin a := by
  simp only [pinRange, RmFile.pin]
  congr 1
  funext p
  by_cases hp : p = a
  · subst hp; simp
  · simp only [Function.update_noteq hp]
    split_ifs <;> omega

lemma pin_pinRange (s : RmFile) {a b : Int} (h : a ≤ b) :
    pinRange (s.pin a) (a + 1) b = pinRange s a b := by
  simp only [pinRange, RmFile.pin]
  congr 1
  funext p
  by_cases hp : p = a
  · subst hp; simp; omega
  · simp only [Function.update_noteq hp]
    split_ifs <;> omega

lemma nextFrom_run (k : Nat) (rid : Rid) (s : RmFile) (h0 : 0 ≤ rid.pageNo)
    (hk : k = (s.numPages - rid.pageNo).toNat) :
    ∃ r, (nextFrom k rid).run s =
        .ok r (pinRange s rid.pageNo (min r.pageNo (s.numPages - 1))) ∧
      (r.pageNo < s.numPages → rid.pageNo ≤ r.pageNo) := by
  induction k generalizing rid s with
  | zero =>
    refine ⟨⟨s.numPages, 0⟩, ?_, fun h => absurd h (lt_irrefl _)⟩
    simp only [nextFrom, EStateM.run_bind, EStateM.run_get, EStateM.run_pure]
    rw [pinRange_of_lt s (by omega)]
  | succ k ih =>
    have hp : rid.pageNo < s.numPages := by omega
    simp only [nextFrom, EStateM.run_bind, EStateM.run_get, if_pos hp, fetchPageHandle_run,
      if_neg (show ¬(rid.pageNo ≥ s.numPages ∨ rid.pageNo < 0) by omega)]
    split
    · next j _ =>
      refine ⟨⟨rid.pageNo, j⟩, ?_, fun _ => le_rfl⟩
      rw [min_eq_left (by dsimp only; omega), pinRange_self]
      rfl
    · obtain ⟨r, hr, hle⟩ := ih ⟨rid.pageNo + 1, -1⟩ (s.pin rid.pageNo) (by simp; omega)
        (by simp; omega)
      refine ⟨r, ?_, fun h => by have := hle (by simpa using h); simp at this; omega⟩
      rw [hr, RmFile.pin_numPages, pin_pinRange]
      have := hle
      simp only [RmFile.pin_numPages] at this
      by_cases hr' : r.pageNo < s.numPages
      · have := this hr'; simp at this; omega
      · omega

instance : LT Rid :=
  ⟨fun a b => a.pageNo < b.pageNo ∨ (a.pageNo = b.pageNo ∧ a.slotNo < b.slotNo)⟩

lemma Rid.lt_iff {a b : Rid} :
    a < b ↔ a.pageNo < b.pageNo ∨ (a.pageNo = b.pageNo ∧ a.slotNo < b.slotNo) := Iff.rfl

instance (a b : Rid) : Decidable (a < b) := decidable_of_iff _ Rid.lt_iff.symm

lemma Rid.lt_trans {a b c : Rid} (hab : a < b) (hbc : b < c) : a < c := by
  rw [Rid.lt_iff] at *; omega

lemma Rid.lt_trichotomy (a b : Rid) : a < b ∨ a = b ∨ b < a := by
  obtain ⟨pa, sa⟩ := a
  obtain ⟨pb, sb⟩ := b
  simp only [Rid.lt_iff, Rid.mk.injEq]
  omega

instance : LE Rid :=
  ⟨fun a b => a.pageNo < b.pageNo ∨ (a.pageNo = b.pageNo ∧ a.slotNo ≤ b.slotNo)⟩

lemma Rid.le_iff {a b : Rid} :
    a ≤ b ↔ a.pageNo < b.pageNo ∨ (a.pageNo = b.pageNo ∧ a.slotNo ≤ b.slotNo) := Iff.rfl

lemma Rid.le_refl (a : Rid) : a ≤ a :=
  .inr ⟨rfl, Int.le_refl _⟩

lemma Rid.le_of_lt {a b : Rid} (h : a < b) : a ≤ b := by
  rw [Rid.le_iff]; rw [Rid.lt_iff] at h; omega

lemma Rid.le_trans {a b c : Rid} (hab : a ≤ b) (hbc : b ≤ c) : a ≤ c := by
  rw [Rid.le_iff] at *; omega

lemma Rid.lt_of_le_of_lt {a b c : Rid} (hab : a ≤ b) (hbc : b < c) : a < c := by
  rw [Rid.le_iff] at hab; rw [Rid.lt_iff] at *; omega

lemma Rid.le_of_not_lt {a b : Rid} (h : ¬ b < a) : a ≤ b := by
  rw [Rid.le_iff]; rw [Rid.lt_iff] at h; omega

lemma Rid.eq_or_lt_of_le {a b : Rid} (h : a ≤ b) : a = b ∨ a < b := by
  obtain ⟨pa, sa⟩ := a
  obtain ⟨pb, sb⟩ := b
  simp only [Rid.le_iff, Rid.lt_iff, Rid.mk.injEq] at *
  omega

def Live (s : RmFile) (q : Rid) : Prop :=
  1 ≤ q.pageNo ∧ q.pageNo < s.numPages ∧ 0 ≤ q.slotNo ∧ q.slotNo < s.numRecordsPerPage ∧
    (s.pages q.pageNo).bitmap q.slotNo = true

lemma start_lt_of_live {s : RmFile} {q : Rid} (h : Live s q) : (⟨1, -1⟩ : Rid) < q := by
  obtain ⟨h1, -, h0, -, -⟩ := h
  rw [Rid.lt_iff]
  dsimp only
  omega

def NextLive (s : RmFile) (p r : Rid) : Prop :=
  (Live s r ∧ p < r ∧ ∀ q, p < q → q < r → ¬ Live s q) ∨
    (r = ⟨s.numPages, 0⟩ ∧ ∀ q, p < q → ¬ Live s q)

structure SameData (s t : RmFile) : Prop where
  numPages : t.numPages = s.numPages
  numRecordsPerPage : t.numRecordsPerPage = s.numRecordsPerPage
  pages : t.pages = s.pages

lemma SameData.refl (s : RmFile) : SameData s s := ⟨rfl, rfl, rfl⟩

lemma SameData.trans {s t u : RmFile} (h : SameData s t) (h' : SameData t u) : SameData s u :=
  ⟨h'.1.trans h.1, h'.2.trans h.2, h'.3.trans h.3⟩

lemma sameData_pin (s : RmFile) (p : Int) : SameData s (s.pin p) := ⟨rfl, rfl, rfl⟩

lemma sameData_pinRange (s : RmFile) (a b : Int) : SameData s (pinRange s a b) := ⟨rfl, rfl, rfl⟩

lemma SameData.live {s t : RmFile} (h : SameData s t) : Live t = Live s := by
  funext q
  simp only [Live, h.numPages, h.numRecordsPerPage, h.pages]

lemma SameData.nextLive {s t : RmFile} (h : SameData s t) : NextLive t = NextLive s := by
  funext p r
  simp only [NextLive, h.live, h.numPages]

lemma NextLive.live_or_end {s : RmFile} {p r : Rid} (h : NextLive s p r) :
    Live s r ∧ p < r ∨ r.pageNo ≥ s.numPages := by
  rcases h with ⟨hr, hpr, -⟩ | ⟨rfl, -⟩
  · exact .inl ⟨hr, hpr⟩
  · exact .inr le_rfl

@[simp] lemma live_pin (s : RmFile) (p : Int) : Live (s.pin p) = Live s := rfl

lemma nextFrom_nextLive (k : Nat) (rid : Rid) (s : RmFile) (h1 : 1 ≤ rid.pageNo)
    (hslot : -1 ≤ rid.slotNo) (hk : k = (s.numPages - rid.pageNo).toNat) {r : Rid} {s' : RmFile}
    (h : (nextFrom k rid).run s = .ok r s') : NextLive s rid r := by
  induction k generalizing rid s with
  | zero =>
    simp only [nextFrom, EStateM.run_bind, EStateM.run_get, EStateM.run_pure,
      EStateM.Result.ok.injEq] at h
    rw [← h.1]
    exact .inr ⟨rfl, fun q hq ⟨_, hq2, _⟩ => by rw [Rid.lt_iff] at hq; omega⟩
  | succ k ih =>
    have hp : rid.pageNo < s.numPages := by omega
    simp only [nextFrom, EStateM.run_bind, EStateM.run_get, if_pos hp, fetchPageHandle_run,
      if_neg (show ¬(rid.pageNo ≥ s.numPages ∨ rid.pageNo < 0) by omega)] at h
    have hsp := nextSetSlot_spec (s.pages rid.pageNo).bitmap
      (s.numRecordsPerPage - (rid.slotNo + 1)).toNat (rid.slotNo + 1)
    split at h
    · next j hj =>
      simp only [EStateM.run_pure, EStateM.Result.ok.injEq] at h
      rw [hj] at hsp
      obtain ⟨hj1, hj2, hjb, hjmin⟩ := hsp
      rw [← h.1]
      refine .inl ⟨⟨h1, hp, by dsimp only; omega, by dsimp only; omega, hjb⟩,
        .inr ⟨rfl, by dsimp only; omega⟩, fun q hq hqr ⟨_, _, _, _, hqb⟩ => ?_⟩
      rw [Rid.lt_iff] at hq hqr
      dsimp only at hqr
      have hpage : q.pageNo = rid.pageNo := by omega
      rw [hpage, hjmin q.slotNo (by omega) (by omega)] at hqb
      exact Bool.false_ne_true hqb
    · next hj =>
      rw [hj] at hsp
      dsimp only at hsp
      have ih' := ih ⟨rid.pageNo + 1, -1⟩ (s.pin rid.pageNo) (by simp; omega) le_rfl
        (by simp; omega) h
      simp only [NextLive, live_pin, RmFile.pin_numPages] at ih'
      have hrest : ∀ q, rid < q → Live s q → (⟨rid.pageNo + 1, -1⟩ : Rid) < q := by
        intro q hq ⟨_, _, hq0, hqN, hqb⟩
        rw [Rid.lt_iff] at hq ⊢
        dsimp only
        rcases hq with hq | ⟨hpq, hsq⟩
        · omega
        · rw [← hpq, hsp q.slotNo (by omega) (by omega)] at hqb
          exact absurd hqb Bool.false_ne_true
      rcases ih' with ⟨hr, hlt, hmin⟩ | ⟨hr, hnone⟩
      · refine .inl ⟨hr, ?_, fun q hq hqr hq' => hmin q (hrest q hq hq') hqr hq'⟩
        rw [Rid.lt_iff] at hlt ⊢; dsimp only at hlt; omega
      · exact .inr ⟨hr, fun q hq hq' => hnone q (hrest q hq hq') hq'⟩

def remaining (s : RmFile) (p : Rid) : Nat :=
  ((s.numPages - p.pageNo) * s.numRecordsPerPage - p.slotNo).toNat

lemma remaining_lt_of_nextLive {s : RmFile} {p r : Rid} (hp : Live s p) (hr : NextLive s p r) :
    remaining s r < remaining s p := by
  obtain ⟨hp1, hp2, hp3, hp4, -⟩ := hp
  have hN : 0 ≤ s.numRecordsPerPage := by omega
  have hpN : (s.numPages - p.pageNo - 1) * s.numRecordsPerPage =
      (s.numPages - p.pageNo) * s.numRecordsPerPage - s.numRecordsPerPage := sub_one_mul _ _
  have hpN0 := Int.mul_nonneg (show 0 ≤ s.numPages - p.pageNo - 1 by omega) hN
  unfold remaining
  rcases hr with ⟨⟨-, hr2, hr3, hr4, -⟩, hpr, -⟩ | ⟨rfl, -⟩
  · rcases Rid.lt_iff.mp hpr with hpr | ⟨hpr, hs⟩
    · have := Int.mul_le_mul_of_nonneg_right
        (show s.numPages - r.pageNo ≤ s.numPages - p.pageNo - 1 by omega) hN
      omega
    · rw [← hpr]
      omega
  · simp only [Int.sub_self, Int.zero_mul]
    omega

lemma next_nextLive (rid : Rid) (s : RmFile) (h1 : 1 ≤ rid.pageNo) (hslot : -1 ≤ rid.slotNo) :
    ∃ r, (next rid).run s = .ok r (pinRange s rid.pageNo (min r.pageNo (s.numPages - 1))) ∧
      NextLive s rid r := by
  obtain ⟨r, hr, -⟩ := nextFrom_run _ rid s (by omega) rfl
  exact ⟨r, hr, nextFrom_nextLive _ rid s h1 hslot rfl hr⟩

def Stands (s : RmFile) (r : Rid) : Prop :=
  Live s r ∨ r = ⟨s.numPages, 0⟩

section Stands

variable {s t G : RmFile} {p r r' x : Rid}

lemma NextLive.stands (h : NextLive s p r) : Stands s r := by
  rcases h with ⟨hr, -⟩ | ⟨rfl, -⟩
  · exact .inl hr
  · exact .inr rfl

lemma SameData.stands (h : SameData s t) (hr : Stands s r) : Stands t r := by
  unfold Stands
  rw [h.live, h.numPages]
  exact hr

lemma Stands.live_of_isEnd (h : Stands s r) (hend : isEnd s r = false) : Live s r := by
  rcases h with h | rfl
  · exact h
  · simp [isEnd] at hend

lemma Stands.le_end (h : Stands s r) {N : Int} (hN : s.numPages ≤ N) : r ≤ ⟨N, 0⟩ := by
  rw [Rid.le_iff]
  rcases h with ⟨-, h, -⟩ | rfl
  · exact .inl (by dsimp only; omega)
  · dsimp only; omega

lemma Stands.startable (h : Stands s r) (hs : 1 ≤ s.numPages) :
    1 ≤ r.pageNo ∧ -1 ≤ r.slotNo := by
  rcases h with ⟨h1, -, h0, -⟩ | rfl
  · omega
  · dsimp only; omega

lemma isEnd_eq_false_of_le (hx : Live s x) (h : r ≤ x) : isEnd s r = false := by
  obtain ⟨-, hx, -⟩ := hx
  rw [Rid.le_iff] at h
  simp only [isEnd, decide_eq_false_iff_not]
  omega

lemma NextLive.le (h : NextLive G r r') (hr : Stands t r) (hN : t.numPages ≤ G.numPages) :
    r ≤ r' := by
  rcases h with ⟨-, hlt, -⟩ | ⟨rfl, -⟩
  · exact Rid.le_of_lt hlt
  · exact hr.le_end hN

lemma NextLive.lt_of_live (h : NextLive G r r') (h' : Live G r') : r < r' := by
  rcases h with ⟨-, hlt, -⟩ | ⟨rfl, -⟩
  · exact hlt
  · exact absurd h'.2.1 (lt_irrefl _)

lemma NextLive.le_of_live (h : NextLive G r r') (hx : Live G x) (hrx : r < x) : r' ≤ x := by
  rcases h with ⟨-, -, hmin⟩ | ⟨-, hnone⟩
  · exact Rid.le_of_not_lt fun hxr => hmin x hrx hxr hx
  · exact absurd hx (hnone x hrx)

end Stands

end Rmdb.Record.Scan

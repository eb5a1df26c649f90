import Rmdb.Analyze.SelectScan
import Rmdb.Analyze.UpdateAgreement

/-! `UPDATE t SET … WHERE …` as a sequential scan whose rids `UpdateExecutor::Next` updates. -/

namespace Rmdb.Analyze

open Rmdb.Defs Rmdb.Record Rmdb.Record.FileHandle Rmdb.Record.FreeList Rmdb.Record.Refinement
  Rmdb.Record.Scan Rmdb.Execution.Predicate Rmdb.Execution.Update Rmdb.Execution.SeqScan
  Rmdb.Execution.SeqScan.SeqScanExecutor

lemma records_of_sameData {s s' : RmFile} (h : SameData s s') : records s' = records s := by
  funext rid
  simp only [records, IsSlot, h.numPages, h.numRecordsPerPage, h.pages]

lemma records_of_live {s : RmFile} {rid : Rid} (h : Live s rid) :
    records s rid = some ((s.pages rid.pageNo).slots rid.slotNo) :=
  records_eq_some.mpr ⟨⟨h.1, h.2.1, h.2.2.1, h.2.2.2.1⟩, h.2.2.2.2, rfl⟩

lemma nodup_of_sorted {L : List Rid} (h : L.Pairwise (· < ·)) : L.Nodup :=
  h.imp fun hlt he => by subst he; rw [Rid.lt_iff] at hlt; omega

lemma clauseWrites_of_doAnalyze {dbm : DbMeta} {tabName : String} {sets : List SvSetClause}
    {conds : List BinaryExpr} {q : Query} {tab : TabMeta}
    (hq : doAnalyze dbm (.update tabName sets conds) = .ok q) (hname : tabName ≠ "")
    (htab : dbm.getTable tabName = .ok tab) :
    ∃ writes, List.Forall₂ (fun sc w => ClauseWrite tab sc w ∧ sc.rhs.raw = some w.2)
      q.setClauses writes := by
  refine exists_forall₂ fun sc hmem => ?_
  obtain ⟨col, hcol, -, raw, hinit, hraw⟩ := setClause_of_doAnalyze hq hname htab sc hmem
  exact ⟨(col.offset, raw), ⟨col, hcol, rfl, hinit⟩, hraw⟩

/-- `UPDATE t SET … WHERE …` from `do_analyze` to the end of `Next`. When `do_analyze` accepts
the statement, the table's columns carry its name, every condition compares a column written
unqualified or as `t.col` with a literal, the schema and the records fit as `Next` needs, and
the context grants the shared and the exclusive locks (and is there when the table has an
index, whose loop reads `context_->txn_`), then the scan of `t` with the query's conditions,
driven with enough iterations, returns the rids it reports, and `Next` over those rids, on the
table file the scan leaves, returns. Afterwards every live record that passes the `WHERE` holds
its old bytes with each set clause's encoded value written over its column, every other record
and every other table is unchanged, and an index that held exactly one entry per live record
still does when no two records end with one key. -/
theorem update_where_updates_matches (dbm : DbMeta) (tabName : String)
    (sets : List SvSetClause) (conds : List BinaryExpr) (q : Query)
    (hq : doAnalyze dbm (.update tabName sets conds) = .ok q) (hname : tabName ≠ "")
    (tab : TabMeta) (htab : dbm.getTable tabName = .ok tab)
    (hnames : ∀ c ∈ tab.cols, c.tabName = tabName) (hwf : tab.WellFormed)
    (hconds : ∀ e ∈ conds, (∃ v, e.rhs = .value v) ∧
      (e.lhs.tabName = "" ∨ e.lhs.tabName = tabName))
    (ctx : Option Context) (hidx : ctx.isSome ∨ tab.indexes = [])
    (hctx : ∀ rid, Context.refuses ctx .shared rid = false ∧
      Context.refuses ctx .exclusive rid = false)
    (d : Db) (hfits : ∀ r rec, records (d.mgr.tables tabName) r = some rec → Fits tab rec)
    (st : SeqScanState) (hst : st.file = d.mgr.tables tabName) (fuel n : Nat)
    (hfuel : dataSlots st.file < fuel) (hn : dataSlots st.file < n) :
    let scan : SeqScanExecutor := ⟨tab.cols, q.conds, ctx⟩
    ∃ L st', (do scan.beginTuple fuel; scan.drive scan.next fuel n).run st = .ok L st' ∧
      let ex : UpdateExecutor := ⟨tabName, tab, q.setClauses, L.map Prod.fst, ctx⟩
      let d₁ : Db :=
        { d with mgr := { d.mgr with tables := Function.update d.mgr.tables tabName st'.file } }
      ∃ d', ex.next.run d₁ = .ok () d' ∧
        (∃ writes, List.Forall₂ (fun sc w => ∃ col, tab.getCol sc.lhs.colName = .ok col ∧
            w.1 = col.offset ∧ sc.rhs.raw = some w.2) q.setClauses writes ∧
          ∀ r, Matches scan st.file r → ∃ old new, records (d.mgr.tables tabName) r = some old ∧
            records (d'.mgr.tables tabName) r = some new ∧ ∀ i, new[i]? = writtenAt old writes i) ∧
        (∀ r, ¬ Matches scan st.file r →
          records (d'.mgr.tables tabName) r = records (d.mgr.tables tabName) r) ∧
        (∀ t, t ≠ tabName → d'.mgr.tables t = d.mgr.tables t) ∧
        ∀ index ∈ tab.indexes,
          IndexExact index (records (d.mgr.tables tabName)) (d.ihs tabName (index.cols.map (·.name))) →
          KeysDistinct index (records (d'.mgr.tables tabName)) →
          IndexExact index (records (d'.mgr.tables tabName))
            (d'.ihs tabName (index.cols.map (·.name))) := by
  intro scan
  obtain ⟨-, -, -, hc, -⟩ := doAnalyze_update_ok hq
  have htotal := checkClause_total htab hnames hc hconds
  obtain ⟨L, st', hrun, hsame, hsorted, hmem, -⟩ := driven_scan_reports_matches scan st
    ⟨fun _ _ => satisfies_total fun c hc' => htotal c hc' _, fun r => (hctx r).1⟩ fuel n hfuel hn
  refine ⟨L, st', hrun, ?_⟩
  intro ex d₁
  have hrec₁ : records (d₁.mgr.tables tabName) = records (d.mgr.tables tabName) := by
    rw [show d₁.mgr.tables tabName = st'.file from Function.update_same _ _ _,
      records_of_sameData hsame, hst]
  have hlive : ∀ r ∈ ex.rids, ∃ rec, records (d₁.mgr.tables ex.tabName) r = some rec ∧
      Fits ex.tab rec := fun r hr => by
    have hr' := records_of_live ((hmem r).1 hr).1
    rw [hst] at hr'
    exact ⟨_, hrec₁ ▸ hr', hfits r _ hr'⟩
  have happly := applySetClauses_total fun sc hs =>
    (setClause_of_doAnalyze hq hname htab sc hs).imp fun _ ⟨h1, h2, raw, h3, _⟩ => ⟨h1, h2, raw, h3⟩
  obtain ⟨d', hnext⟩ : ∃ d', ex.next.run d₁ = .ok () d' := by
    rw [UpdateExecutor.next_run]
    exact forM_updateRid_total happly hidx ex.rids d₁
      (fun r hr => by obtain ⟨rec, hrec, -⟩ := hlive r hr; rw [hrec]; exact Option.some_ne_none _)
      fun r _ => hctx r
  obtain ⟨writes, hw⟩ := clauseWrites_of_doAnalyze hq hname htab
  obtain ⟨hi, hii, htabs, hiii⟩ := UpdateExecutor.next_ok_spec hwf (nodup_of_sorted hsorted) hlive
    (hw.imp fun _ _ h => h.1) hnext
  refine ⟨d', hnext, ⟨writes, hw.imp fun _ _ ⟨⟨col, hcol, hoff, _⟩, hraw⟩ => ⟨col, hcol, hoff, hraw⟩,
    fun r hr => ?_⟩, fun r hr => ?_, fun t ht => ?_, fun index hI hex => ?_⟩
  · obtain ⟨old, new, h1, h2, h3⟩ := hi r ((hmem r).2 hr)
    exact ⟨old, new, hrec₁ ▸ h1, h2, h3⟩
  · rw [hii r fun h => hr ((hmem r).1 h), hrec₁]
  · rw [htabs t ht]
    exact Function.update_noteq ht _ _
  · exact hiii index hI (hrec₁ ▸ hex)

def kIsOne : List BinaryExpr :=
  [⟨⟨"", "k"⟩, .eq, .value (.intLit 1)⟩]

lemma fits_twoRows : ∀ r rec, records (twoRows.mgr.tables "t") r = some rec →
    Fits UpdateExecutor.tabT rec := by
  intro r rec h
  simp only [twoRows, records_twoRowFile] at h
  split_ifs at h <;> cases h <;> exact ⟨by decide, by decide⟩

theorem update_where_updates_matches_kIsOne :
    ∃ q, doAnalyze ⟨[UpdateExecutor.tabT]⟩ (.update "t" [⟨"k", .value (.intLit 3)⟩] kIsOne) = .ok q ∧
    let ctx : Option Context := some ⟨true, fun _ _ => true⟩
    let st : SeqScanState := ⟨twoRowFile, ⟨0, 0⟩, ⟨0, 0⟩⟩
    let scan : SeqScanExecutor := ⟨UpdateExecutor.tabT.cols, q.conds, ctx⟩
    ∃ L st', (do scan.beginTuple 3; scan.drive scan.next 3 3).run st = .ok L st' ∧
      let ex : UpdateExecutor := ⟨"t", UpdateExecutor.tabT, q.setClauses, L.map Prod.fst, ctx⟩
      let d₁ : Db := { twoRows with
        mgr := { twoRows.mgr with tables := Function.update twoRows.mgr.tables "t" st'.file } }
      ∃ d', ex.next.run d₁ = .ok () d' ∧
        (∃ writes, List.Forall₂ (fun sc w => ∃ col,
            UpdateExecutor.tabT.getCol sc.lhs.colName = .ok col ∧
            w.1 = col.offset ∧ sc.rhs.raw = some w.2) q.setClauses writes ∧
          ∀ r, Matches scan st.file r → ∃ old new, records (twoRows.mgr.tables "t") r = some old ∧
            records (d'.mgr.tables "t") r = some new ∧ ∀ i, new[i]? = writtenAt old writes i) ∧
        (∀ r, ¬ Matches scan st.file r →
          records (d'.mgr.tables "t") r = records (twoRows.mgr.tables "t") r) ∧
        (∀ t, t ≠ "t" → d'.mgr.tables t = twoRows.mgr.tables t) ∧
        ∀ index ∈ UpdateExecutor.tabT.indexes,
          IndexExact index (records (twoRows.mgr.tables "t"))
            (twoRows.ihs "t" (index.cols.map (·.name))) →
          KeysDistinct index (records (d'.mgr.tables "t")) →
          IndexExact index (records (d'.mgr.tables "t"))
            (d'.ihs "t" (index.cols.map (·.name))) :=
  ⟨_, rfl, update_where_updates_matches ⟨[UpdateExecutor.tabT]⟩ "t" [⟨"k", .value (.intLit 3)⟩]
    kIsOne _ rfl (by decide) UpdateExecutor.tabT rfl (by decide) ⟨by decide, by decide⟩
    (by simp [kIsOne]) (some ⟨true, fun _ _ => true⟩) (.inl rfl) (fun _ => ⟨rfl, rfl⟩) twoRows fits_twoRows
    ⟨twoRowFile, ⟨0, 0⟩, ⟨0, 0⟩⟩ rfl 3 3 (by decide) (by decide)⟩

end Rmdb.Analyze

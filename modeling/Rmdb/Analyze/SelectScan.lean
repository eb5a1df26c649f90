import Rmdb.Analyze.ScanAgreement
import Rmdb.Execution.ScanOutput

/-! A `SELECT` over one table, from `do_analyze` to the sequential scan. -/

namespace Rmdb.Analyze

open Rmdb.Defs Rmdb.Record Rmdb.Record.FileHandle Rmdb.Record.Scan Rmdb.Execution.Predicate
  Rmdb.Execution.Update Rmdb.Execution.SeqScan Rmdb.Execution.SeqScan.SeqScanExecutor

lemma inferTab_mem {colName : String} :
    ∀ {tabName r : String} {cols : List ColMeta}, inferTab colName tabName cols = .ok r →
      r = tabName ∨ ∃ c ∈ cols, r = c.tabName
  | _, _, [], h => .inl (Except.ok.inj h).symm
  | tabName, r, c :: cs, h => by
    unfold inferTab at h
    split_ifs at h
    · rcases inferTab_mem h with rfl | ⟨d, hd, rfl⟩
      · exact .inr ⟨c, List.mem_cons_self _ _, rfl⟩
      · exact .inr ⟨d, List.mem_cons_of_mem _ hd, rfl⟩
    · exact (inferTab_mem h).imp_right fun ⟨d, hd, he⟩ => ⟨d, List.mem_cons_of_mem _ hd, he⟩

lemma checkColumn_one_table {cols : List ColMeta} {t : String} (hnames : ∀ d ∈ cols, d.tabName = t)
    {target r : TabCol} (hq : target.tabName = "" ∨ target.tabName = t)
    (h : checkColumn cols target = .ok r) : r.tabName = t := by
  by_cases he : target.tabName = ""
  · simp only [checkColumn, he, show ("" : String).isEmpty = true from rfl, if_true,
      bind_eq_ok] at h
    obtain ⟨tabName, hi, h⟩ := h
    split_ifs at h with hne
    · cases h
    · obtain rfl := pure_eq_ok.mp h
      rcases inferTab_mem hi with rfl | ⟨d, hd, rfl⟩
      · exact absurd rfl hne
      · exact hnames d hd
  · rw [checkColumn_qualified cols target he] at h
    cases h
    exact hq.resolve_left he

lemma condHolds_total {db : DbMeta} {t : String} {tab : TabMeta} (htab : db.getTable t = .ok tab)
    (hnames : ∀ d ∈ tab.cols, d.tabName = t) {cond c : Condition}
    (h : checkCond db tab.cols cond = .ok c) (hv : cond.isRhsVal = true)
    (hq : cond.lhsCol.tabName = "" ∨ cond.lhsCol.tabName = t) (rec : Bytes) :
    ∃ b, condHolds tab.cols rec c = .ok b := by
  obtain ⟨-, -, hl, tab', col, ht', hcol, hlit, -⟩ := checkCond_ok h
  have hname := checkColumn_one_table hnames hq hl
  obtain rfl : tab' = tab := Except.ok.inj (ht'.symm.trans (hname ▸ htab))
  have htname : tab'.name = c.lhsCol.tabName := by
    unfold DbMeta.getTable at ht'
    split at ht'
    · next hf => cases ht'; simpa using List.find?_some hf
    · cases ht'
  have hname' : ∀ d ∈ tab'.cols, d.tabName = tab'.name := fun d hd => by
    rw [hnames d hd, htname, hname]
  obtain ⟨raw, -, he⟩ := initRaw_ok (hlit hv).1
  simp only [condHolds, getCol_of_getColumn ht' hcol hname', he, bind, Except.bind, pure,
    Except.pure, Except.ok.injEq, exists_eq']

lemma satisfies_total {cols : List ColMeta} {rec : Bytes} :
    ∀ {conds : List Condition}, (∀ c ∈ conds, ∃ b, condHolds cols rec c = .ok b) →
      ∃ b, satisfies cols rec conds = .ok b
  | [], _ => ⟨true, rfl⟩
  | c :: cs, h => by
    obtain ⟨b, hb⟩ := h c (List.mem_cons_self _ _)
    obtain ⟨b', hb'⟩ := satisfies_total fun d hd => h d (List.mem_cons_of_mem _ hd)
    cases b
    · exact ⟨false, by simp [satisfies, hb, bind, Except.bind, pure, Except.pure]⟩
    · exact ⟨b', by simp [satisfies, hb, hb', bind, Except.bind]⟩

lemma checkClause_total {db : DbMeta} {t : String} {tab : TabMeta} (htab : db.getTable t = .ok tab)
    (hnames : ∀ d ∈ tab.cols, d.tabName = t) {conds : List BinaryExpr} {qconds : List Condition}
    (hc : checkClause db [t] (getClause conds) = .ok qconds)
    (hconds : ∀ e ∈ conds, (∃ v, e.rhs = .value v) ∧ (e.lhs.tabName = "" ∨ e.lhs.tabName = t)) :
    ∀ c ∈ qconds, ∀ rec, ∃ b, condHolds tab.cols rec c = .ok b := by
  obtain ⟨allCols, ha, hf⟩ := checkClause_ok hc
  obtain rfl : allCols = tab.cols := by
    simpa [getAllCols, htab, bind, Except.bind, pure, Except.pure] using ha.symm
  intro c hc' rec
  obtain ⟨cond, hmem, hcond⟩ := exists_of_forall₂_mem hf c hc'
  obtain ⟨e, he, rfl⟩ := List.mem_map.mp hmem
  obtain ⟨⟨v, hv⟩, hq⟩ := hconds e he
  exact condHolds_total htab hnames hcond (by simp [hv]) (by simpa [hv] using hq) rec

/-- `SELECT … FROM t WHERE …` analyzed and then scanned. When `do_analyze` accepts the statement,
the table's columns carry its name, and every condition compares a column written unqualified
or as `t.col` with a literal, each condition of the query evaluates on every record; and the
sequential scan of `t` with those conditions, driven as `beginTuple(); while (!is_end()) {
Next(); nextTuple(); }` with a context that grants the shared locks and enough iterations,
returns the live records on which every condition holds, each once, in rid order, with its
bytes, changing no data. -/
theorem select_scan_reports_matches (db : DbMeta) (t : String) (cols : List SvCol)
    (conds : List BinaryExpr) (q : Query) (h : doAnalyze db (.select [t] cols conds) = .ok q)
    (tab : TabMeta) (htab : db.getTable t = .ok tab) (hnames : ∀ d ∈ tab.cols, d.tabName = t)
    (hconds : ∀ e ∈ conds, (∃ v, e.rhs = .value v) ∧ (e.lhs.tabName = "" ∨ e.lhs.tabName = t))
    (ctx : Option Context) (hctx : ∀ rid, Context.refuses ctx .shared rid = false)
    (st : SeqScanState) (fuel n : Nat) (hfuel : dataSlots st.file < fuel)
    (hn : dataSlots st.file < n) :
    let ex : SeqScanExecutor := ⟨tab.cols, q.conds, ctx⟩
    (∀ c ∈ q.conds, ∀ rec, ∃ b, condHolds tab.cols rec c = .ok b) ∧
    ∃ L st', (do ex.beginTuple fuel; ex.drive ex.next fuel n).run st = .ok L st' ∧
      SameData st.file st'.file ∧ (L.map Prod.fst).Pairwise (· < ·) ∧
      (∀ rid, rid ∈ L.map Prod.fst ↔ Live st.file rid ∧
        satisfies tab.cols ((st.file.pages rid.pageNo).slots rid.slotNo) q.conds = .ok true) ∧
      ∀ x ∈ L, x.2 = some ((st.file.pages x.1.pageNo).slots x.1.slotNo) := by
  intro ex
  obtain ⟨-, -, -, -, hc, -⟩ := doAnalyze_select_ok h
  have htotal := checkClause_total htab hnames hc hconds
  exact ⟨htotal, driven_scan_reports_matches ex st
    ⟨fun _ _ => satisfies_total fun c hc' => htotal c hc' _, hctx⟩ fuel n hfuel hn⟩

def xPositive : List BinaryExpr :=
  [⟨⟨"", "x"⟩, .gt, .value (.intLit 0)⟩]

theorem select_scan_reports_matches_xPositive :
    ∃ q, doAnalyze xyCatalog (.select ["t"] [] xPositive) = .ok q ∧
      let ex : SeqScanExecutor := ⟨xyCols, q.conds, none⟩
      (∀ c ∈ q.conds, ∀ rec, ∃ b, condHolds xyCols rec c = .ok b) ∧
      ∃ L st', (do ex.beginTuple 2; ex.drive ex.next 2 2).run oneRecordScan = .ok L st' ∧
        SameData oneRecordScan.file st'.file ∧ (L.map Prod.fst).Pairwise (· < ·) ∧
        (∀ rid, rid ∈ L.map Prod.fst ↔ Live oneRecordScan.file rid ∧
          satisfies xyCols ((oneRecordScan.file.pages rid.pageNo).slots rid.slotNo) q.conds =
            .ok true) ∧
        ∀ x ∈ L, x.2 = some ((oneRecordScan.file.pages x.1.pageNo).slots x.1.slotNo) :=
  ⟨_, rfl, select_scan_reports_matches xyCatalog "t" [] xPositive _ rfl ⟨"t", xyCols, []⟩ rfl
    (by decide) (by simp [xPositive]) none (fun _ => rfl) oneRecordScan 2 2 (by decide)
    (by decide)⟩

end Rmdb.Analyze

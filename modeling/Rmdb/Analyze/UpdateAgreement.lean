import Rmdb.Analyze.Analyzer
import Rmdb.Execution.UpdateIndex

/-! The set clauses `do_analyze` makes of an `UPDATE`, as `UpdateExecutor::Next` runs them. -/

namespace Rmdb.Analyze

open Rmdb.Defs Rmdb.Record.FileHandle Rmdb.Record.FreeList Rmdb.Record.Refinement
  Rmdb.Execution.Predicate Rmdb.Execution.Update

lemma getColumn_ok {tab : TabMeta} {colName : String} {col : ColMeta}
    (h : getColumn tab colName = .ok col) : tab.getCol colName = .ok col := by
  unfold getColumn at h
  cases hc : tab.getCol colName <;> rw [hc] at h <;> cases h
  rfl

lemma setClause_of_doAnalyze {db : DbMeta} {tabName : String} {sets : List SvSetClause}
    {conds : List BinaryExpr} {q : Query} {tab : TabMeta}
    (h : doAnalyze db (.update tabName sets conds) = .ok q) (hname : tabName ≠ "")
    (htab : db.getTable tabName = .ok tab) :
    ∀ sc ∈ q.setClauses, ∃ col, tab.getCol sc.lhs.colName = .ok col ∧ sc.rhs.type = col.type ∧
      ∃ raw, sc.rhs.initRaw col.len = some raw ∧ sc.rhs.raw = some raw := by
  obtain ⟨-, -, -, -, allCols, -, hsets⟩ := doAnalyze_update_ok h
  intro sc hsc
  obtain ⟨sv, -, hsv⟩ := exists_of_forall₂_mem hsets sc hsc
  obtain ⟨hlhs, v, tab', col, -, ht, hc, hty, hraw⟩ := analyzeSetClause_ok hsv
  rw [checkColumn_qualified allCols _ hname, Except.ok.injEq] at hlhs
  rw [← hlhs, htab, Except.ok.injEq] at ht
  subst ht
  obtain ⟨raw, hr, he⟩ := initRaw_ok hraw
  refine ⟨col, getColumn_ok (hlhs ▸ hc), by rw [he, hty], raw, ?_, by rw [he]⟩
  rw [he, initRaw_with_raw, hr]

/-- The analyzer and the update executor agree on set-clause types: every set clause
`do_analyze` makes of an `UPDATE` has the type of the column it names in the target table, so
`Next`, run on that table with those set clauses, never raises `IncompatibleType`, for any rid
list and any state. -/
theorem setClause_types_agree (db : DbMeta) (tabName : String) (sets : List SvSetClause)
    (conds : List BinaryExpr) (q : Query) (h : doAnalyze db (.update tabName sets conds) = .ok q)
    (hname : tabName ≠ "") (tab : TabMeta) (htab : db.getTable tabName = .ok tab) :
    (∀ sc ∈ q.setClauses, ∃ col, tab.getCol sc.lhs.colName = .ok col ∧ sc.rhs.type = col.type) ∧
    ∀ ex : UpdateExecutor, ex.tab = tab → ex.setClauses = q.setClauses →
      ∀ (d d' : Db) (l r : ColType), ex.next.run d ≠ .error (.incompatibleType l r) d' := by
  have hsc := setClause_of_doAnalyze h hname htab
  have htypes : ∀ sc ∈ q.setClauses, ∃ col, tab.getCol sc.lhs.colName = .ok col ∧
      sc.rhs.type = col.type := fun sc hs => (hsc sc hs).imp fun _ h => ⟨h.1, h.2.1⟩
  refine ⟨htypes, fun ex hex hset d d' l r hrun => ?_⟩
  have hnext := ex.raisesOnly_next (P := fun e => ∀ l r, e ≠ .incompatibleType l r)
    (fun _ _ _ => nofun) (hex ▸ hset ▸ applySetClauses_not_incompatible htypes) fun _ _ => nofun
  exact hnext d _ d' hrun l r rfl

theorem setClause_types_agree_tabT :
    ∃ q, doAnalyze ⟨[UpdateExecutor.tabT]⟩
        (.update "t" [⟨"v", .value (.floatLit 0x40200000)⟩] []) = .ok q ∧
      (∀ sc ∈ q.setClauses, ∃ col, UpdateExecutor.tabT.getCol sc.lhs.colName = .ok col ∧
        sc.rhs.type = col.type) ∧
      ∀ ex : UpdateExecutor, ex.tab = UpdateExecutor.tabT → ex.setClauses = q.setClauses →
        ∀ (d d' : Db) (l r : ColType), ex.next.run d ≠ .error (.incompatibleType l r) d' :=
  ⟨_, rfl, setClause_types_agree ⟨[UpdateExecutor.tabT]⟩ "t"
    [⟨"v", .value (.floatLit 0x40200000)⟩] [] _ rfl (by decide) UpdateExecutor.tabT rfl⟩

lemma exists_forall₂ {α β : Type} {R : α → β → Prop} :
    ∀ {xs : List α}, (∀ x ∈ xs, ∃ y, R x y) → ∃ ys, List.Forall₂ R xs ys
  | [], _ => ⟨[], .nil⟩
  | x :: xs, h => by
    obtain ⟨y, hy⟩ := h x (List.mem_cons_self _ _)
    obtain ⟨ys, hys⟩ := exists_forall₂ fun x' hx' => h x' (List.mem_cons_of_mem _ hx')
    exact ⟨y :: ys, .cons hy hys⟩

/-- The postcondition of `Next` on the set clauses `do_analyze` makes of an `UPDATE`, over
distinct live rids whose records have the table's layout: each record becomes its old bytes
with each clause's encoded value written over its column, a later clause winning; every other
record and every other table is as it was; and an index that held exactly one entry
`key(rec) → rid` per live record still does, provided no two live records end with one key. -/
theorem next_postcondition (dbm : DbMeta) (tabName : String) (sets : List SvSetClause)
    (conds : List BinaryExpr) (q : Query) (hq : doAnalyze dbm (.update tabName sets conds) = .ok q)
    (hname : tabName ≠ "") (ex : UpdateExecutor) (htab : dbm.getTable tabName = .ok ex.tab)
    (hset : ex.setClauses = q.setClauses) (hwf : ex.tab.WellFormed) (hnodup : ex.rids.Nodup)
    (d d' : Db) (hlive : ∀ r ∈ ex.rids,
      ∃ rec, records (d.mgr.tables ex.tabName) r = some rec ∧ Fits ex.tab rec)
    (hrun : ex.next.run d = .ok () d') :
    (∃ writes, List.Forall₂ (fun sc w => ∃ col, ex.tab.getCol sc.lhs.colName = .ok col ∧
        w.1 = col.offset ∧ sc.rhs.raw = some w.2) ex.setClauses writes ∧
      ∀ r ∈ ex.rids, ∃ old new, records (d.mgr.tables ex.tabName) r = some old ∧
        records (d'.mgr.tables ex.tabName) r = some new ∧ ∀ i, new[i]? = writtenAt old writes i) ∧
    (∀ r, r ∉ ex.rids →
      records (d'.mgr.tables ex.tabName) r = records (d.mgr.tables ex.tabName) r) ∧
    (∀ t, t ≠ ex.tabName → d'.mgr.tables t = d.mgr.tables t) ∧
    ∀ index ∈ ex.tab.indexes,
      IndexExact index (records (d.mgr.tables ex.tabName))
        (d.ihs ex.tabName (index.cols.map (·.name))) →
      KeysDistinct index (records (d'.mgr.tables ex.tabName)) →
      IndexExact index (records (d'.mgr.tables ex.tabName))
        (d'.ihs ex.tabName (index.cols.map (·.name))) := by
  have hsc := setClause_of_doAnalyze hq hname htab
  obtain ⟨writes, hw⟩ : ∃ writes, List.Forall₂
      (fun sc w => ClauseWrite ex.tab sc w ∧ sc.rhs.raw = some w.2) ex.setClauses writes := by
    refine exists_forall₂ fun sc hmem => ?_
    obtain ⟨col, hcol, -, raw, hinit, hraw⟩ := hsc sc (hset ▸ hmem)
    exact ⟨(col.offset, raw), ⟨col, hcol, rfl, hinit⟩, hraw⟩
  obtain ⟨hi, hii, htabs, hiii⟩ :=
    UpdateExecutor.next_ok_spec hwf hnodup hlive (hw.imp fun _ _ h => h.1) hrun
  exact ⟨⟨writes, hw.imp fun _ _ ⟨⟨col, hcol, hoff, _⟩, hraw⟩ => ⟨col, hcol, hoff, hraw⟩, hi⟩,
    hii, htabs, hiii⟩

def twoRowFile : RmFile :=
  ⟨2, 2, RM_NO_PAGE, fun p => if p = 1 then
      ⟨RM_NO_PAGE, 2, fun i => decide (i = 0 ∨ i = 1),
        fun i => if i = 0 then UpdateExecutor.row 1 10 else UpdateExecutor.row 2 20⟩
    else ⟨RM_NO_PAGE, 0, fun _ => false, fun _ => []⟩, fun _ => 0⟩

lemma records_twoRowFile : records twoRowFile = fun r =>
    if r = ⟨1, 0⟩ then some (UpdateExecutor.row 1 10)
    else if r = ⟨1, 1⟩ then some (UpdateExecutor.row 2 20) else none := by
  funext ⟨p, i⟩
  simp only [records, IsSlot, twoRowFile, Rid.mk.injEq]
  by_cases hp : p = 1
  · subst hp
    by_cases h0 : i = 0
    · subst h0; decide
    by_cases h1 : i = 1
    · subst h1; decide
    simp [h0, h1]
  · simp [hp]

def twoRows : Db :=
  ⟨{ UpdateExecutor.beganOnRow.mgr with tables := fun _ => twoRowFile },
    fun _ _ key => if key = encodeLE 4 1 then some ⟨1, 0⟩
      else if key = encodeLE 4 2 then some ⟨1, 1⟩ else none⟩

def setKTwo : UpdateExecutor :=
  ⟨"t", UpdateExecutor.tabT, [⟨⟨"t", "k"⟩, ⟨.int, 2, 0, [], some (encodeLE 4 2)⟩⟩], [⟨1, 0⟩],
    some ⟨true, fun _ _ => true⟩⟩

def indexK : IndexMeta :=
  ⟨[UpdateExecutor.colK], 4⟩

def setKThree : UpdateExecutor :=
  { setKTwo with setClauses := [⟨⟨"t", "k"⟩, ⟨.int, 3, 0, [], some (encodeLE 4 3)⟩⟩] }

theorem next_postcondition_setKThree :
    ∃ d', setKThree.next.run twoRows = .ok () d' ∧
    (∃ writes, List.Forall₂ (fun sc w => ∃ col, setKThree.tab.getCol sc.lhs.colName = .ok col ∧
        w.1 = col.offset ∧ sc.rhs.raw = some w.2) setKThree.setClauses writes ∧
      ∀ r ∈ setKThree.rids, ∃ old new,
        records (twoRows.mgr.tables setKThree.tabName) r = some old ∧
        records (d'.mgr.tables setKThree.tabName) r = some new ∧
        ∀ i, new[i]? = writtenAt old writes i) ∧
    (∀ r, r ∉ setKThree.rids → records (d'.mgr.tables setKThree.tabName) r =
      records (twoRows.mgr.tables setKThree.tabName) r) ∧
    (∀ t, t ≠ setKThree.tabName → d'.mgr.tables t = twoRows.mgr.tables t) ∧
    ∀ index ∈ setKThree.tab.indexes,
      IndexExact index (records (twoRows.mgr.tables setKThree.tabName))
        (twoRows.ihs setKThree.tabName (index.cols.map (·.name))) →
      KeysDistinct index (records (d'.mgr.tables setKThree.tabName)) →
      IndexExact index (records (d'.mgr.tables setKThree.tabName))
        (d'.ihs setKThree.tabName (index.cols.map (·.name))) :=
  ⟨_, rfl, next_postcondition ⟨[UpdateExecutor.tabT]⟩ "t" [⟨"k", .value (.intLit 3)⟩] [] _ rfl
    (by decide) setKThree rfl rfl ⟨by decide, by decide⟩ (by decide) twoRows _
    (fun r hr => by
      obtain rfl := List.mem_singleton.mp hr
      exact ⟨_, rfl, by decide, by decide⟩) rfl⟩

theorem next_postcondition_collision :
    (doAnalyze ⟨[UpdateExecutor.tabT]⟩ (.update "t" [⟨"k", .value (.intLit 2)⟩] [])).map
      (·.setClauses) = .ok setKTwo.setClauses ∧ setKTwo.rids = [⟨1, 0⟩] ∧
    records twoRowFile ⟨1, 0⟩ = some (UpdateExecutor.row 1 10) ∧
    IndexExact indexK (records (twoRows.mgr.tables "t")) (twoRows.ihs "t" ["k"]) ∧
    ∃ d', setKTwo.next.run twoRows = .ok () d' ∧
      ¬ IndexExact indexK (records (d'.mgr.tables "t")) (d'.ihs "t" ["k"]) := by
  refine ⟨rfl, rfl, rfl, fun key rid => ?_, _, rfl, fun h => ?_⟩
  · have hk₁ : indexK.key (UpdateExecutor.row 1 10) = encodeLE 4 1 := rfl
    have hk₂ : indexK.key (UpdateExecutor.row 2 20) = encodeLE 4 2 := rfl
    have h₁₂ : encodeLE 4 2 ≠ encodeLE 4 1 := by decide
    simp only [twoRows, records_twoRowFile]
    constructor
    · intro h
      split_ifs at h with h₁ h₂ <;> cases h
      · exact ⟨_, if_pos rfl, h₁ ▸ hk₁⟩
      · exact ⟨_, by simp, h₂ ▸ hk₂⟩
    · rintro ⟨rec, hrec, rfl⟩
      split_ifs at hrec with hA hC <;> cases hrec
      · rw [hk₁, if_pos rfl, hA]
      · rw [hk₂, if_neg h₁₂, if_pos rfl, hC]
  · have := (h (encodeLE 4 2) ⟨1, 1⟩).2 ⟨UpdateExecutor.row 2 20, rfl, rfl⟩
    exact absurd this (by decide)

/-! ### `Next` returns -/

lemma applySetClauses_total {tab : TabMeta} : ∀ {setClauses : List SetClause},
    (∀ sc ∈ setClauses, ∃ col, tab.getCol sc.lhs.colName = .ok col ∧ sc.rhs.type = col.type ∧
      ∃ raw, sc.rhs.initRaw col.len = some raw) →
    ∀ record, ∃ new, applySetClauses tab record setClauses = .ok new
  | [], _, record => ⟨record, rfl⟩
  | sc :: scs, hsc, record => by
    obtain ⟨col, hcol, hty, raw, hraw⟩ := hsc sc (List.mem_cons_self _ _)
    obtain ⟨new, hnew⟩ := applySetClauses_total (fun sc' hs => hsc sc' (List.mem_cons_of_mem _ hs))
      (memcpy record col.offset raw col.len)
    exact ⟨new, by simp [applySetClauses, applySetClause, hcol, hty, hraw, hnew, bind,
      Except.bind, pure, Except.pure]⟩

section

variable {ex : UpdateExecutor}

lemma updateRid_total (d : Db) {rid : Rid} (hlive : records (d.mgr.tables ex.tabName) rid ≠ none)
    (hidx : ex.ctx.isSome ∨ ex.tab.indexes = []) (hs : Context.refuses ex.ctx .shared rid = false)
    (hx : Context.refuses ex.ctx .exclusive rid = false)
    (happly : ∀ record, ∃ new, applySetClauses ex.tab record ex.setClauses = .ok new) :
    ∃ d', (ex.updateRid rid).run d = .ok () d' ∧
      ∀ r, records (d'.mgr.tables ex.tabName) r ≠ none ↔ records (d.mgr.tables ex.tabName) r ≠ none := by
  obtain ⟨old, hold⟩ := Option.ne_none_iff_exists'.mp hlive
  obtain ⟨⟨h1, h2, -, -⟩, hbit, hslot⟩ := records_eq_some.mp hold
  obtain ⟨new, hnew⟩ := happly old
  have hpage : ¬(rid.pageNo ≥ (d.mgr.tables ex.tabName).numPages ∨ rid.pageNo < 0) := by omega
  obtain ⟨d', hrun⟩ : ∃ d', (ex.updateRid rid).run d = .ok () d' := by
    cases hctx : ex.ctx.isSome <;>
      simp [UpdateExecutor.updateRid, onFh_run, getRecord_run, updateRecord_run, hpage, hbit, hs,
        hx, hslot, hnew, hctx, updateIndexes_of_ctx hidx, Rmdb.Execution.Update.ofExcept]
  obtain ⟨new', -, hrec, -, -⟩ := UpdateExecutor.updateRid_ok hold hrun
  refine ⟨d', hrun, fun r => ?_⟩
  rw [hrec, Function.update_apply]
  split_ifs with hr
  · subst hr; simp [hlive]
  · rfl

lemma forM_updateRid_total
    (happly : ∀ record, ∃ new, applySetClauses ex.tab record ex.setClauses = .ok new)
    (hidx : ex.ctx.isSome ∨ ex.tab.indexes = []) :
    ∀ (L : List Rid) (d : Db), (∀ r ∈ L, records (d.mgr.tables ex.tabName) r ≠ none) →
      (∀ r ∈ L, Context.refuses ex.ctx .shared r = false ∧
        Context.refuses ex.ctx .exclusive r = false) →
      ∃ d', (L.forM ex.updateRid).run d = .ok () d'
  | [], d, _, _ => ⟨d, rfl⟩
  | r :: L, d, hlive, hctx => by
    obtain ⟨hs, hx⟩ := hctx r (List.mem_cons_self _ _)
    obtain ⟨d₁, h₁, hlive₁⟩ := updateRid_total d (hlive r (List.mem_cons_self _ _)) hidx hs hx happly
    obtain ⟨d', h'⟩ := forM_updateRid_total happly hidx L d₁
      (fun r' hr' => (hlive₁ r').mpr (hlive r' (List.mem_cons_of_mem _ hr')))
      fun r' hr' => hctx r' (List.mem_cons_of_mem _ hr')
    exact ⟨d', by simp only [List.forM, EStateM.run_bind, h₁, h']⟩

end

/-- `UpdateExecutor::Next` returns for an `UPDATE` that `do_analyze` accepts: run on the target
table with the set clauses it made, over rids that are live when `Next` starts (repeated or
not), with a context that grants the shared and the exclusive lock on each, `Next` raises
nothing, whatever the values and the table's records. The index loop reads `context_->txn_`,
so the context is there when the table has an index. -/
theorem update_next_returns (dbm : DbMeta) (tabName : String) (sets : List SvSetClause)
    (conds : List BinaryExpr) (q : Query) (hq : doAnalyze dbm (.update tabName sets conds) = .ok q)
    (hname : tabName ≠ "") (ex : UpdateExecutor) (htab : dbm.getTable tabName = .ok ex.tab)
    (hset : ex.setClauses = q.setClauses) (d : Db)
    (hlive : ∀ r ∈ ex.rids, records (d.mgr.tables ex.tabName) r ≠ none)
    (hidx : ex.ctx.isSome ∨ ex.tab.indexes = [])
    (hctx : ∀ r ∈ ex.rids, Context.refuses ex.ctx .shared r = false ∧
      Context.refuses ex.ctx .exclusive r = false) :
    ∃ d', ex.next.run d = .ok () d' := by
  have hsc := setClause_of_doAnalyze hq hname htab
  have happly := applySetClauses_total fun sc hs =>
    (hsc sc (hset ▸ hs)).imp fun _ ⟨h1, h2, raw, h3, _⟩ => ⟨h1, h2, raw, h3⟩
  rw [UpdateExecutor.next_run]
  exact forM_updateRid_total (hset ▸ happly) hidx ex.rids d hlive hctx

theorem update_next_returns_setKThree :
    (∀ r ∈ setKThree.rids, records (twoRows.mgr.tables setKThree.tabName) r ≠ none) ∧
    setKThree.ctx.isSome ∧
    (∀ r ∈ setKThree.rids, Context.refuses setKThree.ctx .shared r = false ∧
      Context.refuses setKThree.ctx .exclusive r = false) ∧
    ∃ d', setKThree.next.run twoRows = .ok () d' :=
  ⟨by decide, rfl, by decide, update_next_returns ⟨[UpdateExecutor.tabT]⟩ "t"
    [⟨"k", .value (.intLit 3)⟩] [] _ rfl (by decide) setKThree rfl rfl twoRows (by decide)
    (.inl rfl) (by decide)⟩

end Rmdb.Analyze

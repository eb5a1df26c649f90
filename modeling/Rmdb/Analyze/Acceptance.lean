import Rmdb.Analyze.Analyzer

/-! What `do_analyze` accepts, stated over column names and column types. -/

namespace Rmdb.Analyze

open Rmdb.Defs Rmdb.Execution.Predicate Rmdb.Execution.Update

def DbMeta.WellFormed (db : DbMeta) : Prop :=
  ∀ tab ∈ db.tabs, tab.name ≠ "" ∧ ∀ c ∈ tab.cols, c.tabName = tab.name

def Names (db : DbMeta) (allCols : List ColMeta) (c : SvCol) (m : ColMeta) : Prop :=
  if c.tabName = "" then allCols.filter (·.name = c.colName) = [m]
  else ∃ tab, db.getTable c.tabName = .ok tab ∧ getColumn tab c.colName = .ok m

def Comparable (a b : ColType) : Prop :=
  a = b ∨ (a = .int ∧ b = .float) ∨ (a = .float ∧ b = .int)

def LiteralFits (m : ColMeta) : SvValue → Prop
  | .stringLit s => m.type = .string ∧ s.length ≤ m.len
  | .intLit _ | .floatLit _ => m.type ≠ .string

def Accepted (db : DbMeta) (allCols : List ColMeta) (e : BinaryExpr) : Prop :=
  ∃ m, Names db allCols e.lhs m ∧
    match e.rhs with
    | .value v => LiteralFits m v
    | .col c => ∃ m', Names db allCols c m' ∧ Comparable m.type m'.type

variable {db : DbMeta} {tabs : List String} {allCols : List ColMeta}

lemma getTable_ok {t : String} {tab : TabMeta} (h : db.getTable t = .ok tab) :
    tab ∈ db.tabs ∧ tab.name = t := by
  unfold DbMeta.getTable at h
  split at h
  · next hf =>
    cases h
    exact ⟨List.mem_of_find?_eq_some hf, by simpa using List.find?_some hf⟩
  · cases h

lemma mem_getAllCols : ∀ {tabs : List String} {allCols : List ColMeta},
    getAllCols db tabs = .ok allCols → ∀ m ∈ allCols,
      ∃ t tab, db.getTable t = .ok tab ∧ m ∈ tab.cols ∧ ∀ c ∈ tab.cols, c ∈ allCols
  | [], _, h, m, hm => by
    obtain rfl := pure_eq_ok.mp h
    cases hm
  | t :: ts, _, h, m, hm => by
    simp only [getAllCols, bind_eq_ok, pure_eq_ok] at h
    obtain ⟨tab, ht, rest, hr, rfl⟩ := h
    rcases List.mem_append.mp hm with hm | hm
    · exact ⟨t, tab, ht, hm, fun c hc => List.mem_append_left _ hc⟩
    · obtain ⟨t', tab', ht', hm', hsub⟩ := mem_getAllCols hr m hm
      exact ⟨t', tab', ht', hm', fun c hc => List.mem_append_right _ (hsub c hc)⟩

lemma qualified_of_getAllCols (hwf : db.WellFormed) (ha : getAllCols db tabs = .ok allCols) :
    ∀ c ∈ allCols, c.tabName ≠ "" := fun c hc => by
  obtain ⟨_, tab, ht, hct, -⟩ := mem_getAllCols ha c hc
  have htab := (getTable_ok ht).1
  rw [(hwf tab htab).2 c hct]
  exact (hwf tab htab).1

lemma getColumn_of_unique (hwf : db.WellFormed) (ha : getAllCols db tabs = .ok allCols)
    {n : String} {m : ColMeta} (hf : allCols.filter (·.name = n) = [m]) :
    ∃ tab, db.getTable m.tabName = .ok tab ∧ getColumn tab n = .ok m := by
  have hmf : m ∈ allCols.filter (·.name = n) := hf ▸ List.mem_singleton_self m
  obtain ⟨t, tab, ht, hmt, hsub⟩ := mem_getAllCols ha m (List.mem_of_mem_filter hmf)
  obtain ⟨htab, hname⟩ := getTable_ok ht
  refine ⟨tab, ((hwf tab htab).2 m hmt).trans hname ▸ ht, ?_⟩
  simp only [getColumn, TabMeta.getCol]
  split
  · next c hc =>
    have hc' : c ∈ allCols.filter (·.name = n) :=
      List.mem_filter.2 ⟨hsub c (List.mem_of_find?_eq_some hc), by simpa using List.find?_some hc⟩
    rw [hf, List.mem_singleton] at hc'
    rw [hc']
    rfl
  · next hnone =>
    exact absurd (List.find?_eq_none.1 hnone m hmt) (by simpa using List.of_mem_filter hmf)

lemma checkColumn_unqualified_iff (hq : ∀ c ∈ allCols, c.tabName ≠ "") (n : String) (r : TabCol) :
    checkColumn allCols ⟨"", n⟩ = .ok r ↔
      ∃ m, allCols.filter (·.name = n) = [m] ∧ r = ⟨m.tabName, n⟩ := by
  have hinfer := inferTab_empty n allCols hq
  simp only [checkColumn, show ("" : String).isEmpty = true from rfl, if_true]
  rcases hf : allCols.filter (·.name = n) with _ | ⟨c, _ | ⟨d, ds⟩⟩ <;> rw [hf] at hinfer <;>
    dsimp only at hinfer <;> rw [hinfer]
  · simp [hf, show ("" : String).isEmpty = true from rfl, ok_bind, throw, throwThe,
      MonadExceptOf.throw]
  · have hc : c.tabName.isEmpty = false := Bool.eq_false_iff.mpr fun h' =>
      hq c (List.mem_of_mem_filter (hf ▸ List.mem_singleton_self c)) ((String.isEmpty_iff _).mp h')
    simpa [hf, hc, ok_bind, bind, Except.bind, pure, Except.pure] using eq_comm
  · simp [hf, bind, Except.bind]

lemma names_iff (hwf : db.WellFormed) (ha : getAllCols db tabs = .ok allCols) (c : SvCol)
    (m : ColMeta) :
    Names db allCols c m ↔ ∃ r tab, checkColumn allCols ⟨c.tabName, c.colName⟩ = .ok r ∧
      db.getTable r.tabName = .ok tab ∧ getColumn tab r.colName = .ok m := by
  have hq := qualified_of_getAllCols hwf ha
  obtain ⟨t, n⟩ := c
  by_cases ht : t = ""
  · subst ht
    simp only [Names, if_true, checkColumn_unqualified_iff hq]
    constructor
    · intro hf
      obtain ⟨tab, htab, hcol⟩ := getColumn_of_unique hwf ha hf
      exact ⟨_, tab, ⟨m, hf, rfl⟩, htab, hcol⟩
    · rintro ⟨_, tab, ⟨m', hf, rfl⟩, htab, hcol⟩
      obtain ⟨tab', htab', hcol'⟩ := getColumn_of_unique hwf ha hf
      obtain rfl : tab = tab' := Except.ok.inj (htab.symm.trans htab')
      obtain rfl : m = m' := Except.ok.inj (hcol.symm.trans hcol')
      exact hf
  · simp only [Names, ht, if_false, checkColumn_qualified allCols ⟨t, n⟩ ht]
    constructor
    · rintro ⟨tab, htab, hcol⟩
      exact ⟨_, tab, rfl, htab, hcol⟩
    · rintro ⟨r, tab, hr, htab, hcol⟩
      obtain rfl := Except.ok.inj hr
      exact ⟨tab, htab, hcol⟩

lemma checkTypes_iff (a b : ColType) : checkTypes a b = .ok () ↔ Comparable a b := by
  unfold checkTypes Comparable
  split_ifs with h
  · simp only [throw, throwThe, MonadExceptOf.throw, reduceCtorEq, false_iff]
    exact fun hc => h.2 (hc.resolve_left h.1)
  · simp only [pure, Except.pure, true_iff]
    by_contra hn
    exact h ⟨fun he => hn (.inl he), fun hm => hn (.inr hm)⟩

lemma literal_iff (m : ColMeta) (v : SvValue) :
    (∃ v', initRaw (coerce m.type (convertSvValue v)) m.len = .ok v' ∧
      Comparable m.type v'.type) ↔ LiteralFits m v := by
  obtain ⟨_, _, ty, len, _⟩ := m
  cases v with
  | stringLit s =>
    cases ty <;> by_cases hl : len < s.length <;>
      simp [initRaw, coerce, convertSvValue, Value.initRaw, Value.setStr, Value.blank,
        LiteralFits, Comparable, pure, Except.pure, throw, throwThe, MonadExceptOf.throw, hl]
    omega
  | intLit _ | floatLit _ =>
    cases ty <;>
      simp [initRaw, coerce, convertSvValue, Value.initRaw, Value.setInt, Value.setFloat,
        Value.blank, LiteralFits, Comparable, pure, Except.pure]

lemma mapM_ok_iff {f : α → AnalyzeM β} :
    ∀ {xs : List α}, (∃ ys, xs.mapM f = .ok ys) ↔ ∀ x ∈ xs, ∃ y, f x = .ok y
  | [] => ⟨fun _ x hx => absurd hx (List.not_mem_nil x), fun _ => ⟨[], rfl⟩⟩
  | x :: xs => by
    simp only [List.mapM_cons, bind_eq_ok, pure_eq_ok, List.forall_mem_cons, ← mapM_ok_iff]
    constructor
    · rintro ⟨_, y, hy, ys, hys, -⟩
      exact ⟨⟨y, hy⟩, ys, hys⟩
    · rintro ⟨⟨y, hy⟩, ys, hys⟩
      exact ⟨_, y, hy, ys, hys, rfl⟩

lemma checkCond_eq_ok {cond : Condition} {lhsCol rhsCol : TabCol} {tab : TabMeta} {col : ColMeta}
    {rhs : Value × ColType} (hl : checkColumn allCols cond.lhsCol = .ok lhsCol)
    (hr : rhsColOf allCols cond = .ok rhsCol) (ht : db.getTable lhsCol.tabName = .ok tab)
    (hc : getColumn tab lhsCol.colName = .ok col) (hrhs : rhsOf db col cond rhsCol = .ok rhs)
    (hty : checkTypes col.type rhs.2 = .ok ()) :
    checkCond db allCols cond = .ok { cond with lhsCol := lhsCol, rhsCol := rhsCol, rhsVal := rhs.1 } := by
  simp only [checkCond, hl, hr, ht, hc, hrhs, hty, ok_bind]
  rfl

lemma checkCond_getClause_iff (hwf : db.WellFormed) (ha : getAllCols db tabs = .ok allCols)
    (e : BinaryExpr) : ∀ cond ∈ getClause [e],
      (∃ c, checkCond db allCols cond = .ok c) ↔ Accepted db allCols e := by
  intro cond hcond
  simp only [getClause, List.map_cons, List.map_nil, List.mem_singleton] at hcond
  subst hcond
  obtain ⟨⟨t, n⟩, op, rhs⟩ := e
  cases rhs with
  | value v =>
    constructor
    · rintro ⟨c, h⟩
      obtain ⟨-, -, hl, tab, col, ht, hcol, hlit, -⟩ := checkCond_ok h
      obtain ⟨hi, hty⟩ := hlit rfl
      exact ⟨col, (names_iff hwf ha _ col).2 ⟨c.lhsCol, tab, hl, ht, hcol⟩,
        (literal_iff col v).1 ⟨c.rhsVal, hi, hty ▸ Or.inl rfl⟩⟩
    · rintro ⟨m, hm, hr⟩
      obtain ⟨r, tab, hl, ht, hcol⟩ := (names_iff hwf ha _ m).1 hm
      obtain ⟨v', hi, hcmp⟩ := (literal_iff m v).2 hr
      exact ⟨_, checkCond_eq_ok hl rfl ht hcol (by simp only [rhsOf, if_true, hi, ok_bind]; rfl)
        ((checkTypes_iff _ _).2 hcmp)⟩
  | col rc =>
    constructor
    · rintro ⟨c, h⟩
      obtain ⟨-, -, hl, tab, col, ht, hcol, -, hcolr⟩ := checkCond_ok h
      obtain ⟨hr, -, rtab, rcol, hrt, hrc, hcmp⟩ := hcolr rfl
      exact ⟨col, (names_iff hwf ha _ col).2 ⟨c.lhsCol, tab, hl, ht, hcol⟩, rcol,
        (names_iff hwf ha _ rcol).2 ⟨c.rhsCol, rtab, hr, hrt, hrc⟩, hcmp⟩
    · rintro ⟨m, hm, m', hm', hcmp⟩
      obtain ⟨r, tab, hl, ht, hcol⟩ := (names_iff hwf ha _ m).1 hm
      obtain ⟨r', tab', hr, ht', hcol'⟩ := (names_iff hwf ha _ m').1 hm'
      exact ⟨_, checkCond_eq_ok hl hr ht hcol
        (by simp only [rhsOf, Bool.false_eq_true, if_false, ht', hcol', ok_bind]; rfl)
        ((checkTypes_iff _ _).2 hcmp)⟩

theorem checkClause_accepts_iff (db : DbMeta) (hwf : db.WellFormed) (tabs : List String)
    (allCols : List ColMeta) (ha : getAllCols db tabs = .ok allCols) (conds : List BinaryExpr) :
    (∃ qconds, checkClause db tabs (getClause conds) = .ok qconds) ↔
      ∀ e ∈ conds, Accepted db allCols e := by
  simp only [checkClause, ha, ok_bind, mapM_ok_iff]
  simp only [getClause, List.forall_mem_map]
  exact forall₂_congr fun e _ => checkCond_getClause_iff hwf ha e _ (List.mem_singleton_self _)

lemma isTable_of_getTable {t : String} {tab : TabMeta} (h : db.getTable t = .ok tab) :
    db.isTable t = true := by
  obtain ⟨htab, hname⟩ := getTable_ok h
  exact List.any_eq_true.2 ⟨tab, htab, by simp [hname]⟩

lemma isTable_of_getAllCols : ∀ {tabs : List String} {allCols : List ColMeta},
    getAllCols db tabs = .ok allCols → ∀ t ∈ tabs, db.isTable t = true
  | [], _, _, t, ht => absurd ht (List.not_mem_nil t)
  | t :: ts, _, h, t', ht' => by
    simp only [getAllCols, bind_eq_ok, pure_eq_ok] at h
    obtain ⟨tab, htab, rest, hr, -⟩ := h
    rcases List.mem_cons.mp ht' with rfl | ht'
    · exact isTable_of_getTable htab
    · exact isTable_of_getAllCols hr t' ht'

lemma getAllCols_single_iff {t : String} {allCols : List ColMeta} :
    getAllCols db [t] = .ok allCols ↔ ∃ tab, db.getTable t = .ok tab ∧ allCols = tab.cols := by
  simp only [getAllCols, bind_eq_ok, pure_eq_ok, List.append_nil]
  constructor
  · rintro ⟨tab, htab, _, rfl, rfl⟩
    exact ⟨tab, htab, List.append_nil _⟩
  · rintro ⟨tab, htab, rfl⟩
    exact ⟨tab, htab, [], rfl, List.append_nil _⟩

lemma selectCols_ok_iff (hq : ∀ c ∈ allCols, c.tabName ≠ "") (cols : List SvCol) :
    (∃ qcols, selectCols allCols (cols.map fun c => ⟨c.tabName, c.colName⟩) = .ok qcols) ↔
      ∀ c ∈ cols, c.tabName = "" → ∃ m, allCols.filter (·.name = c.colName) = [m] := by
  unfold selectCols
  split_ifs with hempty
  · obtain rfl : cols = [] := by simpa using hempty
    exact ⟨fun _ c hc => absurd hc (List.not_mem_nil c), fun _ => ⟨_, rfl⟩⟩
  · rw [mapM_ok_iff, List.forall_mem_map]
    refine forall₂_congr fun ⟨t, n⟩ _ => ?_
    by_cases ht : t = ""
    · subst ht
      simp only [checkColumn_unqualified_iff hq, true_implies]
      exact ⟨fun ⟨_, m, hf, _⟩ => ⟨m, hf⟩, fun ⟨m, hf⟩ => ⟨_, m, hf, rfl⟩⟩
    · simp only [checkColumn_qualified allCols ⟨t, n⟩ ht, ht, false_implies, iff_true]
      exact ⟨_, rfl⟩

lemma setLiteral_iff (m : ColMeta) (v : SvValue) :
    (m.type = (coerce m.type (convertSvValue v)).type ∧
      ∃ v', initRaw (coerce m.type (convertSvValue v)) m.len = .ok v') ↔ LiteralFits m v := by
  obtain ⟨_, _, ty, len, _⟩ := m
  cases v with
  | stringLit s =>
    cases ty <;> by_cases hl : len < s.length <;>
      simp [initRaw, coerce, convertSvValue, Value.initRaw, Value.setStr, Value.blank,
        LiteralFits, pure, Except.pure, throw, throwThe, MonadExceptOf.throw, hl]
    omega
  | intLit _ | floatLit _ =>
    cases ty <;>
      simp [initRaw, coerce, convertSvValue, Value.initRaw, Value.setInt, Value.setFloat,
        Value.blank, LiteralFits, pure, Except.pure]

lemma analyzeSetClause_iff {tabName : String} {tab : TabMeta} (htab : db.getTable tabName = .ok tab)
    (hne : tabName ≠ "") (sv : SvSetClause) :
    (∃ sc, analyzeSetClause db allCols tabName sv = .ok sc) ↔
      ∃ v col, sv.val = .value v ∧ getColumn tab sv.colName = .ok col ∧ LiteralFits col v := by
  obtain ⟨n, val⟩ := sv
  simp only [analyzeSetClause, checkColumn_qualified allCols ⟨tabName, n⟩ hne, ok_bind]
  cases val with
  | col c => simp [throw, throwThe, MonadExceptOf.throw]
  | value v =>
    have hR : (∃ v' col', SvExpr.value v = .value v' ∧ getColumn tab n = .ok col' ∧
        LiteralFits col' v') ↔ ∃ col', getColumn tab n = .ok col' ∧ LiteralFits col' v :=
      ⟨fun ⟨_, col', h1, h2, h3⟩ => by cases h1; exact ⟨col', h2, h3⟩,
        fun ⟨col', h2, h3⟩ => ⟨v, col', rfl, h2, h3⟩⟩
    refine Iff.trans ?_ hR.symm
    simp only [htab, ok_bind]
    rcases hcol : getColumn tab n with e | col
    · simp [bind, Except.bind]
    · simp only [ok_bind, Except.ok.injEq, exists_eq_left', ← setLiteral_iff]
      by_cases hty : col.type = (coerce col.type (convertSvValue v)).type
      · rw [if_neg (not_not.2 hty)]
        constructor
        · rintro ⟨sc, h⟩
          refine ⟨hty, ?_⟩
          rcases hi : initRaw (coerce col.type (convertSvValue v)) col.len with e | v'
          · rw [hi] at h
            cases h
          · exact ⟨v', rfl⟩
        · rintro ⟨-, v', hv'⟩
          exact ⟨_, by rw [hv']; rfl⟩
      · rw [if_pos hty]
        simp [hty, throw, throwThe, MonadExceptOf.throw, bind, Except.bind]

lemma select_accepts_iff (hwf : db.WellFormed) (tabs : List String) (cols : List SvCol)
    (conds : List BinaryExpr) :
    (∃ q, doAnalyze db (.select tabs cols conds) = .ok q) ↔
      (∀ t ∈ tabs, db.isTable t = true) ∧ ∃ allCols, getAllCols db tabs = .ok allCols ∧
        (∀ c ∈ cols, c.tabName = "" → ∃ m, allCols.filter (·.name = c.colName) = [m]) ∧
        ∀ e ∈ conds, Accepted db allCols e := by
  constructor
  · rintro ⟨q, h⟩
    obtain ⟨-, htabs, -, -, hc, allCols, ha, hs⟩ := doAnalyze_select_ok h
    exact ⟨htabs, allCols, ha, (selectCols_ok_iff (qualified_of_getAllCols hwf ha) cols).1
      ⟨_, hs⟩, (checkClause_accepts_iff db hwf tabs allCols ha conds).1 ⟨_, hc⟩⟩
  · rintro ⟨htabs, allCols, ha, hsel, hconds⟩
    obtain ⟨qcols, hs⟩ := (selectCols_ok_iff (qualified_of_getAllCols hwf ha) cols).2 hsel
    obtain ⟨qconds, hc⟩ := (checkClause_accepts_iff db hwf tabs allCols ha conds).2 hconds
    exact ⟨_, by
      simp only [doAnalyze]
      rw [checkTables_ok db tabs htabs]
      simp only [ok_bind, ha, hs, hc]
      rfl⟩

lemma update_accepts_iff (hwf : db.WellFormed) (tabName : String) (sets : List SvSetClause)
    (conds : List BinaryExpr) :
    (∃ q, doAnalyze db (.update tabName sets conds) = .ok q) ↔
      ∃ tab, db.getTable tabName = .ok tab ∧ (∀ e ∈ conds, Accepted db tab.cols e) ∧
        ∀ sv ∈ sets, ∃ v col, sv.val = .value v ∧ getColumn tab sv.colName = .ok col ∧
          LiteralFits col v := by
  have hne : ∀ {tab : TabMeta}, db.getTable tabName = .ok tab → tabName ≠ "" := fun htab => by
    obtain ⟨hmem, hname⟩ := getTable_ok htab
    exact hname ▸ (hwf _ hmem).1
  constructor
  · rintro ⟨q, h⟩
    obtain ⟨-, -, -, hc, allCols, ha, hsets⟩ := doAnalyze_update_ok h
    obtain ⟨tab, htab, rfl⟩ := getAllCols_single_iff.1 ha
    refine ⟨tab, htab, (checkClause_accepts_iff db hwf _ _ ha conds).1 ⟨_, hc⟩, fun sv hsv => ?_⟩
    obtain ⟨sc, -, hsc⟩ := exists_of_forall₂_mem (List.Forall₂.flip (R := flip _) hsets) sv hsv
    exact (analyzeSetClause_iff htab (hne htab) sv).1 ⟨sc, hsc⟩
  · rintro ⟨tab, htab, hconds, hsets⟩
    have ha : getAllCols db [tabName] = .ok tab.cols := getAllCols_single_iff.2 ⟨tab, htab, rfl⟩
    obtain ⟨qconds, hc⟩ := (checkClause_accepts_iff db hwf _ _ ha conds).2 hconds
    obtain ⟨qsets, hs⟩ := mapM_ok_iff.2 fun sv hsv =>
      (analyzeSetClause_iff htab (hne htab) sv :
        (∃ sc, analyzeSetClause db tab.cols tabName sv = .ok sc) ↔ _).2 (hsets sv hsv)
    exact ⟨_, by simp only [doAnalyze, hc, ha, hs, ok_bind]; rfl⟩

lemma delete_accepts_iff (hwf : db.WellFormed) (tabName : String) (conds : List BinaryExpr) :
    (∃ q, doAnalyze db (.delete tabName conds) = .ok q) ↔
      ∃ tab, db.getTable tabName = .ok tab ∧ ∀ e ∈ conds, Accepted db tab.cols e := by
  constructor
  · rintro ⟨q, h⟩
    obtain ⟨-, hc⟩ := doAnalyze_delete_ok h
    obtain ⟨allCols, ha, -⟩ := checkClause_ok hc
    obtain ⟨tab, htab, rfl⟩ := getAllCols_single_iff.1 ha
    exact ⟨tab, htab, (checkClause_accepts_iff db hwf _ _ ha conds).1 ⟨_, hc⟩⟩
  · rintro ⟨tab, htab, hconds⟩
    have ha : getAllCols db [tabName] = .ok tab.cols := getAllCols_single_iff.2 ⟨tab, htab, rfl⟩
    obtain ⟨qconds, hc⟩ := (checkClause_accepts_iff db hwf _ _ ha conds).2 hconds
    exact ⟨_, by simp only [doAnalyze, hc, ok_bind]; rfl⟩

/-- What `do_analyze` accepts. Over a catalog whose tables have names and whose columns carry
their table's name: a `SELECT` exactly when its tables are in the catalog, each unqualified
column of its select list is the one column of its name among their columns (a qualified one is
not checked), and every comparison of its `WHERE` clause is accepted over those columns; an
`UPDATE` exactly when its table is in the catalog, every comparison of its `WHERE` clause is
accepted over the table's columns, and every set clause sets a column of the table to a literal
that fits it; a `DELETE` exactly when its table is in the catalog and every comparison of its
`WHERE` clause is accepted over the table's columns. -/
theorem doAnalyze_accepts_iff (db : DbMeta) (hwf : db.WellFormed) :
    (∀ tabs cols conds, (∃ q, doAnalyze db (.select tabs cols conds) = .ok q) ↔
      (∀ t ∈ tabs, db.isTable t = true) ∧ ∃ allCols, getAllCols db tabs = .ok allCols ∧
        (∀ c ∈ cols, c.tabName = "" → ∃ m, allCols.filter (·.name = c.colName) = [m]) ∧
        ∀ e ∈ conds, Accepted db allCols e) ∧
    (∀ tabName sets conds, (∃ q, doAnalyze db (.update tabName sets conds) = .ok q) ↔
      ∃ tab, db.getTable tabName = .ok tab ∧ (∀ e ∈ conds, Accepted db tab.cols e) ∧
        ∀ sv ∈ sets, ∃ v col, sv.val = .value v ∧ getColumn tab sv.colName = .ok col ∧
          LiteralFits col v) ∧
    (∀ tabName conds, (∃ q, doAnalyze db (.delete tabName conds) = .ok q) ↔
      ∃ tab, db.getTable tabName = .ok tab ∧ ∀ e ∈ conds, Accepted db tab.cols e) :=
  ⟨select_accepts_iff hwf, update_accepts_iff hwf, delete_accepts_iff hwf⟩

lemma abCatalog_wellFormed : abCatalog.WellFormed := by
  simp [DbMeta.WellFormed, abCatalog]

theorem doAnalyze_accepts_iff_abCatalog :
    abCatalog.WellFormed ∧
    (∀ tabs cols conds, (∃ q, doAnalyze abCatalog (.select tabs cols conds) = .ok q) ↔
      (∀ t ∈ tabs, abCatalog.isTable t = true) ∧ ∃ allCols, getAllCols abCatalog tabs = .ok allCols ∧
        (∀ c ∈ cols, c.tabName = "" → ∃ m, allCols.filter (·.name = c.colName) = [m]) ∧
        ∀ e ∈ conds, Accepted abCatalog allCols e) ∧
    (∀ tabName sets conds, (∃ q, doAnalyze abCatalog (.update tabName sets conds) = .ok q) ↔
      ∃ tab, abCatalog.getTable tabName = .ok tab ∧ (∀ e ∈ conds, Accepted abCatalog tab.cols e) ∧
        ∀ sv ∈ sets, ∃ v col, sv.val = .value v ∧ getColumn tab sv.colName = .ok col ∧
          LiteralFits col v) ∧
    (∀ tabName conds, (∃ q, doAnalyze abCatalog (.delete tabName conds) = .ok q) ↔
      ∃ tab, abCatalog.getTable tabName = .ok tab ∧ ∀ e ∈ conds, Accepted abCatalog tab.cols e) :=
  ⟨abCatalog_wellFormed, doAnalyze_accepts_iff abCatalog abCatalog_wellFormed⟩

end Rmdb.Analyze

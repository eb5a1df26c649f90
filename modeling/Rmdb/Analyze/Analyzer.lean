import Rmdb.Analyze.Cast
import Rmdb.Execution.Update
import Mathlib.Data.String.Basic
import Mathlib.Data.List.Forall2

/-! The analyzer of `analyze.cpp`: `do_analyze` and the checks it calls. -/

namespace Rmdb.Analyze

open Rmdb.Defs Rmdb.Execution.Predicate Rmdb.Execution.Update Rmdb.Analyze.Cast

/-- Modelled from the spec: the comparison operators of the parse tree. -/
inductive SvCompOp
  | eq
  | ne
  | lt
  | gt
  | le
  | ge
deriving DecidableEq, Repr

/-- Modelled from the spec: a literal of the parse tree; a float literal is its single. -/
inductive SvValue
  | intLit (val : Int)
  | floatLit (val : UInt32)
  | stringLit (val : Bytes)
deriving DecidableEq, Repr

/-- Modelled from the spec: a column of the parse tree, its table name empty when unqualified. -/
structure SvCol where
  tabName : String
  colName : String
deriving DecidableEq, Repr

/-- Modelled from the spec: the right operand of a comparison or of a set clause. -/
inductive SvExpr
  | value (v : SvValue)
  | col (c : SvCol)
deriving DecidableEq, Repr

structure BinaryExpr where
  lhs : SvCol
  op : SvCompOp
  rhs : SvExpr
deriving DecidableEq, Repr

structure SvSetClause where
  colName : String
  val : SvExpr
deriving DecidableEq, Repr

/-- Modelled from the spec: the statements `do_analyze` tells apart. -/
inductive Stmt
  | select (tabs : List String) (cols : List SvCol) (conds : List BinaryExpr)
  | update (tabName : String) (setClauses : List SvSetClause) (conds : List BinaryExpr)
  | delete (tabName : String) (conds : List BinaryExpr)
  | insert (tabName : String) (vals : List SvValue)
  | other
deriving DecidableEq, Repr

/-- Modelled from the spec: the catalog `db_`, its tables in order. -/
structure DbMeta where
  tabs : List TabMeta

structure Query where
  tables : List String
  cols : List TabCol
  conds : List Condition
  setClauses : List SetClause
  values : List Value

inductive AnalyzeError
  | tableNotFound (tabName : String)
  | columnNotFound (colName : String)
  | ambiguousColumn (colName : String)
  | incompatibleType (lhs rhs : String)
  | stringOverflow
  | internal (msg : String)
deriving DecidableEq, Repr

abbrev AnalyzeM := Except AnalyzeError

/-- Modelled from the spec: `DbMeta::is_table`. -/
def DbMeta.isTable (db : DbMeta) (tabName : String) : Bool :=
  db.tabs.any (·.name = tabName)

/-- Modelled from the spec: `DbMeta::get_table`, which throws for a table not in the catalog. -/
def DbMeta.getTable (db : DbMeta) (tabName : String) : AnalyzeM TabMeta :=
  match db.tabs.find? (·.name = tabName) with
  | some tab => .ok tab
  | none => .error (.tableNotFound tabName)

/-- `TabMeta::get_col` as the analyzer calls it, its exception as the analyzer's. -/
def getColumn (tab : TabMeta) (colName : String) : AnalyzeM ColMeta :=
  (tab.getCol colName).mapError fun _ => .columnNotFound colName

/-- Modelled from the spec: `coltype2str`. -/
def coltype2str : ColType → String
  | .int => "INT"
  | .float => "FLOAT"
  | .string => "STRING"

/-- `init_raw(len)` on a value whose buffer is still null. -/
def initRaw (v : Value) (len : Nat) : AnalyzeM Value :=
  match v.initRaw len with
  | some raw => pure { v with raw := some raw }
  | none => throw .stringOverflow

/-- The loop of `check_column` over the candidate columns, with the table name found so far. -/
def inferTab (colName : String) : String → List ColMeta → AnalyzeM String
  | tabName, [] => pure tabName
  | tabName, col :: cols =>
    if col.name = colName then
      if !tabName.isEmpty then throw (.ambiguousColumn colName) else inferTab colName col.tabName cols
    else inferTab colName tabName cols

/-- `check_column`: an unqualified column gets the table of the one candidate column of its
name; a qualified one is returned as it is, unchecked. -/
def checkColumn (allCols : List ColMeta) (target : TabCol) : AnalyzeM TabCol :=
  if target.tabName.isEmpty then do
    let tabName ← inferTab target.colName "" allCols
    if tabName.isEmpty then throw (.columnNotFound target.colName)
    return { target with tabName := tabName }
  else return target

/-- `get_all_cols`: the columns of the tables, in order. -/
def getAllCols (db : DbMeta) : List String → AnalyzeM (List ColMeta)
  | [] => pure []
  | tabName :: tabNames => do
    let tab ← db.getTable tabName
    let rest ← getAllCols db tabNames
    return tab.cols ++ rest

/-- `convert_sv_value`. -/
def convertSvValue : SvValue → Value
  | .intLit v => Value.blank.setInt v
  | .floatLit v => Value.blank.setFloat v
  | .stringLit v => Value.blank.setStr v

/-- `convert_sv_comp_op`. -/
def convertSvCompOp : SvCompOp → CompOp
  | .eq => .eq
  | .ne => .ne
  | .lt => .lt
  | .gt => .gt
  | .le => .le
  | .ge => .ge

/-- `get_clause`: one condition per comparison, its right operand a value or a column. -/
def getClause (svConds : List BinaryExpr) : List Condition :=
  svConds.map fun expr =>
    let cond : Condition :=
      ⟨⟨expr.lhs.tabName, expr.lhs.colName⟩, convertSvCompOp expr.op, false, Value.blank, ⟨"", ""⟩⟩
    match expr.rhs with
    | .value v => { cond with isRhsVal := true, rhsVal := convertSvValue v }
    | .col c => { cond with isRhsVal := false, rhsCol := ⟨c.tabName, c.colName⟩ }

/-- The coercion of a literal to its column's type that `check_clause` and the set clauses of
`do_analyze` make: an `INT` literal for a `FLOAT` column is widened, a `FLOAT` literal for an
`INT` column truncated; any other literal is left as it is. -/
def coerce (colType : ColType) (v : Value) : Value :=
  if colType = .float ∧ v.type = .int then v.setFloat (intToFloat v.intVal)
  else if colType = .int ∧ v.type = .float then v.setInt (floatToInt v.floatVal)
  else v

/-- The right column of a condition, resolved when the right operand is a column. -/
def rhsColOf (allCols : List ColMeta) (cond : Condition) : AnalyzeM TabCol :=
  if !cond.isRhsVal then checkColumn allCols cond.rhsCol else pure cond.rhsCol

/-- The right operand of a condition in `check_clause` and its type: a literal coerced to the
left column's type and encoded in its width, or the value left as it is and the type of the
right column. -/
def rhsOf (db : DbMeta) (lhsMeta : ColMeta) (cond : Condition) (rhsCol : TabCol) :
    AnalyzeM (Value × ColType) :=
  if cond.isRhsVal then do
    let v ← initRaw (coerce lhsMeta.type cond.rhsVal) lhsMeta.len
    return (v, v.type)
  else do
    let rhsTab ← db.getTable rhsCol.tabName
    let rhsMeta ← getColumn rhsTab rhsCol.colName
    return (cond.rhsVal, rhsMeta.type)

/-- The type check of `check_clause`: a condition compares equal types, or `INT` with `FLOAT`. -/
def checkTypes (lhsType rhsType : ColType) : AnalyzeM Unit :=
  if lhsType ≠ rhsType ∧
      ¬((lhsType = .int ∧ rhsType = .float) ∨ (lhsType = .float ∧ rhsType = .int)) then
    throw (.incompatibleType (coltype2str lhsType) (coltype2str rhsType))
  else pure ()

/-- One iteration of the loop of `check_clause`. -/
def checkCond (db : DbMeta) (allCols : List ColMeta) (cond : Condition) : AnalyzeM Condition := do
  let lhsCol ← checkColumn allCols cond.lhsCol
  let rhsCol ← rhsColOf allCols cond
  let lhsTab ← db.getTable lhsCol.tabName
  let lhsMeta ← getColumn lhsTab lhsCol.colName
  let rhs ← rhsOf db lhsMeta cond rhsCol
  checkTypes lhsMeta.type rhs.2
  return { cond with lhsCol := lhsCol, rhsCol := rhsCol, rhsVal := rhs.1 }

/-- `check_clause`. -/
def checkClause (db : DbMeta) (tabNames : List String) (conds : List Condition) :
    AnalyzeM (List Condition) := do
  let allCols ← getAllCols db tabNames
  conds.mapM (checkCond db allCols)

/-- One iteration of the set-clause loop of `do_analyze`. -/
def analyzeSetClause (db : DbMeta) (allCols : List ColMeta) (tabName : String)
    (sv : SvSetClause) : AnalyzeM SetClause := do
  let lhs ← checkColumn allCols ⟨tabName, sv.colName⟩
  match sv.val with
  | .value v =>
    let tab ← db.getTable lhs.tabName
    let col ← getColumn tab lhs.colName
    let rhs := coerce col.type (convertSvValue v)
    if col.type ≠ rhs.type then
      throw (.incompatibleType (coltype2str col.type) (coltype2str rhs.type))
    return ⟨lhs, ← initRaw rhs col.len⟩
  | .col _ => throw (.internal "Unexpected value type in set clause")

/-- The columns of a `SELECT`: all columns of its tables for `*`, else each resolved. -/
def selectCols (allCols : List ColMeta) (selCols : List TabCol) : AnalyzeM (List TabCol) :=
  if selCols.isEmpty then pure (allCols.map fun c => ⟨c.tabName, c.name⟩)
  else selCols.mapM (checkColumn allCols)

/-- `do_analyze`. -/
def doAnalyze (db : DbMeta) : Stmt → AnalyzeM Query
  | .select tabs cols conds => do
    tabs.forM fun tabName => if !db.isTable tabName then throw (.tableNotFound tabName) else pure ()
    let selCols : List TabCol := cols.map fun c => ⟨c.tabName, c.colName⟩
    let allCols ← getAllCols db tabs
    let qcols ← selectCols allCols selCols
    let qconds ← checkClause db tabs (getClause conds)
    return ⟨tabs, qcols, qconds, [], []⟩
  | .update tabName setClauses conds => do
    let qconds ← checkClause db [tabName] (getClause conds)
    let allCols ← getAllCols db [tabName]
    let sets ← setClauses.mapM (analyzeSetClause db allCols tabName)
    return ⟨[tabName], [], qconds, sets, []⟩
  | .delete tabName conds => do
    let qconds ← checkClause db [tabName] (getClause conds)
    return ⟨[], [], qconds, [], []⟩
  | .insert _ vals => return ⟨[], [], [], [], vals.map convertSvValue⟩
  | .other => return ⟨[], [], [], [], []⟩

lemma bind_eq_ok {x : AnalyzeM α} {f : α → AnalyzeM β} {b : β} :
    x >>= f = .ok b ↔ ∃ a, x = .ok a ∧ f a = .ok b := by
  cases x <;> simp [bind, Except.bind]

@[simp] lemma pure_eq_ok {a b : α} : (pure a : AnalyzeM α) = .ok b ↔ a = b := by
  simp [pure, Except.pure]

lemma ok_bind (a : α) (f : α → AnalyzeM β) : (.ok a : AnalyzeM α) >>= f = f a := rfl

lemma mapM_eq_ok {f : α → AnalyzeM β} :
    ∀ {xs : List α} {ys : List β}, xs.mapM f = .ok ys → List.Forall₂ (fun x y => f x = .ok y) xs ys
  | [], ys, h => by
    simp only [List.mapM_nil, pure_eq_ok] at h
    exact h ▸ .nil
  | x :: xs, ys, h => by
    simp only [List.mapM_cons, bind_eq_ok, pure_eq_ok] at h
    obtain ⟨y, hy, ys', hys, rfl⟩ := h
    exact .cons hy (mapM_eq_ok hys)

lemma exists_of_forall₂_mem {R : α → β → Prop} :
    ∀ {xs : List α} {ys : List β}, List.Forall₂ R xs ys → ∀ y ∈ ys, ∃ x ∈ xs, R x y
  | _, _, .nil, _, hy => absurd hy (List.not_mem_nil _)
  | x :: _, _ :: _, .cons hxy h, y, hy => by
    rcases List.mem_cons.mp hy with rfl | hy
    · exact ⟨x, List.mem_cons_self _ _, hxy⟩
    · obtain ⟨x', hx', h'⟩ := exists_of_forall₂_mem h y hy
      exact ⟨x', List.mem_cons_of_mem _ hx', h'⟩

lemma inferTab_of_ne (colName : String) (cols : List ColMeta) {tabName : String}
    (h : tabName ≠ "") :
    inferTab colName tabName cols =
      if cols.filter (·.name = colName) = [] then .ok tabName else .error (.ambiguousColumn colName) := by
  have hne : tabName.isEmpty = false := Bool.eq_false_iff.mpr fun h' => h ((String.isEmpty_iff _).mp h')
  induction cols with
  | nil => rfl
  | cons c cs ih =>
    by_cases hc : c.name = colName
    · simp [inferTab, hc, hne]
      rfl
    · simp [inferTab, hc, ih]

lemma inferTab_empty (colName : String) (cols : List ColMeta) (hq : ∀ c ∈ cols, c.tabName ≠ "") :
    inferTab colName "" cols =
      match cols.filter (·.name = colName) with
      | [] => .ok ""
      | [c] => .ok c.tabName
      | _ :: _ :: _ => .error (.ambiguousColumn colName) := by
  induction cols with
  | nil => rfl
  | cons c cs ih =>
    have hcs : ∀ d ∈ cs, d.tabName ≠ "" := fun d hd => hq d (List.mem_cons_of_mem _ hd)
    by_cases hc : c.name = colName
    · rw [inferTab, if_pos hc, if_neg (by decide), inferTab_of_ne colName cs (hq c (List.mem_cons_self _ _)),
        List.filter_cons_of_pos (by simpa using hc)]
      split_ifs with hnil
      · rw [hnil]
      · obtain ⟨d, ds, hds⟩ := List.exists_cons_of_ne_nil hnil
        rw [hds]
    · rw [inferTab, if_neg hc, ih hcs, List.filter_cons_of_neg (by simpa using hc)]

/-- `check_column` on an unqualified column, over candidates that are all qualified: the column
gets the table of the one candidate of its name; `ColumnNotFound` when there is none and
`AmbiguousColumn` when there are several. -/
theorem checkColumn_resolves_unqualified (allCols : List ColMeta) (colName : String)
    (hq : ∀ c ∈ allCols, c.tabName ≠ "") :
    checkColumn allCols ⟨"", colName⟩ =
      match allCols.filter (·.name = colName) with
      | [] => .error (.columnNotFound colName)
      | [c] => .ok ⟨c.tabName, colName⟩
      | _ :: _ :: _ => .error (.ambiguousColumn colName) := by
  have hinfer := inferTab_empty colName allCols hq
  simp only [checkColumn, show ("" : String).isEmpty = true from rfl, if_true]
  rcases hf : allCols.filter (·.name = colName) with _ | ⟨c, _ | ⟨d, ds⟩⟩ <;>
    rw [hf] at hinfer ⊢ <;> simp only [hinfer]
  · rfl
  · have hc : c.tabName.isEmpty = false := Bool.eq_false_iff.mpr fun h' =>
      hq c (List.mem_of_mem_filter (hf ▸ List.mem_singleton_self c)) ((String.isEmpty_iff _).mp h')
    simp [bind, Except.bind, hc]
    rfl
  · rfl

def abCatalog : DbMeta :=
  ⟨[⟨"a", [⟨"a", "id", .int, 4, 0⟩, ⟨"a", "x", .int, 4, 4⟩], []⟩,
    ⟨"b", [⟨"b", "id", .int, 4, 0⟩, ⟨"b", "y", .int, 4, 4⟩], []⟩]⟩

def abCols : List ColMeta :=
  [⟨"a", "id", .int, 4, 0⟩, ⟨"a", "x", .int, 4, 4⟩, ⟨"b", "id", .int, 4, 0⟩, ⟨"b", "y", .int, 4, 4⟩]

theorem checkColumn_resolves_unqualified_abCols :
    (∀ c ∈ abCols, c.tabName ≠ "") ∧
    checkColumn abCols ⟨"", "x"⟩ =
      match abCols.filter (·.name = "x") with
      | [] => .error (.columnNotFound "x")
      | [c] => .ok ⟨c.tabName, "x"⟩
      | _ :: _ :: _ => .error (.ambiguousColumn "x") :=
  ⟨by decide, checkColumn_resolves_unqualified abCols "x" (by decide)⟩

example : (doAnalyze abCatalog (.select ["a", "b"] [⟨"", "x"⟩, ⟨"", "y"⟩]
    [⟨⟨"a", "id"⟩, .eq, .col ⟨"b", "id"⟩⟩])).map Query.cols = .ok [⟨"a", "x"⟩, ⟨"b", "y"⟩] := rfl

example : (doAnalyze abCatalog (.select ["a", "b"] [⟨"", "id"⟩] [])).map Query.cols =
    .error (.ambiguousColumn "id") := rfl

lemma initRaw_ok {v v' : Value} {len : Nat} (h : initRaw v len = .ok v') :
    ∃ raw, v.initRaw len = some raw ∧ v' = { v with raw := some raw } := by
  unfold initRaw at h
  split at h
  · next raw hraw => exact ⟨raw, hraw, (pure_eq_ok.mp h).symm⟩
  · cases h

lemma initRaw_with_raw (v : Value) (r : Option Bytes) (len : Nat) :
    ({ v with raw := r } : Value).initRaw len = v.initRaw len := rfl

lemma rhsColOf_col {allCols : List ColMeta} {cond : Condition} {r : TabCol}
    (h : rhsColOf allCols cond = .ok r) (hv : cond.isRhsVal = false) :
    checkColumn allCols cond.rhsCol = .ok r := by
  simpa [rhsColOf, hv] using h

lemma rhsOf_val {db : DbMeta} {lhsMeta : ColMeta} {cond : Condition} {rhsCol : TabCol}
    {r : Value × ColType} (h : rhsOf db lhsMeta cond rhsCol = .ok r) (hv : cond.isRhsVal = true) :
    initRaw (coerce lhsMeta.type cond.rhsVal) lhsMeta.len = .ok r.1 ∧ r.2 = r.1.type := by
  simp only [rhsOf, hv, if_true, bind_eq_ok, pure_eq_ok] at h
  obtain ⟨v, hv, rfl⟩ := h
  exact ⟨hv, rfl⟩

lemma rhsOf_col {db : DbMeta} {lhsMeta : ColMeta} {cond : Condition} {rhsCol : TabCol}
    {r : Value × ColType} (h : rhsOf db lhsMeta cond rhsCol = .ok r) (hv : cond.isRhsVal = false) :
    r.1 = cond.rhsVal ∧ ∃ tab col, db.getTable rhsCol.tabName = .ok tab ∧
      getColumn tab rhsCol.colName = .ok col ∧ r.2 = col.type := by
  simp only [rhsOf, hv, Bool.false_eq_true, if_false, bind_eq_ok, pure_eq_ok] at h
  obtain ⟨tab, ht, col, hc, rfl⟩ := h
  exact ⟨rfl, tab, col, ht, hc, rfl⟩

lemma checkTypes_ok {a b : ColType} {u : Unit} (h : checkTypes a b = .ok u) :
    a = b ∨ (a = .int ∧ b = .float) ∨ (a = .float ∧ b = .int) := by
  unfold checkTypes at h
  split_ifs at h with hc
  by_contra hn
  exact hc ⟨fun he => hn (.inl he), fun hm => hn (.inr hm)⟩

lemma coerce_not_mixed (t : ColType) (v : Value) :
    ¬((t = .int ∧ (coerce t v).type = .float) ∨ (t = .float ∧ (coerce t v).type = .int)) := by
  unfold coerce
  split_ifs with h1 h2
  · simp [Value.setFloat, h1.1]
  · simp [Value.setInt, h2.1]
  · exact fun h => h.elim (fun h => h2 ⟨h.1, h.2⟩) (fun h => h1 ⟨h.1, h.2⟩)

lemma checkCond_ok {db : DbMeta} {allCols : List ColMeta} {cond c : Condition}
    (h : checkCond db allCols cond = .ok c) :
    c.op = cond.op ∧ c.isRhsVal = cond.isRhsVal ∧ checkColumn allCols cond.lhsCol = .ok c.lhsCol ∧
    ∃ tab col, db.getTable c.lhsCol.tabName = .ok tab ∧ getColumn tab c.lhsCol.colName = .ok col ∧
      (cond.isRhsVal = true →
        initRaw (coerce col.type cond.rhsVal) col.len = .ok c.rhsVal ∧ c.rhsVal.type = col.type) ∧
      (cond.isRhsVal = false → checkColumn allCols cond.rhsCol = .ok c.rhsCol ∧
        c.rhsVal = cond.rhsVal ∧ ∃ rtab rcol, db.getTable c.rhsCol.tabName = .ok rtab ∧
          getColumn rtab c.rhsCol.colName = .ok rcol ∧
          (col.type = rcol.type ∨ (col.type = .int ∧ rcol.type = .float) ∨
            (col.type = .float ∧ rcol.type = .int))) := by
  simp only [checkCond, bind_eq_ok, pure_eq_ok] at h
  obtain ⟨lhsCol, hl, rhsCol, hr, tab, ht, col, hc, rhs, hrhs, _, hty, rfl⟩ := h
  have htypes := checkTypes_ok hty
  refine ⟨rfl, rfl, hl, tab, col, ht, hc, fun hv => ?_, fun hv => ?_⟩
  · obtain ⟨hi, h2⟩ := rhsOf_val hrhs hv
    have hty' : rhs.1.type = (coerce col.type cond.rhsVal).type := by
      obtain ⟨raw, -, he⟩ := initRaw_ok hi
      rw [he]
    rw [h2, hty'] at htypes
    exact ⟨hi, hty'.trans (htypes.resolve_right (coerce_not_mixed _ _)).symm⟩
  · obtain ⟨h1, rtab, rcol, hrt, hrc, h2⟩ := rhsOf_col hrhs hv
    exact ⟨rhsColOf_col hr hv, h1, rtab, rcol, hrt, hrc, h2 ▸ htypes⟩

lemma checkClause_ok {db : DbMeta} {tabNames : List String} {conds conds' : List Condition}
    (h : checkClause db tabNames conds = .ok conds') :
    ∃ allCols, getAllCols db tabNames = .ok allCols ∧
      List.Forall₂ (fun cond c => checkCond db allCols cond = .ok c) conds conds' := by
  simp only [checkClause, bind_eq_ok] at h
  obtain ⟨allCols, ha, h⟩ := h
  exact ⟨allCols, ha, mapM_eq_ok h⟩

/-- Every condition `check_clause` returns with a literal right operand compares it in the type
of its left column: that column is a column of its table, the literal has its type, and the raw
buffer the scan reads is the literal's encoding in the column's width. -/
theorem checkClause_literal_encoded (db : DbMeta) (tabNames : List String)
    (conds conds' : List Condition) (h : checkClause db tabNames conds = .ok conds') :
    ∀ c ∈ conds', c.isRhsVal = true → ∃ tab col, db.getTable c.lhsCol.tabName = .ok tab ∧
      getColumn tab c.lhsCol.colName = .ok col ∧ c.rhsVal.type = col.type ∧
      c.rhsVal.raw = c.rhsVal.initRaw col.len := by
  obtain ⟨allCols, -, hf⟩ := checkClause_ok h
  intro c hc hv
  obtain ⟨cond, -, hcond⟩ := exists_of_forall₂_mem hf c hc
  obtain ⟨-, hrv, -, tab, col, ht, hcol, hlit, -⟩ := checkCond_ok hcond
  obtain ⟨hi, hty⟩ := hlit (hrv ▸ hv)
  obtain ⟨raw, hraw, he⟩ := initRaw_ok hi
  exact ⟨tab, col, ht, hcol, hty, by rw [he, initRaw_with_raw, hraw]⟩

def floatCatalog : DbMeta :=
  ⟨[⟨"t", [⟨"t", "p", .float, 4, 0⟩], []⟩]⟩

def pGtThree : List Condition :=
  getClause [⟨⟨"", "p"⟩, .gt, .value (.intLit 3)⟩]

theorem checkClause_literal_encoded_pGtThree :
    ∃ conds', checkClause floatCatalog ["t"] pGtThree = .ok conds' ∧
      ∀ c ∈ conds', c.isRhsVal = true → ∃ tab col,
        floatCatalog.getTable c.lhsCol.tabName = .ok tab ∧
        getColumn tab c.lhsCol.colName = .ok col ∧ c.rhsVal.type = col.type ∧
        c.rhsVal.raw = c.rhsVal.initRaw col.len :=
  ⟨_, rfl, checkClause_literal_encoded floatCatalog ["t"] pGtThree _ rfl⟩

/-- An `INT` literal compared with a `FLOAT` column, below `2 ^ 24` in magnitude, is widened
exactly: the raw buffer `check_clause` leaves in the condition reads back, as the scan reads a
`FLOAT`, as the literal's value. -/
theorem checkClause_widens_small_int (db : DbMeta) (tabNames : List String)
    (conds conds' : List Condition) (h : checkClause db tabNames conds = .ok conds') :
    List.Forall₂ (fun cond c => cond.isRhsVal = true → cond.rhsVal.type = .int →
      cond.rhsVal.intVal.natAbs < 2 ^ 24 → ∀ tab col, db.getTable c.lhsCol.tabName = .ok tab →
        getColumn tab c.lhsCol.colName = .ok col → col.type = .float →
        ∃ raw, c.rhsVal.raw = some raw ∧ readFloat raw 0 = .fin cond.rhsVal.intVal)
      conds conds' := by
  obtain ⟨allCols, -, hf⟩ := checkClause_ok h
  refine hf.imp fun cond c hc hv hint hsmall tab col ht hcol hfl => ?_
  obtain ⟨-, -, -, tab', col', ht', hcol', hlit, -⟩ := checkCond_ok hc
  obtain rfl : tab' = tab := Except.ok.inj (ht'.symm.trans ht)
  obtain rfl : col' = col := Except.ok.inj (hcol'.symm.trans hcol)
  obtain ⟨raw, hraw, he⟩ := initRaw_ok (hlit hv).1
  refine ⟨raw, by rw [he], ?_⟩
  simp only [coerce, hfl, hint, and_self, if_true, Value.setFloat, Value.initRaw] at hraw
  rw [← Option.some.inj hraw, readFloat_encodeLE _ (UInt32.toNat_lt_size _),
    intToFloat_exact _ hsmall]

theorem checkClause_widens_small_int_pGtThree :
    ∃ conds', checkClause floatCatalog ["t"] pGtThree = .ok conds' ∧
      List.Forall₂ (fun cond c => cond.isRhsVal = true → cond.rhsVal.type = .int →
        cond.rhsVal.intVal.natAbs < 2 ^ 24 → ∀ tab col,
          floatCatalog.getTable c.lhsCol.tabName = .ok tab →
          getColumn tab c.lhsCol.colName = .ok col → col.type = .float →
          ∃ raw, c.rhsVal.raw = some raw ∧ readFloat raw 0 = .fin cond.rhsVal.intVal)
        pGtThree conds' :=
  ⟨_, rfl, checkClause_widens_small_int floatCatalog ["t"] pGtThree _ rfl⟩

example : (checkClause floatCatalog ["t"] pGtThree).map (List.map (·.rhsVal.raw)) =
    .ok [some [0, 0, 64, 64]] := rfl

lemma analyzeSetClause_ok {db : DbMeta} {allCols : List ColMeta} {tabName : String}
    {sv : SvSetClause} {sc : SetClause} (h : analyzeSetClause db allCols tabName sv = .ok sc) :
    checkColumn allCols ⟨tabName, sv.colName⟩ = .ok sc.lhs ∧ ∃ v tab col, sv.val = .value v ∧
      db.getTable sc.lhs.tabName = .ok tab ∧ getColumn tab sc.lhs.colName = .ok col ∧
      (coerce col.type (convertSvValue v)).type = col.type ∧
      initRaw (coerce col.type (convertSvValue v)) col.len = .ok sc.rhs := by
  simp only [analyzeSetClause, bind_eq_ok] at h
  obtain ⟨lhs, hl, h⟩ := h
  split at h
  · next v hv =>
    simp only [bind_eq_ok] at h
    obtain ⟨tab, ht, col, hc, h⟩ := h
    split_ifs at h with hne
    · cases h
    simp only [bind_eq_ok, pure_eq_ok] at h
    obtain ⟨_, -, rhs, hrhs, rfl⟩ := h
    exact ⟨hl, v, tab, col, hv, ht, hc, (not_not.mp hne).symm, hrhs⟩
  · cases h

lemma doAnalyze_update_ok {db : DbMeta} {tabName : String} {sets : List SvSetClause}
    {conds : List BinaryExpr} {q : Query} (h : doAnalyze db (.update tabName sets conds) = .ok q) :
    q.tables = [tabName] ∧ q.cols = [] ∧ q.values = [] ∧
      checkClause db [tabName] (getClause conds) = .ok q.conds ∧
      ∃ allCols, getAllCols db [tabName] = .ok allCols ∧
        List.Forall₂ (fun sv sc => analyzeSetClause db allCols tabName sv = .ok sc) sets q.setClauses := by
  simp only [doAnalyze, bind_eq_ok, pure_eq_ok] at h
  obtain ⟨qconds, hc, allCols, ha, qsets, hs, rfl⟩ := h
  exact ⟨rfl, rfl, rfl, hc, allCols, ha, mapM_eq_ok hs⟩

lemma forM_eq_ok {f : α → AnalyzeM Unit} :
    ∀ {xs : List α}, xs.forM f = .ok () → ∀ x ∈ xs, f x = .ok ()
  | [], _, x, hx => absurd hx (List.not_mem_nil x)
  | y :: ys, h, x, hx => by
    simp only [List.forM, bind_eq_ok] at h
    obtain ⟨_, hy, hys⟩ := h
    rcases List.mem_cons.mp hx with rfl | hx
    · exact hy
    · exact forM_eq_ok hys x hx

lemma doAnalyze_select_ok {db : DbMeta} {tabs : List String} {cols : List SvCol}
    {conds : List BinaryExpr} {q : Query} (h : doAnalyze db (.select tabs cols conds) = .ok q) :
    q.tables = tabs ∧ (∀ t ∈ tabs, db.isTable t = true) ∧ q.setClauses = [] ∧ q.values = [] ∧
      checkClause db tabs (getClause conds) = .ok q.conds ∧
      ∃ allCols, getAllCols db tabs = .ok allCols ∧
        selectCols allCols (cols.map fun c => ⟨c.tabName, c.colName⟩) = .ok q.cols := by
  simp only [doAnalyze, bind_eq_ok, pure_eq_ok] at h
  obtain ⟨_, ht, allCols, ha, qcols, hs, qconds, hc, rfl⟩ := h
  refine ⟨rfl, fun t hti => ?_, rfl, rfl, hc, allCols, ha, hs⟩
  have := forM_eq_ok ht t hti
  cases hb : db.isTable t
  · simp only [hb, Bool.not_false, if_true] at this
    cases this
  · rfl

lemma doAnalyze_delete_ok {db : DbMeta} {tabName : String} {conds : List BinaryExpr} {q : Query}
    (h : doAnalyze db (.delete tabName conds) = .ok q) :
    q = ⟨[], [], q.conds, [], []⟩ ∧ checkClause db [tabName] (getClause conds) = .ok q.conds := by
  simp only [doAnalyze, bind_eq_ok, pure_eq_ok] at h
  obtain ⟨qconds, hc, rfl⟩ := h
  exact ⟨rfl, hc⟩

lemma getTable_of_isTable {db : DbMeta} {t : String} (h : db.isTable t = true) :
    ∃ tab, db.getTable t = .ok tab := by
  obtain ⟨tab, htab, hname⟩ := List.any_eq_true.mp h
  unfold DbMeta.getTable
  split
  · exact ⟨_, rfl⟩
  · next hnone => exact absurd hname (by simpa using List.find?_eq_none.mp hnone tab htab)

lemma getAllCols_of_isTable (db : DbMeta) :
    ∀ tabs : List String, (∀ t ∈ tabs, db.isTable t = true) → ∃ allCols, getAllCols db tabs = .ok allCols
  | [], _ => ⟨[], rfl⟩
  | t :: ts, h => by
    obtain ⟨tab, ht⟩ := getTable_of_isTable (h t (List.mem_cons_self _ _))
    obtain ⟨rest, hr⟩ := getAllCols_of_isTable db ts fun t' ht' => h t' (List.mem_cons_of_mem _ ht')
    exact ⟨tab.cols ++ rest, by simp [getAllCols, ht, hr, bind, Except.bind, pure, Except.pure]⟩

lemma checkColumn_qualified (allCols : List ColMeta) (target : TabCol) (h : target.tabName ≠ "") :
    checkColumn allCols target = .ok target := by
  have hne : target.tabName.isEmpty = false :=
    Bool.eq_false_iff.mpr fun h' => h ((String.isEmpty_iff _).mp h')
  simp [checkColumn, hne, pure, Except.pure]

lemma mapM_eq_ok_self {f : α → AnalyzeM α} :
    ∀ {xs : List α}, (∀ x ∈ xs, f x = .ok x) → xs.mapM f = .ok xs
  | [], _ => rfl
  | x :: xs, h => by
    rw [List.mapM_cons, h x (List.mem_cons_self _ _),
      mapM_eq_ok_self fun y hy => h y (List.mem_cons_of_mem _ hy)]
    rfl

lemma checkTables_ok (db : DbMeta) : ∀ tabs : List String, (∀ t ∈ tabs, db.isTable t = true) →
    (tabs.forM fun tabName =>
      if !db.isTable tabName then throw (.tableNotFound tabName) else pure () : AnalyzeM Unit) =
      .ok ()
  | [], _ => rfl
  | t :: ts, h => by
    simp only [List.forM, h t (List.mem_cons_self _ _), Bool.not_true, Bool.false_eq_true,
      if_false]
    exact checkTables_ok db ts fun t' ht' => h t' (List.mem_cons_of_mem _ ht')

/-- `check_column` returns a qualified column as it is written, so `do_analyze` accepts a
`SELECT` of qualified columns over tables of the catalog and keeps every column as written:
whether or not its table is one of the statement's, or a table of the catalog at all, and
whether or not that table has such a column. -/
theorem select_qualified_unchecked (db : DbMeta) (tabs : List String) (cols : List SvCol)
    (htabs : ∀ t ∈ tabs, db.isTable t = true) (hq : ∀ c ∈ cols, c.tabName ≠ "") (hne : cols ≠ []) :
    doAnalyze db (.select tabs cols []) =
      .ok ⟨tabs, cols.map fun c => ⟨c.tabName, c.colName⟩, [], [], []⟩ := by
  obtain ⟨allCols, ha⟩ := getAllCols_of_isTable db tabs htabs
  have hnil : (cols.map fun c : SvCol => (⟨c.tabName, c.colName⟩ : TabCol)).isEmpty = false := by
    cases cols with
    | nil => exact absurd rfl hne
    | cons _ _ => rfl
  have hsel : selectCols allCols (cols.map fun c => ⟨c.tabName, c.colName⟩) =
      .ok (cols.map fun c => ⟨c.tabName, c.colName⟩) := by
    simp only [selectCols, hnil, Bool.false_eq_true, if_false]
    exact mapM_eq_ok_self fun t ht => by
      obtain ⟨c, hc, rfl⟩ := List.mem_map.mp ht
      exact checkColumn_qualified allCols _ (hq c hc)
  simp only [doAnalyze]
  rw [checkTables_ok db tabs htabs]
  simp only [ok_bind, ha, hsel, checkClause, getClause, List.map_nil, List.mapM_nil]
  rfl

theorem select_qualified_unchecked_abCatalog :
    doAnalyze abCatalog (.select ["a"] [⟨"a", "zz"⟩, ⟨"b", "y"⟩] []) =
      .ok ⟨["a"], [⟨"a", "zz"⟩, ⟨"b", "y"⟩], [], [], []⟩ :=
  select_qualified_unchecked abCatalog ["a"] [⟨"a", "zz"⟩, ⟨"b", "y"⟩] (by decide) (by decide)
    (List.cons_ne_nil _ _)

end Rmdb.Analyze

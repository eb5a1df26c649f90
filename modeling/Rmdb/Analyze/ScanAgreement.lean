import Rmdb.Analyze.Analyzer

/-! The conditions `check_clause` makes, as `SeqScanExecutor::nextTuple` evaluates them. -/

namespace Rmdb.Analyze

open Rmdb.Defs Rmdb.Execution.Predicate Rmdb.Execution.Update Rmdb.Analyze.Cast

lemma getClause_col_raw {conds : List BinaryExpr} {cond : Condition} (h : cond ∈ getClause conds)
    (hv : cond.isRhsVal = false) : cond.rhsVal.raw = none := by
  obtain ⟨expr, -, rfl⟩ := List.mem_map.mp h
  cases hr : expr.rhs <;> simp only [hr] at hv ⊢
  · cases hv
  · rfl

lemma condHolds_of_raw_none {cols : List ColMeta} {rec : Bytes} {c : Condition}
    (h : c.rhsVal.raw = none) (b : Bool) : condHolds cols rec c ≠ .ok b := by
  unfold condHolds
  cases getCol cols c.lhsCol <;> simp [bind, Except.bind, h]

lemma condHolds_of_satisfies {cols : List ColMeta} {rec : Bytes} :
    ∀ {conds : List Condition}, satisfies cols rec conds = .ok true →
      ∀ c ∈ conds, condHolds cols rec c = .ok true
  | [], _, c, hc => absurd hc (List.not_mem_nil c)
  | d :: ds, h, c, hc => by
    simp only [satisfies, Except.bind_eq_ok] at h
    obtain ⟨b, hb, h⟩ := h
    cases b
    · cases h
    rcases List.mem_cons.mp hc with rfl | hc
    · exact hb
    · exact condHolds_of_satisfies h c hc

/-- Column operands are never compared: every condition `check_clause` makes with a column on
its right keeps a null `rhs_val.raw`, so the condition loop raises on it, whether or not it
holds, and accepts a record only when every condition has a literal operand. -/
theorem columnOperand_never_compared (db : DbMeta) (tabNames : List String)
    (conds : List BinaryExpr) (conds' : List Condition)
    (h : checkClause db tabNames (getClause conds) = .ok conds') :
    (∀ c ∈ conds', c.isRhsVal = false → ∀ cols rec b, condHolds cols rec c ≠ .ok b) ∧
    ∀ cols rec, satisfies cols rec conds' = .ok true → ∀ c ∈ conds', c.isRhsVal = true := by
  obtain ⟨allCols, -, hf⟩ := checkClause_ok h
  have hcol : ∀ c ∈ conds', c.isRhsVal = false → c.rhsVal.raw = none := by
    intro c hc hv
    obtain ⟨cond, hmem, hcond⟩ := exists_of_forall₂_mem hf c hc
    obtain ⟨-, hrv, -, _, _, -, -, -, hcolcase⟩ := checkCond_ok hcond
    rw [(hcolcase (hrv ▸ hv)).2.1]
    exact getClause_col_raw hmem (hrv ▸ hv)
  refine ⟨fun c hc hv _ _ => condHolds_of_raw_none (hcol c hc hv), fun cols rec hs c hc => ?_⟩
  cases hv : c.isRhsVal
  · exact absurd (condHolds_of_satisfies hs c hc) (condHolds_of_raw_none (hcol c hc hv) true)
  · rfl

def xyCols : List ColMeta :=
  [⟨"t", "x", .int, 4, 0⟩, ⟨"t", "y", .int, 4, 4⟩]

def xyCatalog : DbMeta :=
  ⟨[⟨"t", xyCols, []⟩]⟩

def xEqY : List BinaryExpr :=
  [⟨⟨"", "x"⟩, .eq, .col ⟨"", "y"⟩⟩]

theorem columnOperand_never_compared_xEqY :
    ∃ conds', checkClause xyCatalog ["t"] (getClause xEqY) = .ok conds' ∧
      (∀ c ∈ conds', c.isRhsVal = false → ∀ cols rec b, condHolds cols rec c ≠ .ok b) ∧
      ∀ cols rec, satisfies cols rec conds' = .ok true → ∀ c ∈ conds', c.isRhsVal = true :=
  ⟨_, rfl, columnOperand_never_compared xyCatalog ["t"] xEqY _ rfl⟩

example : (checkClause xyCatalog ["t"] (getClause xEqY)).map
    (satisfies xyCols (encodeLE 4 1 ++ encodeLE 4 1)) = .ok (.error .nullRaw) :=
  rfl

/-! ### A `FLOAT` literal against an `INT` column -/

lemma getCol_of_getColumn {db : DbMeta} {target : TabCol} {tab : TabMeta} {col : ColMeta}
    (htab : db.getTable target.tabName = .ok tab) (hcol : getColumn tab target.colName = .ok col)
    (hnames : ∀ d ∈ tab.cols, d.tabName = tab.name) : getCol tab.cols target = .ok col := by
  have hname : tab.name = target.tabName := by
    unfold DbMeta.getTable at htab
    split at htab
    · next hf => cases htab; simpa using List.find?_some hf
    · cases htab
  have hfind : tab.cols.find? (·.name = target.colName) = some col := by
    unfold getColumn TabMeta.getCol at hcol
    split at hcol
    · next hf => cases hcol; exact hf
    · cases hcol
  obtain ⟨hp, as, bs, hcols, has⟩ := List.find?_eq_some.mp hfind
  have hmem : col ∈ tab.cols := hcols ▸ List.mem_append_right _ (List.mem_cons_self _ _)
  have hfind' : tab.cols.find? (fun c => c.tabName = target.tabName ∧ c.name = target.colName) =
      some col := by
    refine List.find?_eq_some.mpr ⟨?_, as, bs, hcols, fun a ha => ?_⟩
    · simpa [hnames col hmem, hname] using hp
    · have hna : ¬a.name = target.colName := by simpa using has a ha
      simp [hna]
  simp only [getCol, hfind']

lemma checkCond_float_raw {db : DbMeta} {allCols : List ColMeta} {cond c : Condition}
    (h : checkCond db allCols cond = .ok c) (hv : cond.isRhsVal = true)
    (hf : cond.rhsVal.type = .float) {tab : TabMeta} {col : ColMeta}
    (htab : db.getTable c.lhsCol.tabName = .ok tab)
    (hcol : getColumn tab c.lhsCol.colName = .ok col) (hint : col.type = .int) :
    c.rhsVal.raw = some (encodeLE 4 (floatToInt cond.rhsVal.floatVal)) := by
  obtain ⟨-, -, -, tab', col', ht', hcol', hlit, -⟩ := checkCond_ok h
  obtain rfl : tab' = tab := Except.ok.inj (ht'.symm.trans htab)
  obtain rfl : col' = col := Except.ok.inj (hcol'.symm.trans hcol)
  obtain ⟨raw, hraw, he⟩ := initRaw_ok (hlit hv).1
  rw [he]
  simp only [coerce, hint, hf, and_self, if_true, reduceCtorEq, false_and, if_false, Value.setInt,
    Value.initRaw] at hraw
  exact hraw.symm

lemma condHolds_int {cols : List ColMeta} {rec : Bytes} {c : Condition} {col : ColMeta} {x : Int}
    (hcol : getCol cols c.lhsCol = .ok col) (hint : col.type = .int)
    (hraw : c.rhsVal.raw = some (encodeLE 4 x)) (h1 : -2 ^ 31 ≤ x) (h2 : x < 2 ^ 31) :
    condHolds cols rec c =
      .ok (compareBy (· == ·) (fun a b => decide (a < b)) (readInt rec col.offset) x c.op) := by
  simp only [condHolds, hcol, hraw, readInt_encodeLE x h1 h2, bind, Except.bind, pure, Except.pure,
    hint]

/-- A `FLOAT` literal compared with an `INT` column is truncated toward zero: when its value lies
strictly between `INT_MIN - 1` and `INT_MAX + 1`, the condition `check_clause` makes compares
each record's value with the truncated literal. That is comparing it with the literal itself,
for every value and every operator, exactly when the literal is an integer. -/
theorem checkClause_truncates_float_literal (db : DbMeta) (tabNames : List String) (lhs : SvCol)
    (op : SvCompOp) (f : UInt32) (c : Condition)
    (h : checkClause db tabNames (getClause [⟨lhs, op, .value (.floatLit f)⟩]) = .ok [c])
    (tab : TabMeta) (col : ColMeta) (htab : db.getTable c.lhsCol.tabName = .ok tab)
    (hcol : getColumn tab c.lhsCol.colName = .ok col) (hint : col.type = .int)
    (hnames : ∀ d ∈ tab.cols, d.tabName = tab.name) (q : ℚ)
    (hq : FloatNum.ofBits f.toNat = .fin q) (h1 : -2 ^ 31 - 1 < q) (h2 : q < 2 ^ 31) :
    (∀ rec, condHolds tab.cols rec c = .ok (compareBy (· == ·) (fun a b => decide (a < b))
      (readInt rec col.offset) (truncate q) (convertSvCompOp op))) ∧
    ((∀ (v : ℤ) (op' : CompOp), compareBy (· == ·) (fun a b => decide (a < b)) v (truncate q) op' =
      compareBy (· == ·) (fun a b => decide (a < b)) (v : ℚ) q op') ↔ ∃ n : ℤ, q = n) := by
  obtain ⟨allCols, -, hf⟩ := checkClause_ok h
  have hc := (List.forall₂_cons.mp hf).1
  have hraw := checkCond_float_raw hc rfl rfl htab hcol hint
  have hrange := truncate_mem_int32 h1 h2
  change c.rhsVal.raw = some (encodeLE 4 (floatToInt f)) at hraw
  rw [floatToInt_eq_truncate hq h1 h2] at hraw
  refine ⟨fun rec => ?_, compareBy_truncate_iff q⟩
  rw [condHolds_int (getCol_of_getColumn htab hcol hnames) hint hraw hrange.1 hrange.2,
    (checkCond_ok hc).1]

def xLtTwoAndHalf : List BinaryExpr :=
  [⟨⟨"", "x"⟩, .lt, .value (.floatLit 0x40200000)⟩]

theorem checkClause_truncates_float_literal_xLtTwoAndHalf :
    ∃ c, checkClause xyCatalog ["t"] (getClause xLtTwoAndHalf) = .ok [c] ∧
      (∀ rec, condHolds xyCols rec c = .ok (compareBy (· == ·) (fun a b => decide (a < b))
        (readInt rec 0) (truncate (5 / 2)) .lt)) ∧
      ((∀ (v : ℤ) (op' : CompOp),
        compareBy (· == ·) (fun a b => decide (a < b)) v (truncate (5 / 2)) op' =
          compareBy (· == ·) (fun a b => decide (a < b)) (v : ℚ) (5 / 2) op') ↔
        ∃ n : ℤ, (5 / 2 : ℚ) = n) :=
  ⟨_, rfl, checkClause_truncates_float_literal xyCatalog ["t"] ⟨"", "x"⟩ .lt 0x40200000 _ rfl
    ⟨"t", xyCols, []⟩ ⟨"t", "x", .int, 4, 0⟩ rfl rfl rfl (by decide) (5 / 2)
    (by norm_num [FloatNum.ofBits]) (by norm_num) (by norm_num)⟩

theorem checkClause_float_literal_two_lt_two_and_half :
    FloatNum.ofBits (0x40200000 : UInt32).toNat = .fin (5 / 2) ∧
    readInt (encodeLE 4 2 ++ encodeLE 4 0) 0 = 2 ∧ ((2 : ℤ) : ℚ) < 5 / 2 ∧
    ∃ c, checkClause xyCatalog ["t"] (getClause xLtTwoAndHalf) = .ok [c] ∧
      condHolds xyCols (encodeLE 4 2 ++ encodeLE 4 0) c = .ok false :=
  ⟨by norm_num [FloatNum.ofBits], rfl, by norm_num, _, rfl, rfl⟩

end Rmdb.Analyze

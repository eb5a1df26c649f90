import Rmdb.Execution.UpdateRun
import Rmdb.Record.Refinement

/-! What `UpdateExecutor::Next` leaves in the table and its indexes when it returns. -/

namespace Rmdb.Execution.Update

open Rmdb.Defs Rmdb.Record.FileHandle Rmdb.Record.Refinement Rmdb.Execution.Predicate

/-! ### Bytes written over a record -/

/-- Modelled from the spec: the byte at `i` once the bytes `w.2` are written at offset `w.1`
over the byte `b`. -/
def writeAt (i : Nat) (b : Option UInt8) (w : Nat × Bytes) : Option UInt8 :=
  if w.1 ≤ i ∧ i < w.1 + w.2.length then w.2[i - w.1]? else b

/-- Modelled from the spec: the byte at `i` of `record` after the writes `(offset, bytes)` in
order, a later write winning where two overlap. -/
def writtenAt (record : Bytes) (writes : List (Nat × Bytes)) (i : Nat) : Option UInt8 :=
  writes.foldl (writeAt i) record[i]?

lemma foldl_writeAt_cases (i : Nat) : ∀ writes : List (Nat × Bytes),
    (∀ b, writes.foldl (writeAt i) b = b) ∨ ∃ v, ∀ b, writes.foldl (writeAt i) b = v
  | [] => .inl fun _ => rfl
  | w :: ws => by
    rcases foldl_writeAt_cases i ws with hid | ⟨v, hv⟩
    · simp only [List.foldl_cons, hid, writeAt]
      by_cases hc : w.1 ≤ i ∧ i < w.1 + w.2.length
      · exact .inr ⟨_, fun _ => if_pos hc⟩
      · exact .inl fun _ => if_neg hc
    · exact .inr ⟨v, fun _ => hv _⟩

lemma foldl_writeAt_idem (i : Nat) (writes : List (Nat × Bytes)) (b : Option UInt8) :
    writes.foldl (writeAt i) (writes.foldl (writeAt i) b) = writes.foldl (writeAt i) b := by
  rcases foldl_writeAt_cases i writes with hid | ⟨v, hv⟩
  · rw [hid, hid]
  · rw [hv, hv]

section Memcpy

variable {dst src : Bytes} {off n : Nat}

lemma length_memcpy (h : off + n ≤ dst.length) (hs : src.length = n) :
    (memcpy dst off src n).length = dst.length := by
  simp only [memcpy, List.length_append, List.length_take, List.length_drop]
  omega

lemma getElem?_memcpy (h : off + n ≤ dst.length) (hs : src.length = n) (i : Nat) :
    (memcpy dst off src n)[i]? = writeAt i dst[i]? (off, src) := by
  have ht : (dst.take off).length = off := by simp only [List.length_take]; omega
  have hsrc : src.take n = src := List.take_of_length_le (by omega)
  unfold memcpy writeAt
  dsimp only
  rw [hsrc, List.append_assoc]
  by_cases h1 : i < off
  · rw [if_neg (by omega), List.getElem?_append_left (by omega), List.getElem?_take_of_lt h1]
  rw [List.getElem?_append_right (by omega), ht]
  by_cases h2 : i < off + n
  · rw [if_pos ⟨by omega, by omega⟩, List.getElem?_append_left (by omega)]
  · rw [if_neg (by omega), List.getElem?_append_right (by omega), List.getElem?_drop]
    congr 1
    omega

end Memcpy

/-! ### The set clauses on a record -/

def ClauseWrite (tab : TabMeta) (sc : SetClause) (w : Nat × Bytes) : Prop :=
  ∃ col, tab.getCol sc.lhs.colName = .ok col ∧ w.1 = col.offset ∧ sc.rhs.initRaw col.len = some w.2

lemma TabMeta.getCol_mem {tab : TabMeta} {colName : String} {col : ColMeta}
    (h : tab.getCol colName = .ok col) : col ∈ tab.cols := by
  unfold TabMeta.getCol at h
  split at h
  · next hf => cases h; exact List.mem_of_find?_eq_some hf
  · cases h

lemma length_initRaw {v : Value} {len : Nat} {raw : Bytes} (h : v.initRaw len = some raw)
    (hnum : v.type ≠ .string → len = 4) : raw.length = len := by
  unfold Value.initRaw at h
  split at h
  · next hty => cases h; simp [hnum (by rw [hty]; nofun)]
  · next hty => cases h; simp [hnum (by rw [hty]; nofun)]
  · split_ifs at h with hl
    cases h
    simp only [List.rightpad, List.length_append, List.length_replicate]
    omega

lemma applySetClauses_writtenAt {tab : TabMeta}
    (hnum : ∀ c ∈ tab.cols, c.type ≠ .string → c.len = 4) :
    ∀ {setClauses : List SetClause} {writes : List (Nat × Bytes)},
      List.Forall₂ (ClauseWrite tab) setClauses writes → ∀ {record newRecord : Bytes},
      (∀ c ∈ tab.cols, c.offset + c.len ≤ record.length) →
      applySetClauses tab record setClauses = .ok newRecord →
      newRecord.length = record.length ∧ ∀ i, newRecord[i]? = writtenAt record writes i
  | [], [], .nil, _, _, _, h => by cases h; exact ⟨rfl, fun _ => rfl⟩
  | _ :: _, ⟨off, bytes⟩ :: _, .cons hw hws, record, _, hfits, h => by
    simp only [applySetClauses, Except.bind_eq_ok] at h
    obtain ⟨r, hr, h⟩ := h
    obtain ⟨col, raw, hcol, hty, hraw, rfl⟩ := applySetClause_ok hr
    obtain ⟨col', hcol', rfl, hraw'⟩ := hw
    rw [hcol, Except.ok.injEq] at hcol'
    subst hcol'
    rw [hraw, Option.some_inj] at hraw'
    subst hraw'
    have hmem := TabMeta.getCol_mem hcol
    have hfit := hfits col hmem
    have hlen : raw.length = col.len := length_initRaw hraw fun h => hnum col hmem (hty ▸ h)
    have hl := length_memcpy hfit hlen
    obtain ⟨hl', hi⟩ := applySetClauses_writtenAt hnum hws (fun c hc => hl ▸ hfits c hc) h
    exact ⟨hl'.trans hl, fun i => by rw [hi, writtenAt, getElem?_memcpy hfit hlen]; rfl⟩

/-! ### Keys -/

lemma getElem?_slice (bs : Bytes) (off n i : Nat) :
    (slice bs off n)[i]? = if i < n then bs[off + i]? else none := by
  rw [Predicate.slice, List.getElem?_take, List.getElem?_drop]

lemma IndexMeta.key_eq_of_agree (index : IndexMeta) {a b : Bytes}
    (h : ∀ c ∈ index.cols, ∀ t < c.len, a[c.offset + t]? = b[c.offset + t]?) :
    index.key a = index.key b := by
  obtain ⟨cols, len⟩ := index
  unfold IndexMeta.key
  induction cols with
  | nil => rfl
  | cons c cs ih =>
    simp only [List.flatMap_cons]
    congr 1
    · refine List.ext_getElem? fun t => ?_
      rw [getElem?_slice, getElem?_slice]
      split_ifs with ht
      · exact h c (List.mem_cons_self _ _) t ht
      · rfl
    · exact ih fun c' hc' => h c' (List.mem_cons_of_mem _ hc')

lemma IndexMeta.agree_of_key_eq (index : IndexMeta) {a b : Bytes}
    (ha : ∀ c ∈ index.cols, c.offset + c.len ≤ a.length)
    (hb : ∀ c ∈ index.cols, c.offset + c.len ≤ b.length) (h : index.key a = index.key b) :
    ∀ c ∈ index.cols, ∀ t < c.len, a[c.offset + t]? = b[c.offset + t]? := by
  obtain ⟨cols, len⟩ := index
  unfold IndexMeta.key at h
  dsimp only at ha hb ⊢
  induction cols with
  | nil => intro c hc; exact absurd hc (List.not_mem_nil c)
  | cons c cs ih =>
    simp only [List.flatMap_cons] at h
    have hla := ha c (List.mem_cons_self _ _)
    have hlb := hb c (List.mem_cons_self _ _)
    have hlen : (slice a c.offset c.len).length = (slice b c.offset c.len).length := by
      simp only [Predicate.slice, List.length_take, List.length_drop]
      omega
    obtain ⟨hc, hcs⟩ := List.append_inj h hlen
    intro c' hc' t ht
    rcases List.mem_cons.mp hc' with rfl | hc'
    · have := congrArg (·[t]?) hc
      simpa only [getElem?_slice, if_pos ht] using this
    · exact ih (fun c hc => ha c (List.mem_cons_of_mem _ hc))
        (fun c hc => hb c (List.mem_cons_of_mem _ hc)) hcs c' hc' t ht

lemma IndexMeta.key_overwrite (index : IndexMeta) {writes : List (Nat × Bytes)}
    {oa na ob nb : Bytes} (hoa : ∀ c ∈ index.cols, c.offset + c.len ≤ oa.length)
    (hob : ∀ c ∈ index.cols, c.offset + c.len ≤ ob.length) (hla : na.length = oa.length)
    (hna : ∀ i, na[i]? = writtenAt oa writes i) (hnb : ∀ i, nb[i]? = writtenAt ob writes i)
    (hk : index.key na = index.key ob) : index.key nb = index.key na := by
  have hag := index.agree_of_key_eq (hla ▸ hoa) hob hk
  refine index.key_eq_of_agree fun c hc t ht => ?_
  calc nb[c.offset + t]? = writes.foldl (writeAt (c.offset + t)) ob[c.offset + t]? := hnb _
    _ = writes.foldl (writeAt (c.offset + t))
          (writes.foldl (writeAt (c.offset + t)) oa[c.offset + t]?) := by
      rw [← hag c hc t ht, hna]; rfl
    _ = na[c.offset + t]? := by rw [foldl_writeAt_idem, hna]; rfl

/-! ### Exact indexes -/

/-- Modelled from the spec: the index holds exactly one entry `key(rec) → rid` per live record
`rid ↦ rec` of `M`, and no other entry. -/
def IndexExact (index : IndexMeta) (M : Rid → Option Bytes) (ih : IxIndex) : Prop :=
  ∀ key rid, ih key = some rid ↔ ∃ rec, M rid = some rec ∧ index.key rec = key

/-- Modelled from the spec: no two live records of `M` have one key. -/
def KeysDistinct (index : IndexMeta) (M : Rid → Option Bytes) : Prop :=
  ∀ r₁ r₂ rec₁ rec₂, M r₁ = some rec₁ → M r₂ = some rec₂ → index.key rec₁ = index.key rec₂ →
    r₁ = r₂

section Exact

variable {index : IndexMeta} {M : Rid → Option Bytes} {ih : IxIndex} {r : Rid} {old new : Bytes}

lemma IndexExact.keysDistinct (h : IndexExact index M ih) : KeysDistinct index M := by
  intro r₁ r₂ rec₁ rec₂ h₁ h₂ hk
  have e₁ := (h _ r₁).2 ⟨rec₁, h₁, rfl⟩
  have e₂ := (h _ r₂).2 ⟨rec₂, h₂, hk.symm⟩
  exact Option.some_inj.mp (e₁.symm.trans e₂)

lemma IndexExact.move (h : IndexExact index M ih) (hold : M r = some old)
    (hd : KeysDistinct index (Function.update M r (some new))) :
    IndexExact index (Function.update M r (some new))
      (insertEntry (index.key new) r (deleteEntry (index.key old) ih)) := by
  intro key rid
  unfold insertEntry deleteEntry
  by_cases hkn : key = index.key new
  · subst hkn
    rw [Function.update_same]
    constructor
    · rintro ⟨⟩
      exact ⟨new, Function.update_same _ _ _, rfl⟩
    · rintro ⟨rec, hrec, hk⟩
      rw [hd r rid new rec (Function.update_same _ _ _) hrec hk.symm]
  rw [Function.update_noteq hkn]
  by_cases hko : key = index.key old
  · subst hko
    rw [Function.update_same]
    refine ⟨nofun, fun ⟨rec, hrec, hk⟩ => ?_⟩
    by_cases hr : rid = r
    · subst hr
      rw [Function.update_same, Option.some_inj] at hrec
      exact absurd (hrec ▸ hk) (Ne.symm hkn)
    · rw [Function.update_noteq hr] at hrec
      exact absurd (h.keysDistinct rid r rec old hrec hold hk) hr
  rw [Function.update_noteq hko, h key rid]
  constructor
  · rintro ⟨rec, hrec, hk⟩
    have hr : rid ≠ r := by
      rintro rfl
      rw [hold, Option.some_inj] at hrec
      exact hko (hrec ▸ hk).symm
    exact ⟨rec, by rwa [Function.update_noteq hr], hk⟩
  · rintro ⟨rec, hrec, hk⟩
    have hr : rid ≠ r := by
      rintro rfl
      rw [Function.update_same, Option.some_inj] at hrec
      exact hkn (hrec ▸ hk).symm
    exact ⟨rec, by rwa [Function.update_noteq hr] at hrec, hk⟩

end Exact

def pendingRecords (M M' : Rid → Option Bytes) (pending : List Rid) (r : Rid) : Option Bytes :=
  if r ∈ pending then M r else M' r

section Pending

variable {index : IndexMeta} {M M' : Rid → Option Bytes} {rids : List Rid}

lemma keysDistinct_after_before (hM : KeysDistinct index M)
    (hM' : KeysDistinct index M') (hsame : ∀ r, r ∉ rids → M' r = M r)
    (hmove : ∀ a ∈ rids, ∀ b ∈ rids, ∀ na ob, M' a = some na → M b = some ob →
      index.key na = index.key ob → ∃ nb, M' b = some nb ∧ index.key nb = index.key na)
    {r₁ r₂ : Rid} {rec₁ rec₂ : Bytes} (h₁ : M' r₁ = some rec₁)
    (h₂ : M r₂ = some rec₂) (hk : index.key rec₁ = index.key rec₂) : r₁ = r₂ := by
  by_cases hb : r₂ ∈ rids
  · by_cases ha : r₁ ∈ rids
    · obtain ⟨nb, hnb, hk'⟩ := hmove r₁ ha r₂ hb rec₁ rec₂ h₁ h₂ hk
      exact hM' _ _ _ _ h₁ hnb hk'.symm
    · rw [hsame r₁ ha] at h₁
      exact hM _ _ _ _ h₁ h₂ hk
  · rw [← hsame r₂ hb] at h₂
    exact hM' _ _ _ _ h₁ h₂ hk

lemma keysDistinct_pending (hM : KeysDistinct index M)
    (hM' : KeysDistinct index M') (hsame : ∀ r, r ∉ rids → M' r = M r)
    (hmove : ∀ a ∈ rids, ∀ b ∈ rids, ∀ na ob, M' a = some na → M b = some ob →
      index.key na = index.key ob → ∃ nb, M' b = some nb ∧ index.key nb = index.key na)
    (pending : List Rid) :
    KeysDistinct index (pendingRecords M M' pending) := by
  intro r₁ r₂ rec₁ rec₂ h₁ h₂ hk
  unfold pendingRecords at h₁ h₂
  split_ifs at h₁ h₂
  · exact hM _ _ _ _ h₁ h₂ hk
  · exact (keysDistinct_after_before hM hM' hsame hmove h₂ h₁ hk.symm).symm
  · exact keysDistinct_after_before hM hM' hsame hmove h₁ h₂ hk
  · exact hM' _ _ _ _ h₁ h₂ hk

end Pending

/-! ### `Next` over distinct live rids -/

/-- Modelled from the spec: a record of the table's layout, in which every column of the table
and of its indexes lies. -/
def Fits (tab : TabMeta) (record : Bytes) : Prop :=
  (∀ c ∈ tab.cols, c.offset + c.len ≤ record.length) ∧
    ∀ index ∈ tab.indexes, ∀ c ∈ index.cols, c.offset + c.len ≤ record.length

/-- Modelled from the spec: the schema facts `Next` relies on: `INT` and `FLOAT` columns are
four bytes wide, and no two indexes of the table have the same columns. -/
structure TabMeta.WellFormed (tab : TabMeta) : Prop where
  numLen : ∀ c ∈ tab.cols, c.type ≠ .string → c.len = 4
  indexNames : (tab.indexes.map fun index => index.cols.map (·.name)).Nodup

lemma records_getRecord_ok {s s' : RmFile} {rid : Rid} {ctx : Option Context} {b : Bytes}
    (h : (getRecord rid ctx).run s = .ok b s') :
    records s' = records s ∧ b = (s.pages rid.pageNo).slots rid.slotNo := by
  rw [getRecord_run] at h
  split_ifs at h <;> cases h <;> exact ⟨rfl, rfl⟩

lemma records_updateRecord_ok {s s' : RmFile} {rid : Rid} {buf : Bytes} {ctx : Option Context}
    (hlive : records s rid ≠ none) (h : (updateRecord rid buf ctx).run s = .ok () s') :
    records s' = Function.update (records s) rid (some buf) := by
  rw [updateRecord_run] at h
  split_ifs at h <;> cases h <;>
    simp only [records_unpin, records_pin_setPage, records_writeSlot hlive]

lemma foldl_reindex_other (tabName : String) (record newRecord : Bytes) (rid : Rid)
    {name : List String} : ∀ {indexes : List IndexMeta},
    (∀ index ∈ indexes, index.cols.map (·.name) ≠ name) → ∀ ihs,
      indexes.foldl (reindex tabName record newRecord rid) ihs tabName name = ihs tabName name
  | [], _, _ => rfl
  | index :: indexes, h, ihs => by
    rw [List.foldl_cons, foldl_reindex_other tabName record newRecord rid
      fun index' h' => h index' (List.mem_cons_of_mem _ h')]
    simp [reindex, Function.update_noteq (h index (List.mem_cons_self _ _)).symm]

lemma foldl_reindex_at (tabName : String) (record newRecord : Bytes) (rid : Rid)
    {index : IndexMeta} : ∀ {indexes : List IndexMeta},
    (indexes.map fun J => J.cols.map (·.name)).Nodup → index ∈ indexes → ∀ ihs,
      indexes.foldl (reindex tabName record newRecord rid) ihs tabName (index.cols.map (·.name)) =
        insertEntry (index.key newRecord) rid
          (deleteEntry (index.key record) (ihs tabName (index.cols.map (·.name))))
  | [], _, h, _ => absurd h (List.not_mem_nil _)
  | J :: Js, hnd, hI, ihs => by
    rw [List.map_cons, List.nodup_cons] at hnd
    rw [List.foldl_cons]
    rcases List.mem_cons.mp hI with rfl | hI
    · rw [foldl_reindex_other _ _ _ _ fun J' hJ' heq => hnd.1 (List.mem_map.mpr ⟨J', hJ', heq⟩)]
      simp [reindex]
    · have hne : J.cols.map (·.name) ≠ index.cols.map (·.name) := fun heq =>
        hnd.1 (heq ▸ List.mem_map.mpr ⟨index, hI, rfl⟩)
      rw [foldl_reindex_at tabName record newRecord rid hnd.2 hI]
      simp [reindex, Function.update_noteq hne.symm]

lemma forM_cons_ok {β : Type} {f : β → DbM PUnit} {b : β} {bs : List β} {d d' : Db}
    (h : ((b :: bs).forM f).run d = .ok () d') :
    ∃ d₁, (f b).run d = .ok () d₁ ∧ (bs.forM f).run d₁ = .ok () d' := by
  simp only [List.forM, EStateM.run_bind] at h
  rcases h₁ : (f b).run d with ⟨⟨⟩, d₁⟩ | ⟨e, d₁⟩ <;> rw [h₁] at h
  · exact ⟨d₁, rfl, h⟩
  · cases h

namespace UpdateExecutor

variable {ex : UpdateExecutor}

lemma updateRid_ok {d d' : Db} {rid : Rid} {old : Bytes}
    (hold : records (d.mgr.tables ex.tabName) rid = some old)
    (h : (ex.updateRid rid).run d = .ok () d') :
    ∃ new, applySetClauses ex.tab old ex.setClauses = .ok new ∧
      records (d'.mgr.tables ex.tabName) =
        Function.update (records (d.mgr.tables ex.tabName)) rid (some new) ∧
      (∀ t, t ≠ ex.tabName → d'.mgr.tables t = d.mgr.tables t) ∧
      d'.ihs = ex.tab.indexes.foldl (reindex ex.tabName old new rid) d.ihs := by
  have hslot := (records_eq_some.mp hold).2.2
  rcases hg : (getRecord rid ex.ctx).run (d.mgr.tables ex.tabName) with ⟨b, t⟩ | ⟨e, t⟩
  swap
  · simp [updateRid, onFh_run, hg] at h
  obtain ⟨hrec, rfl⟩ := records_getRecord_ok hg
  rw [hslot] at hg
  rcases ha : applySetClauses ex.tab old ex.setClauses with e | new
  · simp [updateRid, onFh_run, hg, ofExcept, ha] at h
  cases hx : ex.ctx.isNone && !ex.tab.indexes.isEmpty
  swap
  · simp [updateRid, onFh_run, hg, ofExcept, ha, updateIndexes_run, hx] at h
  rcases hu : (updateRecord rid new ex.ctx).run t with ⟨⟨⟩, t'⟩ | ⟨e, t'⟩
  · simp only [updateRid, EStateM.run_bind, onFh_run, hg, ha, ofExcept, EStateM.run_pure,
      updateIndexes_run, hx, Bool.false_eq_true, if_false, Function.update_same, hu,
      EStateM.Result.ok.injEq, true_and] at h
    subst h
    refine ⟨new, rfl, ?_, fun t ht => by simp [Function.update_noteq ht], rfl⟩
    rw [← hrec] at hold
    simp [records_updateRecord_ok (by rw [hold]; exact Option.some_ne_none _) hu, hrec]
  · simp [updateRid, onFh_run, hg, ha, ofExcept, updateIndexes_run, hx, hu] at h

lemma next_run (d : Db) : ex.next.run d = (ex.rids.forM ex.updateRid).run d := by
  unfold next
  split
  · next h => rw [List.isEmpty_iff.mp h]; rfl
  · rfl

lemma forM_updateRid_records : ∀ (L : List Rid) {d d' : Db}, L.Nodup →
    (∀ r ∈ L, records (d.mgr.tables ex.tabName) r ≠ none) →
    (L.forM ex.updateRid).run d = .ok () d' →
    (∀ r, r ∉ L → records (d'.mgr.tables ex.tabName) r = records (d.mgr.tables ex.tabName) r) ∧
    (∀ r ∈ L, ∃ old new, records (d.mgr.tables ex.tabName) r = some old ∧
      applySetClauses ex.tab old ex.setClauses = .ok new ∧
      records (d'.mgr.tables ex.tabName) r = some new) ∧
    ∀ t, t ≠ ex.tabName → d'.mgr.tables t = d.mgr.tables t
  | [], _, _, _, _, h => by
    cases h
    exact ⟨fun _ _ => rfl, fun _ h => absurd h (List.not_mem_nil _), fun _ _ => rfl⟩
  | r :: L, d, d', hnd, hlive, h => by
    rw [List.nodup_cons] at hnd
    obtain ⟨d₁, h₁, h⟩ := forM_cons_ok h
    obtain ⟨old, hold⟩ := Option.ne_none_iff_exists'.mp (hlive r (List.mem_cons_self _ _))
    obtain ⟨new, happ, hrec, htab, -⟩ := updateRid_ok hold h₁
    have hrec' : ∀ x, x ≠ r →
        records (d₁.mgr.tables ex.tabName) x = records (d.mgr.tables ex.tabName) x :=
      fun x hx => by rw [hrec, Function.update_noteq hx]
    obtain ⟨ih₁, ih₂, ih₃⟩ := forM_updateRid_records L hnd.2 (fun x hx => by
      rw [hrec' x (ne_of_mem_of_not_mem hx hnd.1)]
      exact hlive x (List.mem_cons_of_mem _ hx)) h
    refine ⟨fun x hx => ?_, fun x hx => ?_, fun t ht => (ih₃ t ht).trans (htab t ht)⟩
    · rw [List.mem_cons, not_or] at hx
      rw [ih₁ x hx.2, hrec' x hx.1]
    · rcases List.mem_cons.mp hx with rfl | hx
      · exact ⟨old, new, hold, happ, by rw [ih₁ x hnd.1, hrec, Function.update_same]⟩
      · rw [← hrec' x (ne_of_mem_of_not_mem hx hnd.1)]
        exact ih₂ x hx

lemma forM_updateRid_index (hnd : (ex.tab.indexes.map fun J => J.cols.map (·.name)).Nodup)
    {index : IndexMeta} (hI : index ∈ ex.tab.indexes) (M : Rid → Option Bytes) {d' : Db}
    (hdist : ∀ pending,
      KeysDistinct index (pendingRecords M (records (d'.mgr.tables ex.tabName)) pending)) :
    ∀ (L : List Rid) {d : Db}, L.Nodup → (∀ r ∈ L, M r ≠ none) →
    records (d.mgr.tables ex.tabName) = pendingRecords M (records (d'.mgr.tables ex.tabName)) L →
    IndexExact index (records (d.mgr.tables ex.tabName))
      (d.ihs ex.tabName (index.cols.map (·.name))) →
    (L.forM ex.updateRid).run d = .ok () d' →
    IndexExact index (records (d'.mgr.tables ex.tabName))
      (d'.ihs ex.tabName (index.cols.map (·.name)))
  | [], _, _, _, _, hexact, h => by cases h; exact hexact
  | r :: L, d, hnd', hlive, hrec, hexact, h => by
    rw [List.nodup_cons] at hnd'
    obtain ⟨d₁, h₁, h⟩ := forM_cons_ok h
    obtain ⟨old, hold⟩ := Option.ne_none_iff_exists'.mp (hlive r (List.mem_cons_self _ _))
    have hold' : records (d.mgr.tables ex.tabName) r = some old := by
      rw [hrec, pendingRecords, if_pos (List.mem_cons_self _ _), hold]
    obtain ⟨new, -, hrec₁, -, hihs⟩ := updateRid_ok hold' h₁
    have hrest : ∀ x ∈ L,
        records (d₁.mgr.tables ex.tabName) x = records (d.mgr.tables ex.tabName) x :=
      fun x hx => by rw [hrec₁, Function.update_noteq (ne_of_mem_of_not_mem hx hnd'.1)]
    have hnew : records (d'.mgr.tables ex.tabName) r = some new := by
      rw [(forM_updateRid_records L hnd'.2 (fun x hx => by
        rw [hrest x hx, hrec, pendingRecords, if_pos (List.mem_cons_of_mem _ hx)]
        exact hlive x (List.mem_cons_of_mem _ hx)) h).1 r hnd'.1, hrec₁, Function.update_same]
    have hrec₁' : records (d₁.mgr.tables ex.tabName) =
        pendingRecords M (records (d'.mgr.tables ex.tabName)) L := by
      funext x
      rw [hrec₁]
      by_cases hx : x = r
      · subst hx
        rw [Function.update_same, pendingRecords, if_neg hnd'.1, hnew]
      · rw [Function.update_noteq hx, hrec]
        simp only [pendingRecords, List.mem_cons, hx, false_or]
    refine forM_updateRid_index hnd hI M hdist L hnd'.2
      (fun x hx => hlive x (List.mem_cons_of_mem _ hx)) hrec₁' ?_ h
    have hd : KeysDistinct index
        (Function.update (records (d.mgr.tables ex.tabName)) r (some new)) := by
      rw [← hrec₁, hrec₁']
      exact hdist L
    rw [hihs, foldl_reindex_at _ _ _ _ hnd hI, hrec₁]
    exact hexact.move hold' hd

lemma next_ok_spec (hwf : ex.tab.WellFormed) (hnodup : ex.rids.Nodup) {d d' : Db}
    (hlive : ∀ r ∈ ex.rids,
      ∃ rec, records (d.mgr.tables ex.tabName) r = some rec ∧ Fits ex.tab rec)
    {writes : List (Nat × Bytes)} (hw : List.Forall₂ (ClauseWrite ex.tab) ex.setClauses writes)
    (h : ex.next.run d = .ok () d') :
    (∀ r ∈ ex.rids, ∃ old new, records (d.mgr.tables ex.tabName) r = some old ∧
      records (d'.mgr.tables ex.tabName) r = some new ∧ ∀ i, new[i]? = writtenAt old writes i) ∧
    (∀ r, r ∉ ex.rids →
      records (d'.mgr.tables ex.tabName) r = records (d.mgr.tables ex.tabName) r) ∧
    (∀ t, t ≠ ex.tabName → d'.mgr.tables t = d.mgr.tables t) ∧
    ∀ index ∈ ex.tab.indexes,
      IndexExact index (records (d.mgr.tables ex.tabName))
        (d.ihs ex.tabName (index.cols.map (·.name))) →
      KeysDistinct index (records (d'.mgr.tables ex.tabName)) →
      IndexExact index (records (d'.mgr.tables ex.tabName))
        (d'.ihs ex.tabName (index.cols.map (·.name))) := by
  rw [next_run] at h
  have hlive' : ∀ r ∈ ex.rids, records (d.mgr.tables ex.tabName) r ≠ none := fun r hr => by
    obtain ⟨rec, hrec, -⟩ := hlive r hr
    rw [hrec]
    exact Option.some_ne_none _
  obtain ⟨hsame, hupd, htab⟩ := forM_updateRid_records ex.rids hnodup hlive' h
  have hwritten : ∀ r ∈ ex.rids, ∃ old new, records (d.mgr.tables ex.tabName) r = some old ∧
      Fits ex.tab old ∧ records (d'.mgr.tables ex.tabName) r = some new ∧
      new.length = old.length ∧ ∀ i, new[i]? = writtenAt old writes i := by
    intro r hr
    obtain ⟨old, new, hold, happ, hnew⟩ := hupd r hr
    obtain ⟨rec, hrec, hfits⟩ := hlive r hr
    rw [hrec, Option.some_inj] at hold
    subst hold
    exact ⟨rec, new, hrec, hfits, hnew, applySetClauses_writtenAt hwf.numLen hw hfits.1 happ⟩
  refine ⟨fun r hr => ?_, hsame, htab, fun index hI hpre hpost => ?_⟩
  · obtain ⟨old, new, hold, -, hnew, -, hi⟩ := hwritten r hr
    exact ⟨old, new, hold, hnew, hi⟩
  have hmove : ∀ a ∈ ex.rids, ∀ b ∈ ex.rids, ∀ na ob,
      records (d'.mgr.tables ex.tabName) a = some na →
      records (d.mgr.tables ex.tabName) b = some ob → index.key na = index.key ob →
      ∃ nb, records (d'.mgr.tables ex.tabName) b = some nb ∧ index.key nb = index.key na := by
    intro a ha b hb na ob hna hob hk
    obtain ⟨oa, na', hoa, hfa, hna', hla, hia⟩ := hwritten a ha
    obtain ⟨ob', nb, hob', hfb, hnb, -, hib⟩ := hwritten b hb
    rw [hna, Option.some_inj] at hna'
    subst hna'
    rw [hob, Option.some_inj] at hob'
    subst hob'
    exact ⟨nb, hnb, index.key_overwrite (hfa.2 index hI) (hfb.2 index hI) hla hia hib hk⟩
  refine forM_updateRid_index hwf.indexNames hI (records (d.mgr.tables ex.tabName))
    (keysDistinct_pending hpre.keysDistinct hpost hsame hmove) ex.rids hnodup hlive' ?_ hpre h
  funext x
  unfold pendingRecords
  split_ifs with hx
  · rfl
  · exact (hsame x hx).symm

end UpdateExecutor

end Rmdb.Execution.Update

import Rmdb.Recovery.Log
import Rmdb.Execution.Predicate

/-! Reading the log file back, record after record. -/

namespace Rmdb.Recovery.LogReader

open Rmdb.Defs Rmdb.Execution.Predicate Rmdb.Recovery.LogFormat Rmdb.Recovery.Log

/-- Modelled from the spec: the type a header's first byte names. -/
def LogType.ofCode (code : UInt8) : Option LogType :=
  match code.toNat with
  | 0 => some .begin
  | 1 => some .commit
  | 2 => some .abort
  | 3 => some .insert
  | 4 => some .delete
  | 5 => some .update
  | _ => none

@[simp] lemma LogType.ofCode_code (t : LogType) : LogType.ofCode t.code = some t := by
  cases t <;> rfl

def readI64 (bs : Bytes) : Int :=
  if decodeLE bs < 2 ^ 63 then decodeLE bs else (decodeLE bs : Int) - 2 ^ 64

lemma readI64_encodeLE (x : Int) (h1 : -2 ^ 63 ≤ x) (h2 : x < 2 ^ 63) :
    readI64 (encodeLE 8 x) = x := by
  simp only [readI64, decodeLE_encodeLE]
  split_ifs <;> omega

def Fits (r : LogRecord) : Prop :=
  -2 ^ 63 ≤ r.lsn ∧ r.lsn < 2 ^ 63 ∧ -2 ^ 63 ≤ r.txnId ∧ r.txnId < 2 ^ 63 ∧
    -2 ^ 63 ≤ r.prevLsn ∧ r.prevLsn < 2 ^ 63 ∧ r.logTotLen < 2 ^ 32

/-- Modelled from the spec: the record at the front of `bs`, its fields read at their header
offsets and its payload the `log_tot_len - LOG_HEADER_SIZE` bytes after the header, and the
bytes that follow it. -/
def readRecord (bs : Bytes) : Option (LogRecord × Bytes) :=
  let totLen := decodeLE ((bs.drop 9).take 4)
  match bs.head?.bind LogType.ofCode with
  | none => none
  | some logType =>
    if LOG_HEADER_SIZE ≤ totLen ∧ totLen ≤ bs.length then
      some (⟨logType, readI64 ((bs.drop 1).take 8), readI64 ((bs.drop 13).take 8),
        readI64 ((bs.drop 21).take 8), (bs.drop LOG_HEADER_SIZE).take (totLen - LOG_HEADER_SIZE)⟩,
        bs.drop totLen)
    else none

/-- Modelled from the spec: a log file read record after record; `none` when a record is cut
off or names no type. The fuel bounds the number of records. -/
def readRecords : Nat → Bytes → Option (List LogRecord)
  | _, [] => some []
  | 0, _ :: _ => none
  | fuel + 1, b :: bs => do
    let (r, rest) ← readRecord (b :: bs)
    let rs ← readRecords fuel rest
    return r :: rs

def readLog (bs : Bytes) : Option (List LogRecord) :=
  readRecords bs.length bs

lemma readRecord_serialize (r : LogRecord) (hr : Fits r) (rest : Bytes) :
    readRecord (r.serialize ++ rest) = some (r, rest) := by
  obtain ⟨h1, h2, h3, h4, h5, h6, h7⟩ := hr
  have hlen : decodeLE (encodeLE 4 r.logTotLen) = r.logTotLen := by
    rw [decodeLE_encodeLE]; omega
  have hsplit : ∀ n, (r.serialize ++ rest).drop n =
      ([r.logType.code] ++ encodeLE 8 r.lsn ++ encodeLE 4 r.logTotLen ++ encodeLE 8 r.txnId ++
        encodeLE 8 r.prevLsn ++ (r.payload ++ rest)).drop n := by
    simp [LogRecord.serialize]
  have hhead : (r.serialize ++ rest).head? = some r.logType.code := by simp [LogRecord.serialize]
  simp only [readRecord, hhead, Option.some_bind, LogType.ofCode_code, hsplit 9, hsplit 1,
    hsplit 13, hsplit 21, hsplit LOG_HEADER_SIZE, List.append_assoc,
    List.drop_append_eq_append_drop, List.take_append_eq_append_take, length_encodeLE]
  simp only [LOG_HEADER_SIZE, List.length_singleton, Nat.one_le_ofNat, List.drop_eq_nil_of_le,
    List.length_nil, zero_le, List.take_of_length_le, tsub_zero, Nat.add_one_sub_one,
    length_encodeLE, le_refl, tsub_self, List.drop_zero, Nat.sub_eq_zero_of_le, List.take_zero,
    List.append_nil, List.nil_append, hlen, List.length_append, LogRecord.length_serialize,
    le_add_iff_nonneg_right, and_true, readI64_encodeLE _ h1 h2, Nat.reduceLeDiff, Nat.reduceSub,
    readI64_encodeLE _ h3 h4, readI64_encodeLE _ h5 h6, Option.ite_none_right_eq_some,
    Option.some.injEq, Prod.mk.injEq]
  simp [LogRecord.logTotLen, LOG_HEADER_SIZE]

lemma readRecords_streamBytes {rs : List LogRecord} (hrs : ∀ r ∈ rs, Fits r) {fuel : Nat}
    (hfuel : rs.length ≤ fuel) : readRecords fuel (streamBytes rs) = some rs := by
  induction rs generalizing fuel with
  | nil => cases fuel <;> rfl
  | cons r rs ih =>
    obtain ⟨fuel, rfl⟩ : ∃ f, fuel = f + 1 := ⟨fuel - 1, by simp at hfuel; omega⟩
    have hr := readRecord_serialize r (hrs r (List.mem_cons_self _ _)) (streamBytes rs)
    have ht := ih (fun r' h => hrs r' (List.mem_cons_of_mem _ h)) (by simpa using hfuel)
    rw [streamBytes_cons]
    rw [LogRecord.serialize, List.singleton_append, List.append_assoc, List.append_assoc,
      List.append_assoc, List.append_assoc, List.cons_append] at hr ⊢
    simp [readRecords, hr, ht]

lemma length_le_streamBytes (rs : List LogRecord) : rs.length ≤ (streamBytes rs).length := by
  induction rs with
  | nil => simp
  | cons r rs ih => simp [LogRecord.logTotLen, LOG_HEADER_SIZE]; omega

lemma readLog_streamBytes {rs : List LogRecord} (hrs : ∀ r ∈ rs, Fits r) :
    readLog (streamBytes rs) = some rs :=
  readRecords_streamBytes hrs (length_le_streamBytes rs)

/-! ### What the reader accepts -/

lemma decodeLE_lt (xs : Bytes) : decodeLE xs < 2 ^ (8 * xs.length) := by
  induction xs with
  | nil => simp [decodeLE]
  | cons b bs ih =>
    have hb : b.toNat < 256 := b.val.isLt
    rw [decodeLE, List.length_cons, Nat.mul_succ, pow_add]
    omega

lemma encodeLE_decodeLE (xs : Bytes) : encodeLE xs.length (decodeLE xs) = xs := by
  have hmod : ((decodeLE xs : Int) % 2 ^ (8 * xs.length)).toNat = decodeLE xs := by
    have := decodeLE_lt xs
    rw [Int.emod_eq_of_lt (by omega) (by exact_mod_cast this)]
    rfl
  rw [encodeLE, hmod]
  induction xs with
  | nil => rfl
  | cons b bs ih =>
    have hb : b.toNat < 256 := b.val.isLt
    rw [List.length_cons, List.range_succ_eq_map, List.map_cons, List.map_map]
    congr 1
    · exact UInt8.toNat.inj (by simp [decodeLE, Nat.toUInt8, UInt8.toNat, UInt8.ofNat]; omega)
    · conv_rhs => rw [← ih (by have := decodeLE_lt bs; rw [Int.emod_eq_of_lt (by omega)
        (by exact_mod_cast this)]; rfl)]
      refine List.map_congr_left fun i _ => congrArg Nat.toUInt8 ?_
      have h1 : decodeLE (b :: bs) / 2 ^ 8 = decodeLE bs := by
        simp only [decodeLE, show (2 : Nat) ^ 8 = 256 from rfl]
        omega
      rw [← h1, Nat.div_div_eq_div_mul, ← pow_add]
      congr 2
      omega

lemma readI64_bounds {xs : Bytes} (h : xs.length ≤ 8) :
    -2 ^ 63 ≤ readI64 xs ∧ readI64 xs < 2 ^ 63 := by
  have hlt : decodeLE xs < 2 ^ 64 :=
    lt_of_lt_of_le (decodeLE_lt xs) (Nat.pow_le_pow_right (by norm_num) (by omega))
  unfold readI64
  split_ifs <;> omega

lemma encodeLE_readI64 {xs : Bytes} (h : xs.length = 8) : encodeLE 8 (readI64 xs) = xs := by
  have hlt := decodeLE_lt xs
  rw [h] at hlt
  have hmod : readI64 xs % 2 ^ (8 * 8) = (decodeLE xs : Int) % 2 ^ (8 * 8) := by
    unfold readI64
    split_ifs <;> omega
  have he := encodeLE_decodeLE xs
  rw [h] at he
  calc encodeLE 8 (readI64 xs) = encodeLE 8 (decodeLE xs) := by simp only [encodeLE, hmod]
    _ = xs := he

lemma LogType.code_of_ofCode {c : UInt8} {t : LogType} (h : LogType.ofCode c = some t) :
    t.code = c := by
  unfold LogType.ofCode at h
  apply UInt8.toNat.inj
  split at h <;> cases h <;> simp_all [LogType.code]

lemma take_drop_append {α : Type} (l : List α) (m n : Nat) :
    (l.drop m).take n ++ l.drop (m + n) = l.drop m := by
  rw [← List.drop_drop]
  exact List.take_append_drop n _

lemma serialize_of_readRecord {bs rest : Bytes} {r : LogRecord}
    (h : readRecord bs = some (r, rest)) : Fits r ∧ r.serialize ++ rest = bs := by
  unfold readRecord at h
  dsimp only at h
  split at h
  · cases h
  next logType hcode =>
  split_ifs at h with hlen
  simp only [Option.some.injEq, Prod.mk.injEq] at h
  obtain ⟨rfl, rfl⟩ := h
  obtain ⟨b, tl, rfl⟩ := List.exists_cons_of_ne_nil (show bs ≠ [] from fun he => by
    simp [he] at hcode)
  have hb : logType.code = b := LogType.code_of_ofCode (by simpa using hcode)
  set bs := b :: tl
  set totLen := decodeLE ((bs.drop 9).take 4)
  have hl : ∀ m n, m + n ≤ bs.length → ((bs.drop m).take n).length = n := fun m n h => by
    simp only [List.length_take, List.length_drop]; omega
  have h29 : LOG_HEADER_SIZE = 29 := rfl
  have htot : totLen < 2 ^ 32 := by
    have := decodeLE_lt ((bs.drop 9).take 4)
    rwa [hl 9 4 (by omega)] at this
  have hpay : LOG_HEADER_SIZE + ((bs.drop LOG_HEADER_SIZE).take (totLen - LOG_HEADER_SIZE)).length
      = totLen := by rw [hl LOG_HEADER_SIZE (totLen - LOG_HEADER_SIZE) (by omega)]; omega
  have h4 := encodeLE_decodeLE ((bs.drop 9).take 4)
  rw [hl 9 4 (by omega)] at h4
  have h8 : ∀ k, ((bs.drop k).take 8).length ≤ 8 := fun _ => List.length_take_le _ _
  refine ⟨⟨(readI64_bounds (h8 1)).1, (readI64_bounds (h8 1)).2, (readI64_bounds (h8 13)).1,
    (readI64_bounds (h8 13)).2, (readI64_bounds (h8 21)).1, (readI64_bounds (h8 21)).2,
    by rw [LogRecord.logTotLen, hpay]; exact htot⟩, ?_⟩
  have e5 : (bs.drop LOG_HEADER_SIZE).take (totLen - LOG_HEADER_SIZE) ++ bs.drop totLen =
      bs.drop LOG_HEADER_SIZE := by
    have := take_drop_append bs LOG_HEADER_SIZE (totLen - LOG_HEADER_SIZE)
    rwa [Nat.add_sub_cancel' hlen.1] at this
  have e4 : (bs.drop 21).take 8 ++ bs.drop LOG_HEADER_SIZE = bs.drop 21 := take_drop_append bs 21 8
  simp only [LogRecord.serialize, LogRecord.logTotLen, hpay, hb, h4,
    encodeLE_readI64 (hl 1 8 (by omega)), encodeLE_readI64 (hl 13 8 (by omega)),
    encodeLE_readI64 (hl 21 8 (by omega)), List.append_assoc]
  rw [e5, e4, take_drop_append bs 13 8, take_drop_append bs 9 4, take_drop_append bs 1 8]
  rfl

lemma streamBytes_of_readRecords : ∀ {fuel : Nat} {bs : Bytes} {rs : List LogRecord},
    readRecords fuel bs = some rs → (∀ r ∈ rs, Fits r) ∧ streamBytes rs = bs
  | _, [], rs, h => by
    simp only [readRecords, Option.some.injEq] at h
    subst h
    exact ⟨nofun, rfl⟩
  | 0, _ :: _, _, h => by simp [readRecords] at h
  | fuel + 1, b :: bs, rs, h => by
    simp only [readRecords, Option.bind_eq_bind, Option.bind_eq_some] at h
    obtain ⟨⟨r, rest⟩, h1, rs', h2, hrs⟩ := h
    obtain ⟨hr, hser⟩ := serialize_of_readRecord h1
    obtain ⟨hrs', hstream⟩ := streamBytes_of_readRecords h2
    obtain rfl : r :: rs' = rs := Option.some.inj hrs
    refine ⟨fun r' hr' => ?_, by rw [streamBytes_cons, hstream, hser]⟩
    rcases List.mem_cons.mp hr' with rfl | hr'
    · exact hr
    · exact hrs' r' hr'

/-- The log format is exactly self-delimiting: the reader accepts a byte string exactly when it
is the serialization of a list of records whose header fields fit, and then returns that
list. -/
theorem readLog_eq_some_iff (bs : Bytes) (rs : List LogRecord) :
    readLog bs = some rs ↔ (∀ r ∈ rs, Fits r) ∧ streamBytes rs = bs :=
  ⟨streamBytes_of_readRecords, fun ⟨hrs, h⟩ => h ▸ readLog_streamBytes hrs⟩

end Rmdb.Recovery.LogReader

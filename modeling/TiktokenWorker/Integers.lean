import TiktokenWorker.Decoding
import TiktokenWorker.Scalar.Chunk
import TiktokenWorker.Scalar.Truncate

/-!
# Number arguments through casts

A number argument goes from its column type to an `i64`, is clamped at zero and goes on to a
`usize`. `castUsize` is where a mathematical value ends up, `Target.limit` the first value that is
not kept. What a wrapped number changes follows from how `truncate` and `chunk` depend on it and
from how many tokens there can be.
-/

namespace TiktokenWorker

open Arrow Utf8 Sliding

/-! ## Values of integer columns -/

/-- The mathematical value of a cell of an integer column. -/
def intValue : (dataType : DataType) → dataType.Native → Option Int
  | .int8, value => some (Int8.toInt value)
  | .int16, value => some (Int16.toInt value)
  | .int32, value => some (Int32.toInt value)
  | .int64, value => some (Int64.toInt value)
  | .uint8, value => some (UInt8.toNat value)
  | .uint16, value => some (UInt16.toNat value)
  | .uint32, value => some (UInt32.toNat value)
  | .uint64, value => some (UInt64.toNat value)
  | _, _ => none

/-- The first value the casts to `usize` do not keep. -/
def Target.limit : Target → Nat
  | .native => 2 ^ 63
  | .wasm32 => 2 ^ 32

/-- The `usize` a value is cast to: the `i64` of a larger one is negative and clamped. -/
def castUsize (target : Target) (value : Int) : Nat :=
  if value < 2 ^ 63 then value.toNat % 2 ^ target.usizeBits else 0

/-- Clamping at zero. -/
theorem toInt_max_zero (n : Int64) : (max n 0).toInt = max n.toInt 0 := by
  change (if n ≤ 0 then (0 : Int64) else n).toInt = max n.toInt 0
  by_cases negative : n ≤ 0
  · have below := Int64.le_iff_toInt_le.mp negative
    rw [if_pos negative]
    exact (max_eq_right below).symm
  · have above := Int64.le_iff_toInt_le.not.mp negative
    rw [if_neg negative]
    exact (max_eq_left (le_of_lt (not_le.mp above))).symm

/-- The clamp and the cast of an `i64`. -/
theorem asUsize_max (target : Target) (n : Int64) :
    asUsize target (max n 0) = castUsize target n.toInt := by
  have bound := n.toInt_lt
  rw [asUsize, castUsize, if_pos bound, toInt_max_zero]
  by_cases negative : n.toInt ≤ 0
  · rw [max_eq_right negative, Int.toNat_of_nonpos negative]
    simp
  · rw [max_eq_left (by omega), Int.toNat_emod (by omega) (by positivity)]
    congr 1

/-- An unsigned word as an `i64`. -/
theorem toInt_toInt64 (word : UInt64) : word.toInt64.toInt =
    if (word.toNat : Int) < 2 ^ 63 then (word.toNat : Int) else word.toNat - 2 ^ 64 := by
  have bound := word.toNat_lt
  rw [Int64.toInt, UInt64.toBitVec_toInt64, BitVec.toInt_eq_toNat_cond, UInt64.toNat_toBitVec]
  split <;> split <;> omega

/-- Every cell of an integer column is read, and ends up as the cast of its value. -/
theorem readInt_value {dataType : DataType} {cell : dataType.Native} {value : Int}
    (ofType : intValue dataType cell = some value) (target : Target) :
    ∃ n, readInt dataType cell = .ok n ∧ asUsize target (max n 0) = castUsize target value := by
  have keeps (n : Int64) (value : Int) (same : n.toInt = value) :
      asUsize target (max n 0) = castUsize target value := same ▸ asUsize_max target n
  have small (word : UInt64) (bound : word.toNat < 2 ^ 32) : word.toInt64.toInt = word.toNat := by
    rw [toInt_toInt64, if_pos (by omega)]
  cases dataType <;> simp only [intValue, Option.some.injEq, reduceCtorEq] at ofType <;>
    subst ofType
  case int8 => exact ⟨_, rfl, keeps _ _ (Int8.toInt_toInt64 cell)⟩
  case int16 => exact ⟨_, rfl, keeps _ _ (Int16.toInt_toInt64 cell)⟩
  case int32 => exact ⟨_, rfl, keeps _ _ (Int32.toInt_toInt64 cell)⟩
  case int64 => exact ⟨_, rfl, keeps _ _ rfl⟩
  case uint8 =>
    have bound := UInt8.toNat_lt cell
    exact ⟨_, rfl, keeps _ _ (small _ (by rw [UInt8.toNat_toUInt64]; omega))⟩
  case uint16 =>
    have bound := UInt16.toNat_lt cell
    exact ⟨_, rfl, keeps _ _ (small _ (by rw [UInt16.toNat_toUInt64]; omega))⟩
  case uint32 =>
    have bound := UInt32.toNat_lt cell
    exact ⟨_, rfl, keeps _ _ (small _ (by rw [UInt32.toNat_toUInt64]; omega))⟩
  case uint64 =>
    have bound := UInt64.toNat_lt cell
    refine ⟨_, rfl, (asUsize_max target _).trans ?_⟩
    unfold castUsize
    rw [toInt_toInt64]
    split
    · rfl
    · simp only [show ((UInt64.toNat cell : Int) - 2 ^ 64).toNat = 0 by omega, Nat.zero_mod,
        ite_self]

/-- Every cell of an integer column is read through `int_val`. -/
theorem intVal_value {col : ArrayRef} {row : Nat} {cell : col.dataType.Native} {value : Int}
    (present : col.cells[row]? = some (some cell))
    (ofType : intValue col.dataType cell = some value) (target : Target) :
    ∃ n, intVal col row = .ok (some n) ∧ asUsize target (max n 0) = castUsize target value := by
  obtain ⟨n, reads, cast⟩ := readInt_value ofType target
  exact ⟨n, readCell_value present reads, cast⟩

/-! ## What a cast changes -/

variable (rs : TiktokenRs) (target : Target)

/-- Values below the limit are kept, negative ones as zero. -/
theorem castUsize_of_lt {value : Int} (below : value < target.limit) :
    castUsize target value = value.toNat := by
  unfold castUsize
  cases target with
  | native =>
    simp only [Target.limit, Target.usizeBits] at below ⊢
    rw [if_pos (by omega), Nat.mod_eq_of_lt (by omega)]
  | wasm32 =>
    simp only [Target.limit, Target.usizeBits] at below ⊢
    rw [if_pos (by omega), Nat.mod_eq_of_lt (by omega)]

/-- An allocated list of tokens has fewer than the limit. -/
theorem lt_limit_of_allocated {tokens : Nat}
    (allocated : 4 * tokens ≤ 2 ^ (target.usizeBits - 1) - 1) : tokens < target.limit := by
  cases target with
  | native => simp only [Target.limit, Target.usizeBits] at allocated ⊢; omega
  | wasm32 => simp only [Target.limit, Target.usizeBits] at allocated ⊢; omega

/-- When truncation to the cast of a value is truncation to the value. -/
theorem truncate_castUsize_iff (text : String) (encoding : Encoding)
    (level : (encoding.bpe rs).ByteLevel)
    (allocated : 4 * count rs text encoding ≤ 2 ^ (target.usizeBits - 1) - 1) (value : Int) :
    truncate rs text (castUsize target value) encoding = truncate rs text value.toNat encoding ↔
      value < target.limit ∨ count rs text encoding ≤ castUsize target value ∨
      ∃ before, text.toList = before ++ ['\uFFFD'] ∧ (utf8 before).length <
        (encoding.bpe rs).boundary ((encoding.bpe rs).encodeOrdinary text)
          (castUsize target value) := by
  by_cases kept : value < target.limit
  · simp only [castUsize_of_lt target kept, kept, true_or]
  · have few := lt_limit_of_allocated target allocated
    rw [truncate_of_count_le rs encoding level text (show count rs text encoding ≤ value.toNat by
      omega), truncate_eq_self_iff rs encoding level]
    simp only [kept, false_or]

/-- Chunks depend on the overlap as it is clamped. -/
theorem chunk_overlap_congr (text : String) (encoding : Encoding) {maxTokens o o' : Nat}
    (same : min o (maxTokens - 1) = min o' (maxTokens - 1)) :
    chunk rs text maxTokens o encoding = chunk rs text maxTokens o' encoding := by
  unfold chunk
  simp only [same]

/-- The chunks of a text of one token more than a window: its first window, and the rest of the
text from the boundary after the first step on. -/
theorem chunk_of_succ (text : String) (encoding : Encoding)
    (level : (encoding.bpe rs).ByteLevel) (nonempty : text ≠ "") {maxTokens : Nat} (o : Nat)
    (positive : 1 ≤ maxTokens)
    (one_more : ((encoding.bpe rs).encodeOrdinary text).length = maxTokens + 1) :
    chunk rs text maxTokens o encoding = [truncate rs text maxTokens encoding,
      String.ofList (decodedWindow (spans 0 text.toList) ((encoding.bpe rs).boundary
        ((encoding.bpe rs).encodeOrdinary text) (maxTokens - min o (maxTokens - 1)))
          (utf8 text.toList).length)] := by
  let window := chunkWindow maxTokens o positive
  have two : window.count ((encoding.bpe rs).encodeOrdinary text).length = 2 := by
    rw [one_more]
    exact window.count_succ_size
  have second : window.slice ((encoding.bpe rs).encodeOrdinary text) 1 =
      ((encoding.bpe rs).encodeOrdinary text).extract (maxTokens - min o (maxTokens - 1))
        (maxTokens + 1) := by
    have last : window.stop ((encoding.bpe rs).encodeOrdinary text).length 1 = _ :=
      window.stop_of_last (by omega)
    rw [Window.slice, last, Window.start, Nat.one_mul, one_more]
    rfl
  rw [chunk_eq_windows rs text encoding maxTokens o positive nonempty
      (level.encodesText text nonempty), two, List.range_succ, List.range_one,
    truncate_eq_first_window rs text encoding maxTokens o positive nonempty,
    ← boundary_of_length_le rs encoding level text one_more.le,
    ← decode_extract rs encoding level text (by omega), ← second]
  rfl

/-- When a smaller overlap gives the chunks of the largest one. -/
theorem chunk_overlap_iff (text : String) (encoding : Encoding)
    (level : (encoding.bpe rs).ByteLevel) (nonempty : text ≠ "") {maxTokens o o' : Nat}
    (positive : 1 ≤ maxTokens) (largest : maxTokens - 1 ≤ o') :
    let toks := (encoding.bpe rs).encodeOrdinary text
    let suffix := fun start => decodedWindow (spans 0 text.toList)
      ((encoding.bpe rs).boundary toks start) (utf8 text.toList).length
    chunk rs text maxTokens o encoding = chunk rs text maxTokens o' encoding ↔
      toks.length ≤ maxTokens ∨ maxTokens ≤ o + 1 ∨
        toks.length = maxTokens + 1 ∧ suffix (maxTokens - o) = suffix 1 := by
  intro toks suffix
  have tokens := level.encodesText text nonempty
  have total : count rs text encoding = toks.length :=
    count_eq_length_encode rs encoding level text
  by_cases fits : toks.length ≤ maxTokens
  · rw [chunk_of_count_le rs encoding level o positive nonempty (total ▸ fits),
      chunk_of_count_le rs encoding level o' positive nonempty (total ▸ fits)]
    simp only [fits, true_or]
  by_cases clamped : maxTokens ≤ o + 1
  · rw [chunk_overlap_congr rs text encoding (show min o (maxTokens - 1) = min o' (maxTokens - 1) by
      omega)]
    simp only [clamped, true_or, or_true]
  simp only [fits, clamped, false_or]
  have smaller : min o (maxTokens - 1) = o := by omega
  have single : maxTokens - min o' (maxTokens - 1) = 1 := by omega
  constructor
  · intro same
    have counts := congrArg List.length same
    rw [chunk_eq_windows rs text encoding maxTokens o positive nonempty tokens,
      chunk_eq_windows rs text encoding maxTokens o' positive nonempty tokens,
      List.length_map, List.length_map, List.length_range, List.length_range] at counts
    have one_more : toks.length = maxTokens + 1 :=
      (chunkWindow maxTokens o positive).length_of_count_eq
        (chunkWindow maxTokens o' positive) rfl
        (show 2 ≤ maxTokens - min o (maxTokens - 1) by omega) single (Nat.not_le.mp fits) counts
    rw [chunk_of_succ rs text encoding level nonempty o positive one_more,
      chunk_of_succ rs text encoding level nonempty o' positive one_more, smaller, single,
      List.cons.injEq, List.cons.injEq, String.ofList_inj] at same
    exact ⟨one_more, same.2.1⟩
  · rintro ⟨one_more, same⟩
    rw [chunk_of_succ rs text encoding level nonempty o positive one_more,
      chunk_of_succ rs text encoding level nonempty o' positive one_more, smaller, single]
    exact congrArg (fun rest => [truncate rs text maxTokens encoding, String.ofList rest]) same

/-- When the chunks for the casts of two values are the chunks for the values. -/
theorem chunk_castUsize_iff (text : String) (encoding : Encoding)
    (level : (encoding.bpe rs).ByteLevel)
    (allocated : 4 * count rs text encoding ≤ 2 ^ (target.usizeBits - 1) - 1)
    (value overlap : Int) :
    let toks := (encoding.bpe rs).encodeOrdinary text
    let suffix := fun start => decodedWindow (spans 0 text.toList)
      ((encoding.bpe rs).boundary toks start) (utf8 text.toList).length
    chunk rs text (castUsize target value) (castUsize target overlap) encoding =
        chunk rs text value.toNat overlap.toNat encoding ↔
      count rs text encoding ≤ castUsize target value ∨
      value < target.limit ∧ (overlap < target.limit ∨
        value.toNat ≤ castUsize target overlap + 1 ∨
        count rs text encoding = value.toNat + 1 ∧
          suffix (value.toNat - castUsize target overlap) = suffix 1) := by
  intro toks suffix
  have few := lt_limit_of_allocated target allocated
  have total : count rs text encoding = toks.length :=
    count_eq_length_encode rs encoding level text
  by_cases empty : text = ""
  · simp [chunk, count, empty]
  by_cases kept : value < target.limit
  · rw [castUsize_of_lt target kept]
    by_cases overlapKept : overlap < target.limit
    · simp only [castUsize_of_lt target overlapKept, kept, overlapKept, true_or, and_self, or_true]
    by_cases positive : 1 ≤ value.toNat
    · have wrapped := chunk_overlap_iff rs text encoding level empty
        (o := castUsize target overlap) positive (show value.toNat - 1 ≤ overlap.toNat by omega)
      simp only [kept, overlapKept, true_and, false_or, total]
      exact wrapped
    · obtain zero : value.toNat = 0 := by omega
      simp [chunk, zero, kept]
  · rw [chunk_of_count_le rs encoding level overlap.toNat (by omega) empty
        (show count rs text encoding ≤ value.toNat by omega),
      chunk_eq_singleton_iff rs encoding level _ _ empty]
    simp only [kept, false_and, or_false]

/-! ## Number arguments -/

/-- What `truncate_to_tokens` promises for a number of any size. -/
def promisedTruncation (text : String) (n : Int) : String :=
  if n ≤ 0 then ""
  else
    let toks := tokenize rs text .defaultEncoding
    decode rs (toks.extract 0 (min n.toNat toks.length)) .defaultEncoding

/-- What `chunk_by_tokens` promises for numbers of any size. -/
def promisedChunks (text : String) (maxTokens overlap : Int) : List String :=
  if maxTokens ≤ 0 then []
  else chunk rs text maxTokens.toNat (max overlap 0).toNat .defaultEncoding

/-- The promised truncation is truncation to the value, not below zero. -/
theorem promisedTruncation_eq (level : (Encoding.defaultEncoding.bpe rs).ByteLevel)
    (text : String) (n : Int) :
    promisedTruncation rs text n = truncate rs text n.toNat .defaultEncoding := by
  unfold promisedTruncation
  by_cases negative : n ≤ 0
  · rw [if_pos negative, Int.toNat_of_nonpos negative, truncate, if_pos (Or.inl rfl)]
  · rw [if_neg negative, truncate_eq_decode rs .defaultEncoding level, count_eq_length_tokenize]

/-- The promised chunks are the chunks for the values, not below zero. -/
theorem promisedChunks_eq (text : String) (maxTokens overlap : Int) :
    promisedChunks rs text maxTokens overlap =
      chunk rs text maxTokens.toNat overlap.toNat .defaultEncoding := by
  unfold promisedChunks
  by_cases negative : maxTokens ≤ 0
  · rw [if_pos negative, Int.toNat_of_nonpos negative, chunk, dif_pos (Or.inr rfl)]
  · rw [if_neg negative]
    congr 1
    omega

/-- An unsigned number from `2 ^ 63` on keeps no tokens at all. -/
theorem large_number_keeps_nothing :
    ¬∀ (rs : TiktokenRs) (target : Target) (text number : ArrayRef) (i : Nat) (t : String)
        (cell : number.dataType.Native) (v : Int),
      (Encoding.defaultEncoding.bpe rs).ByteLevel →
      4 * count rs t .defaultEncoding ≤ 2 ^ (target.usizeBits - 1) - 1 →
      textStr text i = .ok (some t) → number.cells[i]? = some (some cell) →
      intValue number.dataType cell = some v →
        TruncateToTokens.row rs target text number i = .ok (some (promisedTruncation rs t v)) := by
  intro keeps
  have kept := keeps Greedy.crate .native ⟨.utf8, [some "hello world"], by decide⟩
    ⟨.uint64, [some (9223372036854775808 : UInt64)], by decide⟩ 0 "hello world"
    (9223372036854775808 : UInt64) 9223372036854775808 Greedy.cl100k.bpe_byteLevel (by decide)
    rfl rfl (by decide)
  revert kept
  decide +kernel

/-- When a number argument keeps its value: exactly when both casts do, or when what they wrap it
to keeps as many tokens as there are. What the wrapped number gives otherwise is the same only by
coincidence: truncation cuts a last character that is U+FFFD itself, or a text of one token more
than a window has the same rest after a wrapped overlap as after the largest. -/
theorem number_arguments_kept_iff (text number overlap : ArrayRef) (i : Nat) (t : String)
    {n : number.dataType.Native} {k : overlap.dataType.Native} {v o : Int}
    (level : (Encoding.defaultEncoding.bpe rs).ByteLevel)
    (allocated : 4 * count rs t .defaultEncoding ≤ 2 ^ (target.usizeBits - 1) - 1)
    (readsText : textStr text i = .ok (some t))
    (numberAt : number.cells[i]? = some (some n)) (isNumber : intValue number.dataType n = some v)
    (overlapAt : overlap.cells[i]? = some (some k))
    (isOverlap : intValue overlap.dataType k = some o) :
    let toks := (Encoding.defaultEncoding.bpe rs).encodeOrdinary t
    let byteAt := (Encoding.defaultEncoding.bpe rs).boundary toks
    let suffix := fun start => decodedWindow (spans 0 t.toList) (byteAt start)
      (utf8 t.toList).length
    (TruncateToTokens.row rs target text number i = .ok (some (promisedTruncation rs t v)) ↔
      v < target.limit ∨ count rs t .defaultEncoding ≤ castUsize target v ∨
        ∃ before, t.toList = before ++ ['\uFFFD'] ∧
          (utf8 before).length < byteAt (castUsize target v)) ∧
    (ChunkByTokensOverlap.row rs target text number overlap i =
        .ok (some (promisedChunks rs t v o)) ↔
      count rs t .defaultEncoding ≤ castUsize target v ∨
        v < target.limit ∧ (o < target.limit ∨ v.toNat ≤ castUsize target o + 1 ∨
          count rs t .defaultEncoding = v.toNat + 1 ∧
            suffix (v.toNat - castUsize target o) = suffix 1)) := by
  intro toks byteAt suffix
  obtain ⟨m, readsNumber, numberCast⟩ := intVal_value numberAt isNumber target
  obtain ⟨l, readsOverlap, overlapCast⟩ := intVal_value overlapAt isOverlap target
  have truncated : TruncateToTokens.row rs target text number i =
      .ok (some (truncate rs t (castUsize target v) .defaultEncoding)) := by
    rw [TruncateToTokens.row, readsText, readsNumber, ← numberCast]
    rfl
  have chunked : ChunkByTokensOverlap.row rs target text number overlap i =
      .ok (some (chunk rs t (castUsize target v) (castUsize target o) .defaultEncoding)) := by
    rw [ChunkByTokensOverlap.row, readsText, readsNumber, readsOverlap, ← numberCast, ← overlapCast]
    rfl
  constructor
  · rw [truncated, promisedTruncation_eq rs level, Except.ok.injEq, Option.some.injEq]
    exact truncate_castUsize_iff rs target t .defaultEncoding level allocated v
  · rw [chunked, promisedChunks_eq, Except.ok.injEq, Option.some.injEq]
    exact chunk_castUsize_iff rs target t .defaultEncoding level allocated v o

/-- A browser worker reads `2 ^ 32` of a `BIGINT` as zero. -/
theorem number_arguments_kept_iff_wasm32 :
    TruncateToTokens.row Greedy.crate .wasm32 ⟨.utf8, [some "hello world"], by decide⟩
        ⟨.int64, [some (4294967296 : Int64)], by decide⟩ 0 ≠
      .ok (some (promisedTruncation Greedy.crate "hello world" 4294967296)) := by
  intro kept
  have truncated := (number_arguments_kept_iff Greedy.crate .wasm32
    ⟨.utf8, [some "hello world"], by decide⟩ ⟨.int64, [some (4294967296 : Int64)], by decide⟩
    ⟨.int32, [some (0 : Int32)], by decide⟩ 0 "hello world" Greedy.cl100k.bpe_byteLevel (by decide)
    rfl rfl (show intValue .int64 (4294967296 : Int64) = some 4294967296 by decide) rfl rfl).1
  obtain below | fits | ⟨before, ends, _⟩ := truncated.mp kept
  · exact absurd below (by decide)
  · exact absurd fits (by decide)
  · have last := congrArg List.getLast? ends
    rw [List.getLast?_concat] at last
    exact absurd last (by decide)

end TiktokenWorker

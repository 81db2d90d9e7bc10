import TiktokenWorker.Budget
import TiktokenWorker.Scalar.Chunk

/-!
# Room for the chunks of a batch

The strings of a list column lie in one buffer with 32-bit offsets. Chunks that overlap repeat
the bytes of a token in every window that holds it, so the chunks of a batch can take more bytes
than its texts and more than the offsets reach.
-/

namespace TiktokenWorker

open Arrow Utf8 Sliding

variable (rs : TiktokenRs)

/-- Bytes of some strings, one after the other. -/
def bytesIn (pieces : List String) : Nat := (pieces.map String.utf8ByteSize).sum

/-- The bytes of some strings are what a string builder has to index. -/
theorem buffered_some (pieces : List String) : buffered (pieces.map some) = bytesIn pieces := by
  simp only [buffered, bytesIn, List.map_map]
  rfl

/-- The bytes of the strings of some rows, row by row. -/
theorem bytesIn_flat (rows : List (Option (List String))) :
    bytesIn (flat rows) = (rows.map fun row => bytesIn (row.getD [])).sum := by
  induction rows with
  | nil => rfl
  | cons row rows ih =>
    rw [List.map_cons, List.sum_cons, ← ih, flat, List.flatMap_cons, bytesIn, List.map_append,
      List.sum_append]
    rfl

/-! ## Bytes of the chunks of a text -/

section Chunks

variable (encoding : Encoding) (level : (encoding.bpe rs).ByteLevel) (text : String)
  {maxTokens overlap : Nat}

include level

/-- Tokens decode to at least one byte. -/
theorem one_le_decode {ids : List UInt32} (known : (encoding.bpe rs).Known ids)
    (some_tokens : ids ≠ []) : 1 ≤ (decode rs ids encoding).utf8ByteSize := by
  have bytes := level.length_le_bytesOf known
  have tokens := List.length_pos_iff.mpr some_tokens
  rw [decode_known rs encoding level known]
  cases found : (encoding.bpe rs).bytesOf ids with
  | nil => rw [found, List.length_nil] at bytes; omega
  | cons byte rest =>
    rw [fromUtf8Lossy_cons, Nat.one_le_iff_ne_zero]
    intro none
    have characters := congrArg String.toList (String.utf8ByteSize_eq_zero_iff.mp none)
    rw [String.toList_ofList] at characters
    exact List.cons_ne_nil _ _ characters

/-- Every chunk has at least one byte. -/
theorem one_le_of_mem_chunk {piece : String}
    (emitted : piece ∈ chunk rs text maxTokens overlap encoding) : 1 ≤ piece.utf8ByteSize := by
  have positive : 1 ≤ maxTokens := by
    by_contra zero
    rw [chunk, dif_pos (Or.inr (by omega))] at emitted
    exact List.not_mem_nil emitted
  obtain ⟨_, tokens, i, inside, rfl⟩ := exists_window_of_mem_chunk rs positive emitted
  have filled := (chunkWindow maxTokens overlap positive).start_lt_stop
    (List.length_pos_iff.mpr tokens) inside
  have some_tokens : (chunkWindow maxTokens overlap positive).slice
      ((encoding.bpe rs).encodeOrdinary text) i ≠ [] := by
    apply List.length_pos_iff.mp
    rw [Window.length_slice]
    omega
  exact one_le_decode rs encoding level (level.known_extract text _ _) some_tokens

/-- The chunks of a text take at most three times its bytes for each step it takes to cross a
window. -/
theorem bytesIn_chunk_le :
    bytesIn (chunk rs text maxTokens overlap encoding) ≤
      3 * text.utf8ByteSize * (maxTokens ⌈/⌉ (maxTokens - min overlap (maxTokens - 1))) := by
  by_cases refused : text.isEmpty ∨ maxTokens = 0
  · rw [chunk, dif_pos refused]
    exact Nat.zero_le _
  obtain ⟨nonempty, positive⟩ := not_or.mp refused
  rw [String.isEmpty_iff] at nonempty
  have positive := Nat.one_le_iff_ne_zero.mpr positive
  let window := chunkWindow maxTokens overlap positive
  let toks := (encoding.bpe rs).encodeOrdinary text
  let byteAt := (encoding.bpe rs).boundary toks
  have tokens := level.encodesText text nonempty
  have whole : byteAt toks.length = text.utf8ByteSize := by
    rw [utf8ByteSize_eq, ← level.bytesOf_encode text]
    exact (encoding.bpe rs).boundary_length toks
  have piece (i : Nat) (inside : i < window.count toks.length) :
      (decode rs (window.slice toks i) encoding).utf8ByteSize ≤
        3 * (byteAt (window.stop toks.length i) - byteAt (window.start i)) := by
    have filled := window.start_lt_stop (List.length_pos_iff.mpr tokens) inside
    rw [utf8ByteSize_eq, ← (encoding.bpe rs).length_bytesOf_window toks filled.le]
    exact length_decode_le rs encoding level (level.known_extract text _ _)
  rw [chunk_eq_windows rs text encoding maxTokens overlap positive nonempty tokens, bytesIn,
    List.map_map]
  calc ∑ i ∈ Finset.range (window.count toks.length),
        (decode rs (window.slice toks i) encoding).utf8ByteSize
      ≤ ∑ i ∈ Finset.range (window.count toks.length),
          3 * (byteAt (window.stop toks.length i) - byteAt (window.start i)) :=
        Finset.sum_le_sum fun i member => piece i (Finset.mem_range.mp member)
    _ = 3 * ∑ i ∈ Finset.range (window.count toks.length),
          (byteAt (window.stop toks.length i) - byteAt (window.start i)) :=
        (Finset.mul_sum _ _ _).symm
    _ ≤ 3 * (window.size ⌈/⌉ window.step * (byteAt toks.length - byteAt 0)) :=
        Nat.mul_le_mul_left 3 (window.sum_growth_le byteAt
          (fun _ _ ordered => (encoding.bpe rs).boundary_mono toks ordered) _ _)
    _ ≤ 3 * text.utf8ByteSize * (window.size ⌈/⌉ window.step) := by
        rw [whole, Nat.mul_comm (window.size ⌈/⌉ window.step), Nat.mul_assoc]
        exact Nat.mul_le_mul_left 3 (Nat.mul_le_mul_right _ (Nat.sub_le _ _))

end Chunks

/-! ## Bytes of the chunks of a batch -/

namespace ChunkByTokensOverlap

variable (target : Target)

/-- Bytes the chunks of a batch append to the string builder. -/
def appended (batch : RecordBatch) : Nat := bytesIn (flat (rowsOf rs target batch))

/-- Three times the bytes of the text of a row for each step it takes to cross its window. -/
def cellBound (text : Option String) (maxTokens overlap : Option Int64) : Nat :=
  match text, maxTokens, overlap with
  | some t, some m, some o =>
    let m := asUsize target (max m 0)
    let o := asUsize target (max o 0)
    3 * t.utf8ByteSize * (m ⌈/⌉ (m - min o (m - 1)))
  | _, _, _ => 0

variable (level : (Encoding.defaultEncoding.bpe rs).ByteLevel)

include level

/-- The chunks of a row stay within its bound. -/
theorem bytesIn_cell_le (text : Option String) (maxTokens overlap : Option Int64) :
    bytesIn ((cell rs target text maxTokens overlap).getD []) ≤
      cellBound target text maxTokens overlap := by
  rcases text with _ | t
  · exact Nat.zero_le _
  rcases maxTokens with _ | m
  · exact Nat.zero_le _
  rcases overlap with _ | o
  · exact Nat.zero_le _
  exact bytesIn_chunk_le rs .defaultEncoding level t

/-- The chunks of a batch stay within the bounds of its rows. -/
theorem appended_le (batch : RecordBatch) : appended rs target batch ≤
    ((List.range batch.numRows).map fun i =>
      cellBound target (textAt batch 0 i) (intAt batch 1 i) (intAt batch 2 i)).sum := by
  rw [appended, bytesIn_flat, rowsOf, List.map_map]
  exact List.sum_le_sum fun i _ => bytesIn_cell_le rs target level _ _ _

/-- Every chunk of a row has at least one byte. -/
theorem one_le_of_mem_cell (text : Option String) (maxTokens overlap : Option Int64)
    {piece : String} (emitted : piece ∈ (cell rs target text maxTokens overlap).getD []) :
    1 ≤ piece.utf8ByteSize := by
  rcases text with _ | t
  · exact absurd emitted List.not_mem_nil
  rcases maxTokens with _ | m
  · exact absurd emitted List.not_mem_nil
  rcases overlap with _ | o
  · exact absurd emitted List.not_mem_nil
  exact one_le_of_mem_chunk rs .defaultEncoding level t emitted

/-- Every chunk of a batch has at least one byte. -/
theorem one_le_of_mem_rows (batch : RecordBatch) {piece : String}
    (emitted : piece ∈ flat (rowsOf rs target batch)) : 1 ≤ piece.utf8ByteSize := by
  obtain ⟨row, listed, member⟩ := List.mem_flatMap.mp emitted
  obtain ⟨i, _, rfl⟩ := List.mem_map.mp listed
  exact one_le_of_mem_cell rs target level _ _ _ member

/-- Chunks fit a list builder exactly when their bytes fit its string builder: there are no more
chunks than bytes. -/
theorem fits_rows_iff (batch : RecordBatch) :
    ListBuilder.Fits (rowsOf rs target batch) ↔ appended rs target batch ≤ offsetMax := by
  rw [ListBuilder.Fits, buffered_some]
  constructor
  · exact And.left
  · intro bytes
    refine ⟨bytes, le_trans ?_ bytes⟩
    have counted := List.length_le_sum_of_one_le
      ((flat (rowsOf rs target batch)).map String.utf8ByteSize) fun size member => by
        obtain ⟨piece, emitted, rfl⟩ := List.mem_map.mp member
        exact one_le_of_mem_rows rs target level batch emitted
    rwa [List.length_map] at counted

end ChunkByTokensOverlap

/-! ## When the builder overflows -/

/-- As many tokens of ` world` decode to as many ` world`. -/
theorem decode_worlds (n : Nat) :
    decode Greedy.crate (List.replicate n 1917) .defaultEncoding = Greedy.worlds n := by
  have known := Greedy.cl100k.bpe_byteLevel.known_encode (Greedy.worlds n)
  have bytes := Greedy.cl100k.bpe_byteLevel.bytesOf_encode (Greedy.worlds n)
  rw [Greedy.encodeOrdinary_worlds] at known bytes
  exact decode_of_bytes Greedy.crate .defaultEncoding Greedy.cl100k.bpe_byteLevel known bytes

/-- A text of `2 * m` tokens has `m + 1` windows of `m` tokens that advance by one. -/
theorem bytesIn_chunk_worlds (m : Nat) (positive : 1 ≤ m) :
    bytesIn (chunk Greedy.crate (Greedy.worlds (2 * m)) m (m - 1) .defaultEncoding) =
      (m + 1) * (6 * m) := by
  let window := chunkWindow m (m - 1) positive
  have size : window.size = m := rfl
  have step : window.step = 1 := by
    simp only [window, Window.step, chunkWindow]
    omega
  have tokens : (Encoding.defaultEncoding.bpe Greedy.crate).encodeOrdinary
      (Greedy.worlds (2 * m)) = List.replicate (2 * m) 1917 := Greedy.encodeOrdinary_worlds _
  have nonempty : Greedy.worlds (2 * m) ≠ "" := by
    intro empty
    have bytes := Greedy.utf8ByteSize_worlds (2 * m)
    rw [empty, String.utf8ByteSize_empty] at bytes
    omega
  have count : window.count (2 * m) = m + 1 := by
    rw [Window.count, size, step, if_neg (by omega), ceilDiv_one]
    omega
  have piece (i : Nat) (inside : i < m + 1) : (decode Greedy.crate
      (window.slice (List.replicate (2 * m) 1917) i) .defaultEncoding).utf8ByteSize = 6 * m := by
    have same : window.slice (List.replicate (2 * m) (1917 : UInt32)) i =
        List.replicate m 1917 := by
      rw [Window.slice, List.length_replicate, Window.stop, Window.start, size, step,
        List.extract_eq_take_drop, List.drop_replicate, List.take_replicate]
      congr 1
      omega
    rw [same, decode_worlds, Greedy.utf8ByteSize_worlds]
  rw [chunk_eq_windows Greedy.crate _ .defaultEncoding m (m - 1) positive nonempty
      (Greedy.cl100k.bpe_byteLevel.encodesText _ nonempty), tokens, List.length_replicate, bytesIn,
    List.map_map]
  calc ((List.range (window.count (2 * m))).map fun i => (decode Greedy.crate
          (window.slice (List.replicate (2 * m) 1917) i) .defaultEncoding).utf8ByteSize).sum
      = ((List.range (m + 1)).map fun _ => 6 * m).sum := by
        rw [count]
        exact congrArg List.sum
          (List.map_congr_left fun i member => piece i (List.mem_range.mp member))
    _ = (m + 1) * (6 * m) := by
        rw [List.map_const', List.length_range, List.sum_replicate, smul_eq_mul]

/-- A batch of one row, of a string and two 32-bit integers. -/
def oneRow (text : String) (fits : text.utf8ByteSize ≤ 2 ^ 31 - 1) (maxTokens overlap : Int32) :
    RecordBatch where
  numRows := 1
  columns := [⟨.utf8, [some text], fits⟩, ⟨.int32, [some maxTokens], Nat.zero_le _⟩,
    ⟨.int32, [some overlap], Nat.zero_le _⟩]
  lengths := by simp

/-- Its columns. -/
theorem oneRow_columns (text : String) (fits : text.utf8ByteSize ≤ 2 ^ 31 - 1)
    (maxTokens overlap : Int32) : ∃ texts sizes overlaps,
      (oneRow text fits maxTokens overlap).columns = [texts, sizes, overlaps] ∧
        texts.dataType = .utf8 ∧ sizes.dataType = .int32 ∧ overlaps.dataType = .int32 :=
  ⟨_, _, _, rfl, rfl, rfl, rfl⟩

/-- The chunks of its text are appended. -/
theorem appended_oneRow (target : Target) (text : String) (fits : text.utf8ByteSize ≤ 2 ^ 31 - 1)
    (maxTokens overlap : Int32) :
    ChunkByTokensOverlap.appended rs target (oneRow text fits maxTokens overlap) =
      bytesIn (chunk rs text (asUsize target (max maxTokens.toInt64 0))
        (asUsize target (max overlap.toInt64 0)) .defaultEncoding) :=
  (bytesIn_flat [_]).trans (Nat.add_zero _)

/-- It is admitted. -/
theorem oneRow_admits (text : String) (fits : text.utf8ByteSize ≤ 2 ^ 31 - 1)
    (maxTokens overlap : Int32) :
    Admits [.text, .integer, .integer] (oneRow text fits maxTokens overlap) :=
  .of_columns (.cons (fun text => ⟨text, rfl⟩) (.cons (fun n => ⟨Int32.toInt64 n, rfl⟩)
    (.cons (fun n => ⟨Int32.toInt64 n, rfl⟩) .nil)))

/-- A text of `40000` tokens has `20001` windows of `20000` that advance by one. -/
theorem chunks_exceed_offsets :
    ¬∀ (rs : TiktokenRs) (target : Target) (batch : RecordBatch)
        (text maxTokens overlap : ArrayRef),
      (Encoding.defaultEncoding.bpe rs).ByteLevel →
      batch.columns = [text, maxTokens, overlap] → text.dataType = .utf8 →
      maxTokens.dataType = .int32 → overlap.dataType = .int32 →
        ChunkByTokensOverlap.appended rs target batch ≤ 2 ^ 31 - 1 := by
  intro bounded
  have fits : (Greedy.worlds (2 * 20000)).utf8ByteSize ≤ 2 ^ 31 - 1 := by
    rw [Greedy.utf8ByteSize_worlds]
    omega
  obtain ⟨_, _, _, columns, isText, isSize, isOverlap⟩ :=
    oneRow_columns (Greedy.worlds (2 * 20000)) fits 20000 19999
  have small := bounded Greedy.crate .native _ _ _ _ Greedy.cl100k.bpe_byteLevel columns isText
    isSize isOverlap
  have size : asUsize .native (max (Int32.toInt64 20000) 0) = 20000 := by decide
  have shared : asUsize .native (max (Int32.toInt64 19999) 0) = 20000 - 1 := by decide
  rw [appended_oneRow, size, shared, bytesIn_chunk_worlds 20000 (by omega)] at small
  omega

/-- Chunking returns exactly while the chunks of the batch fit the offsets of its output, and
panics otherwise; whether they do is decided by the rows, and no row takes more than three times
the bytes of its text for each step it takes to cross its window. -/
theorem chunk_capacity (target : Target) (level : (Encoding.defaultEncoding.bpe rs).ByteLevel)
    {batch : RecordBatch} (admits : Admits [.text, .integer, .integer] batch) :
    (ChunkByTokensOverlap.appended rs target batch ≤ 2 ^ 31 - 1 →
      ∃ array, ChunkByTokensOverlap.process rs target batch = .ok array ∧
        array.HasRows (ChunkByTokensOverlap.rowsOf rs target batch)) ∧
    (2 ^ 31 - 1 < ChunkByTokensOverlap.appended rs target batch →
      ∃ message, ChunkByTokensOverlap.process rs target batch = .error (.panic message)) ∧
    ChunkByTokensOverlap.appended rs target batch ≤ ((List.range batch.numRows).map fun i =>
      ChunkByTokensOverlap.cellBound target (textAt batch 0 i) (intAt batch 1 i)
        (intAt batch 2 i)).sum := by
  have fits := ChunkByTokensOverlap.fits_rows_iff rs target level batch
  refine ⟨?_, ?_, ChunkByTokensOverlap.appended_le rs target level batch⟩
  · intro small
    obtain ⟨builder, built, holds⟩ :=
      ChunkByTokensOverlap.process_ok rs target admits (fits.mpr small)
    exact ⟨_, built, holds.finish⟩
  · intro large
    apply ChunkByTokensOverlap.process_panic rs target admits
    exact fits.not.mpr (Nat.not_le.mpr large)

/-- Two chunks fit. -/
theorem chunk_capacity_hello_world :
    ∃ array, ChunkByTokensOverlap.process Greedy.crate .native
        (oneRow "hello world" (by decide) 1 0) = .ok array ∧
      array.HasRows [some ["hello", " world"]] := by
  have capacity := chunk_capacity Greedy.crate .native Greedy.cl100k.bpe_byteLevel
    (oneRow_admits "hello world" (by decide) 1 0)
  have row : ChunkByTokensOverlap.rowsOf Greedy.crate .native
      (oneRow "hello world" (by decide) 1 0) = [some ["hello", " world"]] := by decide +kernel
  rw [← row]
  exact capacity.1 (by decide +kernel)

end TiktokenWorker

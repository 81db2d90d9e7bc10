import TiktokenWorker.Capacity
import TiktokenWorker.Counts
import TiktokenWorker.Outcome
import TiktokenWorker.Stitch

/-!
# Batches that always fit

A builder panics when its buffer outgrows 32-bit offsets. `room` bounds what a row can take of it
by the texts and numbers of the row, whatever tokens the encoders return, so the builders of a batch
whose rows have room together never panic.
-/

namespace TiktokenWorker

open Arrow Utf8 Sliding

/-! ## What a row takes -/

/-- Bytes of the text of a row. -/
def textBytes (batch : RecordBatch) (i : Nat) : Nat := (textAt batch 0 i).elim 0 String.utf8ByteSize

/-- Bytes, and values of a list, that are enough for the cell of a row. A name has at most thirteen
bytes, a text has no more tokens than bytes, and truncation adds at most one byte. -/
def ScalarFunction.room (target : Target) (batch : RecordBatch) (i : Nat) : ScalarFunction → Nat
  | encodingForModel => 13
  | countTokens | countTokensModel => 0
  | tokenize | tokenizeModel => textBytes batch i
  | truncateToTokens | truncateToTokensModel => textBytes batch i + 1
  | chunkByTokens => 3 * textBytes batch i
  | chunkByTokensOverlap =>
    ChunkByTokensOverlap.cellBound target (textAt batch 0 i) (intAt batch 1 i) (intAt batch 2 i)

/-- A cell that some room is enough for. -/
structure TakesAtMost (room : Nat) (cell : Option Datum) : Prop where
  /-- Its bytes. -/
  bytes : cell.elim 0 Datum.bytes ≤ room
  /-- Its values. -/
  items : cell.elim 0 Datum.items ≤ room

/-- NULL takes no room. -/
theorem TakesAtMost.null (room : Nat) : TakesAtMost room none :=
  ⟨Nat.zero_le room, Nat.zero_le room⟩

/-- A cell made of a value takes no more than it does for each value there may be. -/
theorem TakesAtMost.bind {α γ : Type} {room : Nat} {value : Option α} {next : α → Option γ}
    {datum : γ → Datum}
    (each : ∀ x, value = some x → TakesAtMost room ((next x).map datum)) :
    TakesAtMost room ((value >>= next).map datum) := by
  cases value with
  | none => exact TakesAtMost.null room
  | some x => exact each x rfl

/-- Cells that take at most what there is room for fit. -/
theorem cellsFit_of_room {cells : Nat → Option Datum} {room : Nat → Nat} {rows : Nat}
    (takes : ∀ i < rows, TakesAtMost (room i) (cells i))
    (enough : ((List.range rows).map room).sum ≤ offsetMax) :
    CellsFit ((List.range rows).map cells) := by
  have bounded (size : Datum → Nat) (each : ∀ i < rows, (cells i).elim 0 size ≤ room i) :
      (((List.range rows).map cells).map fun cell => cell.elim 0 size).sum ≤ offsetMax := by
    rw [List.map_map]
    apply le_trans (List.sum_le_sum fun i member => ?_) enough
    exact each i (List.mem_range.mp member)
  exact ⟨bounded Datum.bytes fun i inside => (takes i inside).bytes,
    bounded Datum.items fun i inside => (takes i inside).items⟩

/-- No encoding has a longer name. -/
theorem Encoding.utf8ByteSize_name_le (encoding : Encoding) : encoding.name.utf8ByteSize ≤ 13 := by
  cases encoding <;> decide

variable (rs : TiktokenRs)

section Cells

variable (encoding : Encoding) (level : (encoding.bpe rs).ByteLevel) (text : String)

include level

/-- Truncation adds at most a byte: it cuts at most one character, of at least two bytes, and U+FFFD
has three. -/
theorem utf8ByteSize_truncate_le (n : Nat) :
    (truncate rs text n encoding).utf8ByteSize ≤ text.utf8ByteSize + 1 := by
  have kept : (truncate rs text n encoding).toList = decodedWindow (spans 0 text.toList) 0
      ((encoding.bpe rs).boundary ((encoding.bpe rs).encodeOrdinary text) n) := by
    rw [truncate_eq_window rs encoding level, String.toList_ofList]
  rw [utf8ByteSize_eq, utf8ByteSize_eq]
  by_cases aligned : Aligned rs text encoding n
  · obtain ⟨rest, split⟩ := (truncate_isPrefix_iff rs level n).mpr (Or.inl aligned)
    have length := congrArg (fun characters => (utf8 characters).length) split
    rw [utf8_append, List.length_append] at length
    omega
  · obtain ⟨before, c, after, split, begun, cut⟩ :=
      insideChar_split text.toList 0 _ (not_not.mp aligned)
    rw [Nat.zero_add] at begun cut
    have whole : (utf8 (c :: after)).length = c.utf8Size + (utf8 after).length := by
      rw [utf8_cons, List.length_append, String.length_utf8EncodeChar]
    have replaced : (utf8 [replacement]).length = 3 := by decide
    rw [kept, split, decodedWindow_cut before c after begun cut, utf8_append, utf8_append,
      List.length_append, List.length_append, whole, replaced]
    omega

/-- Chunks that do not overlap take at most three times the bytes of the text. -/
theorem bytesIn_chunk_zero_le (maxTokens : Nat) :
    bytesIn (chunk rs text maxTokens 0 encoding) ≤ 3 * text.utf8ByteSize := by
  by_cases zero : maxTokens = 0
  · rw [chunk, dif_pos (Or.inr zero)]
    exact Nat.zero_le _
  · have once : maxTokens ⌈/⌉ (maxTokens - min 0 (maxTokens - 1)) ≤ 1 := by
      rw [Nat.zero_min, Nat.sub_zero, ceilDiv_le_iff_le_mul (Nat.pos_of_ne_zero zero), Nat.mul_one]
    have bounded : bytesIn (chunk rs text maxTokens 0 encoding) ≤
        3 * text.utf8ByteSize * (maxTokens ⌈/⌉ (maxTokens - min 0 (maxTokens - 1))) :=
      bytesIn_chunk_le rs encoding level text
    have factor := Nat.mul_le_mul_left (3 * text.utf8ByteSize) once
    rw [Nat.mul_one] at factor
    exact bounded.trans factor

/-- There are no more chunks than bytes of them. -/
theorem length_chunk_le (maxTokens overlap : Nat) :
    (chunk rs text maxTokens overlap encoding).length ≤
      bytesIn (chunk rs text maxTokens overlap encoding) := by
  have counted := List.length_le_sum_of_one_le
    ((chunk rs text maxTokens overlap encoding).map String.utf8ByteSize) fun size member => by
      obtain ⟨piece, emitted, rfl⟩ := List.mem_map.mp member
      exact one_le_of_mem_chunk rs encoding level text emitted
  rwa [List.length_map] at counted

/-- The ids of a text take no bytes and at most as many values as it has bytes. -/
theorem takes_tokenize :
    TakesAtMost text.utf8ByteSize (some (.ints (listInts (tokenize rs text encoding)))) where
  bytes := Nat.zero_le _
  items := by
    have tokens := count_le_bytes rs encoding level text
    rw [count_eq_length_tokenize, ← utf8ByteSize_eq] at tokens
    exact (List.length_map _).trans_le tokens

/-- A truncated text. -/
theorem takes_truncate (n : Nat) :
    TakesAtMost (text.utf8ByteSize + 1) (some (.text (truncate rs text n encoding))) where
  bytes := utf8ByteSize_truncate_le rs encoding level text n
  items := Nat.zero_le _

/-- The chunks of a text. -/
theorem takes_chunk (maxTokens overlap : Nat) :
    TakesAtMost (3 * text.utf8ByteSize * (maxTokens ⌈/⌉ (maxTokens - min overlap (maxTokens - 1))))
      (some (.texts (chunk rs text maxTokens overlap encoding))) where
  bytes := bytesIn_chunk_le rs encoding level text
  items := (length_chunk_le rs encoding level text maxTokens overlap).trans
    (bytesIn_chunk_le rs encoding level text)

/-- The chunks of a text that do not overlap. -/
theorem takes_chunk_zero (maxTokens : Nat) :
    TakesAtMost (3 * text.utf8ByteSize) (some (.texts (chunk rs text maxTokens 0 encoding))) where
  bytes := bytesIn_chunk_zero_le rs encoding level text maxTokens
  items := (length_chunk_le rs encoding level text maxTokens 0).trans
    (bytesIn_chunk_zero_le rs encoding level text maxTokens)

end Cells

/-! ## Batches with room -/

section Batches

variable (target : Target) (levels : ∀ encoding : Encoding, (encoding.bpe rs).ByteLevel)
  (function : ScalarFunction) (batch : RecordBatch)

include levels

/-- No cell takes more than the room of its row, for any of the functions. -/
theorem takes_room (i : Nat) :
    TakesAtMost (function.room target batch i) (function.cell rs target batch i) := by
  have bytes {text : String} (found : textAt batch 0 i = some text) :
      textBytes batch i = text.utf8ByteSize := by
    rw [textBytes, found, Option.elim_some]
  cases function with
  | encodingForModel =>
    refine TakesAtMost.bind fun model _ => ?_
    simp only [ScalarFunction.room, encodingNameForModel, Option.map_map]
    cases encodingForModel rs model with
    | none => exact TakesAtMost.null 13
    | some encoding => exact ⟨encoding.utf8ByteSize_name_le, Nat.zero_le 13⟩
  | countTokens => exact TakesAtMost.bind fun text _ => ⟨le_rfl, le_rfl⟩
  | countTokensModel =>
    exact TakesAtMost.bind fun text _ => TakesAtMost.bind fun model _ =>
      TakesAtMost.bind fun encoding _ => ⟨le_rfl, le_rfl⟩
  | tokenize =>
    refine TakesAtMost.bind fun text found => ?_
    rw [ScalarFunction.room, bytes found]
    exact takes_tokenize rs .defaultEncoding (levels _) text
  | tokenizeModel =>
    refine TakesAtMost.bind fun text found => TakesAtMost.bind fun model _ =>
      TakesAtMost.bind fun encoding _ => ?_
    rw [ScalarFunction.room, bytes found]
    exact takes_tokenize rs encoding (levels _) text
  | truncateToTokens =>
    refine TakesAtMost.bind fun text found => TakesAtMost.bind fun n _ => ?_
    rw [ScalarFunction.room, bytes found]
    exact takes_truncate rs .defaultEncoding (levels _) text _
  | truncateToTokensModel =>
    refine TakesAtMost.bind fun text found => TakesAtMost.bind fun n _ =>
      TakesAtMost.bind fun model _ => TakesAtMost.bind fun encoding _ => ?_
    rw [ScalarFunction.room, bytes found]
    exact takes_truncate rs encoding (levels _) text _
  | chunkByTokens =>
    refine TakesAtMost.bind fun text found => TakesAtMost.bind fun maxTokens _ => ?_
    rw [ScalarFunction.room, bytes found]
    exact takes_chunk_zero rs .defaultEncoding (levels _) text _
  | chunkByTokensOverlap =>
    refine TakesAtMost.bind fun text found => TakesAtMost.bind fun maxTokens foundMax =>
      TakesAtMost.bind fun overlap foundOverlap => ?_
    rw [ScalarFunction.room, found, foundMax, foundOverlap]
    exact takes_chunk rs .defaultEncoding (levels _) text _ _

omit levels in
/-- The texts of a column with 32-bit offsets are no longer than those reach. -/
theorem sum_textBytes_le {col : ArrayRef} (found : batch.columns[0]? = some col)
    (narrow : col.dataType = .utf8) :
    ((List.range batch.numRows).map (textBytes batch)).sum ≤ offsetMax := by
  have length := batch.lengths col (List.mem_of_getElem? found)
  obtain ⟨dataType, cells, within⟩ := col
  subst narrow
  have text (i : Nat) : textBytes batch i = (cells[i]?.join).elim 0 String.utf8ByteSize := by
    simp only [textBytes, textAt, readAt, found, Option.bind_some, cellAt, readCell]
    rcases cells[i]? with _ | _ | value <;> rfl
  have sizes : (List.range batch.numRows).map (textBytes batch) =
      cells.map fun cell => cell.elim 0 String.utf8ByteSize := by
    rw [List.map_congr_left fun i _ => text i, ← length]
    calc (List.range cells.length).map (fun i => (cells[i]?.join).elim 0 String.utf8ByteSize)
        = ((List.range cells.length).map fun i => cells[i]?.join).map
            fun cell => cell.elim 0 String.utf8ByteSize := by
          rw [List.map_map]
          rfl
      _ = cells.map fun cell => cell.elim 0 String.utf8ByteSize := by
          rw [map_join_getElem? cells]
  rw [sizes]
  exact within

/-- Batches that fit: no cell takes more than the room of its row, so the builders of a batch whose
rows have room together do not panic and it returns unless a row has an error; and counting or
tokenizing texts of a column with 32-bit offsets always has room. -/
theorem room_enough (columns : HasColumns function.kinds batch) :
    (∀ i, TakesAtMost (function.room target batch i) (function.cell rs target batch i)) ∧
    (((List.range batch.numRows).map fun i => function.room target batch i).sum ≤ 2 ^ 31 - 1 →
      (∀ message, function.process rs target batch ≠ .error (.panic message)) ∧
      ((∀ i < batch.numRows, ¬RowOffends function.kinds batch i) →
        ∃ column, function.process rs target batch = .ok column)) ∧
    (function ∈ [.countTokens, .countTokensModel, .tokenize, .tokenizeModel] →
      ∀ col, batch.columns[0]? = some col → col.dataType = .utf8 →
        ((List.range batch.numRows).map fun i => function.room target batch i).sum ≤
          2 ^ 31 - 1) := by
  have takes := takes_room rs target levels function batch
  have outcome := (function.builds rs target).outcome batch columns
  have fits (rows : Nat) (inside : rows ≤ batch.numRows)
      (enough : ((List.range batch.numRows).map fun i => function.room target batch i).sum ≤
        2 ^ 31 - 1) : CellsFit ((List.range rows).map (function.cell rs target batch)) := by
    have all := cellsFit_of_room (fun i _ => takes i) enough
    obtain ⟨more, total⟩ := Nat.exists_eq_add_of_le inside
    rw [total, List.range_add, List.map_append] at all
    exact all.parts.1
  refine ⟨takes, fun enough => ⟨fun message panicked => ?_, fun clean => ?_⟩, ?_⟩
  · obtain ⟨i, inside, _, exceeds⟩ := outcome.panics.mp ⟨message, panicked⟩
    exact exceeds (fits (i + 1) inside enough)
  · apply outcome.returns.mpr
    refine ⟨fun i inside => ?_, fits batch.numRows le_rfl enough⟩
    rw [← Option.not_isSome_iff_eq_none, rowError_isSome_iff]
    exact clean i inside
  · intro listed col found narrow
    have texts := sum_textBytes_le batch found narrow
    have none : ((List.range batch.numRows).map fun _ => 0).sum ≤ 2 ^ 31 - 1 := by
      rw [List.map_const', List.sum_replicate, smul_zero]
      exact Nat.zero_le _
    fin_cases listed
    · exact none
    · exact none
    · exact texts
    · exact texts

end Batches

/-- Two texts, one of them NULL. -/
theorem room_enough_two_texts : ∃ column,
    ScalarFunction.tokenize.process Greedy.crate .native
      ⟨2, [⟨.utf8, [some "hello world", none], by decide⟩], by decide⟩ = .ok column := by
  have room := room_enough Greedy.crate .native crate_byteLevel .tokenize
    ⟨2, [⟨.utf8, [some "hello world", none], by decide⟩], by decide⟩ le_rfl
  apply (room.2.1 (room.2.2 (by decide) _ rfl rfl)).2
  intro i inside offends
  have clean : ∀ i < 2, rowError ScalarFunction.tokenize.kinds
      ⟨2, [⟨.utf8, [some "hello world", none], by decide⟩], by decide⟩ i = none := by decide
  have error := rowError_isSome_iff.mpr offends
  rw [clean i inside] at error
  cases error

end TiktokenWorker

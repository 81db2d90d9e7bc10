import TiktokenWorker.Greedy
import TiktokenWorker.Scalar.Chunk
import TiktokenWorker.Scalar.Tokenize

/-!
# The list functions row by row

`tokenize` and `chunk_by_tokens` build one list column from a batch. `RowWise` says that the
column has a row for each row of the batch, that a row depends on its own cells only, and that a
batch laid end to end gives its rows laid end to end.
-/

namespace TiktokenWorker

open Arrow

variable {α : Type} [Buffered α]

/-- The cells of every row of a batch. -/
def rowsOf (cell : RecordBatch → Nat → Option (List α)) (batch : RecordBatch) :
    List (Option (List α)) :=
  (List.range batch.numRows).map (cell batch)

/-- A function over columns of these kinds gives each row its cell, and NULL exactly where a cell
it reads is NULL or its model is unknown. -/
structure RowWise (process : RecordBatch → Result (ListArray α)) (kinds : List Kind)
    (unknown : RecordBatch → Nat → Prop) (cell : RecordBatch → Nat → Option (List α)) : Prop where
  /-- The array has the row of each row. -/
  rows : ∀ batch, Admits kinds batch → ListBuilder.Fits (rowsOf cell batch) →
    ∃ array, process batch = .ok array ∧ array.HasRows (rowsOf cell batch)
  /-- Which rows are NULL. -/
  null : ∀ batch, Admits kinds batch → ∀ i < batch.numRows,
    cell batch i = none ↔ (∃ position < kinds.length, NullAt batch position i) ∨ unknown batch i
  /-- The array of a batch laid end to end has the rows of its parts. -/
  concat : ∀ whole left right : RecordBatch, whole.Appends left right → Admits kinds whole →
    ListBuilder.Fits (rowsOf cell whole) →
      ∃ array front back, process whole = .ok array ∧ process left = .ok front ∧
        process right = .ok back ∧ front.HasRows (rowsOf cell left) ∧
        back.HasRows (rowsOf cell right) ∧
        array.HasRows (rowsOf cell left ++ rowsOf cell right)

omit [Buffered α] in
/-- The rows of a batch laid end to end are those of its parts if a cell depends on its row. -/
theorem rowsOf_appends {cell : RecordBatch → Nat → Option (List α)} {whole left right : RecordBatch}
    (appends : whole.Appends left right)
    (front : ∀ i < left.numRows, cell whole i = cell left i)
    (back : ∀ i, cell whole (left.numRows + i) = cell right i) :
    rowsOf cell whole = rowsOf cell left ++ rowsOf cell right := by
  unfold rowsOf
  rw [appends.numRows, List.range_add, List.map_append, List.map_map]
  congr 1
  · exact List.map_congr_left fun i member => front i (List.mem_range.mp member)
  · exact List.map_congr_left fun i _ => back i

/-- Parts of rows that fit a list builder fit it. -/
theorem fits_parts {front back : List (Option (List α))} (fits : ListBuilder.Fits (front ++ back)) :
    ListBuilder.Fits front ∧ ListBuilder.Fits back := by
  unfold ListBuilder.Fits at *
  rw [flat_append, List.map_append, buffered_append, List.length_append] at fits
  exact ⟨⟨by omega, by omega⟩, by omega, by omega⟩

/-- A function that builds the cells of its rows, each from its own row, is row-wise. -/
theorem RowWise.of_cells {process : RecordBatch → Result (ListArray α)} {kinds : List Kind}
    {unknown : RecordBatch → Nat → Prop} {cell : RecordBatch → Nat → Option (List α)}
    (builds : ∀ batch, Admits kinds batch → ListBuilder.Fits (rowsOf cell batch) →
      ∃ builder : ListBuilder α, process batch = .ok builder.finish ∧
        builder.Holds (rowsOf cell batch) [])
    (null : ∀ batch, Admits kinds batch → ∀ i < batch.numRows,
      cell batch i = none ↔ (∃ position < kinds.length, NullAt batch position i) ∨ unknown batch i)
    (local_cell : ∀ whole left right : RecordBatch, whole.Appends left right → Admits kinds whole →
      (∀ i < left.numRows, cell whole i = cell left i) ∧
        ∀ i, cell whole (left.numRows + i) = cell right i) :
    RowWise process kinds unknown cell where
  rows batch admits fits := by
    obtain ⟨builder, built, holds⟩ := builds batch admits fits
    exact ⟨_, built, holds.finish⟩
  null := null
  concat whole left right appends admits fits := by
    obtain ⟨frontCells, backCells⟩ := local_cell whole left right appends admits
    obtain ⟨admitsLeft, admitsRight⟩ := admits.of_appends appends
    have same := rowsOf_appends appends frontCells backCells
    obtain ⟨fitsLeft, fitsRight⟩ := fits_parts (same ▸ fits)
    obtain ⟨builder, built, holds⟩ := builds whole admits fits
    obtain ⟨front, builtFront, holdsFront⟩ := builds left admitsLeft fitsLeft
    obtain ⟨back, builtBack, holdsBack⟩ := builds right admitsRight fitsRight
    exact ⟨_, _, _, built, builtFront, builtBack, holdsFront.finish, holdsBack.finish,
      same ▸ holds.finish⟩

/-! ## The four functions -/

section Functions

variable (rs : TiktokenRs) (target : Target)

/-- The rows of `tokenize(text)`. -/
theorem Tokenize.rowWise : RowWise (Tokenize.process rs) [.text] (fun _ _ => False)
    (fun batch i => Tokenize.cell rs (textAt batch 0 i)) := by
  apply RowWise.of_cells fun batch admits fits => Tokenize.process_ok rs admits fits
  · intro batch admits i inside
    have text := admits.textAt_eq_none_iff 0 rfl inside
    simp only [List.length_singleton, Nat.exists_lt_succ_right, Nat.not_lt_zero, false_and,
      exists_false, false_or, or_false, ← text]
    cases textAt batch 0 i <;> simp [Tokenize.cell]
  · intro whole left right appends admits
    obtain ⟨text, foundText, _⟩ := admits 0 .text rfl
    constructor
    · intro i inside
      simp only [textAt, readAt_front appends foundText inside]
    · intro i
      simp only [textAt, readAt_back appends foundText]

/-- The rows of `tokenize(text, model)`. -/
theorem TokenizeModel.rowWise : RowWise (TokenizeModel.process rs) [.text, .text]
    (fun batch i => ∃ model, textAt batch 1 i = some model ∧ resolve rs model = none)
    (fun batch i => TokenizeModel.cell rs (textAt batch 0 i) (textAt batch 1 i)) := by
  apply RowWise.of_cells fun batch admits fits => TokenizeModel.process_ok rs admits fits
  · intro batch admits i inside
    have text := admits.textAt_eq_none_iff 0 rfl inside
    have model := admits.textAt_eq_none_iff 1 rfl inside
    simp only [List.length_cons, List.length_nil, Nat.exists_lt_succ_right, Nat.not_lt_zero,
      false_and, exists_false, false_or, ← text, ← model]
    rcases textAt batch 0 i with _ | t
    · simp [TokenizeModel.cell]
    rcases textAt batch 1 i with _ | m
    · simp [TokenizeModel.cell]
    cases found : resolve rs m <;> simp [TokenizeModel.cell, found]
  · intro whole left right appends admits
    obtain ⟨text, foundText, _⟩ := admits 0 .text rfl
    obtain ⟨model, foundModel, _⟩ := admits 1 .text rfl
    constructor
    · intro i inside
      simp only [textAt, readAt_front appends foundText inside,
        readAt_front appends foundModel inside]
    · intro i
      simp only [textAt, readAt_back appends foundText, readAt_back appends foundModel]

/-- The rows of `chunk_by_tokens(text, max_tokens)`. -/
theorem ChunkByTokens.rowWise :
    RowWise (ChunkByTokens.process rs target) [.text, .integer] (fun _ _ => False)
      (fun batch i => ChunkByTokens.cell rs target (textAt batch 0 i) (intAt batch 1 i)) := by
  apply RowWise.of_cells
    fun batch admits fits => ChunkByTokens.process_ok rs target admits fits
  · intro batch admits i inside
    have text := admits.textAt_eq_none_iff 0 rfl inside
    have maxTokens := admits.intAt_eq_none_iff 1 rfl inside
    simp only [List.length_cons, List.length_nil, Nat.exists_lt_succ_right, Nat.not_lt_zero,
      false_and, exists_false, false_or, or_false, ← text, ← maxTokens]
    cases textAt batch 0 i <;> cases intAt batch 1 i <;> simp [ChunkByTokens.cell]
  · intro whole left right appends admits
    obtain ⟨text, foundText, _⟩ := admits 0 .text rfl
    obtain ⟨maxTokens, foundMax, _⟩ := admits 1 .integer rfl
    constructor
    · intro i inside
      simp only [textAt, intAt, readAt_front appends foundText inside,
        readAt_front appends foundMax inside]
    · intro i
      simp only [textAt, intAt, readAt_back appends foundText, readAt_back appends foundMax]

/-- The rows of `chunk_by_tokens(text, max_tokens, overlap)`. -/
theorem ChunkByTokensOverlap.rowWise :
    RowWise (ChunkByTokensOverlap.process rs target) [.text, .integer, .integer]
      (fun _ _ => False)
      (fun batch i => ChunkByTokensOverlap.cell rs target (textAt batch 0 i) (intAt batch 1 i)
        (intAt batch 2 i)) := by
  apply RowWise.of_cells
    fun batch admits fits => ChunkByTokensOverlap.process_ok rs target admits fits
  · intro batch admits i inside
    have text := admits.textAt_eq_none_iff 0 rfl inside
    have maxTokens := admits.intAt_eq_none_iff 1 rfl inside
    have overlap := admits.intAt_eq_none_iff 2 rfl inside
    simp only [List.length_cons, List.length_nil, Nat.exists_lt_succ_right, Nat.not_lt_zero,
      false_and, exists_false, false_or, or_false, ← text, ← maxTokens, ← overlap]
    cases textAt batch 0 i <;> cases intAt batch 1 i <;> cases intAt batch 2 i <;>
      simp [ChunkByTokensOverlap.cell]
  · intro whole left right appends admits
    obtain ⟨text, foundText, _⟩ := admits 0 .text rfl
    obtain ⟨maxTokens, foundMax, _⟩ := admits 1 .integer rfl
    obtain ⟨overlap, foundOverlap, _⟩ := admits 2 .integer rfl
    constructor
    · intro i inside
      simp only [textAt, intAt, readAt_front appends foundText inside,
        readAt_front appends foundMax inside, readAt_front appends foundOverlap inside]
    · intro i
      simp only [textAt, intAt, readAt_back appends foundText, readAt_back appends foundMax,
        readAt_back appends foundOverlap]

end Functions

/-- The list functions are row-wise: a row of ids is the tokens of its text, a row of strings the
chunks of its text with its numbers, and neither depends on another row. -/
theorem list_functions_row_wise (rs : TiktokenRs) (target : Target) :
    RowWise (Tokenize.process rs) [.text] (fun _ _ => False)
      (fun batch i => Tokenize.cell rs (textAt batch 0 i)) ∧
    RowWise (TokenizeModel.process rs) [.text, .text]
      (fun batch i => ∃ model, textAt batch 1 i = some model ∧ resolve rs model = none)
      (fun batch i => TokenizeModel.cell rs (textAt batch 0 i) (textAt batch 1 i)) ∧
    RowWise (ChunkByTokens.process rs target) [.text, .integer] (fun _ _ => False)
      (fun batch i => ChunkByTokens.cell rs target (textAt batch 0 i) (intAt batch 1 i)) ∧
    RowWise (ChunkByTokensOverlap.process rs target) [.text, .integer, .integer]
      (fun _ _ => False)
      (fun batch i => ChunkByTokensOverlap.cell rs target (textAt batch 0 i) (intAt batch 1 i)
        (intAt batch 2 i)) :=
  ⟨Tokenize.rowWise rs, TokenizeModel.rowWise rs, ChunkByTokens.rowWise rs target,
    ChunkByTokensOverlap.rowWise rs target⟩

/-- A text and a NULL, in one batch and in one each. -/
theorem list_functions_row_wise_two_texts :
    let whole : RecordBatch := ⟨2, [⟨.utf8, [some "hello world", none], by decide⟩,
      ⟨.int32, [some 1, some 2], by decide⟩], by decide⟩
    let left : RecordBatch := ⟨1, [⟨.utf8, [some "hello world"], by decide⟩,
      ⟨.int32, [some 1], by decide⟩], by decide⟩
    let right : RecordBatch := ⟨1, [⟨.utf8, [none], by decide⟩, ⟨.int32, [some 2], by decide⟩],
      by decide⟩
    ∃ array front back, ChunkByTokens.process Greedy.crate .native whole = .ok array ∧
      ChunkByTokens.process Greedy.crate .native left = .ok front ∧
      ChunkByTokens.process Greedy.crate .native right = .ok back ∧
      front.HasRows [some ["hello", " world"]] ∧ back.HasRows [none] ∧
      array.HasRows [some ["hello", " world"], none] := by
  intro whole left right
  let cell := fun (batch : RecordBatch) i =>
    ChunkByTokens.cell Greedy.crate .native (textAt batch 0 i) (intAt batch 1 i)
  have rowWise := (list_functions_row_wise Greedy.crate .native).2.2.1
  have appends : whole.Appends left right := by
    refine ⟨rfl, fun position column found => ?_⟩
    match position with
    | 0 =>
      cases found
      exact ⟨_, _, rfl, rfl, .cells .utf8 [some "hello world"] [none]⟩
    | 1 =>
      cases found
      exact ⟨_, _, rfl, rfl, .cells .int32 [some 1] [some 2]⟩
    | position + 2 => cases found
  have admits : Admits [.text, .integer] whole := by
    intro position kind listed
    match position with
    | 0 =>
      cases listed
      exact ⟨_, rfl, fun text => ⟨text, rfl⟩⟩
    | 1 =>
      cases listed
      exact ⟨_, rfl, fun n => ⟨_, rfl⟩⟩
    | position + 2 => cases listed
  have front : rowsOf cell left = [some ["hello", " world"]] := by decide +kernel
  have back : rowsOf cell right = [none] := by decide +kernel
  have fits : ListBuilder.Fits (rowsOf cell whole) :=
    ⟨by decide +kernel, by decide +kernel⟩
  have rows := rowWise.concat whole left right appends admits fits
  rw [show rowsOf _ left = _ from front, show rowsOf _ right = _ from back] at rows
  exact rows

end TiktokenWorker

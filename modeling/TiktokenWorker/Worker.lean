import TiktokenWorker.Scalar.Chunk
import TiktokenWorker.Scalar.Count
import TiktokenWorker.Scalar.Encoding
import TiktokenWorker.Scalar.Tokenize
import TiktokenWorker.Scalar.Truncate

/-!
# The registered functions

`scalar/mod.rs` registers nine functions under five names. What they have in common is that each
makes one column of a batch, a cell of it for each row; `Column.rows` is what a reader of the column
finds there, and `cell` what a row is meant to come to.
-/

namespace TiktokenWorker

open Arrow

/-! ## Result columns -/

/-- A value of a result column. -/
inductive Datum where
  /-- Of an `INTEGER` column. -/
  | int (n : Int32)
  /-- Of a `VARCHAR` column. -/
  | text (value : String)
  /-- Of an `INTEGER[]` column. -/
  | ints (ids : List Int32)
  /-- Of a `VARCHAR[]` column. -/
  | texts (pieces : List String)
  deriving DecidableEq

/-- Bytes it takes in the buffer of a string builder. -/
def Datum.bytes : Datum → Nat
  | int _ | ints _ => 0
  | text value => value.utf8ByteSize
  | texts pieces => (pieces.map String.utf8ByteSize).sum

/-- Values it takes in the value builder of a list builder. -/
def Datum.items : Datum → Nat
  | int _ | text _ => 0
  | ints ids => ids.length
  | texts pieces => pieces.length

/-- Bytes that some cells take together. -/
def bytesOfCells (cells : List (Option Datum)) : Nat :=
  (cells.map fun cell => cell.elim 0 Datum.bytes).sum

/-- Values that some cells take together. -/
def itemsOfCells (cells : List (Option Datum)) : Nat :=
  (cells.map fun cell => cell.elim 0 Datum.items).sum

/-- Cells whose bytes and values 32-bit offsets reach. -/
def CellsFit (cells : List (Option Datum)) : Prop :=
  bytesOfCells cells ≤ offsetMax ∧ itemsOfCells cells ≤ offsetMax

/-- A result column. -/
inductive Column where
  | ints (cells : List (Option Int32))
  | texts (cells : List (Option String))
  | intLists (array : ListArray Int32)
  | textLists (array : ListArray String)

/-- The rows of a list column, read one after the other. -/
def Arrow.ListArray.rows {α : Type} (array : ListArray α) : List (Option (List α)) :=
  (List.range array.validity.length).map fun i => (array.row i).map List.reduceOption

/-- The cells of a result column. -/
def Column.rows : Column → List (Option Datum)
  | ints cells => cells.map (Option.map .int)
  | texts cells => cells.map (Option.map .text)
  | intLists array => array.rows.map (Option.map .ints)
  | textLists array => array.rows.map (Option.map .texts)

/-! ## The registry -/

/-- The functions of the worker, in the order `register` registers them. -/
inductive ScalarFunction where
  | encodingForModel
  | countTokens
  | countTokensModel
  | tokenize
  | tokenizeModel
  | truncateToTokens
  | truncateToTokensModel
  | chunkByTokens
  | chunkByTokensOverlap
  deriving DecidableEq, Repr

/-- `register`. -/
def registered : List ScalarFunction :=
  [.encodingForModel, .countTokens, .countTokensModel, .tokenize, .tokenizeModel,
    .truncateToTokens, .truncateToTokensModel, .chunkByTokens, .chunkByTokensOverlap]

namespace ScalarFunction

/-- `name`. Overloads share one. -/
def name : ScalarFunction → String
  | encodingForModel => "encoding_for_model"
  | countTokens | countTokensModel => "count_tokens"
  | tokenize | tokenizeModel => "tokenize"
  | truncateToTokens | truncateToTokensModel => "truncate_to_tokens"
  | chunkByTokens | chunkByTokensOverlap => "chunk_by_tokens"

/-- What the function reads its columns as. -/
def kinds : ScalarFunction → List Kind
  | encodingForModel | countTokens | tokenize => [.text]
  | countTokensModel | tokenizeModel => [.text, .text]
  | truncateToTokens | chunkByTokens => [.text, .integer]
  | truncateToTokensModel => [.text, .integer, .text]
  | chunkByTokensOverlap => [.text, .integer, .integer]

variable (rs : TiktokenRs) (target : Target)

/-- `process`. -/
def process : ScalarFunction → RecordBatch → Result Column
  | encodingForModel, batch => Column.texts <$> EncodingForModel.process rs batch
  | countTokens, batch => Column.ints <$> CountTokens.process rs batch
  | countTokensModel, batch => Column.ints <$> CountTokensModel.process rs batch
  | tokenize, batch => Column.intLists <$> Tokenize.process rs batch
  | tokenizeModel, batch => Column.intLists <$> TokenizeModel.process rs batch
  | truncateToTokens, batch => Column.texts <$> TruncateToTokens.process rs target batch
  | truncateToTokensModel, batch => Column.texts <$> TruncateToTokensModel.process rs target batch
  | chunkByTokens, batch => Column.textLists <$> ChunkByTokens.process rs target batch
  | chunkByTokensOverlap, batch => Column.textLists <$> ChunkByTokensOverlap.process rs target batch

/-- What a row of a batch comes to. -/
def cell (function : ScalarFunction) (batch : RecordBatch) (i : Nat) : Option Datum :=
  match function with
  | encodingForModel => (EncodingForModel.cell rs (textAt batch 0 i)).map .text
  | countTokens => (CountTokens.cell rs (textAt batch 0 i)).map .int
  | countTokensModel =>
    (CountTokensModel.cell rs (textAt batch 0 i) (textAt batch 1 i)).map .int
  | tokenize => (Tokenize.cell rs (textAt batch 0 i)).map .ints
  | tokenizeModel => (TokenizeModel.cell rs (textAt batch 0 i) (textAt batch 1 i)).map .ints
  | truncateToTokens =>
    (TruncateToTokens.cell rs target (textAt batch 0 i) (intAt batch 1 i)).map .text
  | truncateToTokensModel =>
    (TruncateToTokensModel.cell rs target (textAt batch 0 i) (intAt batch 1 i)
      (textAt batch 2 i)).map .text
  | chunkByTokens =>
    (ChunkByTokens.cell rs target (textAt batch 0 i) (intAt batch 1 i)).map .texts
  | chunkByTokensOverlap =>
    (ChunkByTokensOverlap.cell rs target (textAt batch 0 i) (intAt batch 1 i)
      (intAt batch 2 i)).map .texts

/-- What the first rows of a batch come to. -/
def cells (function : ScalarFunction) (batch : RecordBatch) (rows : Nat) : List (Option Datum) :=
  (List.range rows).map (function.cell rs target batch)

end ScalarFunction

/-! ## Cells and builders -/

/-- Bytes of cells, one after the other. -/
theorem bytesOfCells_append (front back : List (Option Datum)) :
    bytesOfCells (front ++ back) = bytesOfCells front + bytesOfCells back := by
  simp [bytesOfCells]

/-- Values of cells, one after the other. -/
theorem itemsOfCells_append (front back : List (Option Datum)) :
    itemsOfCells (front ++ back) = itemsOfCells front + itemsOfCells back := by
  simp [itemsOfCells]

/-- Parts of cells that fit do. -/
theorem CellsFit.parts {front back : List (Option Datum)} (fits : CellsFit (front ++ back)) :
    CellsFit front ∧ CellsFit back := by
  rw [CellsFit, bytesOfCells_append, itemsOfCells_append] at fits
  exact ⟨⟨by omega, by omega⟩, by omega, by omega⟩

/-- Cells fit in any order. -/
theorem CellsFit.perm {front back : List (Option Datum)} (perm : front.Perm back)
    (fits : CellsFit back) : CellsFit front := by
  have bytes := (perm.map fun cell => cell.elim 0 Datum.bytes).sum_eq
  have items := (perm.map fun cell => cell.elim 0 Datum.items).sum_eq
  unfold CellsFit bytesOfCells itemsOfCells at *
  rwa [bytes, items]

/-- Fewer cells fit. -/
theorem CellsFit.subperm {some_cells cells : List (Option Datum)}
    (within : some_cells.Subperm cells) (fits : CellsFit cells) : CellsFit some_cells := by
  obtain ⟨front, perm, sublist⟩ := within
  apply CellsFit.perm perm.symm
  have bytes := (sublist.map fun cell => cell.elim 0 Datum.bytes).sum_le_sum
    fun _ _ => Nat.zero_le _
  have items := (sublist.map fun cell => cell.elim 0 Datum.items).sum_le_sum
    fun _ _ => Nat.zero_le _
  exact ⟨bytes.trans fits.1, items.trans fits.2⟩

/-- The cells a builder holds are those of the column it is finished to, and fit it when they fit
32-bit offsets. -/
structure Renders {B γ : Type} (sink : Sink RpcError B γ) (column : B → Column)
    (datum : γ → Datum) : Prop where
  fits : ∀ cells, sink.Fits cells ↔ CellsFit (cells.map (Option.map datum))
  rows : ∀ builder cells, sink.Holds builder cells →
    (column builder).rows = cells.map (Option.map datum)

/-- What cells take is what they take as values of a column. -/
theorem sum_map_datum {γ : Type} {datum : γ → Datum} (size : Datum → Nat) (own : γ → Nat)
    (same : ∀ value, size (datum value) = own value) (cells : List (Option γ)) :
    ((cells.map (Option.map datum)).map fun cell => cell.elim 0 size).sum =
      (cells.map fun cell => cell.elim 0 own).sum := by
  rw [List.map_map]
  congr 1
  apply List.map_congr_left
  intro cell _
  cases cell with
  | none => rfl
  | some value => exact same value

/-- A list column with some rows is read as those. -/
theorem Arrow.ListArray.HasRows.rows_eq {α : Type} {array : ListArray α}
    {rows : List (Option (List α))} (has : array.HasRows rows) : array.rows = rows := by
  rw [ListArray.rows, has.count]
  apply List.ext_getElem
  · rw [List.length_map, List.length_range]
  · intro i inside bounded
    rw [List.getElem_map, List.getElem_range, has.row i bounded]
    cases rows[i] with
    | none => rfl
    | some items =>
      have kept : (items.map some).reduceOption = items :=
        List.filterMap_map.trans List.filterMap_some
      exact congrArg some kept

/-- A builder of integers. -/
theorem renders_ints : Renders Builder.sink (fun out => .ints out.finish) Datum.int where
  fits cells := by
    have bytes : bytesOfCells (cells.map (Option.map Datum.int)) = buffered cells :=
      sum_map_datum Datum.bytes Buffered.bytes (fun _ => rfl) cells
    have items : itemsOfCells (cells.map (Option.map Datum.int)) = buffered cells :=
      sum_map_datum Datum.items Buffered.bytes (fun _ => rfl) cells
    rw [CellsFit, bytes, items, and_self]
    rfl
  rows builder cells holds := congrArg (List.map (Option.map Datum.int)) holds

/-- A builder of strings. -/
theorem renders_texts : Renders Builder.sink (fun out => .texts out.finish) Datum.text where
  fits cells := by
    have bytes : bytesOfCells (cells.map (Option.map Datum.text)) = buffered cells :=
      sum_map_datum Datum.bytes Buffered.bytes (fun _ => rfl) cells
    have items : itemsOfCells (cells.map (Option.map Datum.text)) = 0 := by
      rw [itemsOfCells, sum_map_datum Datum.items (fun _ => 0) (fun _ => rfl),
        List.sum_eq_zero_iff]
      intro size member
      obtain ⟨cell, _, rfl⟩ := List.mem_map.mp member
      cases cell <;> rfl
    rw [CellsFit, bytes, items]
    exact ⟨fun fits => ⟨fits, Nat.zero_le _⟩, And.left⟩
  rows builder cells holds := congrArg (List.map (Option.map Datum.text)) holds

/-- The values of rows are those of each row. -/
theorem length_flat {α : Type} (rows : List (Option (List α))) :
    (flat rows).length = (rows.map fun row => row.elim 0 List.length).sum := by
  rw [flat, List.length_flatMap]
  congr 1
  apply List.map_congr_left
  intro row _
  cases row <;> rfl

/-- The bytes of the values of rows are those of each row. -/
theorem buffered_flat {α : Type} [Buffered α] (rows : List (Option (List α))) :
    buffered ((flat rows).map some) =
      (rows.map fun row => row.elim 0 fun items => (items.map Buffered.bytes).sum).sum := by
  induction rows with
  | nil => rfl
  | cons row rows ih =>
    rw [List.map_cons, List.sum_cons, ← ih, flat, List.flatMap_cons, List.map_append,
      buffered_append]
    congr 1
    cases row with
    | none => rfl
    | some items => simp [buffered, Function.comp_def]

/-- A builder of lists of integers. -/
theorem renders_intLists :
    Renders ListBuilder.sink (fun builder => .intLists builder.finish) Datum.ints where
  fits rows := by
    have bytes : bytesOfCells (rows.map (Option.map Datum.ints)) =
        buffered ((flat rows).map some) := by
      rw [buffered_flat]
      apply sum_map_datum Datum.bytes
      intro ids
      apply Eq.symm
      apply List.sum_eq_zero
      intro size member
      obtain ⟨id, _, rfl⟩ := List.mem_map.mp member
      rfl
    have items : itemsOfCells (rows.map (Option.map Datum.ints)) = (flat rows).length := by
      rw [length_flat]
      exact sum_map_datum Datum.items List.length (fun _ => rfl) rows
    rw [CellsFit, bytes, items]
    rfl
  rows builder rows holds := congrArg (List.map (Option.map Datum.ints)) holds.finish.rows_eq

/-- A builder of lists of strings. -/
theorem renders_textLists :
    Renders ListBuilder.sink (fun builder => .textLists builder.finish) Datum.texts where
  fits rows := by
    have bytes : bytesOfCells (rows.map (Option.map Datum.texts)) =
        buffered ((flat rows).map some) := by
      rw [buffered_flat]
      exact sum_map_datum Datum.bytes _ (fun _ => rfl) rows
    have items : itemsOfCells (rows.map (Option.map Datum.texts)) = (flat rows).length := by
      rw [length_flat]
      exact sum_map_datum Datum.items List.length (fun _ => rfl) rows
    rw [CellsFit, bytes, items]
    rfl
  rows builder rows holds := congrArg (List.map (Option.map Datum.texts)) holds.finish.rows_eq

/-! ## Result columns of functions -/

section Columns

variable {B γ : Type} {batch : RecordBatch}

/-- A function of one column builds what it wraps. -/
theorem map_overOne {β : Type} (sink : Sink RpcError B γ) (wrap : β → Column) (finish : B → β)
    (step : ArrayRef → B → Nat → Result B) :
    wrap <$> overOne sink finish step batch =
      overOne sink (fun out => wrap (finish out)) step batch := by
  simp only [overOne, map_bind]
  rfl

/-- A function of two columns builds what it wraps. -/
theorem map_overTwo {β : Type} (sink : Sink RpcError B γ) (wrap : β → Column) (finish : B → β)
    (step : ArrayRef → ArrayRef → B → Nat → Result B) :
    wrap <$> overTwo sink finish step batch =
      overTwo sink (fun out => wrap (finish out)) step batch := by
  simp only [overTwo, map_bind]
  rfl

/-- A function of three columns builds what it wraps. -/
theorem map_overThree {β : Type} (sink : Sink RpcError B γ) (wrap : β → Column) (finish : B → β)
    (step : ArrayRef → ArrayRef → ArrayRef → B → Nat → Result B) :
    wrap <$> overThree sink finish step batch =
      overThree sink (fun out => wrap (finish out)) step batch := by
  simp only [overThree, map_bind]
  rfl

end Columns

end TiktokenWorker

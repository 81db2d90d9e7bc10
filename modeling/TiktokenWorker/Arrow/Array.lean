import Mathlib.Algebra.Order.BigOperators.Group.List
import Mathlib.Tactic

/-!
# Columns and record batches

A column is a data type and one cell a row, each with a value or NULL; a batch is columns of one
length. The cells of a string column lie in one buffer that its offsets index, so together they
are no longer than the offset type counts.
-/

namespace TiktokenWorker.Arrow

/-- How a computation stops short of its result. -/
inductive Abort (ε : Type) where
  /-- It returned an error. -/
  | error (error : ε)
  /-- It panicked. -/
  | panic (message : String)
  deriving DecidableEq

/-- A computation that may stop short. -/
abbrev Run (ε α : Type) := Except (Abort ε) α

/-- Data types of a column: those a reader may ask for, and any other by its debug text. -/
inductive DataType where
  | utf8
  | largeUtf8
  | int8
  | int16
  | int32
  | int64
  | uint8
  | uint16
  | uint32
  | uint64
  | float32
  | float64
  | other (debug : String)
  deriving DecidableEq

namespace DataType

/-- Values of a cell. Nothing reads those of another type. -/
@[reducible] def Native : DataType → Type
  | utf8 | largeUtf8 => String
  | int8 => Int8
  | int16 => Int16
  | int32 => Int32
  | int64 => Int64
  | uint8 => UInt8
  | uint16 => UInt16
  | uint32 => UInt32
  | uint64 => UInt64
  | float32 => Float32
  | float64 => Float
  | other _ => Unit

/-- Text the debug format prints for the type. -/
def debug : DataType → String
  | utf8 => "Utf8"
  | largeUtf8 => "LargeUtf8"
  | int8 => "Int8"
  | int16 => "Int16"
  | int32 => "Int32"
  | int64 => "Int64"
  | uint8 => "UInt8"
  | uint16 => "UInt16"
  | uint32 => "UInt32"
  | uint64 => "UInt64"
  | float32 => "Float32"
  | float64 => "Float64"
  | other debug => debug

/-- Bytes a value takes in the buffer its column's offsets index. -/
def bytes : (dataType : DataType) → dataType.Native → Nat
  | utf8, text | largeUtf8, text => String.utf8ByteSize text
  | _, _ => 0

/-- Largest offset of a column of the type. -/
def offsetMax : DataType → Nat
  | utf8 => 2 ^ 31 - 1
  | largeUtf8 => 2 ^ 63 - 1
  | _ => 0

end DataType

/-- A column. -/
structure ArrayRef where
  /-- Type of the column. -/
  dataType : DataType
  /-- Its cells, `none` where `is_null` says so: where a bit of the validity buffer is unset. A
  column of the null type has no such buffer, so its cells are values that nothing reads. -/
  cells : List (Option dataType.Native)
  /-- The offsets reach the end of the buffer. -/
  within : (cells.map fun cell => cell.elim 0 dataType.bytes).sum ≤ dataType.offsetMax

/-- Columns of one length. -/
structure RecordBatch where
  /-- Number of rows. -/
  numRows : Nat
  /-- The columns. -/
  columns : List ArrayRef
  /-- Every column has a cell for each row. -/
  lengths : ∀ column ∈ columns, column.cells.length = numRows

variable {ε : Type}

/-- A column of a batch by its position. -/
def RecordBatch.column (batch : RecordBatch) (position : Nat) : Run ε ArrayRef :=
  match batch.columns[position]? with
  | some column => .ok column
  | none => .error (.panic "index out of bounds")

/-- The value of a cell of a string column fits its offsets. -/
theorem ArrayRef.bytes_le (column : ArrayRef) {row : Nat} {value : column.dataType.Native}
    (read : column.cells[row]? = some (some value)) :
    column.dataType.bytes value ≤ column.dataType.offsetMax := by
  refine le_trans (List.single_le_sum (fun _ _ => Nat.zero_le _) _ ?_) column.within
  exact List.mem_map.mpr ⟨some value, List.mem_of_getElem? read, rfl⟩

/-- A batch has a cell for every row of every column. -/
theorem RecordBatch.cell_exists (batch : RecordBatch) {column : ArrayRef}
    (present : column ∈ batch.columns) {row : Nat} (inside : row < batch.numRows) :
    ∃ cell, column.cells[row]? = some cell := by
  rw [← batch.lengths column present] at inside
  exact ⟨_, List.getElem?_eq_getElem inside⟩

/-- A column is the cells of one followed by the cells of another. -/
inductive ArrayRef.Appends : ArrayRef → ArrayRef → ArrayRef → Prop where
  | cells (dataType : DataType) (front back : List (Option dataType.Native)) {whole left right} :
    Appends ⟨dataType, front ++ back, whole⟩ ⟨dataType, front, left⟩ ⟨dataType, back, right⟩

/-- The parts have the type of the whole. -/
theorem ArrayRef.Appends.dataType_front {whole front back : ArrayRef}
    (appends : whole.Appends front back) : whole.dataType = front.dataType := by
  cases appends
  rfl

theorem ArrayRef.Appends.dataType_back {whole front back : ArrayRef}
    (appends : whole.Appends front back) : whole.dataType = back.dataType := by
  cases appends
  rfl

/-- A batch is the rows of one followed by the rows of another. -/
structure RecordBatch.Appends (whole left right : RecordBatch) : Prop where
  /-- It has the rows of both. -/
  numRows : whole.numRows = left.numRows + right.numRows
  /-- Every column of one has its continuation in the other. -/
  columns : ∀ (position : Nat) (column : ArrayRef), whole.columns[position]? = some column →
    ∃ front back, left.columns[position]? = some front ∧ right.columns[position]? = some back ∧
      column.Appends front back

/-! ## Rows in another order -/

/-- The cells of a column by their positions. -/
theorem map_join_getElem? {α : Type} (cells : List (Option α)) :
    (List.range cells.length).map (fun i => cells[i]?.join) = cells := by
  apply List.ext_getElem?
  intro i
  rw [List.getElem?_map]
  by_cases inside : i < cells.length
  · rw [List.getElem?_range inside, Option.map_some, List.getElem?_eq_getElem inside,
      Option.join_some]
  · rw [List.getElem?_eq_none (by simpa using inside), List.getElem?_eq_none (by omega),
      Option.map_none]

/-- A column with its cells in another order. -/
def ArrayRef.reorder (column : ArrayRef) (order : List Nat)
    (perm : order.Perm (List.range column.cells.length)) : ArrayRef where
  dataType := column.dataType
  cells := order.map fun i => column.cells[i]?.join
  within := by
    have cells := perm.map fun i => column.cells[i]?.join
    rw [map_join_getElem?] at cells
    rw [(cells.map _).sum_eq]
    exact column.within

/-- A batch with its rows in another order. -/
def RecordBatch.reorder (batch : RecordBatch) (order : List Nat)
    (perm : order.Perm (List.range batch.numRows)) : RecordBatch where
  numRows := batch.numRows
  columns := batch.columns.attach.map fun column =>
    column.1.reorder order ((batch.lengths column.1 column.2).symm ▸ perm)
  lengths := by
    intro reordered listed
    obtain ⟨column, _, rfl⟩ := List.mem_map.mp listed
    exact (List.length_map _).trans (perm.length_eq.trans List.length_range)

/-- A cell of a reordered column is the one at its position in the order. -/
theorem ArrayRef.reorder_cell (column : ArrayRef) {order : List Nat}
    (perm : order.Perm (List.range column.cells.length)) {k i : Nat} (placed : order[k]? = some i) :
    (column.reorder order perm).cells[k]? = column.cells[i]? := by
  have inside : i < column.cells.length :=
    List.mem_range.mp (perm.mem_iff.mp (List.mem_of_getElem? placed))
  change (order.map fun i => column.cells[i]?.join)[k]? = column.cells[i]?
  rw [List.getElem?_map, placed, Option.map_some, List.getElem?_eq_getElem inside,
    Option.join_some]

/-- The columns of a reordered batch are its columns reordered. -/
theorem RecordBatch.reorder_columns (batch : RecordBatch) {order : List Nat}
    (perm : order.Perm (List.range batch.numRows)) :
    List.Forall₂ (fun column reordered => ∃ lengths, reordered = column.reorder order lengths)
      batch.columns (batch.reorder order perm).columns := by
  rw [List.forall₂_iff_get]
  constructor
  · change _ = (batch.columns.attach.map _).length
    rw [List.length_map, List.length_attach]
  · intro position listed reordered
    refine ⟨(batch.lengths _ (List.getElem_mem listed)).symm ▸ perm, ?_⟩
    simp [reorder]

end TiktokenWorker.Arrow

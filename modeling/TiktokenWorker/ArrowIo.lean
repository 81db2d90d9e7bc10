import TiktokenWorker.Arrow.Builder

/-!
# Reading arguments

`arrow_io.rs`: the two readers of input cells and the casts their results go through. A reader
returns `none` for a NULL of any column, and looks at the column's type only for a value.
-/

namespace TiktokenWorker

open Arrow

/-- `vgi_rpc::RpcError`, as far as the worker raises it. -/
inductive RpcError where
  /-- `RpcError::value_error`. -/
  | valueError (message : String)
  deriving DecidableEq

/-- `vgi_rpc::Result`. -/
abbrev Result (α : Type) := Run RpcError α

/-! ## Readers -/

section Readers

variable {α : Type}

/-- How a value is read, by the type of its column. -/
abbrev Reader (α : Type) := (dataType : DataType) → dataType.Native → Result α

/-- Read a cell: NULL is `none`, a value is read by the type of its column. -/
def readCell (read : Reader α) (col : ArrayRef) (row : Nat) : Result (Option α) :=
  match col.cells[row]? with
  | none => .error (.panic "index out of bounds")
  | some none => .ok none
  | some (some value) => do
    let read ← read col.dataType value
    .ok (some read)

/-- The text of a value of a string column. -/
def readText : Reader String
  | .utf8, text => .ok text
  | .largeUtf8, text => .ok text
  | other, _ =>
    .error (.error (.valueError ("expected a VARCHAR (string) argument, got " ++ other.debug)))

/-- `text_str`. -/
def textStr : ArrayRef → Nat → Result (Option String) := readCell readText

/-- A value of a numeric column as an `i64`: the casts are `as i64`, which wraps an integer and
truncates and saturates a float. -/
def readInt : Reader Int64
  | .int64, value => .ok value
  | .int32, value => .ok (Int32.toInt64 value)
  | .int16, value => .ok (Int16.toInt64 value)
  | .int8, value => .ok (Int8.toInt64 value)
  | .uint64, value => .ok (UInt64.toInt64 value)
  | .uint32, value => .ok (UInt32.toUInt64 value).toInt64
  | .uint16, value => .ok (UInt16.toUInt64 value).toInt64
  | .uint8, value => .ok (UInt8.toUInt64 value).toInt64
  | .float64, value => .ok (Float.toInt64 value)
  | .float32, value => .ok (Float32.toInt64 value)
  | other, _ =>
    .error (.error (.valueError ("expected an integer argument, got " ++ other.debug)))

/-- `int_val`. -/
def intVal : ArrayRef → Nat → Result (Option Int64) := readCell readInt

/-- What a reader returns for a cell, if it returns. -/
def cellAt (read : Reader α) (col : ArrayRef) (row : Nat) : Option α :=
  (readCell read col row).toOption.join

/-- A reader accepts every value of a type. -/
def Accepts (read : Reader α) (dataType : DataType) : Prop :=
  ∀ value, ∃ result, read dataType value = .ok result

variable {read : Reader α} {col : ArrayRef} {row : Nat}

/-- A NULL is read whatever the type of its column. -/
theorem readCell_null (cell : col.cells[row]? = some none) :
    readCell read col row = .ok none := by
  rw [readCell, cell]

/-- A value is read by its type. -/
theorem readCell_value {value : col.dataType.Native} (cell : col.cells[row]? = some (some value))
    {result : α} (reads : read col.dataType value = .ok result) :
    readCell read col row = .ok (some result) := by
  rw [readCell, cell]
  simp only [reads, bind, Except.bind]

/-- What was read is read from a value. -/
theorem readCell_some {result : α} (reads : readCell read col row = .ok (some result)) :
    ∃ value, col.cells[row]? = some (some value) ∧ read col.dataType value = .ok result := by
  unfold readCell at reads
  split at reads
  · cases reads
  · cases reads
  · rename_i value present
    refine ⟨value, present, ?_⟩
    cases same : read col.dataType value with
    | error abort => rw [same] at reads; cases reads
    | ok text => rw [same] at reads; cases reads; rfl

/-- Every cell of an accepted column is read. -/
theorem readCell_ok (accepts : Accepts read col.dataType) {cell : Option col.dataType.Native}
    (present : col.cells[row]? = some cell) :
    readCell read col row = .ok (cellAt read col row) := by
  cases cell with
  | none => rw [cellAt, readCell_null present]; rfl
  | some value =>
    obtain ⟨result, reads⟩ := accepts value
    rw [cellAt, readCell_value present reads]
    rfl

/-- A cell of an accepted column is read as `none` exactly when it is NULL. -/
theorem cellAt_eq_none_iff (accepts : Accepts read col.dataType)
    {cell : Option col.dataType.Native} (present : col.cells[row]? = some cell) :
    cellAt read col row = none ↔ cell = none := by
  cases cell with
  | none => simp [cellAt, readCell_null present, Except.toOption]
  | some value =>
    obtain ⟨result, reads⟩ := accepts value
    simp [cellAt, readCell_value present reads, Except.toOption]

/-- A row of the first of two columns laid end to end is read there. -/
theorem readCell_front {whole front back : ArrayRef} (appends : whole.Appends front back)
    (inside : row < front.cells.length) : readCell read whole row = readCell read front row := by
  obtain ⟨dataType, front, back⟩ := appends
  simp only [readCell, List.getElem?_append_left inside]
  rcases front[row]? with _ | _ | _ <;> rfl

/-- A row of the second one is read there. -/
theorem readCell_back {whole front back : ArrayRef} (appends : whole.Appends front back)
    (row : Nat) :
    readCell read whole (front.cells.length + row) = readCell read back row := by
  obtain ⟨dataType, front, back⟩ := appends
  simp only [readCell, List.getElem?_append_right (Nat.le_add_right _ _), Nat.add_sub_cancel_left]
  rcases back[row]? with _ | _ | _ <;> rfl

/-- The text of a cell fits the offsets of its column. -/
theorem textStr_bytes_le {text : String} (reads : textStr col row = .ok (some text)) :
    text.utf8ByteSize ≤ col.dataType.offsetMax := by
  obtain ⟨value, present, same⟩ := readCell_some reads
  refine le_trans (Eq.le ?_) (col.bytes_le present)
  obtain ⟨dataType, cells, within⟩ := col
  cases dataType <;> simp only [readText, Except.ok.injEq, reduceCtorEq] at same
  · rw [← same, DataType.bytes]
  · rw [← same, DataType.bytes]

end Readers

/-! ## Casts -/

/-- What the worker is built for. -/
inductive Target where
  /-- The native worker. -/
  | native
  /-- The browser worker. -/
  | wasm32
  deriving DecidableEq

/-- Width of a `usize`. -/
def Target.usizeBits : Target → Nat
  | .native => 64
  | .wasm32 => 32

/-- `as usize`, of an `i64`. -/
def asUsize (target : Target) (n : Int64) : Nat := (n.toInt % 2 ^ target.usizeBits).toNat

/-- `as i32`, of a `usize`. -/
def asI32 (n : Nat) : Int32 := Int32.ofNat n

end TiktokenWorker

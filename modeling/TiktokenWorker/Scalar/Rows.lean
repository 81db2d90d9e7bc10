import TiktokenWorker.ArrowIo

/-!
# Rows of a batch

What the loops of the scalar functions have in common: the columns they read by position, the
cells of a row as a reader returns them, and the column they build when every column has a type
its reader accepts.
-/

namespace TiktokenWorker

open Arrow

/-- What a function reads a column as. -/
inductive Kind where
  /-- With `text_str`. -/
  | text
  /-- With `int_val`. -/
  | integer
  deriving DecidableEq

/-- Values of the kind. -/
@[reducible] def Kind.Value : Kind → Type
  | text => String
  | integer => Int64

/-- The reader of the kind. -/
def Kind.reader : (kind : Kind) → Reader kind.Value
  | text => readText
  | integer => readInt

/-- The reader of the kind accepts every value of the type. -/
def Kind.Accepts : Kind → DataType → Prop
  | text => TiktokenWorker.Accepts readText
  | integer => TiktokenWorker.Accepts readInt

theorem Kind.Accepts.reader {kind : Kind} {dataType : DataType} (accepts : kind.Accepts dataType) :
    TiktokenWorker.Accepts kind.reader dataType := by
  cases kind with
  | text => exact accepts
  | integer => exact accepts

/-- The first columns of the batch have types their readers accept. -/
def Admits (kinds : List Kind) (batch : RecordBatch) : Prop :=
  ∀ (position : Nat) (kind : Kind), kinds[position]? = some kind →
    ∃ col, batch.columns[position]? = some col ∧ kind.Accepts col.dataType

/-- What a reader returns for a cell of a batch, if it returns. -/
def readAt {α : Type} (read : Reader α) (batch : RecordBatch) (position i : Nat) : Option α :=
  batch.columns[position]?.bind fun col => cellAt read col i

/-- What `text_str` returns for a cell. -/
abbrev textAt : RecordBatch → Nat → Nat → Option String := readAt readText

/-- What `int_val` returns for a cell. -/
abbrev intAt : RecordBatch → Nat → Nat → Option Int64 := readAt readInt

/-- The cell is NULL. -/
def NullAt (batch : RecordBatch) (position i : Nat) : Prop :=
  ∃ col, batch.columns[position]? = some col ∧ col.cells[i]? = some none

section Cells

variable {α : Type} {read : Reader α} {batch : RecordBatch} {position i : Nat} {col : ArrayRef}

/-- Every cell of an accepted column is read. -/
theorem readCell_column (found : batch.columns[position]? = some col)
    (accepts : Accepts read col.dataType) (inside : i < batch.numRows) :
    readCell read col i = .ok (readAt read batch position i) := by
  obtain ⟨cell, present⟩ := batch.cell_exists (List.mem_of_getElem? found) inside
  rw [readCell_ok accepts present, readAt, found, Option.bind_some]

/-- It is read as `none` exactly when it is NULL. -/
theorem readAt_eq_none_iff (found : batch.columns[position]? = some col)
    (accepts : Accepts read col.dataType) (inside : i < batch.numRows) :
    readAt read batch position i = none ↔ NullAt batch position i := by
  obtain ⟨cell, present⟩ := batch.cell_exists (List.mem_of_getElem? found) inside
  rw [readAt, found, Option.bind_some, cellAt_eq_none_iff accepts present]
  simp [NullAt, found, present]

variable {whole left right : RecordBatch}

/-- A row of the first of two batches laid end to end is read there. -/
theorem readAt_front (appends : whole.Appends left right)
    (found : whole.columns[position]? = some col) (inside : i < left.numRows) :
    readAt read whole position i = readAt read left position i := by
  obtain ⟨front, back, foundFront, _, laid⟩ := appends.columns position col found
  have length := left.lengths front (List.mem_of_getElem? foundFront)
  rw [readAt, readAt, found, foundFront, Option.bind_some, Option.bind_some, cellAt, cellAt,
    readCell_front laid (by omega)]

/-- A row of the second one is read there. -/
theorem readAt_back (appends : whole.Appends left right)
    (found : whole.columns[position]? = some col) (i : Nat) :
    readAt read whole position (left.numRows + i) = readAt read right position i := by
  obtain ⟨front, back, foundFront, foundBack, laid⟩ := appends.columns position col found
  have length := left.lengths front (List.mem_of_getElem? foundFront)
  rw [readAt, readAt, found, foundBack, Option.bind_some, Option.bind_some, cellAt, cellAt,
    ← length, readCell_back laid]

end Cells

namespace Admits

variable {kinds : List Kind} {batch : RecordBatch}

/-- A batch of columns of the right types is admitted. -/
theorem of_columns
    (typed : List.Forall₂ (fun kind col => kind.Accepts col.dataType) kinds batch.columns) :
    Admits kinds batch := by
  intro position kind listed
  obtain ⟨lengths, accepts⟩ := List.forall₂_iff_get.mp typed
  obtain ⟨inside, rfl⟩ := List.getElem?_eq_some_iff.mp listed
  exact ⟨_, List.getElem?_eq_getElem (lengths ▸ inside), accepts position inside (lengths ▸ inside)⟩

/-- Every cell of a column is read. -/
theorem column (admits : Admits kinds batch) (position : Nat) {kind : Kind}
    (listed : kinds[position]? = some kind) :
    ∃ col, (batch.column position : Result ArrayRef) = .ok col ∧ ∀ i < batch.numRows,
      readCell kind.reader col i = .ok (readAt kind.reader batch position i) := by
  obtain ⟨col, found, accepts⟩ := admits position kind listed
  refine ⟨col, ?_, fun i inside => readCell_column found accepts.reader inside⟩
  rw [RecordBatch.column, found]

/-- Every cell of a text column is read. -/
theorem text (admits : Admits kinds batch) (position : Nat)
    (kind : kinds[position]? = some .text) :
    ∃ col, (batch.column position : Result ArrayRef) = .ok col ∧
      ∀ i < batch.numRows, textStr col i = .ok (textAt batch position i) := by
  exact admits.column position kind

/-- Every cell of an integer column is read. -/
theorem integer (admits : Admits kinds batch) (position : Nat)
    (kind : kinds[position]? = some .integer) :
    ∃ col, (batch.column position : Result ArrayRef) = .ok col ∧
      ∀ i < batch.numRows, intVal col i = .ok (intAt batch position i) := by
  exact admits.column position kind

/-- A text cell is read as `none` exactly when it is NULL. -/
theorem textAt_eq_none_iff (admits : Admits kinds batch) (position : Nat)
    (kind : kinds[position]? = some .text) {i : Nat} (inside : i < batch.numRows) :
    textAt batch position i = none ↔ NullAt batch position i := by
  obtain ⟨col, found, accepts⟩ := admits position .text kind
  exact readAt_eq_none_iff found accepts inside

/-- An integer cell is read as `none` exactly when it is NULL. -/
theorem intAt_eq_none_iff (admits : Admits kinds batch) (position : Nat)
    (kind : kinds[position]? = some .integer) {i : Nat} (inside : i < batch.numRows) :
    intAt batch position i = none ↔ NullAt batch position i := by
  obtain ⟨col, found, accepts⟩ := admits position .integer kind
  exact readAt_eq_none_iff found accepts inside

/-- The parts of an admitted batch are admitted. -/
theorem of_appends {whole left right : RecordBatch} (appends : whole.Appends left right)
    (admits : Admits kinds whole) : Admits kinds left ∧ Admits kinds right := by
  constructor
  · intro position kind listed
    obtain ⟨col, found, accepts⟩ := admits position kind listed
    obtain ⟨front, back, foundFront, _, laid⟩ := appends.columns position col found
    exact ⟨front, foundFront, laid.dataType_front ▸ accepts⟩
  · intro position kind listed
    obtain ⟨col, found, accepts⟩ := admits position kind listed
    obtain ⟨front, back, _, foundBack, laid⟩ := appends.columns position col found
    exact ⟨back, foundBack, laid.dataType_back ▸ accepts⟩

end Admits

/-- A loop over rows that are read and fit returns the finished column of their cells. -/
theorem loop_ok {B β γ : Type} (sink : Sink RpcError B γ) (finish : B → β) {rows : Nat}
    {step : B → Nat → Result B} {read : Nat → Result (Option γ)} {spec : Nat → Option γ}
    (same : step = sink.step read) (reads : ∀ i < rows, read i = .ok (spec i))
    (fits : sink.Fits ((List.range rows).map spec)) :
    ∃ out, ((List.range rows).foldlM step sink.new >>= fun out => .ok (finish out)) =
        (.ok (finish out) : Result β) ∧
      sink.Holds out ((List.range rows).map spec) := by
  obtain ⟨out, built, holds⟩ := sink.build_ok (List.range rows)
    (fun i member => reads i (List.mem_range.mp member)) fits
  refine ⟨out, ?_, holds⟩
  rw [same]
  exact congrArg (fun result => result >>= fun out => .ok (finish out)) built

/-! ## Functions of columns -/

section Functions

variable {B β γ : Type} {first second third : Kind} (sink : Sink RpcError B γ) (finish : B → β)
  {batch : RecordBatch}

/-- A function of one column. -/
def overOne (step : ArrayRef → B → Nat → Result B) (batch : RecordBatch) : Result β := do
  let only ← batch.column 0
  let out ← (List.range batch.numRows).foldlM (step only) sink.new
  .ok (finish out)

/-- A function of two columns. -/
def overTwo (step : ArrayRef → ArrayRef → B → Nat → Result B) (batch : RecordBatch) :
    Result β := do
  let left ← batch.column 0
  let right ← batch.column 1
  let out ← (List.range batch.numRows).foldlM (step left right) sink.new
  .ok (finish out)

/-- A function of three columns. -/
def overThree (step : ArrayRef → ArrayRef → ArrayRef → B → Nat → Result B) (batch : RecordBatch) :
    Result β := do
  let left ← batch.column 0
  let middle ← batch.column 1
  let right ← batch.column 2
  let out ← (List.range batch.numRows).foldlM (step left middle right) sink.new
  .ok (finish out)

/-- A function of one column builds the cells of its rows. -/
theorem overOne_ok {step : ArrayRef → B → Nat → Result B} {cell : Option first.Value → Option γ}
    (same : ∀ only, step only = sink.step fun i => do
      let x ← readCell first.reader only i
      .ok (cell x))
    (admits : Admits [first] batch)
    (fits : sink.Fits ((List.range batch.numRows).map fun i =>
      cell (readAt first.reader batch 0 i))) :
    ∃ out, overOne sink finish step batch = .ok (finish out) ∧
      sink.Holds out ((List.range batch.numRows).map fun i =>
        cell (readAt first.reader batch 0 i)) := by
  obtain ⟨only, found, reads⟩ := admits.column 0 rfl
  rw [overOne, found]
  apply loop_ok sink finish (same only) _ fits
  intro i inside
  rw [reads i inside]
  rfl

/-- A function of two columns builds the cells of its rows. -/
theorem overTwo_ok {step : ArrayRef → ArrayRef → B → Nat → Result B}
    {cell : Option first.Value → Option second.Value → Option γ}
    (same : ∀ left right, step left right = sink.step fun i => do
      let x ← readCell first.reader left i
      let y ← readCell second.reader right i
      .ok (cell x y))
    (admits : Admits [first, second] batch)
    (fits : sink.Fits ((List.range batch.numRows).map fun i =>
      cell (readAt first.reader batch 0 i) (readAt second.reader batch 1 i))) :
    ∃ out, overTwo sink finish step batch = .ok (finish out) ∧
      sink.Holds out ((List.range batch.numRows).map fun i =>
        cell (readAt first.reader batch 0 i) (readAt second.reader batch 1 i)) := by
  obtain ⟨left, foundLeft, readsLeft⟩ := admits.column 0 rfl
  obtain ⟨right, foundRight, readsRight⟩ := admits.column 1 rfl
  rw [overTwo, foundLeft, foundRight]
  apply loop_ok sink finish (same left right) _ fits
  intro i inside
  rw [readsLeft i inside, readsRight i inside]
  rfl

/-- A function of three columns builds the cells of its rows. -/
theorem overThree_ok {step : ArrayRef → ArrayRef → ArrayRef → B → Nat → Result B}
    {cell : Option first.Value → Option second.Value → Option third.Value → Option γ}
    (same : ∀ left middle right, step left middle right = sink.step fun i => do
      let x ← readCell first.reader left i
      let y ← readCell second.reader middle i
      let z ← readCell third.reader right i
      .ok (cell x y z))
    (admits : Admits [first, second, third] batch)
    (fits : sink.Fits ((List.range batch.numRows).map fun i =>
      cell (readAt first.reader batch 0 i) (readAt second.reader batch 1 i)
        (readAt third.reader batch 2 i))) :
    ∃ out, overThree sink finish step batch = .ok (finish out) ∧
      sink.Holds out ((List.range batch.numRows).map fun i =>
        cell (readAt first.reader batch 0 i) (readAt second.reader batch 1 i)
          (readAt third.reader batch 2 i)) := by
  obtain ⟨left, foundLeft, readsLeft⟩ := admits.column 0 rfl
  obtain ⟨middle, foundMiddle, readsMiddle⟩ := admits.column 1 rfl
  obtain ⟨right, foundRight, readsRight⟩ := admits.column 2 rfl
  rw [overThree, foundLeft, foundMiddle, foundRight]
  apply loop_ok sink finish (same left middle right) _ fits
  intro i inside
  rw [readsLeft i inside, readsMiddle i inside, readsRight i inside]
  rfl

end Functions

end TiktokenWorker

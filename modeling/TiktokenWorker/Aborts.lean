import TiktokenWorker.Scalar.Chunk
import TiktokenWorker.Scalar.Count
import TiktokenWorker.Scalar.Tokenize
import TiktokenWorker.Scalar.Truncate
import TiktokenWorker.Greedy

/-!
# Batches that abort

A reader raises its error for a value of a type it does not read, and a row is read before anything
is computed from it. `Settles` says of a computation exactly when it returns an error; it composes
along a row and along the loop over rows, so a batch returns an error exactly when some cell of it
offends, whatever else is in the row, in the column or before it.
-/

namespace TiktokenWorker

open Arrow

/-- The reader of the kind reads values of the type. -/
def Kind.reads : Kind → DataType → Bool
  | .text, .utf8 | .text, .largeUtf8 => true
  | .text, _ => false
  | .integer, .utf8 | .integer, .largeUtf8 | .integer, .other _ => false
  | .integer, _ => true

/-- The cell is a value that the reader of the kind does not read. -/
def CellOffends (kind : Kind) (col : ArrayRef) (i : Nat) : Prop :=
  kind.reads col.dataType = false ∧ ∃ value, col.cells[i]? = some (some value)

/-- A row of the batch has such a cell. -/
def RowOffends (kinds : List Kind) (batch : RecordBatch) (i : Nat) : Prop :=
  ∃ column ∈ kinds.zip batch.columns, CellOffends column.1 column.2 i

/-- Some row has. -/
def Offends (kinds : List Kind) (batch : RecordBatch) : Prop :=
  ∃ i < batch.numRows, RowOffends kinds batch i

/-! ## Computations that return an error exactly when something is the case -/

section Settles

variable {α β ε : Type} {p q : Prop}

/-- A computation returns an error exactly if `p` and a result otherwise, and never panics. -/
def Settles (run : Run ε α) (p : Prop) : Prop :=
  (∃ error, run = .error (.error error)) ∧ p ∨ (∃ result, run = .ok result) ∧ ¬p

/-- A result is no error. -/
theorem Settles.ok (result : α) : Settles (.ok result : Run ε α) False :=
  Or.inr ⟨⟨result, rfl⟩, id⟩

/-- The first error of two computations is that of both. -/
theorem Settles.bind {first : Run ε α} {next : α → Run ε β} (settles : Settles first p)
    (later : ∀ result, first = .ok result → Settles (next result) q) :
    Settles (first >>= next) (p ∨ q) := by
  rcases settles with ⟨⟨error, raised⟩, holds⟩ | ⟨⟨result, returned⟩, fails⟩
  · exact Or.inl ⟨⟨error, by rw [raised]; rfl⟩, Or.inl holds⟩
  · have same : (first >>= next) = next result := by rw [returned]; rfl
    rw [same, or_iff_right fails]
    exact later result returned

/-- Which computations return an error. -/
theorem Settles.error_iff {run : Run ε α} (settles : Settles run p) :
    (∃ error, run = .error (.error error)) ↔ p := by
  rcases settles with ⟨raised, holds⟩ | ⟨⟨result, returned⟩, fails⟩
  · exact ⟨fun _ => holds, fun _ => raised⟩
  · constructor
    · rintro ⟨error, raised⟩
      rw [returned] at raised
      cases raised
    · exact fun holds => absurd holds fails

/-- Which return a result. -/
theorem Settles.returns {run : Run ε α} (settles : Settles run p) (fails : ¬p) :
    ∃ result, run = .ok result := by
  rcases settles with ⟨_, holds⟩ | ⟨returned, _⟩
  · exact absurd holds fails
  · exact returned

/-- A loop over rows that are read or not, and whose cells fit, stops at the first row that is
not. The induction is on the rows. -/
theorem fold_settles {B γ ρ : Type} (sink : Sink ε B γ) {read : ρ → Run ε (Option γ)}
    {offends : ρ → Prop} (rows : List ρ) (settles : ∀ row ∈ rows, Settles (read row) (offends row))
    {builder : B} {cells : List (Option γ)} (holds : sink.Holds builder cells)
    (fits : sink.Fits (cells ++ rows.map fun row => (read row).toOption.join)) :
    Settles (rows.foldlM (sink.step read) builder) (∃ row ∈ rows, offends row) := by
  induction rows generalizing builder cells with
  | nil => exact Or.inr ⟨⟨builder, rfl⟩, by simp⟩
  | cons row rows ih =>
    rw [List.map_cons, List.append_cons] at fits
    rcases settles row List.mem_cons_self with ⟨⟨error, raised⟩, holds⟩ | ⟨⟨cell, returned⟩, fails⟩
    · refine Or.inl ⟨⟨error, ?_⟩, row, List.mem_cons_self, holds⟩
      rw [List.foldlM_cons, Sink.step, raised]
      rfl
    · have known : (Except.ok cell : Run ε (Option γ)).toOption.join = cell := rfl
      rw [returned, known] at fits
      obtain ⟨next, emitted, held⟩ := sink.emit_ok holds (sink.fits_prefix fits)
      have same : (row :: rows).foldlM (sink.step read) builder =
          rows.foldlM (sink.step read) next := by
        rw [List.foldlM_cons, Sink.step, returned]
        simp only [bind, Except.bind, emitted]
      rw [same, List.exists_mem_cons_iff, or_iff_right fails]
      exact ih (fun row member => settles row (List.mem_cons_of_mem _ member)) held fits

/-- A loop over the rows of a batch returns an error exactly when one of them does. -/
theorem loop_settles {B γ : Type} (sink : Sink RpcError B γ) (finish : B → β) {rows : Nat}
    {step : B → Nat → Result B} {read : Nat → Result (Option γ)} {offends : Nat → Prop}
    (same : step = sink.step read) (settles : ∀ i < rows, Settles (read i) (offends i))
    (fits : sink.Fits ((List.range rows).map fun i => (read i).toOption.join)) :
    Settles ((List.range rows).foldlM step sink.new >>= fun out => .ok (finish out))
      (∃ i < rows, offends i) := by
  have folded := fold_settles sink (List.range rows)
    (fun i member => settles i (List.mem_range.mp member)) sink.holds_new fits
  simp only [List.mem_range] at folded
  rw [same]
  have built := folded.bind (q := False) fun out _ => Settles.ok (finish out)
  rwa [or_false] at built

end Settles

/-! ## Cells and rows -/

section Cells

variable {batch : RecordBatch} {position i : Nat} {col : ArrayRef}

/-- The reader of a kind has a result for every value of the types it reads. -/
theorem Kind.reader_ok (kind : Kind) (dataType : DataType) (value : dataType.Native)
    (reads : kind.reads dataType = true) :
    ∃ result, kind.reader dataType value = .ok result := by
  cases kind <;> cases dataType <;> first | exact ⟨_, rfl⟩ | cases reads

/-- It has an error for every value of another type. -/
theorem Kind.reader_error (kind : Kind) (dataType : DataType) (value : dataType.Native)
    (rejects : kind.reads dataType = false) :
    ∃ error, kind.reader dataType value = .error (.error error) := by
  cases kind <;> cases dataType <;> first | exact ⟨_, rfl⟩ | cases rejects

/-- A cell is an error exactly when it is a value of a type that is not read. -/
theorem Kind.cell_settles (kind : Kind) (found : batch.columns[position]? = some col)
    (inside : i < batch.numRows) :
    Settles (readCell kind.reader col i) (CellOffends kind col i) := by
  obtain ⟨cell, present⟩ := batch.cell_exists (List.mem_of_getElem? found) inside
  unfold readCell CellOffends
  rw [present]
  cases cell with
  | none => exact Or.inr ⟨⟨none, rfl⟩, by simp⟩
  | some value =>
    cases reads : kind.reads col.dataType with
    | false =>
      obtain ⟨error, raised⟩ := kind.reader_error _ value reads
      refine Or.inl ⟨⟨error, ?_⟩, rfl, value, rfl⟩
      simp only [raised, bind, Except.bind]
    | true =>
      obtain ⟨result, returned⟩ := kind.reader_ok _ value reads
      refine Or.inr ⟨⟨some result, ?_⟩, by simp⟩
      simp only [returned, bind, Except.bind]

/-- What is read of a cell, if anything. -/
theorem join_readCell {α : Type} {read : Reader α}
    (found : batch.columns[position]? = some col) (i : Nat) :
    (readCell read col i).toOption.join = readAt read batch position i := by
  rw [readAt, found]
  rfl

/-- A batch whose columns have types their readers accept does not offend. -/
theorem Admits.not_offends {kinds : List Kind} (admits : Admits kinds batch) :
    ¬Offends kinds batch := by
  rintro ⟨i, _, ⟨kind, col⟩, listed, rejects, value, _⟩
  obtain ⟨position, found⟩ := List.mem_iff_getElem?.mp listed
  rw [List.getElem?_zip_eq_some] at found
  obtain ⟨accepted, present, accepts⟩ := admits position kind found.1
  have same : accepted = col := Option.some.inj (present.symm.trans found.2)
  rw [same] at accepts
  obtain ⟨result, returned⟩ := accepts.reader value
  obtain ⟨error, raised⟩ := kind.reader_error _ value rejects
  rw [returned] at raised
  cases raised

end Cells

section Rows

variable {α β γ δ : Type} {a : Result (Option α)} {b : Result (Option β)} {c : Result (Option γ)}
  {p q r : Prop}

/-- A row of two cells returns an error exactly when one of its readers does. -/
theorem two_settle {cell : Option α → Option β → Option δ} (first : Settles a p)
    (second : Settles b q) :
    Settles (do let x ← a; let y ← b; .ok (cell x y) : Result (Option δ)) (p ∨ q) := by
  have read := first.bind fun x _ => second.bind fun y _ => Settles.ok (cell x y)
  rwa [or_false] at read

/-- A row of three cells returns an error exactly when one of its readers does. -/
theorem three_settle {cell : Option α → Option β → Option γ → Option δ} (first : Settles a p)
    (second : Settles b q) (third : Settles c r) :
    Settles (do let x ← a; let y ← b; let z ← c; .ok (cell x y z) : Result (Option δ))
      (p ∨ q ∨ r) := by
  exact first.bind fun x _ => two_settle second third

/-- A row of two cells is NULL if it is not read. -/
theorem two_join {cell : Option α → Option β → Option δ} (none_left : ∀ y, cell none y = none)
    (none_right : ∀ x, cell x none = none) :
    (do let x ← a; let y ← b; .ok (cell x y) : Result (Option δ)).toOption.join =
      cell a.toOption.join b.toOption.join := by
  rcases a with error | x
  · exact (none_left _).symm
  rcases b with error | y
  · exact (none_right _).symm
  · rfl

/-- A row of three cells is NULL if it is not read. -/
theorem three_join {cell : Option α → Option β → Option γ → Option δ}
    (none_first : ∀ y z, cell none y z = none) (none_second : ∀ x z, cell x none z = none)
    (none_third : ∀ x y, cell x y none = none) :
    (do let x ← a; let y ← b; let z ← c; .ok (cell x y z) : Result (Option δ)).toOption.join =
      cell a.toOption.join b.toOption.join c.toOption.join := by
  rcases a with error | x
  · exact (none_first _ _).symm
  · exact two_join (none_second x) (none_third x)

end Rows

/-! ## Rows in another order -/

section Reorder

variable {order : List Nat} {k i : Nat} {columns reordered : List ArrayRef} {batch : RecordBatch}

/-- A reordered column offends where the column does. -/
theorem cellOffends_reorder (kind : Kind) (column : ArrayRef) (placed : order[k]? = some i)
    (lengths : order.Perm (List.range column.cells.length)) :
    CellOffends kind (column.reorder order lengths) k ↔ CellOffends kind column i := by
  have same := column.reorder_cell lengths placed
  unfold CellOffends
  rw [same]
  rfl

/-- A reordered column is read as the column is. -/
theorem cellAt_reorder {α : Type} (read : Reader α) (column : ArrayRef)
    (placed : order[k]? = some i) (lengths : order.Perm (List.range column.cells.length)) :
    cellAt read (column.reorder order lengths) k = cellAt read column i := by
  have same := column.reorder_cell lengths placed
  unfold cellAt readCell
  rw [same]
  rcases column.cells[i]? with _ | _ | _ <;> rfl

/-- Columns are reordered, one by one. -/
abbrev Reorders (order : List Nat) : List ArrayRef → List ArrayRef → Prop :=
  List.Forall₂ fun column reordered => ∃ lengths, reordered = column.reorder order lengths

/-- A cell of reordered columns is read as the one at its position in the order. -/
theorem Reorders.read {α : Type} (related : Reorders order columns reordered)
    (placed : order[k]? = some i) (read : Reader α) (position : Nat) :
    reordered[position]?.bind (cellAt read · k) = columns[position]?.bind (cellAt read · i) := by
  induction related generalizing position with
  | nil => rfl
  | cons same _ ih =>
    obtain ⟨lengths, rfl⟩ := same
    cases position with
    | zero => exact cellAt_reorder read _ placed lengths
    | succ position => exact ih position

/-- Reordered columns have an offending cell where the columns do. -/
theorem Reorders.offends (related : Reorders order columns reordered)
    (placed : order[k]? = some i) (kinds : List Kind) :
    (∃ column ∈ kinds.zip reordered, CellOffends column.1 column.2 k) ↔
      ∃ column ∈ kinds.zip columns, CellOffends column.1 column.2 i := by
  induction related generalizing kinds with
  | nil => simp
  | cons same _ ih =>
    obtain ⟨lengths, rfl⟩ := same
    cases kinds with
    | nil => simp
    | cons kind kinds =>
      rw [List.zip_cons_cons, List.zip_cons_cons, List.exists_mem_cons_iff,
        List.exists_mem_cons_iff, ih kinds, cellOffends_reorder kind _ placed lengths]

/-- A cell of a reordered batch is read as the one at its position in the order. -/
theorem readAt_reorder {α : Type} (perm : order.Perm (List.range batch.numRows))
    (placed : order[k]? = some i) (read : Reader α) (position : Nat) :
    readAt read (batch.reorder order perm) position k = readAt read batch position i :=
  Reorders.read (batch.reorder_columns perm) placed read position

/-- Whether a batch offends does not depend on the order of its rows. -/
theorem offends_reorder (perm : order.Perm (List.range batch.numRows)) (kinds : List Kind) :
    Offends kinds (batch.reorder order perm) ↔ Offends kinds batch := by
  have columns : Reorders order batch.columns _ := batch.reorder_columns perm
  constructor
  · rintro ⟨k, inside, offends⟩
    have bounded : k < order.length := by
      rwa [perm.length_eq, List.length_range]
    have placed := List.getElem?_eq_getElem bounded
    have present := perm.mem_iff.mp (List.getElem_mem bounded)
    exact ⟨order[k], List.mem_range.mp present, (columns.offends placed kinds).mp offends⟩
  · rintro ⟨i, inside, offends⟩
    have present := perm.mem_iff.mpr (List.mem_range.mpr inside)
    obtain ⟨k, bounded, found⟩ := List.mem_iff_getElem.mp present
    have placed : order[k]? = some i := by rw [List.getElem?_eq_getElem bounded, found]
    refine ⟨k, ?_, (columns.offends placed kinds).mpr offends⟩
    rwa [perm.length_eq, List.length_range] at bounded

end Reorder

/-! ## Functions that abort on types -/

section Functions

variable {α γ : Type}

/-- The batch has a column for each of the kinds. -/
def HasColumns (kinds : List Kind) (batch : RecordBatch) : Prop :=
  kinds.length ≤ batch.columns.length

/-- The cells a function gives the rows of a batch, NULL for a row that is not read. -/
def cellsOf (cell : RecordBatch → Nat → Option γ) (batch : RecordBatch) : List (Option γ) :=
  (List.range batch.numRows).map (cell batch)

/-- A function over columns of these kinds, each row of which has a cell, returns an error exactly
when some row has a value in a column of a type that is not read. -/
structure AbortsOnTypes (process : RecordBatch → Result α) (kinds : List Kind)
    (fits : List (Option γ) → Prop) (cell : RecordBatch → Nat → Option γ) : Prop where
  /-- Which batches are an error. -/
  error_iff : ∀ batch, HasColumns kinds batch → fits (cellsOf cell batch) →
    ((∃ error, process batch = .error (.error error)) ↔ Offends kinds batch)
  /-- One value of such a type is enough, whatever else is in its row. -/
  unmasked : ∀ batch, HasColumns kinds batch → fits (cellsOf cell batch) → ∀ i < batch.numRows,
    ∀ column ∈ kinds.zip batch.columns, CellOffends column.1 column.2 i →
      ∃ error, process batch = .error (.error error)
  /-- Every other batch has a result, whatever its values and NULLs. -/
  returns : ∀ batch, HasColumns kinds batch → fits (cellsOf cell batch) → ¬Offends kinds batch →
    ∃ result, process batch = .ok result
  /-- Whether a batch is an error does not depend on the order of its rows. -/
  reorder : ∀ batch order (perm : order.Perm (List.range batch.numRows)), HasColumns kinds batch →
    fits (cellsOf cell batch) →
    ((∃ error, process (batch.reorder order perm) = .error (.error error)) ↔
      ∃ error, process batch = .error (.error error))

/-- A function may promise this of fewer batches. -/
theorem AbortsOnTypes.imp {process : RecordBatch → Result α} {kinds : List Kind}
    {fits fewer : List (Option γ) → Prop} {cell : RecordBatch → Nat → Option γ}
    (aborts : AbortsOnTypes process kinds fits cell) (implies : ∀ cells, fewer cells → fits cells) :
    AbortsOnTypes process kinds fewer cell where
  error_iff batch columns fewer := aborts.error_iff batch columns (implies _ fewer)
  unmasked batch columns fewer := aborts.unmasked batch columns (implies _ fewer)
  returns batch columns fewer := aborts.returns batch columns (implies _ fewer)
  reorder batch order perm columns fewer :=
    aborts.reorder batch order perm columns (implies _ fewer)

/-- The cells of a reordered batch are its cells reordered. -/
theorem cellsOf_reorder {cell : RecordBatch → Nat → Option γ} (batch : RecordBatch)
    {order : List Nat} (perm : order.Perm (List.range batch.numRows))
    (local_cell : ∀ k i, order[k]? = some i → cell (batch.reorder order perm) k = cell batch i) :
    (cellsOf cell (batch.reorder order perm)).Perm (cellsOf cell batch) := by
  have same : cellsOf cell (batch.reorder order perm) = order.map (cell batch) := by
    have rows : order.length = batch.numRows := by rw [perm.length_eq, List.length_range]
    apply List.ext_getElem
    · rw [cellsOf, List.length_map, List.length_range, List.length_map, rows]
      rfl
    · intro k inside bounded
      rw [List.length_map] at bounded
      simp only [cellsOf, List.getElem_map, List.getElem_range]
      exact local_cell k _ (List.getElem?_eq_getElem bounded)
  rw [same]
  exact perm.map _

/-- A function that settles on whether its batch offends, and whose cells depend on their own rows
and fit in any order, aborts on types. -/
theorem AbortsOnTypes.of_settles {process : RecordBatch → Result α} {kinds : List Kind}
    {fits : List (Option γ) → Prop} {cell : RecordBatch → Nat → Option γ}
    (settles : ∀ batch, HasColumns kinds batch → fits (cellsOf cell batch) →
      Settles (process batch) (Offends kinds batch))
    (fits_perm : ∀ front back, front.Perm back → fits back → fits front)
    (local_cell : ∀ batch order (perm : order.Perm (List.range batch.numRows)) k i,
      order[k]? = some i → cell (batch.reorder order perm) k = cell batch i) :
    AbortsOnTypes process kinds fits cell where
  error_iff batch columns fits := (settles batch columns fits).error_iff
  unmasked batch columns fits i inside column listed offends :=
    (settles batch columns fits).error_iff.mpr ⟨i, inside, column, listed, offends⟩
  returns batch columns fits clean := (settles batch columns fits).returns clean
  reorder batch order perm columns fits := by
    have cells := cellsOf_reorder batch perm (local_cell batch order perm)
    have kept : HasColumns kinds (batch.reorder order perm) :=
      columns.trans_eq (batch.reorder_columns perm).length_eq
    rw [(settles _ kept (fits_perm _ _ cells fits)).error_iff,
      (settles batch columns fits).error_iff, offends_reorder]

end Functions

section Columns

variable {B β δ : Type} {first second third : Kind} (sink : Sink RpcError B δ) (finish : B → β)

/-- A function of two columns aborts on their types. -/
theorem AbortsOnTypes.two {step : ArrayRef → ArrayRef → B → Nat → Result B}
    {cell : Option first.Value → Option second.Value → Option δ}
    (same : ∀ left right, step left right = sink.step fun i => do
      let x ← readCell first.reader left i
      let y ← readCell second.reader right i
      .ok (cell x y))
    (none_left : ∀ y, cell none y = none) (none_right : ∀ x, cell x none = none)
    (fits_perm : ∀ front back, front.Perm back → sink.Fits back → sink.Fits front) :
    AbortsOnTypes (overTwo sink finish step) [first, second] sink.Fits
      (fun batch i => cell (readAt first.reader batch 0 i) (readAt second.reader batch 1 i)) := by
  apply AbortsOnTypes.of_settles _ fits_perm
  · intro batch order perm k i placed
    rw [readAt_reorder perm placed, readAt_reorder perm placed]
  · intro batch columns fits
    obtain ⟨left, right, rest, listed⟩ :
        ∃ left right rest, batch.columns = left :: right :: rest := by
      have enough : 2 ≤ batch.columns.length := columns
      match batch.columns, enough with
      | left :: right :: rest, _ => exact ⟨left, right, rest, rfl⟩
    have foundLeft : batch.columns[0]? = some left := by rw [listed]; rfl
    have foundRight : batch.columns[1]? = some right := by rw [listed]; rfl
    have offends : Offends [first, second] batch =
        ∃ i < batch.numRows, CellOffends first left i ∨ CellOffends second right i := by
      simp [Offends, RowOffends, listed]
    have rows := loop_settles sink finish (same left right)
      (fun i inside => two_settle (first.cell_settles foundLeft inside)
        (second.cell_settles foundRight inside)) (by
        simp only [two_join none_left none_right, join_readCell foundLeft,
          join_readCell foundRight]
        exact fits)
    rw [offends]
    simp only [overTwo, RecordBatch.column, foundLeft, foundRight]
    exact rows

/-- A function of three columns aborts on their types. -/
theorem AbortsOnTypes.three {step : ArrayRef → ArrayRef → ArrayRef → B → Nat → Result B}
    {cell : Option first.Value → Option second.Value → Option third.Value → Option δ}
    (same : ∀ left middle right, step left middle right = sink.step fun i => do
      let x ← readCell first.reader left i
      let y ← readCell second.reader middle i
      let z ← readCell third.reader right i
      .ok (cell x y z))
    (none_left : ∀ y z, cell none y z = none) (none_middle : ∀ x z, cell x none z = none)
    (none_right : ∀ x y, cell x y none = none)
    (fits_perm : ∀ front back, front.Perm back → sink.Fits back → sink.Fits front) :
    AbortsOnTypes (overThree sink finish step) [first, second, third] sink.Fits
      (fun batch i => cell (readAt first.reader batch 0 i) (readAt second.reader batch 1 i)
        (readAt third.reader batch 2 i)) := by
  apply AbortsOnTypes.of_settles _ fits_perm
  · intro batch order perm k i placed
    rw [readAt_reorder perm placed, readAt_reorder perm placed, readAt_reorder perm placed]
  · intro batch columns fits
    obtain ⟨left, middle, right, rest, listed⟩ :
        ∃ left middle right rest, batch.columns = left :: middle :: right :: rest := by
      have enough : 3 ≤ batch.columns.length := columns
      match batch.columns, enough with
      | left :: middle :: right :: rest, _ => exact ⟨left, middle, right, rest, rfl⟩
    have foundLeft : batch.columns[0]? = some left := by rw [listed]; rfl
    have foundMiddle : batch.columns[1]? = some middle := by rw [listed]; rfl
    have foundRight : batch.columns[2]? = some right := by rw [listed]; rfl
    have offends : Offends [first, second, third] batch = ∃ i < batch.numRows,
        CellOffends first left i ∨ CellOffends second middle i ∨ CellOffends third right i := by
      simp [Offends, RowOffends, listed]
    have rows := loop_settles sink finish (same left middle right)
      (fun i inside => three_settle (first.cell_settles foundLeft inside)
        (second.cell_settles foundMiddle inside) (third.cell_settles foundRight inside)) (by
        simp only [three_join none_left none_middle none_right, join_readCell foundLeft,
          join_readCell foundMiddle, join_readCell foundRight]
        exact fits)
    rw [offends]
    simp only [overThree, RecordBatch.column, foundLeft, foundMiddle, foundRight]
    exact rows

end Columns

/-! ## The functions -/

/-- Cells take the same bytes in any order. -/
theorem buffered_perm {α : Type} [Buffered α] {front back : List (Option α)}
    (perm : front.Perm back) : buffered front = buffered back :=
  (perm.map _).sum_eq

/-- Cells that fit a builder do in any order. -/
theorem bytes_perm {α : Type} [Buffered α] (front back : List (Option α)) (perm : front.Perm back)
    (fits : buffered back ≤ offsetMax) : buffered front ≤ offsetMax := by
  rwa [buffered_perm perm]

/-- Rows that fit a list builder do in any order. -/
theorem fits_perm {α : Type} [Buffered α] (front back : List (Option (List α)))
    (perm : front.Perm back) (fits : ListBuilder.Fits back) : ListBuilder.Fits front := by
  have values : (flat front).Perm (flat back) := perm.flatMap_right _
  unfold ListBuilder.Fits at *
  rwa [buffered_perm (values.map some), values.length_eq]

variable (rs : TiktokenRs) (target : Target)

/-- `count_tokens(text, model)` aborts on types; every column of counts fits. -/
theorem CountTokensModel.abortsOnTypes : AbortsOnTypes (CountTokensModel.process rs) [.text, .text]
    (fun _ => True)
    (fun batch i => CountTokensModel.cell rs (textAt batch 0 i) (textAt batch 1 i)) := by
  apply AbortsOnTypes.imp _ fun cells _ => (buffered_int32 cells).trans_le (Nat.zero_le offsetMax)
  apply AbortsOnTypes.two Builder.sink Builder.finish
    (CountTokensModel.step_eq rs) (fun m => rfl)
    (fun t => by cases t <;> rfl)
  exact bytes_perm

/-- `tokenize(text, model)` aborts on types. -/
theorem TokenizeModel.abortsOnTypes : AbortsOnTypes (TokenizeModel.process rs) [.text, .text]
    ListBuilder.Fits
    (fun batch i => TokenizeModel.cell rs (textAt batch 0 i) (textAt batch 1 i)) := by
  apply AbortsOnTypes.two ListBuilder.sink ListBuilder.finish
    (TokenizeModel.step_eq rs) (fun m => rfl)
    (fun t => by cases t <;> rfl)
  exact fits_perm

/-- `truncate_to_tokens(text, n)` aborts on types. -/
theorem TruncateToTokens.abortsOnTypes :
    AbortsOnTypes (TruncateToTokens.process rs target) [.text, .integer]
      (fun cells => buffered cells ≤ offsetMax)
      (fun batch i => TruncateToTokens.cell rs target (textAt batch 0 i) (intAt batch 1 i)) := by
  apply AbortsOnTypes.two Builder.sink Builder.finish
    (TruncateToTokens.step_eq rs target) (fun n => rfl)
    (fun t => by cases t <;> rfl)
  exact bytes_perm

/-- `truncate_to_tokens(text, n, model)` aborts on types. -/
theorem TruncateToTokensModel.abortsOnTypes :
    AbortsOnTypes (TruncateToTokensModel.process rs target) [.text, .integer, .text]
      (fun cells => buffered cells ≤ offsetMax)
      (fun batch i => TruncateToTokensModel.cell rs target (textAt batch 0 i) (intAt batch 1 i)
        (textAt batch 2 i)) := by
  apply AbortsOnTypes.three Builder.sink Builder.finish
    (TruncateToTokensModel.step_eq rs target) (fun n m => rfl)
    (fun t m => by cases t <;> rfl) (fun t n => by cases t <;> cases n <;> rfl)
  exact bytes_perm

/-- `chunk_by_tokens(text, max_tokens)` aborts on types. -/
theorem ChunkByTokens.abortsOnTypes :
    AbortsOnTypes (ChunkByTokens.process rs target) [.text, .integer] ListBuilder.Fits
      (fun batch i => ChunkByTokens.cell rs target (textAt batch 0 i) (intAt batch 1 i)) := by
  apply AbortsOnTypes.two ListBuilder.sink ListBuilder.finish
    (ChunkByTokens.step_eq rs target) (fun m => rfl)
    (fun t => by cases t <;> rfl)
  exact fits_perm

/-- `chunk_by_tokens(text, max_tokens, overlap)` aborts on types. -/
theorem ChunkByTokensOverlap.abortsOnTypes :
    AbortsOnTypes (ChunkByTokensOverlap.process rs target) [.text, .integer, .integer]
      ListBuilder.Fits
      (fun batch i => ChunkByTokensOverlap.cell rs target (textAt batch 0 i) (intAt batch 1 i)
        (intAt batch 2 i)) := by
  apply AbortsOnTypes.three ListBuilder.sink ListBuilder.finish
    (ChunkByTokensOverlap.step_eq rs target)
    (fun m o => rfl) (fun t o => by cases t <;> rfl) (fun t m => by cases t <;> cases m <;> rfl)
  exact fits_perm

/-- The functions of several arguments abort a batch exactly when some row has a value in a text or
model column that is no string column, or in a number column that is not numeric. -/
theorem functions_abort_on_types (rs : TiktokenRs) (target : Target) :
    AbortsOnTypes (CountTokensModel.process rs) [.text, .text] (fun _ => True)
      (fun batch i => CountTokensModel.cell rs (textAt batch 0 i) (textAt batch 1 i)) ∧
    AbortsOnTypes (TokenizeModel.process rs) [.text, .text] ListBuilder.Fits
      (fun batch i => TokenizeModel.cell rs (textAt batch 0 i) (textAt batch 1 i)) ∧
    AbortsOnTypes (TruncateToTokens.process rs target) [.text, .integer]
      (fun cells => buffered cells ≤ offsetMax)
      (fun batch i => TruncateToTokens.cell rs target (textAt batch 0 i) (intAt batch 1 i)) ∧
    AbortsOnTypes (TruncateToTokensModel.process rs target) [.text, .integer, .text]
      (fun cells => buffered cells ≤ offsetMax)
      (fun batch i => TruncateToTokensModel.cell rs target (textAt batch 0 i) (intAt batch 1 i)
        (textAt batch 2 i)) ∧
    AbortsOnTypes (ChunkByTokens.process rs target) [.text, .integer] ListBuilder.Fits
      (fun batch i => ChunkByTokens.cell rs target (textAt batch 0 i) (intAt batch 1 i)) ∧
    AbortsOnTypes (ChunkByTokensOverlap.process rs target) [.text, .integer, .integer]
      ListBuilder.Fits
      (fun batch i => ChunkByTokensOverlap.cell rs target (textAt batch 0 i) (intAt batch 1 i)
        (intAt batch 2 i)) :=
  ⟨CountTokensModel.abortsOnTypes rs, TokenizeModel.abortsOnTypes rs,
    TruncateToTokens.abortsOnTypes rs target, TruncateToTokensModel.abortsOnTypes rs target,
    ChunkByTokens.abortsOnTypes rs target, ChunkByTokensOverlap.abortsOnTypes rs target⟩

/-- A NULL text does not hide a number in the model column. -/
theorem functions_abort_on_types_null_text :
    ∃ error, CountTokensModel.process Greedy.crate
      ⟨1, [⟨.utf8, [none], by decide⟩, ⟨.int32, [some 7], by decide⟩], by decide⟩ =
        .error (.error error) := by
  apply (functions_abort_on_types Greedy.crate .native).1.unmasked _ le_rfl trivial 0
    (by decide) _ (List.mem_cons_of_mem _ List.mem_cons_self)
  exact ⟨rfl, 7, rfl⟩

end TiktokenWorker

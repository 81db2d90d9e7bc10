import TiktokenWorker.Aborts
import TiktokenWorker.Worker

/-!
# What becomes of a batch

A loop over rows ends at the first row that a reader raises an error for or that no longer fits the
builder, whichever comes first, and otherwise has a cell for every row. `Outcome` says which of the
three it is from two things known before the loop runs: the error of each row, if it has one, and
how many of the rows fit.
-/

namespace TiktokenWorker

open Arrow

/-! ## Loops over rows -/

section Loops

variable {ε α β γ δ B : Type}

/-- A computation that is known to raise an error or to return. -/
def settle (error : Option ε) (value : α) : Run ε α :=
  match error with
  | some error => .error (.error error)
  | none => .ok value

/-- Of two computations the first error is raised. -/
theorem settle_bind (first second : Option ε) (value : α) (next : α → β) :
    (settle first value >>= fun x => settle second (next x)) =
      settle (first.or second) (next value) := by
  cases first with
  | none => rfl
  | some error => rfl

/-- What is made of the value does not change the error. -/
theorem settle_map (error : Option ε) (value : α) (next : α → β) :
    (settle error value >>= fun x => .ok (next x)) = settle error (next value) := by
  cases error with
  | none => rfl
  | some error => rfl

/-- What a computation over rows comes to, by the error of each row and by how many rows fit. -/
structure Outcome (run : Run ε β) (rows : Nat) (error : Nat → Option ε) (fits : Nat → Prop)
    (holds : β → Prop) : Prop where
  /-- What it returns. -/
  result : ∀ result, run = .ok result → holds result
  /-- When it returns. -/
  returns : (∃ result, run = .ok result) ↔ (∀ i < rows, error i = none) ∧ fits rows
  /-- Which error it raises: that of the first row that has one, if the rows before it fit. -/
  raises : ∀ raised, run = .error (.error raised) ↔
    ∃ i < rows, error i = some raised ∧ (∀ j < i, error j = none) ∧ fits i
  /-- When it panics: at a row that does not fit, if no row so far has an error. -/
  panics : (∃ message, run = .error (.panic message)) ↔
    ∃ i < rows, (∀ j ≤ i, error j = none) ∧ ¬fits (i + 1)

/-- A computation comes to what one equal to it does. -/
theorem Outcome.of_eq {run other : Run ε β} {rows : Nat} {error : Nat → Option ε}
    {fits : Nat → Prop} {holds : β → Prop} (outcome : Outcome run rows error fits holds)
    (same : other = run) : Outcome other rows error fits holds := same ▸ outcome

/-- What is made of the result does not change how a computation ends. -/
theorem Outcome.map {run : Run ε β} {rows : Nat} {error : Nat → Option ε} {fits : Nat → Prop}
    {holds : γ → Prop} {finish : β → γ}
    (outcome : Outcome run rows error fits fun result => holds (finish result)) :
    Outcome (run >>= fun result => .ok (finish result)) rows error fits holds := by
  cases run with
  | ok result =>
    have finished : (Except.ok result >>= fun result => .ok (finish result)) =
        (.ok (finish result) : Run ε γ) := rfl
    rw [finished]
    refine ⟨?_, ?_, ?_, ?_⟩
    · rintro _ ⟨⟩
      exact outcome.result result rfl
    · rw [← outcome.returns]
      exact ⟨fun _ => ⟨result, rfl⟩, fun _ => ⟨_, rfl⟩⟩
    · intro raised
      rw [← outcome.raises raised]
      exact ⟨nofun, nofun⟩
    · rw [← outcome.panics]
      exact ⟨nofun, nofun⟩
  | error abort =>
    have aborted : (Except.error abort >>= fun result => .ok (finish result)) =
        (.error abort : Run ε γ) := rfl
    rw [aborted]
    refine ⟨nofun, ?_, ?_, ?_⟩
    · rw [← outcome.returns]
      exact ⟨nofun, nofun⟩
    · intro raised
      rw [← outcome.raises raised, Except.error.injEq, Except.error.injEq]
    · rw [← outcome.panics]
      simp only [Except.error.injEq]

section Ends

variable {rows : Nat} {error : Nat → Option ε} {fits : Nat → Prop} {holds : β → Prop}
  (fewer : ∀ {few many : Nat}, few ≤ many → fits many → fits few)

include fewer

/-- A computation that returns: no row has an error and all fit. -/
theorem Outcome.of_ok {result : β} (clean : ∀ i < rows, error i = none) (all : fits rows)
    (held : holds result) : Outcome (.ok result : Run ε β) rows error fits holds where
  result _ same := Except.ok.inj same ▸ held
  returns := ⟨fun _ => ⟨clean, all⟩, fun _ => ⟨result, rfl⟩⟩
  raises raised := by
    refine ⟨nofun, ?_⟩
    rintro ⟨i, inside, has, _⟩
    rw [clean i inside] at has
    cases has
  panics := by
    refine ⟨nofun, ?_⟩
    rintro ⟨i, inside, _, exceeds⟩
    exact absurd (fewer inside all) exceeds

/-- A computation that raises the error of a row: the rows before it have none and fit. -/
theorem Outcome.of_error {raised : ε} {i : Nat} (inside : i < rows) (has : error i = some raised)
    (clean : ∀ j < i, error j = none) (room : fits i) :
    Outcome (.error (.error raised) : Run ε β) rows error fits holds where
  result _ same := by cases same
  returns := by
    refine ⟨nofun, ?_⟩
    rintro ⟨all, _⟩
    rw [all i inside] at has
    cases has
  raises other := by
    constructor
    · intro same
      cases same
      exact ⟨i, inside, has, clean, room⟩
    · rintro ⟨k, _, found, before, _⟩
      obtain rfl : k = i := by
        rcases Nat.lt_trichotomy k i with below | same | above
        · rw [clean k below] at found
          cases found
        · exact same
        · rw [before i above] at has
          cases has
      rw [has] at found
      cases found
      rfl
  panics := by
    refine ⟨nofun, ?_⟩
    rintro ⟨k, _, before, exceeds⟩
    rcases Nat.lt_or_ge k i with below | above
    · exact absurd (fewer below room) exceeds
    · rw [before i above] at has
      cases has

/-- A computation that panics at a row: no row so far has an error and it does not fit. -/
theorem Outcome.of_panic {message : String} {i : Nat} (inside : i < rows)
    (clean : ∀ j ≤ i, error j = none) (exceeds : ¬fits (i + 1)) :
    Outcome (.error (.panic message) : Run ε β) rows error fits holds where
  result _ same := by cases same
  returns := by
    refine ⟨nofun, ?_⟩
    rintro ⟨_, all⟩
    exact absurd (fewer inside all) exceeds
  raises raised := by
    refine ⟨nofun, ?_⟩
    rintro ⟨k, _, found, before, room⟩
    rcases Nat.lt_or_ge i k with below | above
    · exact absurd (fewer below room) exceeds
    · rw [clean k above] at found
      cases found
  panics := ⟨fun _ => ⟨i, inside, clean, exceeds⟩, fun _ => ⟨message, rfl⟩⟩

end Ends

variable (sink : Sink ε B γ) {read : Nat → Run ε (Option γ)} {error : Nat → Option ε}
  {cell : Nat → Option γ}

/-- Rows that fit still do without the last of them. -/
theorem fits_range {few many : Nat} (fewer : few ≤ many)
    (fits : sink.Fits ((List.range many).map cell)) : sink.Fits ((List.range few).map cell) := by
  obtain ⟨more, rfl⟩ := Nat.exists_eq_add_of_le fewer
  rw [List.range_add, List.map_append] at fits
  exact sink.fits_prefix fits

omit cell error in
/-- A loop over rows ends with the last of them. -/
theorem fold_succ (rows : Nat) : (List.range (rows + 1)).foldlM (sink.step read) sink.new =
    (List.range rows).foldlM (sink.step read) sink.new >>= fun out =>
      sink.step read out rows := by
  rw [List.range_succ, List.foldlM_append]
  simp

/-- How far a loop gets. The induction is on the rows, the last of them apart. -/
theorem fold_cases (rows : Nat) (reads : ∀ i < rows, read i = settle (error i) (cell i)) :
    (∃ out, (List.range rows).foldlM (sink.step read) sink.new = .ok out ∧
      sink.Holds out ((List.range rows).map cell) ∧ ∀ i < rows, error i = none) ∨
    (∃ i < rows, ∃ raised, (List.range rows).foldlM (sink.step read) sink.new =
        .error (.error raised) ∧ error i = some raised ∧ (∀ j < i, error j = none) ∧
      sink.Fits ((List.range i).map cell)) ∨
    ∃ i < rows, ∃ message, (List.range rows).foldlM (sink.step read) sink.new =
        .error (.panic message) ∧ (∀ j ≤ i, error j = none) ∧
      ¬sink.Fits ((List.range (i + 1)).map cell) := by
  induction rows with
  | zero => exact Or.inl ⟨sink.new, rfl, sink.holds_new, fun i inside => by omega⟩
  | succ rows ih =>
    rw [fold_succ]
    rcases ih fun i inside => reads i (by omega) with ⟨out, built, holds, clean⟩ |
      ⟨i, inside, raised, built, has, clean, fits⟩ | ⟨i, inside, message, built, clean, exceeds⟩
    · rw [built]
      have last : (Except.ok out >>= fun out => sink.step read out rows) =
          settle (error rows) (cell rows) >>= fun cell => sink.emit out cell := by
        rw [← reads rows (Nat.lt_succ_self rows)]
        rfl
      rw [last]
      cases has : error rows with
      | some raised =>
        exact Or.inr (Or.inl ⟨rows, Nat.lt_succ_self rows, raised, rfl, has, clean,
          sink.holds_fits holds⟩)
      | none =>
        have none_so_far : ∀ j ≤ rows, error j = none := by
          intro j below
          rcases Nat.lt_or_eq_of_le below with before | rfl
          · exact clean j before
          · exact has
        by_cases fits : sink.Fits ((List.range rows).map cell ++ [cell rows])
        · obtain ⟨next, emitted, held⟩ := sink.emit_ok holds fits
          refine Or.inl ⟨next, emitted, ?_, fun i inside => none_so_far i (by omega)⟩
          rw [List.range_succ, List.map_append, List.map_singleton]
          exact held
        · obtain ⟨message, panicked⟩ := sink.emit_panic holds fits
          refine Or.inr (Or.inr ⟨rows, Nat.lt_succ_self rows, message, panicked, none_so_far, ?_⟩)
          rwa [List.range_succ, List.map_append, List.map_singleton]
    · rw [built]
      exact Or.inr (Or.inl ⟨i, by omega, raised, rfl, has, clean, fits⟩)
    · rw [built]
      exact Or.inr (Or.inr ⟨i, by omega, message, rfl, clean, exceeds⟩)

/-- What a loop over rows comes to. -/
theorem fold_outcome (rows : Nat) (reads : ∀ i < rows, read i = settle (error i) (cell i)) :
    Outcome ((List.range rows).foldlM (sink.step read) sink.new) rows error
      (fun n => sink.Fits ((List.range n).map cell))
      (fun out => sink.Holds out ((List.range rows).map cell)) := by
  have fewer : ∀ {few many}, few ≤ many → sink.Fits ((List.range many).map cell) →
      sink.Fits ((List.range few).map cell) := fun within => fits_range sink within
  rcases fold_cases sink rows reads with ⟨out, built, holds, clean⟩ |
    ⟨i, inside, raised, built, has, clean, fits⟩ | ⟨i, inside, message, built, clean, exceeds⟩
  · rw [built]
    exact Outcome.of_ok fewer clean (sink.holds_fits holds) holds
  · rw [built]
    exact Outcome.of_error fewer inside has clean fits
  · rw [built]
    exact Outcome.of_panic fewer inside clean exceeds

end Loops

/-! ## Errors of cells and rows -/

/-- What the reader of a kind says of a type it does not read. -/
def Kind.complaint : Kind → DataType → String
  | .text, dataType => "expected a VARCHAR (string) argument, got " ++ dataType.debug
  | .integer, dataType => "expected an integer argument, got " ++ dataType.debug

/-- The error of a cell, if it has one: a NULL has none. -/
def cellError (kind : Kind) (col : ArrayRef) (i : Nat) : Option RpcError :=
  if kind.reads col.dataType = false ∧ (col.cells[i]?.join).isSome then
    some (.valueError (kind.complaint col.dataType))
  else none

/-- The error of a row: that of the first of its cells that has one. -/
def rowError (kinds : List Kind) (batch : RecordBatch) (i : Nat) : Option RpcError :=
  (kinds.zip batch.columns).findSome? fun column => cellError column.1 column.2 i

section Errors

variable {kind : Kind} {kinds : List Kind} {col : ArrayRef} {batch : RecordBatch}
  {position i : Nat}

/-- The cells that have an error are the offending ones. -/
theorem cellError_isSome_iff : (cellError kind col i).isSome ↔ CellOffends kind col i := by
  unfold cellError CellOffends
  rcases col.cells[i]? with _ | _ | value
  · simp
  · simp
  · cases kind.reads col.dataType <;> simp

/-- The rows that have an error are the offending ones. -/
theorem rowError_isSome_iff : (rowError kinds batch i).isSome ↔ RowOffends kinds batch i := by
  rw [rowError, List.findSome?_isSome_iff]
  simp only [cellError_isSome_iff]
  rfl

/-- The reader of a kind raises its complaint for a value of a type it does not read. -/
theorem Kind.reader_complaint (dataType : DataType) (value : dataType.Native)
    (rejects : kind.reads dataType = false) :
    kind.reader dataType value = .error (.error (.valueError (kind.complaint dataType))) := by
  cases kind <;> cases dataType <;> first | rfl | cases rejects

/-- The error of a row is what the reader of one of its offending cells says of its type. -/
theorem exists_complaint {error : RpcError} (has : rowError kinds batch i = some error) :
    ∃ column ∈ kinds.zip batch.columns, CellOffends column.1 column.2 i ∧
      error = .valueError (column.1.complaint column.2.dataType) := by
  obtain ⟨column, listed, raised⟩ := List.exists_of_findSome?_eq_some has
  refine ⟨column, listed, cellError_isSome_iff.mp (Option.isSome_of_mem raised), ?_⟩
  unfold cellError at raised
  split at raised
  · exact (Option.some.inj raised).symm
  · cases raised

/-- A cell is read unless it has an error. -/
theorem readCell_settle (found : batch.columns[position]? = some col) (inside : i < batch.numRows) :
    readCell kind.reader col i =
      settle (cellError kind col i) (readAt kind.reader batch position i) := by
  obtain ⟨cell, present⟩ := batch.cell_exists (List.mem_of_getElem? found) inside
  rw [readAt, found, Option.bind_some, cellAt, cellError, present]
  cases cell with
  | none =>
    rw [readCell_null present]
    simp [settle, Except.toOption]
  | some value =>
    cases reads : kind.reads col.dataType with
    | false =>
      have raised := kind.reader_complaint col.dataType value reads
      simp [readCell, present, raised, settle, bind, Except.bind]
    | true =>
      obtain ⟨result, returned⟩ := kind.reader_ok col.dataType value reads
      rw [readCell_value present returned]
      simp [settle, Except.toOption]

end Errors

/-! ## Functions of columns -/

section Columns

variable {B γ : Type} {first second third : Kind} {sink : Sink RpcError B γ}
  {column : B → Column} {datum : γ → Datum} {batch : RecordBatch}

/-- Cells fit a builder when they fit 32-bit offsets. -/
theorem fits_cells (renders : Renders sink column datum) (cell : Nat → Option γ) (rows : Nat) :
    sink.Fits ((List.range rows).map cell) ↔
      CellsFit ((List.range rows).map fun i => (cell i).map datum) := by
  rw [renders.fits, List.map_map]
  rfl

/-- How many rows a loop that builds a result column gets through. -/
theorem loop_returns (renders : Renders sink column datum) {rows : Nat} {step : B → Nat → Result B}
    {read : Nat → Result (Option γ)} {error : Nat → Option RpcError} {cell : Nat → Option γ}
    (same : step = sink.step read) (reads : ∀ i < rows, read i = settle (error i) (cell i)) :
    (∃ out, (List.range rows).foldlM step sink.new = .ok out) ↔
      (∀ i < rows, error i = none) ∧
        CellsFit ((List.range rows).map fun i => (cell i).map datum) := by
  rw [← fits_cells renders, same]
  exact (fold_outcome sink rows reads).returns

/-- What such a loop comes to. -/
theorem loop_outcome (renders : Renders sink column datum) {rows : Nat} {step : B → Nat → Result B}
    {read : Nat → Result (Option γ)} {error : Nat → Option RpcError} {cell : Nat → Option γ}
    (same : step = sink.step read) (reads : ∀ i < rows, read i = settle (error i) (cell i)) :
    Outcome ((List.range rows).foldlM step sink.new >>= fun out => .ok (column out)) rows error
      (fun n => CellsFit ((List.range n).map fun i => (cell i).map datum))
      (fun result => result.rows = (List.range rows).map fun i => (cell i).map datum) := by
  have folded := fold_outcome sink rows reads
  simp only [fits_cells renders] at folded
  rw [same]
  apply Outcome.map
  refine ⟨fun out built => ?_, folded.returns, folded.raises, folded.panics⟩
  rw [renders.rows out _ (folded.result out built), List.map_map]
  rfl

/-- The first error of a list of columns. -/
theorem findSome_cons {α β : Type} (f : α → Option β) (head : α) (rest : List α) :
    (head :: rest).findSome? f = (f head).or (rest.findSome? f) := by
  rw [List.findSome?_cons]
  cases f head <;> rfl

/-- A row of one column is read unless it has an error. -/
theorem reads_one (columns : HasColumns [first] batch) (cell : Option first.Value → Option γ) :
    ∃ only, (batch.column 0 : Result ArrayRef) = .ok only ∧
      (∀ i, cellAt first.reader only i = readAt first.reader batch 0 i) ∧
      ∀ i < batch.numRows, (do let x ← readCell first.reader only i; .ok (cell x)) =
        settle (rowError [first] batch i) (cell (readAt first.reader batch 0 i)) := by
  obtain ⟨only, rest, listed⟩ : ∃ only rest, batch.columns = only :: rest := by
    have enough : 1 ≤ batch.columns.length := columns
    match batch.columns, enough with
    | only :: rest, _ => exact ⟨only, rest, rfl⟩
  have foundOnly : batch.columns[0]? = some only := by rw [listed]; rfl
  refine ⟨only, by rw [RecordBatch.column, foundOnly], ?_, ?_⟩
  · intro i
    rw [readAt, foundOnly, Option.bind_some]
  · intro i inside
    have error : rowError [first] batch i = cellError first only i := by
      rw [rowError, listed, List.zip_cons_cons, findSome_cons]
      exact Option.or_none
    rw [readCell_settle foundOnly inside, settle_map, error]

/-- A row of two columns is read unless it has an error. -/
theorem reads_two (columns : HasColumns [first, second] batch)
    (cell : Option first.Value → Option second.Value → Option γ) :
    ∃ left right, (batch.column 0 : Result ArrayRef) = .ok left ∧
      (batch.column 1 : Result ArrayRef) = .ok right ∧
      (∀ i, cellAt first.reader left i = readAt first.reader batch 0 i ∧
        cellAt second.reader right i = readAt second.reader batch 1 i) ∧
      ∀ i < batch.numRows, (do
          let x ← readCell first.reader left i
          let y ← readCell second.reader right i
          .ok (cell x y)) =
        settle (rowError [first, second] batch i)
          (cell (readAt first.reader batch 0 i) (readAt second.reader batch 1 i)) := by
  obtain ⟨left, right, rest, listed⟩ :
      ∃ left right rest, batch.columns = left :: right :: rest := by
    have enough : 2 ≤ batch.columns.length := columns
    match batch.columns, enough with
    | left :: right :: rest, _ => exact ⟨left, right, rest, rfl⟩
  have foundLeft : batch.columns[0]? = some left := by rw [listed]; rfl
  have foundRight : batch.columns[1]? = some right := by rw [listed]; rfl
  refine ⟨left, right, by rw [RecordBatch.column, foundLeft],
    by rw [RecordBatch.column, foundRight], ?_, ?_⟩
  · intro i
    simp only [readAt, foundLeft, foundRight, Option.bind_some, and_self]
  · intro i inside
    have error : rowError [first, second] batch i =
        (cellError first left i).or (cellError second right i) := by
      rw [rowError, listed, List.zip_cons_cons, List.zip_cons_cons, findSome_cons, findSome_cons]
      exact congrArg _ Option.or_none
    rw [error, readCell_settle foundLeft inside, readCell_settle foundRight inside]
    simp only [settle_map, settle_bind]

/-- A row of three columns is read unless it has an error. -/
theorem reads_three (columns : HasColumns [first, second, third] batch)
    (cell : Option first.Value → Option second.Value → Option third.Value → Option γ) :
    ∃ left middle right, (batch.column 0 : Result ArrayRef) = .ok left ∧
      (batch.column 1 : Result ArrayRef) = .ok middle ∧
      (batch.column 2 : Result ArrayRef) = .ok right ∧
      (∀ i, cellAt first.reader left i = readAt first.reader batch 0 i ∧
        cellAt second.reader middle i = readAt second.reader batch 1 i ∧
        cellAt third.reader right i = readAt third.reader batch 2 i) ∧
      ∀ i < batch.numRows, (do
          let x ← readCell first.reader left i
          let y ← readCell second.reader middle i
          let z ← readCell third.reader right i
          .ok (cell x y z)) =
        settle (rowError [first, second, third] batch i)
          (cell (readAt first.reader batch 0 i) (readAt second.reader batch 1 i)
            (readAt third.reader batch 2 i)) := by
  obtain ⟨left, middle, right, rest, listed⟩ :
      ∃ left middle right rest, batch.columns = left :: middle :: right :: rest := by
    have enough : 3 ≤ batch.columns.length := columns
    match batch.columns, enough with
    | left :: middle :: right :: rest, _ => exact ⟨left, middle, right, rest, rfl⟩
  have foundLeft : batch.columns[0]? = some left := by rw [listed]; rfl
  have foundMiddle : batch.columns[1]? = some middle := by rw [listed]; rfl
  have foundRight : batch.columns[2]? = some right := by rw [listed]; rfl
  refine ⟨left, middle, right, by rw [RecordBatch.column, foundLeft],
    by rw [RecordBatch.column, foundMiddle], by rw [RecordBatch.column, foundRight], ?_, ?_⟩
  · intro i
    simp only [readAt, foundLeft, foundMiddle, foundRight, Option.bind_some, and_self]
  · intro i inside
    have error : rowError [first, second, third] batch i =
        (cellError first left i).or
          ((cellError second middle i).or (cellError third right i)) := by
      rw [rowError, listed, List.zip_cons_cons, List.zip_cons_cons, List.zip_cons_cons,
        findSome_cons, findSome_cons, findSome_cons]
      exact congrArg (fun later => Option.or _ (Option.or _ later)) Option.or_none
    rw [error, readCell_settle foundLeft inside, readCell_settle foundMiddle inside,
      readCell_settle foundRight inside]
    simp only [settle_map, settle_bind]

/-- What a function of one column comes to. -/
theorem overOne_outcome (renders : Renders sink column datum)
    {step : ArrayRef → B → Nat → Result B} {cell : Option first.Value → Option γ}
    (same : ∀ only, step only = sink.step fun i => do
      let x ← readCell first.reader only i
      .ok (cell x))
    (columns : HasColumns [first] batch) :
    Outcome (overOne sink column step batch) batch.numRows (rowError [first] batch)
      (fun n => CellsFit ((List.range n).map fun i =>
        (cell (readAt first.reader batch 0 i)).map datum))
      (fun result => result.rows = (List.range batch.numRows).map fun i =>
        (cell (readAt first.reader batch 0 i)).map datum) := by
  obtain ⟨only, found, _, reads⟩ := reads_one columns cell
  rw [overOne, found]
  exact loop_outcome renders (same only) reads

/-- What a function of two columns comes to. -/
theorem overTwo_outcome (renders : Renders sink column datum)
    {step : ArrayRef → ArrayRef → B → Nat → Result B}
    {cell : Option first.Value → Option second.Value → Option γ}
    (same : ∀ left right, step left right = sink.step fun i => do
      let x ← readCell first.reader left i
      let y ← readCell second.reader right i
      .ok (cell x y))
    (columns : HasColumns [first, second] batch) :
    Outcome (overTwo sink column step batch) batch.numRows (rowError [first, second] batch)
      (fun n => CellsFit ((List.range n).map fun i =>
        (cell (readAt first.reader batch 0 i) (readAt second.reader batch 1 i)).map datum))
      (fun result => result.rows = (List.range batch.numRows).map fun i =>
        (cell (readAt first.reader batch 0 i) (readAt second.reader batch 1 i)).map datum) := by
  obtain ⟨left, right, foundLeft, foundRight, _, reads⟩ := reads_two columns cell
  rw [overTwo, foundLeft, foundRight]
  exact loop_outcome renders (same left right) reads

/-- What a function of three columns comes to. -/
theorem overThree_outcome (renders : Renders sink column datum)
    {step : ArrayRef → ArrayRef → ArrayRef → B → Nat → Result B}
    {cell : Option first.Value → Option second.Value → Option third.Value → Option γ}
    (same : ∀ left middle right, step left middle right = sink.step fun i => do
      let x ← readCell first.reader left i
      let y ← readCell second.reader middle i
      let z ← readCell third.reader right i
      .ok (cell x y z))
    (columns : HasColumns [first, second, third] batch) :
    Outcome (overThree sink column step batch) batch.numRows
      (rowError [first, second, third] batch)
      (fun n => CellsFit ((List.range n).map fun i =>
        (cell (readAt first.reader batch 0 i) (readAt second.reader batch 1 i)
          (readAt third.reader batch 2 i)).map datum))
      (fun result => result.rows = (List.range batch.numRows).map fun i =>
        (cell (readAt first.reader batch 0 i) (readAt second.reader batch 1 i)
          (readAt third.reader batch 2 i)).map datum) := by
  obtain ⟨left, middle, right, foundLeft, foundMiddle, foundRight, _, reads⟩ :=
    reads_three columns cell
  rw [overThree, foundLeft, foundMiddle, foundRight]
  exact loop_outcome renders (same left middle right) reads

/-- A column is there or asking for it is a panic. -/
theorem column_cases (batch : RecordBatch) (position : Nat) :
    (∃ col, (batch.column position : Result ArrayRef) = .ok col) ∨
      (batch.column position : Result ArrayRef) = .error (.panic "index out of bounds") := by
  unfold RecordBatch.column
  split
  · exact Or.inl ⟨_, rfl⟩
  · exact Or.inr rfl

/-- A position past the last column is a panic. -/
theorem column_past {position : Nat} (past : batch.columns.length ≤ position) :
    (batch.column position : Result ArrayRef) = .error (.panic "index out of bounds") := by
  rw [RecordBatch.column, List.getElem?_eq_none past]

variable {β : Type} {finish : B → β}

/-- A function of one column panics without one. -/
theorem overOne_missing {step : ArrayRef → B → Nat → Result B}
    (missing : ¬HasColumns [first] batch) :
    overOne sink finish step batch = .error (.panic "index out of bounds") := by
  have past : batch.columns.length ≤ 0 := Nat.lt_succ_iff.mp (Nat.not_le.mp missing)
  rw [overOne, column_past past]
  rfl

/-- A function of two columns panics with fewer. -/
theorem overTwo_missing {step : ArrayRef → ArrayRef → B → Nat → Result B}
    (missing : ¬HasColumns [first, second] batch) :
    overTwo sink finish step batch = .error (.panic "index out of bounds") := by
  have past : batch.columns.length ≤ 1 := Nat.lt_succ_iff.mp (Nat.not_le.mp missing)
  rw [overTwo, column_past past]
  rcases column_cases batch 0 with ⟨left, found⟩ | absent
  · rw [found]
    rfl
  · rw [absent]
    rfl

/-- A function of three columns panics with fewer. -/
theorem overThree_missing {step : ArrayRef → ArrayRef → ArrayRef → B → Nat → Result B}
    (missing : ¬HasColumns [first, second, third] batch) :
    overThree sink finish step batch = .error (.panic "index out of bounds") := by
  have past : batch.columns.length ≤ 2 := Nat.lt_succ_iff.mp (Nat.not_le.mp missing)
  rw [overThree, column_past past]
  rcases column_cases batch 0 with ⟨left, foundLeft⟩ | absent
  · rw [foundLeft]
    rcases column_cases batch 1 with ⟨middle, foundMiddle⟩ | absent
    · rw [foundMiddle]
      rfl
    · rw [absent]
      rfl
  · rw [absent]
    rfl

end Columns

/-! ## The registered functions -/

/-- A function over columns of these kinds makes one cell of a result column of each row: what
becomes of a batch is decided by the errors of its rows and by the room for their cells. -/
structure Builds (process : RecordBatch → Result Column) (kinds : List Kind)
    (cell : RecordBatch → Nat → Option Datum) : Prop where
  /-- What it comes to. -/
  outcome : ∀ batch, HasColumns kinds batch →
    Outcome (process batch) batch.numRows (rowError kinds batch)
      (fun rows => CellsFit ((List.range rows).map (cell batch)))
      (fun column => column.rows = (List.range batch.numRows).map (cell batch))
  /-- It panics for a batch of fewer columns. -/
  missing : ∀ batch, ¬HasColumns kinds batch →
    process batch = .error (.panic "index out of bounds")

section Functions

variable {β γ B : Type} {sink : Sink RpcError B γ} {first second third : Kind} (wrap : β → Column)
  (finish : B → β) {datum : γ → Datum}
  (renders : Renders sink (fun out => wrap (finish out)) datum)

include renders

/-- A function of one column. -/
theorem Builds.one {step : ArrayRef → B → Nat → Result B} {cell : Option first.Value → Option γ}
    (same : ∀ only, step only = sink.step fun i => do
      let x ← readCell first.reader only i
      .ok (cell x)) :
    Builds (fun batch => wrap <$> overOne sink finish step batch) [first]
      (fun batch i => (cell (readAt first.reader batch 0 i)).map datum) where
  outcome _ columns :=
    (overOne_outcome renders same columns).of_eq (map_overOne sink wrap finish step)
  missing _ missing := congrArg (wrap <$> ·) (overOne_missing missing)

/-- A function of two columns. -/
theorem Builds.two {step : ArrayRef → ArrayRef → B → Nat → Result B}
    {cell : Option first.Value → Option second.Value → Option γ}
    (same : ∀ left right, step left right = sink.step fun i => do
      let x ← readCell first.reader left i
      let y ← readCell second.reader right i
      .ok (cell x y)) :
    Builds (fun batch => wrap <$> overTwo sink finish step batch) [first, second]
      (fun batch i =>
        (cell (readAt first.reader batch 0 i) (readAt second.reader batch 1 i)).map datum) where
  outcome _ columns :=
    (overTwo_outcome renders same columns).of_eq (map_overTwo sink wrap finish step)
  missing _ missing := congrArg (wrap <$> ·) (overTwo_missing missing)

/-- A function of three columns. -/
theorem Builds.three {step : ArrayRef → ArrayRef → ArrayRef → B → Nat → Result B}
    {cell : Option first.Value → Option second.Value → Option third.Value → Option γ}
    (same : ∀ left middle right, step left middle right = sink.step fun i => do
      let x ← readCell first.reader left i
      let y ← readCell second.reader middle i
      let z ← readCell third.reader right i
      .ok (cell x y z)) :
    Builds (fun batch => wrap <$> overThree sink finish step batch) [first, second, third]
      (fun batch i => (cell (readAt first.reader batch 0 i) (readAt second.reader batch 1 i)
        (readAt third.reader batch 2 i)).map datum) where
  outcome _ columns :=
    (overThree_outcome renders same columns).of_eq (map_overThree sink wrap finish step)
  missing _ missing := congrArg (wrap <$> ·) (overThree_missing missing)

end Functions

/-- What becomes of a batch, for every registered function. -/
theorem ScalarFunction.builds (rs : TiktokenRs) (target : Target) (function : ScalarFunction) :
    Builds (function.process rs target) function.kinds (function.cell rs target) := by
  cases function with
  | encodingForModel =>
    exact Builds.one Column.texts Builder.finish renders_texts (EncodingForModel.step_eq rs)
  | countTokens =>
    exact Builds.one Column.ints Builder.finish renders_ints (CountTokens.step_eq rs)
  | countTokensModel =>
    exact Builds.two Column.ints Builder.finish renders_ints (CountTokensModel.step_eq rs)
  | tokenize =>
    exact Builds.one Column.intLists ListBuilder.finish renders_intLists (Tokenize.step_eq rs)
  | tokenizeModel =>
    exact Builds.two Column.intLists ListBuilder.finish renders_intLists (TokenizeModel.step_eq rs)
  | truncateToTokens =>
    exact Builds.two Column.texts Builder.finish renders_texts (TruncateToTokens.step_eq rs target)
  | truncateToTokensModel =>
    exact Builds.three Column.texts Builder.finish renders_texts
      (TruncateToTokensModel.step_eq rs target)
  | chunkByTokens =>
    exact Builds.two Column.textLists ListBuilder.finish renders_textLists
      (ChunkByTokens.step_eq rs target)
  | chunkByTokensOverlap =>
    exact Builds.three Column.textLists ListBuilder.finish renders_textLists
      (ChunkByTokensOverlap.step_eq rs target)

/-- What becomes of a batch that has a column for each argument, for every registered function: the
column of the cells of its rows, the error of its first row that has one, or a panic at the first
row that no longer fits; and what that error says. -/
theorem batch_outcome (rs : TiktokenRs) (target : Target) (function : ScalarFunction)
    (batch : RecordBatch) (columns : HasColumns function.kinds batch) :
    Outcome (function.process rs target batch) batch.numRows (rowError function.kinds batch)
      (fun rows => CellsFit (function.cells rs target batch rows))
      (fun column => column.rows = function.cells rs target batch batch.numRows) ∧
    (∀ i, (rowError function.kinds batch i).isSome ↔ RowOffends function.kinds batch i) ∧
    ∀ i error, rowError function.kinds batch i = some error →
      ∃ column ∈ function.kinds.zip batch.columns, CellOffends column.1 column.2 i ∧
        error = .valueError (column.1.complaint column.2.dataType) :=
  ⟨(function.builds rs target).outcome batch columns, fun _ => rowError_isSome_iff,
    fun _ _ has => exists_complaint has⟩

/-- A number in the model column of the second row. -/
theorem batch_outcome_int32_model :
    ScalarFunction.countTokensModel.process Greedy.crate .native
      ⟨2, [⟨.utf8, [none, none], by decide⟩, ⟨.int32, [none, some 7], by decide⟩], by decide⟩ =
        .error (.error (.valueError "expected a VARCHAR (string) argument, got Int32")) := by
  have outcome := (batch_outcome Greedy.crate .native .countTokensModel
    ⟨2, [⟨.utf8, [none, none], by decide⟩, ⟨.int32, [none, some 7], by decide⟩], by decide⟩
    le_rfl).1
  refine (outcome.raises _).mpr ⟨1, by decide, rfl, ?_, by decide, by decide⟩
  intro j before
  obtain rfl : j = 0 := by omega
  rfl

end TiktokenWorker

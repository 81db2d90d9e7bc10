import TiktokenWorker.Outcome

/-!
# Scans of a table

A query hands a function the rows of a table in batches: those a filter left, in the order they came
in, and cut where the engine cut them. A row is computed from its own cells, so what a function
makes of a batch is known from the rows of the table it selects, and the result of a scan does not
depend on where it is cut.
-/

namespace TiktokenWorker

open Arrow

/-! ## Rows of a table -/

/-- Cell `k` of a column is cell `i` of another. -/
inductive SameCell (k i : Nat) : ArrayRef → ArrayRef → Prop where
  | cells (dataType : DataType) (front back : List (Option dataType.Native)) {left right}
    (same : front[k]? = back[i]?) : SameCell k i ⟨dataType, front, left⟩ ⟨dataType, back, right⟩

/-- Row `k` of a batch has the cells of row `i` of a table, in the columns a function reads. -/
def SameRow (kinds : List Kind) (batch : RecordBatch) (k : Nat) (table : RecordBatch) (i : Nat) :
    Prop :=
  ∀ position < kinds.length, ∃ col other, batch.columns[position]? = some col ∧
    table.columns[position]? = some other ∧ SameCell k i col other

/-- The batch has these rows of the table, in this order. -/
structure Selects (kinds : List Kind) (table batch : RecordBatch) (rows : List Nat) : Prop where
  count : batch.numRows = rows.length
  columns : HasColumns kinds batch
  same : ∀ k i, rows[k]? = some i → SameRow kinds batch k table i

section Rows

variable {kinds : List Kind} {table batch : RecordBatch} {k i : Nat}

/-- The same cell is read the same way. -/
theorem SameCell.readCell_eq {α : Type} {col other : ArrayRef} (same : SameCell k i col other)
    (read : Reader α) : readCell read col k = readCell read other i := by
  obtain ⟨dataType, front, back, cells⟩ := same
  simp only [readCell, cells]
  rcases back[i]? with _ | _ | _ <;> rfl

/-- It has the same error. -/
theorem SameCell.cellError_eq {col other : ArrayRef} (same : SameCell k i col other)
    (kind : Kind) : cellError kind col k = cellError kind other i := by
  obtain ⟨dataType, front, back, cells⟩ := same
  simp only [cellError, cells]

/-- The cells of the same row are read the same way. -/
theorem SameRow.readAt_eq {α : Type} (same : SameRow kinds batch k table i) (read : Reader α)
    {position : Nat} (inside : position < kinds.length) :
    readAt read batch position k = readAt read table position i := by
  obtain ⟨col, other, found, present, cell⟩ := same position inside
  have reads := cell.readCell_eq read
  rw [readAt, readAt, found, present, Option.bind_some, Option.bind_some, cellAt, cellAt, reads]

/-- The first error of columns whose cells are the same. The induction is on the kinds. -/
theorem findSome_cellError (kinds : List Kind) (columns others : List ArrayRef)
    (same : ∀ position < kinds.length, ∃ col other, columns[position]? = some col ∧
      others[position]? = some other ∧ SameCell k i col other) :
    (kinds.zip columns).findSome? (fun column => cellError column.1 column.2 k) =
      (kinds.zip others).findSome? fun column => cellError column.1 column.2 i := by
  induction kinds generalizing columns others with
  | nil => rfl
  | cons kind kinds ih =>
    obtain ⟨col, other, found, present, cell⟩ := same 0 (Nat.zero_lt_succ _)
    cases columns with
    | nil => cases found
    | cons first columns =>
      cases others with
      | nil => cases present
      | cons second others =>
        cases found
        cases present
        have later := ih columns others fun position inside =>
          same (position + 1) (Nat.succ_lt_succ inside)
        rw [List.zip_cons_cons, List.zip_cons_cons, findSome_cons, findSome_cons,
          cell.cellError_eq kind, later]

/-- The same row has the same error. -/
theorem SameRow.rowError_eq (same : SameRow kinds batch k table i) :
    rowError kinds batch k = rowError kinds table i :=
  findSome_cellError kinds batch.columns table.columns same

/-- It comes to the same cell. -/
theorem SameRow.cell_eq (rs : TiktokenRs) (target : Target) {function : ScalarFunction}
    (same : SameRow function.kinds batch k table i) :
    function.cell rs target batch k = function.cell rs target table i := by
  cases function with
  | encodingForModel | countTokens | tokenize =>
    have text := same.readAt_eq readText (show 0 < 1 by decide)
    simp only [ScalarFunction.cell, textAt, text]
  | countTokensModel | tokenizeModel =>
    have text := same.readAt_eq readText (show 0 < 2 by decide)
    have model := same.readAt_eq readText (show 1 < 2 by decide)
    simp only [ScalarFunction.cell, textAt, text, model]
  | truncateToTokens | chunkByTokens =>
    have text := same.readAt_eq readText (show 0 < 2 by decide)
    have number := same.readAt_eq readInt (show 1 < 2 by decide)
    simp only [ScalarFunction.cell, textAt, intAt, text, number]
  | truncateToTokensModel =>
    have text := same.readAt_eq readText (show 0 < 3 by decide)
    have number := same.readAt_eq readInt (show 1 < 3 by decide)
    have model := same.readAt_eq readText (show 2 < 3 by decide)
    simp only [ScalarFunction.cell, textAt, intAt, text, number, model]
  | chunkByTokensOverlap =>
    have text := same.readAt_eq readText (show 0 < 3 by decide)
    have size := same.readAt_eq readInt (show 1 < 3 by decide)
    have overlap := same.readAt_eq readInt (show 2 < 3 by decide)
    simp only [ScalarFunction.cell, textAt, intAt, text, size, overlap]

end Rows

/-! ## Which batches select which rows -/

section Selections

variable {kinds : List Kind} {whole left right : RecordBatch}

/-- A cell of the first of two columns laid end to end. -/
theorem SameCell.front {col front back : ArrayRef} (laid : col.Appends front back) {k : Nat}
    (inside : k < front.cells.length) : SameCell k k front col := by
  obtain ⟨dataType, front, back⟩ := laid
  exact .cells dataType front (front ++ back) (List.getElem?_append_left inside).symm

/-- A cell of the second one. -/
theorem SameCell.back {col front back : ArrayRef} (laid : col.Appends front back) (k : Nat) :
    SameCell k (front.cells.length + k) back col := by
  obtain ⟨dataType, front, back⟩ := laid
  refine .cells dataType back (front ++ back) ?_
  rw [List.getElem?_append_right (Nat.le_add_right _ _), Nat.add_sub_cancel_left]

/-- A cell of a reordered column. -/
theorem SameCell.reorder (column : ArrayRef) {order : List Nat}
    (lengths : order.Perm (List.range column.cells.length)) {k i : Nat}
    (placed : order[k]? = some i) : SameCell k i (column.reorder order lengths) column := by
  have cell := column.reorder_cell lengths placed
  obtain ⟨dataType, cells, within⟩ := column
  exact .cells dataType _ cells cell

/-- Batches that are laid end to end have the columns of the whole. -/
theorem length_columns_le (appends : whole.Appends left right) :
    whole.columns.length ≤ left.columns.length ∧ whole.columns.length ≤ right.columns.length := by
  constructor
  · by_contra fewer
    have found := List.getElem?_eq_getElem (Nat.not_le.mp fewer)
    obtain ⟨front, _, present, _⟩ := appends.columns _ _ found
    rw [List.getElem?_eq_none le_rfl] at present
    cases present
  · by_contra fewer
    have found := List.getElem?_eq_getElem (Nat.not_le.mp fewer)
    obtain ⟨_, back, _, present, _⟩ := appends.columns _ _ found
    rw [List.getElem?_eq_none le_rfl] at present
    cases present

/-- The first of two batches laid end to end has the first rows. -/
theorem Selects.front (appends : whole.Appends left right) (columns : HasColumns kinds whole) :
    Selects kinds whole left (List.range left.numRows) where
  count := List.length_range.symm
  columns := columns.trans (length_columns_le appends).1
  same k i listed position inside := by
    have found := List.getElem?_eq_getElem (inside.trans_le columns)
    obtain ⟨front, back, present, _, laid⟩ := appends.columns position _ found
    have bounded := (List.getElem?_eq_some_iff.mp listed).1
    have row : i = k := by
      rw [List.getElem?_range (by simpa using bounded)] at listed
      exact (Option.some.inj listed).symm
    have length := left.lengths front (List.mem_of_getElem? present)
    rw [List.length_range, ← length] at bounded
    exact ⟨front, _, present, found, row.symm ▸ SameCell.front laid bounded⟩

/-- The second one has the rows after them. -/
theorem Selects.back (appends : whole.Appends left right) (columns : HasColumns kinds whole) :
    Selects kinds whole right (List.range' left.numRows right.numRows) where
  count := List.length_range'.symm
  columns := columns.trans (length_columns_le appends).2
  same k i listed position inside := by
    have found := List.getElem?_eq_getElem (inside.trans_le columns)
    obtain ⟨front, back, presentFront, present, laid⟩ := appends.columns position _ found
    have bounded := (List.getElem?_eq_some_iff.mp listed).1
    have length := left.lengths front (List.mem_of_getElem? presentFront)
    have row : i = front.cells.length + k := by
      rw [List.getElem?_range' (by simpa using bounded), Option.some.injEq] at listed
      omega
    exact ⟨back, _, present, found, row ▸ SameCell.back laid k⟩

/-- A reordered batch has the rows of its order. -/
theorem Selects.reorder {batch : RecordBatch} {order : List Nat}
    (perm : order.Perm (List.range batch.numRows)) (columns : HasColumns kinds batch) :
    Selects kinds batch (batch.reorder order perm) order where
  count := by rw [perm.length_eq, List.length_range]; rfl
  columns := columns.trans_eq (batch.reorder_columns perm).length_eq
  same k i placed position inside := by
    obtain ⟨count, related⟩ := List.forall₂_iff_get.mp (batch.reorder_columns perm)
    have bounded := inside.trans_le columns
    obtain ⟨lengths, same⟩ := related position bounded (count ▸ bounded)
    refine ⟨_, _, List.getElem?_eq_getElem (count ▸ bounded), List.getElem?_eq_getElem bounded, ?_⟩
    have cell := SameCell.reorder (batch.columns.get ⟨position, bounded⟩) lengths placed
    rw [← same] at cell
    exact cell

end Selections

/-! ## Scans -/

/-- The result columns of some batches, laid end to end. -/
def scan (process : RecordBatch → Result Column) (parts : List RecordBatch) :
    Result (List (Option Datum)) := do
  let columns ← parts.mapM process
  .ok (columns.flatMap Column.rows)

/-- The batches have these rows of the table, laid end to end. -/
inductive Cuts (kinds : List Kind) (table : RecordBatch) : List RecordBatch → List Nat → Prop where
  | nil : Cuts kinds table [] []
  | cons {part : RecordBatch} {parts : List RecordBatch} {rows later : List Nat}
    (selects : Selects kinds table part rows) (cuts : Cuts kinds table parts later) :
    Cuts kinds table (part :: parts) (rows ++ later)

section Scans

variable {rs : TiktokenRs} {target : Target} {function : ScalarFunction}
  {table batch : RecordBatch} {rows : List Nat}

/-- What a computation over rows comes to, said in other words. -/
theorem Outcome.congr {ε β : Type} {run : Run ε β} {rows : Nat} {error other : Nat → Option ε}
    {fits room : Nat → Prop} {holds keeps : β → Prop} (outcome : Outcome run rows error fits holds)
    (errors : ∀ i < rows, error i = other i) (rooms : ∀ i ≤ rows, fits i ↔ room i)
    (results : ∀ result, holds result → keeps result) :
    Outcome run rows other room keeps := by
  have before (i : Nat) (inside : i ≤ rows) :
      (∀ j < i, error j = none) ↔ ∀ j < i, other j = none :=
    forall₂_congr fun j below => by rw [errors j (by omega)]
  refine ⟨fun result returned => results result (outcome.result result returned), ?_, ?_, ?_⟩
  · rw [outcome.returns, before rows le_rfl, rooms rows le_rfl]
  · intro raised
    rw [outcome.raises raised]
    refine exists_congr fun i => and_congr_right fun inside => ?_
    rw [errors i inside, before i inside.le, rooms i inside.le]
  · rw [outcome.panics]
    refine exists_congr fun i => and_congr_right fun inside => ?_
    have so_far := before (i + 1) inside
    simp only [Nat.lt_succ_iff] at so_far
    rw [so_far, rooms (i + 1) inside]

variable (rs target) in
/-- What becomes of a selection, by the rows of the table. -/
theorem Selects.outcome (selects : Selects function.kinds table batch rows) :
    Outcome (function.process rs target batch) rows.length
      (fun k => rows[k]?.bind (rowError function.kinds table))
      (fun many => CellsFit ((rows.take many).map (function.cell rs target table)))
      (fun column => column.rows = rows.map (function.cell rs target table)) := by
  have cells (many : Nat) (within : many ≤ rows.length) :
      (List.range many).map (function.cell rs target batch) =
        (rows.take many).map (function.cell rs target table) := by
    apply List.ext_getElem
    · simp [within]
    · intro k bounded _
      rw [List.length_map, List.length_range] at bounded
      have listed := List.getElem?_eq_getElem (bounded.trans_le within)
      simp only [List.getElem_map, List.getElem_range, List.getElem_take]
      exact (selects.same k _ listed).cell_eq rs target
  have built := (function.builds rs target).outcome batch selects.columns
  rw [selects.count] at built
  refine built.congr ?_ ?_ ?_
  · intro k inside
    have listed := List.getElem?_eq_getElem inside
    rw [listed, Option.bind_some]
    exact (selects.same k _ listed).rowError_eq
  · intro many within
    rw [cells many within]
  · intro column same
    rw [same, cells _ le_rfl, List.take_length]

/-- A scan of a batch and others. -/
theorem scan_cons (process : RecordBatch → Result Column) (part : RecordBatch)
    (parts : List RecordBatch) :
    scan process (part :: parts) =
      process part >>= fun column => scan process parts >>= fun later =>
        .ok (column.rows ++ later) := by
  unfold scan
  rw [List.mapM_cons]
  rcases process part with abort | column
  · rfl
  · rcases parts.mapM process with abort | columns <;> rfl

/-- A scan returns the rows of the table that its batches select if none of them has an error and
their cells fit. The induction is on the batches. -/
theorem scan_ok {parts : List RecordBatch} (cuts : Cuts function.kinds table parts rows)
    (clean : ∀ i ∈ rows, rowError function.kinds table i = none)
    (fits : CellsFit (rows.map (function.cell rs target table))) :
    scan (function.process rs target) parts =
      .ok (rows.map (function.cell rs target table)) := by
  induction cuts with
  | nil => rfl
  | @cons part parts rows later selects cuts ih =>
    rw [List.map_append] at fits ⊢
    obtain ⟨fitsPart, fitsLater⟩ := fits.parts
    have outcome := selects.outcome rs target
    have no_error (k : Nat) (inside : k < rows.length) :
        rows[k]?.bind (rowError function.kinds table) = none := by
      rw [List.getElem?_eq_getElem inside, Option.bind_some]
      exact clean _ (List.mem_append_left _ (List.getElem_mem inside))
    obtain ⟨column, returned⟩ := outcome.returns.mpr ⟨no_error, by rwa [List.take_length]⟩
    have rows_eq := outcome.result column returned
    have rest := ih (fun i member => clean i (List.mem_append_right _ member)) fitsLater
    rw [scan_cons, returned, rest, ← rows_eq]
    rfl

/-- The rows before a row, the row and those after it. -/
theorem range_split {n i : Nat} (inside : i < n) :
    List.range n = List.range i ++ i :: (List.range n).drop (i + 1) := by
  have bounded : i < (List.range n).length := by rwa [List.length_range]
  have before : (List.range n).take i = List.range i := by
    rw [List.take_range, Nat.min_eq_left inside.le]
  have from_here := List.drop_eq_getElem_cons bounded
  rw [List.getElem_range] at from_here
  rw [← before, ← from_here, List.take_append_drop]

/-- An element of two lists laid end to end is in the second of them or in the first. -/
theorem append_split {α : Type} {rows later front back : List α} {i : α}
    (split : rows ++ later = front ++ i :: back) :
    (∃ rest, front = rows ++ rest ∧ later = rest ++ i :: back) ∨
      ∃ rest, rows = front ++ i :: rest := by
  rcases List.append_eq_append_iff.mp split with ⟨rest, ends, begins⟩ | ⟨rest, ends, begins⟩
  · exact Or.inl ⟨rest, ends, begins⟩
  · cases rest with
    | nil => exact Or.inl ⟨[], by simpa using ends.symm, by simpa using begins.symm⟩
    | cons first rest =>
      obtain ⟨rfl, _⟩ := List.cons.inj begins
      exact Or.inr ⟨rest, ends⟩

/-- It raises the error of the first of those rows that has one, if the cells of the rows before it
fit. The induction is on the batches: the row is in the first of them or in a later one. -/
theorem scan_error {parts : List RecordBatch} (cuts : Cuts function.kinds table parts rows)
    {front back : List Nat} {i : Nat} {error : RpcError} (split : rows = front ++ i :: back)
    (clean : ∀ j ∈ front, rowError function.kinds table j = none)
    (has : rowError function.kinds table i = some error)
    (fits : CellsFit (front.map (function.cell rs target table))) :
    scan (function.process rs target) parts = .error (.error error) := by
  induction cuts generalizing front with
  | nil => simp at split
  | @cons part parts rows later selects cuts ih =>
    have outcome := selects.outcome rs target
    rcases append_split split with ⟨rest, rfl, begins⟩ | ⟨rest, ends⟩
    · -- Every row of the batch comes before the row with the error.
      rw [List.map_append] at fits
      obtain ⟨fitsPart, fitsRest⟩ := fits.parts
      have no_error (k : Nat) (inside : k < rows.length) :
          rows[k]?.bind (rowError function.kinds table) = none := by
        rw [List.getElem?_eq_getElem inside, Option.bind_some]
        exact clean _ (List.mem_append_left _ (List.getElem_mem inside))
      obtain ⟨column, returned⟩ := outcome.returns.mpr ⟨no_error, by rwa [List.take_length]⟩
      have raised := ih begins (fun j member => clean j (List.mem_append_right _ member)) fitsRest
      rw [scan_cons, returned, raised]
      rfl
    · -- The row with the error is one of the batch.
      have taken : rows.take front.length = front := by rw [ends, List.take_left]
      have here : rows[front.length]? = some i := by
        rw [ends, List.getElem?_append_right le_rfl, Nat.sub_self, List.getElem?_cons_zero]
      have before (k : Nat) (inside : k < front.length) :
          rows[k]?.bind (rowError function.kinds table) = none := by
        rw [ends, List.getElem?_append_left inside, List.getElem?_eq_getElem inside,
          Option.bind_some]
        exact clean _ (List.getElem_mem inside)
      have raised := (outcome.raises error).mpr ⟨front.length,
        (List.getElem?_eq_some_iff.mp here).1, by rw [here]; exact has, before, by rwa [taken]⟩
      rw [scan_cons, raised]
      rfl

end Scans

/-- The result of a scan does not depend on how the table is cut into batches, filtered and ordered:
the rows that are left have the cells they have when the function is given the table whole, and
batches in the order of the table raise the error that the table whole does. -/
theorem scan_cut (rs : TiktokenRs) (target : Target) (function : ScalarFunction)
    {table : RecordBatch} {parts : List RecordBatch} {rows : List Nat}
    (columns : HasColumns function.kinds table) (cuts : Cuts function.kinds table parts rows) :
    (∀ column, function.process rs target table = .ok column →
      rows.Subperm (List.range table.numRows) →
        scan (function.process rs target) parts = .ok (rows.map fun i => column.rows[i]?.join)) ∧
    (∀ error, function.process rs target table = .error (.error error) →
      rows = List.range table.numRows →
        scan (function.process rs target) parts = .error (.error error)) ∧
    ∀ out, scan (function.process rs target) parts = .ok out → rows = List.range table.numRows →
      (∃ column, function.process rs target table = .ok column ∧ column.rows = out) ∨
        ∃ message, function.process rs target table = .error (.panic message) := by
  have outcome := (function.builds rs target).outcome table columns
  have success (column : Column) (returned : function.process rs target table = .ok column)
      (within : rows.Subperm (List.range table.numRows)) :
      scan (function.process rs target) parts = .ok (rows.map fun i => column.rows[i]?.join) := by
    obtain ⟨clean, fits⟩ := outcome.returns.mp ⟨column, returned⟩
    have inside (i : Nat) (member : i ∈ rows) : i < table.numRows :=
      List.mem_range.mp (within.subset member)
    have cells : (rows.map fun i => column.rows[i]?.join) =
        rows.map (function.cell rs target table) := by
      apply List.map_congr_left
      intro i member
      rw [outcome.result column returned, List.getElem?_map, List.getElem?_range (inside i member),
        Option.map_some, Option.join_some]
    obtain ⟨front, perm, sublist⟩ := within
    have listed : (rows.map (function.cell rs target table)).Subperm
        ((List.range table.numRows).map (function.cell rs target table)) :=
      ⟨_, perm.map _, sublist.map _⟩
    rw [cells]
    exact scan_ok cuts (fun i member => clean i (inside i member)) (fits.subperm listed)
  have failure (error : RpcError)
      (raised : function.process rs target table = .error (.error error))
      (all : rows = List.range table.numRows) :
      scan (function.process rs target) parts = .error (.error error) := by
    obtain ⟨i, inside, has, clean, fits⟩ := (outcome.raises error).mp raised
    have split := range_split inside
    rw [← all] at split
    exact scan_error cuts split (fun j member => clean j (List.mem_range.mp member)) has fits
  refine ⟨success, failure, fun out returned all => ?_⟩
  cases whole : function.process rs target table with
  | ok column =>
    have same := success column whole (all ▸ (List.Perm.refl _).subperm)
    have listed : (rows.map fun i => column.rows[i]?.join) = column.rows := by
      have length : column.rows.length = table.numRows := by
        rw [outcome.result column whole, List.length_map, List.length_range]
      rw [all, ← length]
      exact map_join_getElem? column.rows
    rw [returned, listed] at same
    exact Or.inl ⟨column, rfl, (Except.ok.inj same).symm⟩
  | error abort =>
    cases abort with
    | error error =>
      have raised := failure error whole all
      rw [returned] at raised
      cases raised
    | panic message => exact Or.inr ⟨message, rfl⟩

/-- Two rows. -/
def twoRows : RecordBatch := ⟨2, [⟨.utf8, [some "hello world", none], by decide⟩], by decide⟩

/-- A batch of each of them. -/
def cutRows : List RecordBatch :=
  [⟨1, [⟨.utf8, [some "hello world"], by decide⟩], by decide⟩,
    ⟨1, [⟨.utf8, [none], by decide⟩], by decide⟩]

/-- Their counts depend neither on the cut nor on the order. -/
theorem scan_cut_two_rows : ∃ column,
    ScalarFunction.countTokens.process Greedy.crate .native twoRows = .ok column ∧
      scan (ScalarFunction.countTokens.process Greedy.crate .native) cutRows =
          .ok ([0, 1].map fun i => column.rows[i]?.join) ∧
        scan (ScalarFunction.countTokens.process Greedy.crate .native)
            [twoRows.reorder [1, 0] (by decide)] =
          .ok ([1, 0].map fun i => column.rows[i]?.join) := by
  have columns : HasColumns [.text] twoRows := le_rfl
  have outcome := (ScalarFunction.builds Greedy.crate .native .countTokens).outcome twoRows columns
  have clean : ∀ i < 2, rowError ScalarFunction.countTokens.kinds twoRows i = none := by decide
  have room : CellsFit (ScalarFunction.countTokens.cells Greedy.crate .native twoRows 2) :=
    ⟨by decide, by decide⟩
  obtain ⟨column, returned⟩ := outcome.returns.mpr ⟨clean, room⟩
  have appends : twoRows.Appends
      ⟨1, [⟨.utf8, [some "hello world"], by decide⟩], by decide⟩
      ⟨1, [⟨.utf8, [none], by decide⟩], by decide⟩ := by
    refine ⟨rfl, fun position column found => ?_⟩
    cases position with
    | zero =>
      cases found
      exact ⟨_, _, rfl, rfl, .cells .utf8 [some "hello world"] [none]⟩
    | succ position => cases found
  have cuts := Cuts.cons (Selects.front appends columns)
    (Cuts.cons (Selects.back appends columns) .nil)
  have reversed : [1, 0].Perm (List.range twoRows.numRows) := by decide
  have reorders := Cuts.cons (Selects.reorder reversed columns) .nil
  exact ⟨column, returned,
    (scan_cut Greedy.crate .native .countTokens columns cuts).1 column returned
      (List.Perm.refl _).subperm,
    (scan_cut Greedy.crate .native .countTokens columns reorders).1 column returned
      reversed.subperm⟩

end TiktokenWorker

import TiktokenWorker.Arrow.Array

/-!
# Building a column row by row

A builder appends one cell a row. `Sink` is what a loop over rows needs of one: the cells it
holds, the columns that fit it, and that appending extends the first while the second allow it.
`build_ok` and `build_panic` say what the loop returns from that alone. Builders of cells and of
lists are sinks; a list builder keeps the values of all rows in one buffer and the rows in
offsets, and `ListBuilder.Holds` is what relates the two.
-/

namespace TiktokenWorker.Arrow

variable {ε : Type}

/-! ## Loops over rows -/

/-- A builder of a column of optional cells. -/
structure Sink (ε B γ : Type) where
  /-- The builder of no rows. -/
  new : B
  /-- Append a cell. -/
  emit : B → Option γ → Run ε B
  /-- The builder holds these cells. -/
  Holds : B → List (Option γ) → Prop
  /-- A builder can hold these cells. -/
  Fits : List (Option γ) → Prop
  /-- A new builder holds none. -/
  holds_new : Holds new []
  /-- What it holds fits. -/
  holds_fits : ∀ {builder cells}, Holds builder cells → Fits cells
  /-- What fits still does without its last cell. -/
  fits_init : ∀ {cells cell}, Fits (cells ++ [cell]) → Fits cells
  /-- A cell that fits is appended. -/
  emit_ok : ∀ {builder cells cell}, Holds builder cells → Fits (cells ++ [cell]) →
    ∃ next, emit builder cell = .ok next ∧ Holds next (cells ++ [cell])
  /-- One that does not is a panic. -/
  emit_panic : ∀ {builder cells cell}, Holds builder cells → ¬Fits (cells ++ [cell]) →
    ∃ message, emit builder cell = .error (.panic message)

namespace Sink

variable {B γ ρ : Type} (sink : Sink ε B γ)

/-- Append the cell of one row. -/
def step (read : ρ → Run ε (Option γ)) (builder : B) (row : ρ) : Run ε B := do
  let cell ← read row
  sink.emit builder cell

/-- Append the cell of every row. -/
def build (rows : List ρ) (read : ρ → Run ε (Option γ)) : Run ε B :=
  rows.foldlM (sink.step read) sink.new

/-- What fits still does without its last cells. -/
theorem fits_prefix {front back : List (Option γ)} (fits : sink.Fits (front ++ back)) :
    sink.Fits front := by
  induction back using List.reverseRecOn with
  | nil => rwa [List.append_nil] at fits
  | append_singleton back cell ih =>
    rw [← List.append_assoc] at fits
    exact ih (sink.fits_init fits)

/-- From a builder that holds some cells, rows that are read and fit are appended in order. -/
theorem fold_ok {read : ρ → Run ε (Option γ)} {spec : ρ → Option γ} (rows : List ρ)
    (reads : ∀ row ∈ rows, read row = .ok (spec row)) {builder : B} {cells : List (Option γ)}
    (holds : sink.Holds builder cells) (fits : sink.Fits (cells ++ rows.map spec)) :
    ∃ last, rows.foldlM (sink.step read) builder = .ok last ∧
      sink.Holds last (cells ++ rows.map spec) := by
  induction rows generalizing builder cells with
  | nil => exact ⟨builder, rfl, by simpa using holds⟩
  | cons row rows ih =>
    rw [List.map_cons, List.append_cons] at fits ⊢
    obtain ⟨next, emitted, held⟩ := sink.emit_ok holds (sink.fits_prefix fits)
    obtain ⟨last, rest, all⟩ := ih (fun row member => reads row (by simp [member])) held fits
    refine ⟨last, ?_, all⟩
    rw [List.foldlM_cons, step, reads row (by simp)]
    simp only [bind, Except.bind, emitted]
    exact rest

/-- Rows that are read and fit are built in order. -/
theorem build_ok {read : ρ → Run ε (Option γ)} {spec : ρ → Option γ} (rows : List ρ)
    (reads : ∀ row ∈ rows, read row = .ok (spec row)) (fits : sink.Fits (rows.map spec)) :
    ∃ last, sink.build rows read = .ok last ∧ sink.Holds last (rows.map spec) :=
  sink.fold_ok rows reads sink.holds_new fits

/-- From a builder that holds some cells, rows that are read and do not fit are a panic. -/
theorem fold_panic {read : ρ → Run ε (Option γ)} {spec : ρ → Option γ} (rows : List ρ)
    (reads : ∀ row ∈ rows, read row = .ok (spec row)) {builder : B} {cells : List (Option γ)}
    (holds : sink.Holds builder cells)
    (exceeds : ¬sink.Fits (cells ++ rows.map spec)) :
    ∃ message, rows.foldlM (sink.step read) builder = .error (.panic message) := by
  induction rows generalizing builder cells with
  | nil => exact absurd (by simpa using sink.holds_fits holds) exceeds
  | cons row rows ih =>
    rw [List.map_cons, List.append_cons] at exceeds
    rw [List.foldlM_cons, step, reads row (by simp)]
    simp only [bind, Except.bind]
    by_cases more : sink.Fits (cells ++ [spec row])
    · obtain ⟨next, emitted, holds⟩ := sink.emit_ok holds more
      rw [emitted]
      exact ih (fun row member => reads row (by simp [member])) holds exceeds
    · obtain ⟨message, panicked⟩ := sink.emit_panic holds more
      rw [panicked]
      exact ⟨message, rfl⟩

/-- Rows that are read and do not fit are a panic. -/
theorem build_panic {read : ρ → Run ε (Option γ)} {spec : ρ → Option γ} (rows : List ρ)
    (reads : ∀ row ∈ rows, read row = .ok (spec row))
    (exceeds : ¬sink.Fits (rows.map spec)) :
    ∃ message, sink.build rows read = .error (.panic message) :=
  sink.fold_panic rows reads sink.holds_new exceeds

end Sink

/-! ## Rows of values -/

section Flat

variable {α : Type}

/-- The values of some rows, one row after the other. -/
def flat (rows : List (Option (List α))) : List α := rows.flatMap fun row => row.getD []

theorem flat_append (front back : List (Option (List α))) :
    flat (front ++ back) = flat front ++ flat back := List.flatMap_append

theorem flat_singleton (row : Option (List α)) : flat [row] = row.getD [] := by
  simp [flat]

/-- The values before a row and those of the row. -/
theorem flat_take_succ {rows : List (Option (List α))} {i : Nat} (inside : i < rows.length) :
    flat (rows.take (i + 1)) = flat (rows.take i) ++ rows[i].getD [] := by
  rw [← flat_singleton, ← flat_append, List.take_succ_eq_append_getElem inside]

end Flat

/-! ## Cells -/

/-- Bytes a value takes in the buffer a builder's offsets index. -/
class Buffered (α : Type) where
  /-- The bytes of a value. -/
  bytes : α → Nat

/-- A value of fixed width needs no offsets. -/
instance : Buffered Int32 := ⟨fun _ => 0⟩

/-- A string takes its UTF-8. -/
instance : Buffered String := ⟨String.utf8ByteSize⟩

/-- Largest offset of a builder. -/
def offsetMax : Nat := 2 ^ 31 - 1

variable {α : Type} [Buffered α]

/-- Bytes of the values of some cells. -/
def buffered (cells : List (Option α)) : Nat :=
  (cells.map fun cell => cell.elim 0 Buffered.bytes).sum

/-- `Int32Builder` and `StringBuilder`, by the cells appended. -/
structure Builder (α : Type) [Buffered α] where
  /-- The cells. -/
  cells : List (Option α)
  /-- Every offset fits its type. -/
  within : buffered cells ≤ offsetMax

theorem buffered_append (front back : List (Option α)) :
    buffered (front ++ back) = buffered front + buffered back := by
  simp [buffered]

/-- Values of fixed width take no bytes. -/
theorem buffered_int32 (cells : List (Option Int32)) : buffered cells = 0 := by
  rw [buffered, List.sum_eq_zero_iff]
  intro bytes member
  obtain ⟨cell, _, rfl⟩ := List.mem_map.mp member
  cases cell <;> rfl

namespace Builder

/-- The empty builder. -/
def new : Builder α := ⟨[], Nat.zero_le _⟩

/-- Append a value; an offset past the largest is a panic. -/
def appendValue (builder : Builder α) (value : α) : Run ε (Builder α) :=
  if within : buffered (builder.cells ++ [some value]) ≤ offsetMax then
    .ok ⟨builder.cells ++ [some value], within⟩
  else .error (.panic "byte array offset overflow")

/-- Append a NULL. -/
def appendNull (builder : Builder α) : Builder α :=
  ⟨builder.cells ++ [none], by simpa [buffered] using builder.within⟩

/-- The finished column. -/
def finish (builder : Builder α) : List (Option α) := builder.cells

/-- Append a value or a NULL. -/
def emit (builder : Builder α) : Option α → Run ε (Builder α)
  | some value => builder.appendValue value
  | none => .ok builder.appendNull

/-- Appending a cell that fits. -/
theorem emit_ok (builder : Builder α) (cell : Option α)
    (fits : buffered (builder.cells ++ [cell]) ≤ offsetMax) :
    (builder.emit cell : Run ε (Builder α)) = .ok ⟨builder.cells ++ [cell], fits⟩ := by
  cases cell with
  | none => rfl
  | some value => exact dif_pos fits

/-- A builder of cells is a sink. -/
def sink : Sink ε (Builder α) α where
  new := new
  emit := emit
  Holds builder cells := builder.cells = cells
  Fits cells := buffered cells ≤ offsetMax
  holds_new := rfl
  holds_fits := by
    rintro builder _ rfl
    exact builder.within
  fits_init := by
    intro cells cell fits
    rw [buffered_append] at fits
    omega
  emit_ok := by
    rintro builder _ cell rfl fits
    exact ⟨_, builder.emit_ok cell fits, rfl⟩
  emit_panic := by
    rintro builder _ cell rfl exceeds
    cases cell with
    | none => exact absurd builder.appendNull.within exceeds
    | some value => exact ⟨_, dif_neg exceeds⟩

end Builder

/-! ## Lists -/

/-- `ListBuilder`: the values of all rows in one builder, the number of them before each row and
after the last, and which rows are not NULL. -/
structure ListBuilder (α : Type) [Buffered α] where
  /-- The values. -/
  values : Builder α
  /-- Where each row starts, and where the next one will. -/
  offsets : List Nat
  /-- Whether each row is not NULL. -/
  validity : List Bool

/-- `ListArray`, a finished list builder. -/
structure ListArray (α : Type) where
  /-- The values. -/
  values : List (Option α)
  /-- Where each row starts, and where the last one ends. -/
  offsets : List Nat
  /-- Whether each row is not NULL. -/
  validity : List Bool

/-- The values of a row, or `none` if it is NULL. -/
def ListArray.row (array : ListArray α) (i : Nat) : Option (List (Option α)) :=
  if array.validity.getD i false then
    some (array.values.extract (array.offsets.getD i 0) (array.offsets.getD (i + 1) 0))
  else none

/-- The array has these rows, and they partition its values: each row is the slice between its
offsets, the first starts at the first value, each starts where the one before it ends, and the
last ends at the last value. A NULL row has no values. -/
structure ListArray.HasRows (array : ListArray α) (rows : List (Option (List α))) : Prop where
  /-- There is a row for each. -/
  count : array.validity.length = rows.length
  /-- The slice of each row. -/
  row : ∀ (i : Nat) (inside : i < rows.length), array.row i = rows[i].map (List.map some)
  /-- Where the first row starts. -/
  first : array.offsets[0]? = some 0
  /-- Where each row ends. -/
  step : ∀ (i : Nat) (inside : i < rows.length), ∃ start, array.offsets[i]? = some start ∧
    array.offsets[i + 1]? = some (start + (rows[i].getD []).length)
  /-- Where the last row ends. -/
  last : array.offsets[rows.length]? = some array.values.length

namespace ListBuilder

/-- The empty builder. -/
def new : ListBuilder α := ⟨Builder.new, [0], []⟩

/-- Append a value to the row not yet closed. -/
def appendValue (builder : ListBuilder α) (value : α) : Run ε (ListBuilder α) := do
  let values ← builder.values.appendValue value
  .ok { builder with values }

/-- Close the row; an offset past the largest is a panic. -/
def append (builder : ListBuilder α) (valid : Bool) : Run ε (ListBuilder α) :=
  if builder.values.cells.length ≤ offsetMax then
    .ok { builder with
      offsets := builder.offsets ++ [builder.values.cells.length],
      validity := builder.validity ++ [valid] }
  else .error (.panic "called `Option::unwrap()` on a `None` value")

/-- Close the row as NULL. -/
def appendNull (builder : ListBuilder α) : Run ε (ListBuilder α) := builder.append false

/-- The array of the closed rows. -/
def finish (builder : ListBuilder α) : ListArray α :=
  ⟨builder.values.cells, builder.offsets, builder.validity⟩

/-- Append a row of values, or a NULL row. -/
def emit (builder : ListBuilder α) : Option (List α) → Run ε (ListBuilder α)
  | some items => do
    let builder ← items.foldlM appendValue builder
    builder.append true
  | none => builder.appendNull

/-- The builder holds these closed rows and, after them, the values of a row not yet closed. -/
structure Holds (builder : ListBuilder α) (rows : List (Option (List α))) (pending : List α) :
    Prop where
  /-- The values are those of the rows, in order. -/
  values : builder.values.cells = (flat rows ++ pending).map some
  /-- Each row starts where the ones before it end. -/
  offsets : builder.offsets =
    (List.range (rows.length + 1)).map fun i => (flat (rows.take i)).length
  /-- The NULL rows are the ones marked. -/
  validity : builder.validity = rows.map Option.isSome
  /-- Every offset fits its type. -/
  bounded : (flat rows).length ≤ offsetMax

/-- Rows whose values fit the value builder and whose offsets fit. -/
def Fits (rows : List (Option (List α))) : Prop :=
  buffered ((flat rows).map some) ≤ offsetMax ∧ (flat rows).length ≤ offsetMax

/-- A new builder holds nothing. -/
theorem holds_new : (new : ListBuilder α).Holds [] [] :=
  ⟨rfl, rfl, rfl, Nat.zero_le _⟩

variable {builder : ListBuilder α} {rows : List (Option (List α))} {pending : List α}

/-- Values that fit are appended to the open row. -/
theorem Holds.appendValues (holds : builder.Holds rows pending) (items : List α)
    (fits : buffered ((flat rows ++ pending ++ items).map some) ≤ offsetMax) :
    ∃ next : ListBuilder α, (items.foldlM appendValue builder : Run ε _) = .ok next ∧
      next.Holds rows (pending ++ items) := by
  induction items generalizing builder pending with
  | nil => exact ⟨builder, rfl, by simpa using holds⟩
  | cons item items ih =>
    have room : buffered (builder.values.cells ++ [some item]) ≤ offsetMax := by
      rw [List.append_cons, List.map_append, buffered_append] at fits
      rw [holds.values, show [some item] = [item].map some from rfl, ← List.map_append]
      omega
    have held : ListBuilder.Holds { builder with values := ⟨_, room⟩ } rows (pending ++ [item]) :=
      ⟨by simp [holds.values], holds.offsets, holds.validity, holds.bounded⟩
    obtain ⟨next, rest, all⟩ := ih held (by simpa using fits)
    refine ⟨next, ?_, by simpa using all⟩
    rw [List.foldlM_cons, ListBuilder.appendValue, Builder.appendValue, dif_pos room]
    exact rest

/-- Values that do not are a panic. -/
theorem Holds.appendValues_panic (holds : builder.Holds rows pending) (items : List α)
    (exceeds : ¬buffered ((flat rows ++ pending ++ items).map some) ≤ offsetMax) :
    ∃ message, (items.foldlM appendValue builder : Run ε _) = .error (.panic message) := by
  induction items generalizing builder pending with
  | nil =>
    have within := builder.values.within
    rw [holds.values] at within
    exact absurd (by simpa using within) exceeds
  | cons item items ih =>
    rw [List.foldlM_cons, ListBuilder.appendValue, Builder.appendValue]
    by_cases room : buffered (builder.values.cells ++ [some item]) ≤ offsetMax
    · have held : ListBuilder.Holds { builder with values := ⟨_, room⟩ } rows (pending ++ [item]) :=
        ⟨by simp [holds.values], holds.offsets, holds.validity, holds.bounded⟩
      rw [dif_pos room]
      exact ih held (by simpa using exceeds)
    · rw [dif_neg room]
      exact ⟨_, rfl⟩

/-- Closing the row of the values appended. -/
theorem Holds.append (holds : builder.Holds rows pending) (row : Option (List α))
    (closes : row.getD [] = pending) (fits : (flat rows ++ pending).length ≤ offsetMax) :
    ∃ next : ListBuilder α, (builder.append row.isSome : Run ε _) = .ok next ∧
      next.Holds (rows ++ [row]) [] := by
  have count : builder.values.cells.length = (flat rows ++ pending).length := by
    rw [holds.values, List.length_map]
  have extended : flat (rows ++ [row]) = flat rows ++ pending := by
    rw [flat_append, flat_singleton, closes]
  refine ⟨_, if_pos (count ▸ fits), ?_, ?_, ?_, ?_⟩
  · rw [extended, List.append_nil]
    exact holds.values
  · have earlier : (List.range (rows.length + 1)).map (fun i =>
        (flat ((rows ++ [row]).take i)).length) = builder.offsets := by
      rw [holds.offsets]
      apply List.map_congr_left
      intro i inside
      rw [List.take_append_of_le_length (Nat.lt_succ_iff.mp (List.mem_range.mp inside))]
    have last : (rows ++ [row]).take (rows.length + 1) = rows ++ [row] :=
      List.take_of_length_le (by simp)
    rw [List.length_append, List.length_singleton, List.range_succ, List.map_append, earlier,
      List.map_singleton, last, extended, count]
  · simp [holds.validity]
  · rw [extended]
    exact fits

/-- What a builder holds fits it. -/
theorem Holds.fits (holds : builder.Holds rows []) : Fits rows := by
  have within := builder.values.within
  rw [holds.values, List.append_nil] at within
  exact ⟨within, holds.bounded⟩

/-- The values of the rows and one more. -/
theorem fits_append (row : Option (List α)) : Fits (rows ++ [row]) ↔
    buffered ((flat rows ++ row.getD []).map some) ≤ offsetMax ∧
      (flat rows ++ row.getD []).length ≤ offsetMax := by
  rw [Fits, flat_append, flat_singleton]

/-- A row that fits is appended. -/
theorem Holds.emit_ok (holds : builder.Holds rows []) (row : Option (List α))
    (fits : Fits (rows ++ [row])) :
    ∃ next : ListBuilder α, (builder.emit row : Run ε _) = .ok next ∧
      next.Holds (rows ++ [row]) [] := by
  obtain ⟨bytes, count⟩ := (fits_append row).mp fits
  cases row with
  | none => exact holds.append none rfl count
  | some items =>
    obtain ⟨filled, appended, held⟩ := holds.appendValues (ε := ε) items
      (by simpa using bytes)
    obtain ⟨next, closed, all⟩ := held.append (ε := ε) (some items) rfl count
    refine ⟨next, ?_, all⟩
    rw [emit, appended]
    exact closed

/-- A row that does not is a panic. -/
theorem Holds.emit_panic (holds : builder.Holds rows []) (row : Option (List α))
    (exceeds : ¬Fits (rows ++ [row])) :
    ∃ message, (builder.emit row : Run ε _) = .error (.panic message) := by
  cases row with
  | none =>
    refine absurd ((fits_append none).mpr ?_) exceeds
    simpa [Fits] using holds.fits
  | some items =>
    by_cases bytes : buffered ((flat rows ++ [] ++ items).map some) ≤ offsetMax
    · obtain ⟨filled, appended, held⟩ := holds.appendValues (ε := ε) items bytes
      rw [emit, appended]
      have count : ¬filled.values.cells.length ≤ offsetMax := fun count => by
        rw [held.values, List.length_map] at count
        exact exceeds ((fits_append (some items)).mpr ⟨by simpa using bytes, count⟩)
      exact ⟨_, if_neg count⟩
    · obtain ⟨message, panicked⟩ := holds.appendValues_panic (ε := ε) items bytes
      rw [emit, panicked]
      exact ⟨message, rfl⟩

/-- A list builder is a sink. -/
def sink : Sink ε (ListBuilder α) (List α) where
  new := new
  emit := emit
  Holds builder rows := builder.Holds rows []
  Fits := Fits
  holds_new := holds_new
  holds_fits holds := holds.fits
  fits_init := by
    intro rows row fits
    obtain ⟨bytes, count⟩ := (fits_append row).mp fits
    rw [List.map_append, buffered_append] at bytes
    rw [List.length_append] at count
    exact ⟨by omega, by omega⟩
  emit_ok holds fits := holds.emit_ok _ fits
  emit_panic holds exceeds := holds.emit_panic _ exceeds

/-- An offset of a builder. -/
theorem Holds.offset (holds : builder.Holds rows []) {i : Nat} (inside : i ≤ rows.length) :
    builder.offsets[i]? = some (flat (rows.take i)).length := by
  rw [holds.offsets, List.getElem?_map, List.getElem?_range (Nat.lt_succ_of_le inside),
    Option.map_some]

/-- The values between the offsets of a row are its values. -/
theorem Holds.slice (holds : builder.Holds rows []) {i : Nat} (inside : i < rows.length) :
    builder.values.cells.extract (flat (rows.take i)).length (flat (rows.take (i + 1))).length =
      (rows[i].getD []).map some := by
  have split : flat rows = flat (rows.take i) ++ (rows[i].getD [] ++ flat (rows.drop (i + 1))) := by
    rw [← flat_singleton, ← flat_append, ← flat_append, List.singleton_append,
      ← List.drop_eq_getElem_cons inside, List.take_append_drop]
  rw [flat_take_succ inside, List.length_append, holds.values, List.append_nil,
    List.extract_eq_take_drop, Nat.add_sub_cancel_left, ← List.map_drop, ← List.map_take, split,
    List.drop_left, List.take_left]

/-- A finished builder has the rows it holds. -/
theorem Holds.finish (holds : builder.Holds rows []) : builder.finish.HasRows rows where
  count := by rw [ListBuilder.finish, holds.validity, List.length_map]
  row i inside := by
    have valid : builder.validity.getD i false = rows[i].isSome := by
      simp [holds.validity, inside]
    have starts := holds.offset inside.le
    have stops := holds.offset (Nat.succ_le_of_lt inside)
    rw [ListArray.row, ListBuilder.finish, valid, List.getD_eq_getElem?_getD,
      List.getD_eq_getElem?_getD, starts, stops, Option.getD_some, Option.getD_some,
      holds.slice inside]
    cases rows[i] with
    | none => rfl
    | some items => rfl
  first := holds.offset (Nat.zero_le _)
  step i inside := by
    refine ⟨_, holds.offset inside.le, ?_⟩
    rw [← List.length_append, ← flat_take_succ inside]
    exact holds.offset (Nat.succ_le_of_lt inside)
  last := by
    have ends := holds.offset (Nat.le_refl _)
    rw [List.take_length] at ends
    rw [ListBuilder.finish, ends, holds.values, List.append_nil, List.length_map]

end ListBuilder

end TiktokenWorker.Arrow

import TiktokenWorker.Scalar.Rows
import TiktokenWorker.Tiktoken

/-!
# `tokenize`

`scalar/tokenize.rs`. A row appends its ids to the values all rows share and then closes itself.
-/

namespace TiktokenWorker

open Arrow

variable (rs : TiktokenRs)

/-- Ids as the list column holds them, `as i32`. -/
def listInts (ids : List UInt32) : List Int32 := ids.map UInt32.toInt32

/-- Appending ids one by one and closing the row appends the row. -/
theorem emit_listInts (builder : ListBuilder Int32) (ids : List UInt32) :
    (builder.emit (some (listInts ids)) : Result (ListBuilder Int32)) = (do
      let builder ← ids.foldlM (fun builder id => builder.appendValue (UInt32.toInt32 id)) builder
      builder.append true) := by
  rw [ListBuilder.emit, listInts, List.foldlM_map]

namespace Tokenize

/-- The body of the loop. -/
def step (col : ArrayRef) (builder : ListBuilder Int32) (i : Nat) :
    Result (ListBuilder Int32) := do
  match ← textStr col i with
  | none => builder.appendNull
  | some text =>
    let builder ← (tokenize rs text .defaultEncoding).foldlM
      (fun builder id => builder.appendValue (UInt32.toInt32 id)) builder
    builder.append true

/-- `Tokenize::process`. -/
def process (batch : RecordBatch) : Result (ListArray Int32) := do
  let col ← batch.column 0
  let rows := batch.numRows
  let builder ← (List.range rows).foldlM (step rs col) ListBuilder.new
  .ok builder.finish

/-- The ids of a row. -/
def cell (text : Option String) : Option (List Int32) := do
  let text ← text
  some (listInts (tokenize rs text .defaultEncoding))

/-- The ids of a row, as read. -/
def row (col : ArrayRef) (i : Nat) : Result (Option (List Int32)) := do
  let text ← textStr col i
  .ok (cell rs text)

/-- The body appends the ids of the row. -/
theorem step_eq (col : ArrayRef) : step rs col = ListBuilder.sink.step (row rs col) := by
  funext builder i
  unfold step Sink.step row
  rcases textStr col i with error | _ | text
  · rfl
  · rfl
  · exact (emit_listInts builder _).symm

/-- A batch with a text column has the ids of its texts. -/
theorem process_ok {batch : RecordBatch} (admits : Admits [.text] batch)
    (fits : ListBuilder.Fits ((List.range batch.numRows).map fun i =>
      cell rs (textAt batch 0 i))) :
    ∃ builder : ListBuilder Int32, process rs batch = .ok builder.finish ∧
      builder.Holds ((List.range batch.numRows).map fun i => cell rs (textAt batch 0 i)) [] := by
  exact overOne_ok ListBuilder.sink ListBuilder.finish (step_eq rs) admits fits

end Tokenize

namespace TokenizeModel

/-- The body of the loop. -/
def step (text model : ArrayRef) (builder : ListBuilder Int32) (i : Nat) :
    Result (ListBuilder Int32) := do
  match ← textStr text i, ← textStr model i with
  | some t, some m =>
    match resolve rs m with
    | some enc =>
      let builder ← (tokenize rs t enc).foldlM
        (fun builder id => builder.appendValue (UInt32.toInt32 id)) builder
      builder.append true
    | none => builder.appendNull
  | _, _ => builder.appendNull

/-- `TokenizeModel::process`. -/
def process (batch : RecordBatch) : Result (ListArray Int32) := do
  let text ← batch.column 0
  let model ← batch.column 1
  let rows := batch.numRows
  let builder ← (List.range rows).foldlM (step rs text model) ListBuilder.new
  .ok builder.finish

/-- The ids of a row. -/
def cell (text model : Option String) : Option (List Int32) := do
  let t ← text
  let m ← model
  let enc ← resolve rs m
  some (listInts (tokenize rs t enc))

/-- The ids of a row, as read. -/
def row (text model : ArrayRef) (i : Nat) : Result (Option (List Int32)) := do
  let t ← textStr text i
  let m ← textStr model i
  .ok (cell rs t m)

/-- The body appends the ids of the row. -/
theorem step_eq (text model : ArrayRef) :
    step rs text model = ListBuilder.sink.step (row rs text model) := by
  funext builder i
  unfold step Sink.step row cell
  rcases textStr text i with error | _ | t
  · rfl
  · rcases textStr model i with error | _ | m <;> rfl
  · rcases textStr model i with error | _ | m
    · rfl
    · rfl
    · simp only [bind, Except.bind, Option.bind]
      cases resolve rs m with
      | none => rfl
      | some enc => exact (emit_listInts builder _).symm

/-- A batch with text and model columns has the ids of its texts by its models. -/
theorem process_ok {batch : RecordBatch} (admits : Admits [.text, .text] batch)
    (fits : ListBuilder.Fits ((List.range batch.numRows).map fun i =>
      cell rs (textAt batch 0 i) (textAt batch 1 i))) :
    ∃ builder : ListBuilder Int32, process rs batch = .ok builder.finish ∧
      builder.Holds ((List.range batch.numRows).map fun i =>
        cell rs (textAt batch 0 i) (textAt batch 1 i)) [] := by
  exact overTwo_ok ListBuilder.sink ListBuilder.finish (step_eq rs) admits fits

end TokenizeModel

end TiktokenWorker

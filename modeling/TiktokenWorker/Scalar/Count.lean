import TiktokenWorker.Scalar.Rows
import TiktokenWorker.Tiktoken

/-!
# `count_tokens`

`scalar/count.rs`. `step` is the body of the loop over rows, `cell` what it appends for the cells
it reads. The batch is built on the schema `on_bind` declares, so only the column is modelled.
-/

namespace TiktokenWorker

open Arrow

variable (rs : TiktokenRs)

namespace CountTokens

/-- The body of the loop. -/
def step (col : ArrayRef) (out : Builder Int32) (i : Nat) : Result (Builder Int32) := do
  match ← textStr col i with
  | some text => out.appendValue (asI32 (count rs text .defaultEncoding))
  | none => .ok out.appendNull

/-- `CountTokens::process`. -/
def process (batch : RecordBatch) : Result (List (Option Int32)) := do
  let col ← batch.column 0
  let rows := batch.numRows
  let out ← (List.range rows).foldlM (step rs col) Builder.new
  .ok out.finish

/-- The count of a row. -/
def cell (text : Option String) : Option Int32 := do
  let text ← text
  some (asI32 (count rs text .defaultEncoding))

/-- The count of a row, as read. -/
def row (col : ArrayRef) (i : Nat) : Result (Option Int32) := do
  let text ← textStr col i
  .ok (cell rs text)

/-- The body appends the count of the row. -/
theorem step_eq (col : ArrayRef) : step rs col = Builder.sink.step (row rs col) := by
  funext out i
  unfold step Sink.step row
  rcases textStr col i with error | _ | text <;> rfl

/-- A batch with a text column has the counts of its texts. -/
theorem process_ok {batch : RecordBatch} (admits : Admits [.text] batch) :
    process rs batch =
      .ok ((List.range batch.numRows).map fun i => cell rs (textAt batch 0 i)) := by
  obtain ⟨out, built, holds⟩ := overOne_ok Builder.sink Builder.finish (step_eq rs) admits
    ((buffered_int32 _).trans_le (Nat.zero_le _))
  exact built.trans (congrArg Except.ok holds)

end CountTokens

namespace CountTokensModel

/-- The body of the loop. -/
def step (text model : ArrayRef) (out : Builder Int32) (i : Nat) : Result (Builder Int32) := do
  match ← textStr text i, ← textStr model i with
  | some t, some m =>
    match resolve rs m with
    | some enc => out.appendValue (asI32 (count rs t enc))
    | none => .ok out.appendNull
  | _, _ => .ok out.appendNull

/-- `CountTokensModel::process`. -/
def process (batch : RecordBatch) : Result (List (Option Int32)) := do
  let text ← batch.column 0
  let model ← batch.column 1
  let rows := batch.numRows
  let out ← (List.range rows).foldlM (step rs text model) Builder.new
  .ok out.finish

/-- The count of a row. -/
def cell (text model : Option String) : Option Int32 := do
  let t ← text
  let m ← model
  let enc ← resolve rs m
  some (asI32 (count rs t enc))

/-- The count of a row, as read. -/
def row (text model : ArrayRef) (i : Nat) : Result (Option Int32) := do
  let t ← textStr text i
  let m ← textStr model i
  .ok (cell rs t m)

/-- The body appends the count of the row. -/
theorem step_eq (text model : ArrayRef) :
    step rs text model = Builder.sink.step (row rs text model) := by
  funext out i
  unfold step Sink.step row cell
  rcases textStr text i with error | _ | t
  · rfl
  · rcases textStr model i with error | _ | m <;> rfl
  · rcases textStr model i with error | _ | m
    · rfl
    · rfl
    · simp only [bind, Except.bind, Option.bind]
      cases resolve rs m <;> rfl

/-- A batch with text and model columns has the counts of its texts by its models. -/
theorem process_ok {batch : RecordBatch} (admits : Admits [.text, .text] batch) :
    process rs batch = .ok ((List.range batch.numRows).map fun i =>
      cell rs (textAt batch 0 i) (textAt batch 1 i)) := by
  obtain ⟨out, built, holds⟩ := overTwo_ok Builder.sink Builder.finish (step_eq rs) admits
    ((buffered_int32 _).trans_le (Nat.zero_le _))
  exact built.trans (congrArg Except.ok holds)

end CountTokensModel

end TiktokenWorker

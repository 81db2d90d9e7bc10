import TiktokenWorker.Scalar.Rows
import TiktokenWorker.Tiktoken

/-!
# `encoding_for_model`

`scalar/encoding.rs`.
-/

namespace TiktokenWorker

open Arrow

variable (rs : TiktokenRs)

namespace EncodingForModel

/-- The body of the loop. -/
def step (col : ArrayRef) (out : Builder String) (i : Nat) : Result (Builder String) := do
  match ← textStr col i with
  | some model =>
    match encodingNameForModel rs model with
    | some name => out.appendValue name
    | none => .ok out.appendNull
  | none => .ok out.appendNull

/-- `EncodingForModel::process`. -/
def process (batch : RecordBatch) : Result (List (Option String)) := do
  let col ← batch.column 0
  let rows := batch.numRows
  let out ← (List.range rows).foldlM (step rs col) Builder.new
  .ok out.finish

/-- The encoding name of a row. -/
def cell (model : Option String) : Option String := do
  let model ← model
  encodingNameForModel rs model

/-- The encoding name of a row, as read. -/
def row (col : ArrayRef) (i : Nat) : Result (Option String) := do
  let model ← textStr col i
  .ok (cell rs model)

/-- The body appends the encoding name of the row. -/
theorem step_eq (col : ArrayRef) : step rs col = Builder.sink.step (row rs col) := by
  funext out i
  unfold step Sink.step row cell
  rcases textStr col i with error | _ | model
  · rfl
  · rfl
  · simp only [bind, Except.bind, Option.bind]
    cases encodingNameForModel rs model <;> rfl

/-- A batch with a model column has the encoding names of its models. -/
theorem process_ok {batch : RecordBatch} (admits : Admits [.text] batch)
    (fits : buffered ((List.range batch.numRows).map fun i => cell rs (textAt batch 0 i)) ≤
      offsetMax) :
    process rs batch =
      .ok ((List.range batch.numRows).map fun i => cell rs (textAt batch 0 i)) := by
  obtain ⟨out, built, holds⟩ := overOne_ok Builder.sink Builder.finish (step_eq rs) admits fits
  exact built.trans (congrArg Except.ok holds)

end EncodingForModel

end TiktokenWorker

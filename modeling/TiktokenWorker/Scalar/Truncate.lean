import TiktokenWorker.Scalar.Rows
import TiktokenWorker.Tiktoken

/-!
# `truncate_to_tokens`

`scalar/truncate.rs`.
-/

namespace TiktokenWorker

open Arrow

variable (rs : TiktokenRs) (target : Target)

namespace TruncateToTokens

/-- The body of the loop. -/
def step (text n : ArrayRef) (out : Builder String) (i : Nat) : Result (Builder String) := do
  match ← textStr text i, ← intVal n i with
  | some t, some n =>
    let n := asUsize target (max n 0)
    out.appendValue (truncate rs t n .defaultEncoding)
  | _, _ => .ok out.appendNull

/-- `TruncateToTokens::process`. -/
def process (batch : RecordBatch) : Result (List (Option String)) := do
  let text ← batch.column 0
  let n ← batch.column 1
  let rows := batch.numRows
  let out ← (List.range rows).foldlM (step rs target text n) Builder.new
  .ok out.finish

/-- The truncated text of a row. -/
def cell (text : Option String) (n : Option Int64) : Option String := do
  let t ← text
  let n ← n
  some (truncate rs t (asUsize target (max n 0)) .defaultEncoding)

/-- The truncated text of a row, as read. -/
def row (text n : ArrayRef) (i : Nat) : Result (Option String) := do
  let t ← textStr text i
  let n ← intVal n i
  .ok (cell rs target t n)

/-- The body appends the truncated text of the row. -/
theorem step_eq (text n : ArrayRef) :
    step rs target text n = Builder.sink.step (row rs target text n) := by
  funext out i
  unfold step Sink.step row
  rcases textStr text i with error | _ | t
  · rfl
  · rcases intVal n i with error | _ | n <;> rfl
  · rcases intVal n i with error | _ | n <;> rfl

/-- A batch with text and number columns has its truncated texts. -/
theorem process_ok {batch : RecordBatch} (admits : Admits [.text, .integer] batch)
    (fits : buffered ((List.range batch.numRows).map fun i =>
      cell rs target (textAt batch 0 i) (intAt batch 1 i)) ≤ offsetMax) :
    process rs target batch = .ok ((List.range batch.numRows).map fun i =>
      cell rs target (textAt batch 0 i) (intAt batch 1 i)) := by
  obtain ⟨out, built, holds⟩ :=
    overTwo_ok Builder.sink Builder.finish (step_eq rs target) admits fits
  exact built.trans (congrArg Except.ok holds)

end TruncateToTokens

namespace TruncateToTokensModel

/-- The body of the loop. -/
def step (text n model : ArrayRef) (out : Builder String) (i : Nat) :
    Result (Builder String) := do
  match ← textStr text i, ← intVal n i, ← textStr model i with
  | some t, some n, some m =>
    match resolve rs m with
    | some enc =>
      let n := asUsize target (max n 0)
      out.appendValue (truncate rs t n enc)
    | none => .ok out.appendNull
  | _, _, _ => .ok out.appendNull

/-- `TruncateToTokensModel::process`. -/
def process (batch : RecordBatch) : Result (List (Option String)) := do
  let text ← batch.column 0
  let n ← batch.column 1
  let model ← batch.column 2
  let rows := batch.numRows
  let out ← (List.range rows).foldlM (step rs target text n model) Builder.new
  .ok out.finish

/-- The truncated text of a row. -/
def cell (text : Option String) (n : Option Int64) (model : Option String) : Option String := do
  let t ← text
  let n ← n
  let m ← model
  let enc ← resolve rs m
  some (truncate rs t (asUsize target (max n 0)) enc)

/-- The truncated text of a row, as read. -/
def row (text n model : ArrayRef) (i : Nat) : Result (Option String) := do
  let t ← textStr text i
  let n ← intVal n i
  let m ← textStr model i
  .ok (cell rs target t n m)

/-- The body appends the truncated text of the row. -/
theorem step_eq (text n model : ArrayRef) :
    step rs target text n model = Builder.sink.step (row rs target text n model) := by
  funext out i
  unfold step Sink.step row cell
  rcases textStr text i with error | t
  · rfl
  rcases intVal n i with error | n
  · rfl
  rcases textStr model i with error | m
  · rfl
  rcases t with _ | t
  · rfl
  rcases n with _ | n
  · rfl
  rcases m with _ | m
  · rfl
  simp only [bind, Except.bind, Option.bind]
  cases resolve rs m <;> rfl

/-- A batch with text, number and model columns has its truncated texts by its models. -/
theorem process_ok {batch : RecordBatch} (admits : Admits [.text, .integer, .text] batch)
    (fits : buffered ((List.range batch.numRows).map fun i =>
      cell rs target (textAt batch 0 i) (intAt batch 1 i) (textAt batch 2 i)) ≤ offsetMax) :
    process rs target batch = .ok ((List.range batch.numRows).map fun i =>
      cell rs target (textAt batch 0 i) (intAt batch 1 i) (textAt batch 2 i)) := by
  obtain ⟨out, built, holds⟩ :=
    overThree_ok Builder.sink Builder.finish (step_eq rs target) admits fits
  exact built.trans (congrArg Except.ok holds)

end TruncateToTokensModel

end TiktokenWorker

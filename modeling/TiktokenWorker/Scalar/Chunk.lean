import TiktokenWorker.Scalar.Rows
import TiktokenWorker.Tiktoken

/-!
# `chunk_by_tokens`

`scalar/chunk.rs`. Both overloads append the chunks of a row through `append_chunks`.
-/

namespace TiktokenWorker

open Arrow

variable (rs : TiktokenRs) (target : Target)

/-- `append_chunks`. -/
def appendChunks (builder : ListBuilder String) (text : String) (maxTokens overlap : Nat) :
    Result (ListBuilder String) := do
  let builder ← (chunk rs text maxTokens overlap .defaultEncoding).foldlM
    (fun builder chunk => builder.appendValue chunk) builder
  builder.append true

namespace ChunkByTokens

/-- The body of the loop. -/
def step (text maxTokens : ArrayRef) (builder : ListBuilder String) (i : Nat) :
    Result (ListBuilder String) := do
  match ← textStr text i, ← intVal maxTokens i with
  | some t, some m => appendChunks rs builder t (asUsize target (max m 0)) 0
  | _, _ => builder.appendNull

/-- `ChunkByTokens::process`. -/
def process (batch : RecordBatch) : Result (ListArray String) := do
  let text ← batch.column 0
  let maxTokens ← batch.column 1
  let rows := batch.numRows
  let builder ← (List.range rows).foldlM (step rs target text maxTokens) ListBuilder.new
  .ok builder.finish

/-- The chunks of a row. -/
def cell (text : Option String) (maxTokens : Option Int64) : Option (List String) := do
  let t ← text
  let m ← maxTokens
  some (chunk rs t (asUsize target (max m 0)) 0 .defaultEncoding)

/-- The chunks of a row, as read. -/
def row (text maxTokens : ArrayRef) (i : Nat) : Result (Option (List String)) := do
  let t ← textStr text i
  let m ← intVal maxTokens i
  .ok (cell rs target t m)

/-- The body appends the chunks of the row. -/
theorem step_eq (text maxTokens : ArrayRef) :
    step rs target text maxTokens = ListBuilder.sink.step (row rs target text maxTokens) := by
  funext builder i
  unfold step Sink.step row
  rcases textStr text i with error | _ | t
  · rfl
  · rcases intVal maxTokens i with error | _ | m <;> rfl
  · rcases intVal maxTokens i with error | _ | m <;> rfl

/-- A batch with text and number columns has the chunks of its texts. -/
theorem process_ok {batch : RecordBatch} (admits : Admits [.text, .integer] batch)
    (fits : ListBuilder.Fits ((List.range batch.numRows).map fun i =>
      cell rs target (textAt batch 0 i) (intAt batch 1 i))) :
    ∃ builder : ListBuilder String, process rs target batch = .ok builder.finish ∧
      builder.Holds ((List.range batch.numRows).map fun i =>
        cell rs target (textAt batch 0 i) (intAt batch 1 i)) [] := by
  exact overTwo_ok ListBuilder.sink ListBuilder.finish (step_eq rs target) admits fits

end ChunkByTokens

namespace ChunkByTokensOverlap

/-- The body of the loop. -/
def step (text maxTokens overlap : ArrayRef) (builder : ListBuilder String) (i : Nat) :
    Result (ListBuilder String) := do
  match ← textStr text i, ← intVal maxTokens i, ← intVal overlap i with
  | some t, some m, some o =>
    appendChunks rs builder t (asUsize target (max m 0)) (asUsize target (max o 0))
  | _, _, _ => builder.appendNull

/-- `ChunkByTokensOverlap::process`. -/
def process (batch : RecordBatch) : Result (ListArray String) := do
  let text ← batch.column 0
  let maxTokens ← batch.column 1
  let overlap ← batch.column 2
  let rows := batch.numRows
  let builder ← (List.range rows).foldlM (step rs target text maxTokens overlap) ListBuilder.new
  .ok builder.finish

/-- The chunks of a row. -/
def cell (text : Option String) (maxTokens overlap : Option Int64) : Option (List String) := do
  let t ← text
  let m ← maxTokens
  let o ← overlap
  some (chunk rs t (asUsize target (max m 0)) (asUsize target (max o 0)) .defaultEncoding)

/-- The chunks of a row, as read. -/
def row (text maxTokens overlap : ArrayRef) (i : Nat) : Result (Option (List String)) := do
  let t ← textStr text i
  let m ← intVal maxTokens i
  let o ← intVal overlap i
  .ok (cell rs target t m o)

/-- The body appends the chunks of the row. -/
theorem step_eq (text maxTokens overlap : ArrayRef) :
    step rs target text maxTokens overlap =
      ListBuilder.sink.step (row rs target text maxTokens overlap) := by
  funext builder i
  unfold step Sink.step row
  rcases textStr text i with error | t
  · rfl
  rcases intVal maxTokens i with error | m
  · rfl
  rcases intVal overlap i with error | o
  · rfl
  rcases t with _ | t
  · rfl
  rcases m with _ | m
  · rfl
  rcases o with _ | o <;> rfl

/-- What the loop returns for a batch with a text and two number columns. -/
theorem process_eq {batch : RecordBatch} (admits : Admits [.text, .integer, .integer] batch) :
    ∃ text maxTokens overlap, (∀ i < batch.numRows, row rs target text maxTokens overlap i =
        .ok (cell rs target (textAt batch 0 i) (intAt batch 1 i) (intAt batch 2 i))) ∧
      process rs target batch =
        (ListBuilder.sink.build (List.range batch.numRows)
          (row rs target text maxTokens overlap) >>= fun builder => .ok builder.finish) := by
  obtain ⟨text, foundText, readsText⟩ := admits.text 0 rfl
  obtain ⟨maxTokens, foundMax, readsMax⟩ := admits.integer 1 rfl
  obtain ⟨overlap, foundOverlap, readsOverlap⟩ := admits.integer 2 rfl
  refine ⟨text, maxTokens, overlap, fun i inside => ?_, ?_⟩
  · rw [row, readsText i inside, readsMax i inside, readsOverlap i inside]
    rfl
  · rw [process, foundText, foundMax, foundOverlap, Sink.build, ← step_eq]
    rfl

/-- The chunks of every row of a batch. -/
def rowsOf (batch : RecordBatch) : List (Option (List String)) :=
  (List.range batch.numRows).map fun i =>
    cell rs target (textAt batch 0 i) (intAt batch 1 i) (intAt batch 2 i)

/-- A batch with a text and two number columns has the chunks of its texts. -/
theorem process_ok {batch : RecordBatch} (admits : Admits [.text, .integer, .integer] batch)
    (fits : ListBuilder.Fits (rowsOf rs target batch)) :
    ∃ builder : ListBuilder String, process rs target batch = .ok builder.finish ∧
      builder.Holds (rowsOf rs target batch) [] := by
  exact overThree_ok ListBuilder.sink ListBuilder.finish (step_eq rs target) admits fits

/-- Chunks that do not fit their builder are a panic. -/
theorem process_panic {batch : RecordBatch} (admits : Admits [.text, .integer, .integer] batch)
    (exceeds : ¬ListBuilder.Fits (rowsOf rs target batch)) :
    ∃ message, process rs target batch = .error (.panic message) := by
  obtain ⟨text, maxTokens, overlap, reads, same⟩ := process_eq rs target admits
  obtain ⟨message, panicked⟩ := ListBuilder.sink.build_panic (List.range batch.numRows)
    (fun i member => reads i (List.mem_range.mp member)) exceeds
  refine ⟨message, ?_⟩
  rw [same, panicked]
  rfl

end ChunkByTokensOverlap

end TiktokenWorker

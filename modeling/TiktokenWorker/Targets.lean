import TiktokenWorker.Integers
import TiktokenWorker.Outcome

/-!
# The native and the browser worker

The browser worker is built from the same sources for a `usize` of half the width. The casts of
number arguments are the one place where that can show, and they agree below the limit of the
browser; so do the functions over batches whose numbers are.
-/

namespace TiktokenWorker

open Arrow

/-! ## Casts -/

/-- The number arguments of a batch are below the limit of the browser. -/
def Narrow (kinds : List Kind) (batch : RecordBatch) : Prop :=
  ∀ position, kinds[position]? = some Kind.integer → ∀ i n, intAt batch position i = some n →
    n.toInt < Target.wasm32.limit

/-- Both targets cast a number below it to the same `usize`. -/
theorem asUsize_wasm32 {n : Int64} (below : n.toInt < Target.wasm32.limit) :
    asUsize .wasm32 (max n 0) = asUsize .native (max n 0) := by
  have wider : n.toInt < Target.native.limit := by
    simp only [Target.limit] at below ⊢
    omega
  rw [asUsize_max, asUsize_max, castUsize_of_lt .wasm32 below, castUsize_of_lt .native wider]

/-- Integer types of at most 32 bits. -/
def isInteger32 : DataType → Bool
  | .int8 | .int16 | .int32 | .uint8 | .uint16 | .uint32 => true
  | _ => false

/-- Their values are below the limit of the browser. -/
theorem readInt_lt {dataType : DataType} (small : isInteger32 dataType = true)
    {value : dataType.Native} {n : Int64} (reads : readInt dataType value = .ok n) :
    n.toInt < 2 ^ 32 := by
  have unsigned (word : UInt64) (bound : word.toNat < 2 ^ 32) : word.toInt64.toInt < 2 ^ 32 := by
    rw [toInt_toInt64]
    split <;> omega
  cases dataType <;> cases small <;> cases reads
  case int8 =>
    have bound := Int8.toInt_lt value
    rw [Int8.toInt_toInt64]
    omega
  case int16 =>
    have bound := Int16.toInt_lt value
    rw [Int16.toInt_toInt64]
    omega
  case int32 =>
    have bound := Int32.toInt_lt value
    rw [Int32.toInt_toInt64]
    omega
  case uint8 =>
    have bound := UInt8.toNat_lt value
    exact unsigned _ (by rw [UInt8.toNat_toUInt64]; omega)
  case uint16 =>
    have bound := UInt16.toNat_lt value
    exact unsigned _ (by rw [UInt16.toNat_toUInt64]; omega)
  case uint32 =>
    have bound := UInt32.toNat_lt value
    exact unsigned _ (by rw [UInt32.toNat_toUInt64]; omega)

/-- Batches whose number columns have such types are narrow. -/
theorem narrow_of_types {kinds : List Kind} {batch : RecordBatch}
    (types : ∀ (position : Nat) (col : ArrayRef), kinds[position]? = some Kind.integer →
      batch.columns[position]? = some col → isInteger32 col.dataType = true) :
    Narrow kinds batch := by
  intro position listed i n found
  obtain ⟨col, column, cell⟩ := Option.bind_eq_some_iff.mp found
  have read : readCell readInt col i = .ok (some n) := by
    unfold cellAt at cell
    cases result : readCell readInt col i with
    | error abort =>
      rw [result] at cell
      cases cell
    | ok value =>
      rw [result] at cell
      exact congrArg Except.ok cell
  obtain ⟨value, _, reads⟩ := readCell_some read
  have below := readInt_lt (types position col listed column) reads
  simp only [Target.limit]
  omega

/-- A number of a narrow batch is cast to the same `usize` by both targets. -/
theorem Narrow.cast {kinds : List Kind} {batch : RecordBatch} (narrow : Narrow kinds batch)
    {position i : Nat} (listed : kinds[position]? = some Kind.integer) {col : ArrayRef}
    (found : batch.columns[position]? = some col) {n : Int64}
    (reads : intVal col i = .ok (some n)) :
    asUsize .wasm32 (max n 0) = asUsize .native (max n 0) := by
  have cell : intAt batch position i = some n := by
    have read : readCell readInt col i = .ok (some n) := reads
    simp only [intAt, readAt, found, Option.bind_some, cellAt, read]
    rfl
  exact asUsize_wasm32 (narrow position listed i n cell)

/-! ## Functions -/

section Functions

variable {B β γ : Type} {sink : Sink RpcError B γ} {finish : B → β} {batch : RecordBatch}
  (first second third : Kind)

/-- Loops whose bodies agree at every position end alike. The induction is on the positions left. -/
theorem foldlM_congr {ε σ ρ : Type} {body other : σ → ρ → Except ε σ} (positions : List ρ)
    (same : ∀ i ∈ positions, ∀ state, body state i = other state i) (state : σ) :
    positions.foldlM body state = positions.foldlM other state := by
  induction positions generalizing state with
  | nil => rfl
  | cons i later ih =>
    have first := same i List.mem_cons_self state
    have rest := ih fun j listed => same j (List.mem_cons_of_mem i listed)
    rw [List.foldlM_cons, List.foldlM_cons, first, funext rest]

/-- Rows that are read alike make loops over them that end alike. -/
theorem loop_congr {rows : Nat} {body other : B → Nat → Result B}
    {read otherRead : Nat → Result (Option γ)}
    (bodies : body = sink.step read) (others : other = sink.step otherRead)
    (same : ∀ i < rows, read i = otherRead i) :
    ((List.range rows).foldlM body sink.new >>= fun out => (.ok (finish out) : Result β)) =
      (List.range rows).foldlM other sink.new >>= fun out => .ok (finish out) := by
  have steps (i : Nat) (listed : i ∈ List.range rows) (out : B) : body out i = other out i := by
    rw [bodies, others, Sink.step, Sink.step, same i (List.mem_range.mp listed)]
  rw [foldlM_congr _ steps]

/-- A column that is read is there. -/
theorem columns_of_column {position : Nat} {col : ArrayRef}
    (read : (batch.column position : Result ArrayRef) = .ok col) :
    batch.columns[position]? = some col := by
  unfold RecordBatch.column at read
  cases found : batch.columns[position]? with
  | none =>
    rw [found] at read
    cases read
  | some other =>
    rw [found] at read
    exact congrArg some (Except.ok.inj read)

/-- Functions of two columns whose cells agree on what the second one holds agree on the batch. -/
theorem overTwo_congr {step other : ArrayRef → ArrayRef → B → Nat → Result B}
    (cell otherCell : Option first.Value → Option second.Value → Option γ)
    (steps : ∀ left right, step left right = sink.step fun i => do
      let x ← readCell first.reader left i
      let y ← readCell second.reader right i
      .ok (cell x y))
    (others : ∀ left right, other left right = sink.step fun i => do
      let x ← readCell first.reader left i
      let y ← readCell second.reader right i
      .ok (otherCell x y))
    (same : ∀ right, batch.columns[1]? = some right → ∀ i y,
      readCell second.reader right i = .ok y → ∀ x, cell x y = otherCell x y) :
    overTwo sink finish step batch = overTwo sink finish other batch := by
  unfold overTwo
  cases batch.column 0 with
  | error abort => rfl
  | ok left =>
    cases found : (batch.column 1 : Result ArrayRef) with
    | error abort => rfl
    | ok right =>
      refine loop_congr (steps left right) (others left right) fun i _ => ?_
      cases readCell first.reader left i with
      | error abort => rfl
      | ok x =>
        cases read : readCell second.reader right i with
        | error abort => rfl
        | ok y =>
          have cells := same right (columns_of_column found) i y read x
          exact congrArg Except.ok cells

/-- Functions of three columns whose cells agree on what the later two hold agree on the batch. -/
theorem overThree_congr {step other : ArrayRef → ArrayRef → ArrayRef → B → Nat → Result B}
    (cell otherCell : Option first.Value → Option second.Value → Option third.Value → Option γ)
    (steps : ∀ left middle right, step left middle right = sink.step fun i => do
      let x ← readCell first.reader left i
      let y ← readCell second.reader middle i
      let z ← readCell third.reader right i
      .ok (cell x y z))
    (others : ∀ left middle right, other left middle right = sink.step fun i => do
      let x ← readCell first.reader left i
      let y ← readCell second.reader middle i
      let z ← readCell third.reader right i
      .ok (otherCell x y z))
    (same : ∀ middle right, batch.columns[1]? = some middle → batch.columns[2]? = some right →
      ∀ i y z, readCell second.reader middle i = .ok y → readCell third.reader right i = .ok z →
        ∀ x, cell x y z = otherCell x y z) :
    overThree sink finish step batch = overThree sink finish other batch := by
  unfold overThree
  cases batch.column 0 with
  | error abort => rfl
  | ok left =>
    cases foundMiddle : (batch.column 1 : Result ArrayRef) with
    | error abort => rfl
    | ok middle =>
      cases foundRight : (batch.column 2 : Result ArrayRef) with
      | error abort => rfl
      | ok right =>
        refine loop_congr (steps left middle right) (others left middle right) fun i _ => ?_
        cases readCell first.reader left i with
        | error abort => rfl
        | ok x =>
          cases readMiddle : readCell second.reader middle i with
          | error abort => rfl
          | ok y =>
            cases readRight : readCell third.reader right i with
            | error abort => rfl
            | ok z =>
              have cells := same middle right (columns_of_column foundMiddle)
                (columns_of_column foundRight) i y z readMiddle readRight x
              exact congrArg Except.ok cells

end Functions

variable (rs : TiktokenRs)

/-- Every function answers a narrow batch alike on both targets. -/
theorem process_wasm32 (function : ScalarFunction) {batch : RecordBatch}
    (narrow : Narrow function.kinds batch) :
    function.process rs .wasm32 batch = function.process rs .native batch := by
  cases function with
  | encodingForModel => rfl
  | countTokens => rfl
  | countTokensModel => rfl
  | tokenize => rfl
  | tokenizeModel => rfl
  | truncateToTokens =>
    apply congrArg (Column.texts <$> ·)
    refine overTwo_congr .text .integer (TruncateToTokens.cell rs .wasm32)
      (TruncateToTokens.cell rs .native) (TruncateToTokens.step_eq rs .wasm32)
      (TruncateToTokens.step_eq rs .native) fun numbers found i n read text => ?_
    cases n with
    | none => simp only [TruncateToTokens.cell, Option.bind_eq_bind, Option.bind_none]
    | some n =>
      have same := narrow.cast rfl found read
      simp only [TruncateToTokens.cell, Option.bind_eq_bind, Option.bind_some, same]
  | truncateToTokensModel =>
    apply congrArg (Column.texts <$> ·)
    refine overThree_congr .text .integer .text (TruncateToTokensModel.cell rs .wasm32)
      (TruncateToTokensModel.cell rs .native) (TruncateToTokensModel.step_eq rs .wasm32)
      (TruncateToTokensModel.step_eq rs .native) fun numbers _ found _ i n _ read _ text => ?_
    cases n with
    | none => simp only [TruncateToTokensModel.cell, Option.bind_eq_bind, Option.bind_none]
    | some n =>
      have same := narrow.cast rfl found read
      simp only [TruncateToTokensModel.cell, Option.bind_eq_bind, Option.bind_some, same]
  | chunkByTokens =>
    apply congrArg (Column.textLists <$> ·)
    refine overTwo_congr .text .integer (ChunkByTokens.cell rs .wasm32)
      (ChunkByTokens.cell rs .native) (ChunkByTokens.step_eq rs .wasm32)
      (ChunkByTokens.step_eq rs .native) fun sizes found i maxTokens read text => ?_
    cases maxTokens with
    | none => simp only [ChunkByTokens.cell, Option.bind_eq_bind, Option.bind_none]
    | some maxTokens =>
      have same := narrow.cast rfl found read
      simp only [ChunkByTokens.cell, Option.bind_eq_bind, Option.bind_some, same]
  | chunkByTokensOverlap =>
    apply congrArg (Column.textLists <$> ·)
    refine overThree_congr .text .integer .integer (ChunkByTokensOverlap.cell rs .wasm32)
      (ChunkByTokensOverlap.cell rs .native) (ChunkByTokensOverlap.step_eq rs .wasm32)
      (ChunkByTokensOverlap.step_eq rs .native)
      fun sizes overlaps foundSize foundOverlap i maxTokens overlap readSize readOverlap text => ?_
    cases maxTokens with
    | none => simp only [ChunkByTokensOverlap.cell, Option.bind_eq_bind, Option.bind_none]
    | some maxTokens =>
      have sameSize := narrow.cast rfl foundSize readSize
      cases overlap with
      | none => simp only [ChunkByTokensOverlap.cell, Option.bind_eq_bind, Option.bind_none]
      | some overlap =>
        have sameOverlap := narrow.cast rfl foundOverlap readOverlap
        simp only [ChunkByTokensOverlap.cell, Option.bind_eq_bind, Option.bind_some, sameSize,
          sameOverlap]

/-- A batch of a text and how many of its tokens to keep. -/
def keepOne : RecordBatch :=
  ⟨1, [⟨.utf8, [some "tiktoken is great!"], by decide⟩, ⟨.int32, [some 1], by decide⟩], by decide⟩

end TiktokenWorker

import TiktokenWorker.Binding
import TiktokenWorker.Counts
import TiktokenWorker.Resolution

/-!
# Functions together

The functions of the worker are used together: an optional argument is an overload of its own, a
model column is filtered or rewritten with `encoding_for_model`, the tokens of a text are counted
next to the list of them. What the columns of two functions have to do with each other is said here
of whole batches, with the errors and panics of both.
-/

namespace TiktokenWorker

open Arrow

/-! ## Batches with a column more -/

/-- A batch is another one and a last column. -/
structure Arrow.RecordBatch.Extends (whole part : RecordBatch) (last : ArrayRef) : Prop where
  /-- It has the same rows. -/
  numRows : whole.numRows = part.numRows
  /-- It has a column more. -/
  columns : whole.columns = part.columns ++ [last]

section Extends

variable {whole part : RecordBatch} {last : ArrayRef} (adds : whole.Extends part last)

include adds

/-- The columns before the last one are those of the other batch. -/
theorem Arrow.RecordBatch.Extends.getElem?_lt {position : Nat}
    (inside : position < part.columns.length) :
    whole.columns[position]? = part.columns[position]? := by
  rw [adds.columns, List.getElem?_append_left inside]

/-- After those comes the last one. -/
theorem Arrow.RecordBatch.Extends.getElem?_length :
    whole.columns[part.columns.length]? = some last := by
  rw [adds.columns, List.getElem?_concat_length]

/-- Cells before the last column are read in the other batch. -/
theorem Arrow.RecordBatch.Extends.readAt_lt {α : Type} (read : Reader α) {position : Nat}
    (inside : position < part.columns.length) (i : Nat) :
    readAt read whole position i = readAt read part position i := by
  rw [readAt, readAt, adds.getElem?_lt inside]

end Extends

section Loops

variable {B β γ : Type} {sink : Sink RpcError B γ} {finish : B → β}
  (first second third : Kind) {whole part : RecordBatch} {last : ArrayRef}

/-- A function of two columns is one of the first alone when the second never changes a cell. -/
theorem overTwo_extends {step : ArrayRef → B → Nat → Result B}
    {both : ArrayRef → ArrayRef → B → Nat → Result B} (cell : Option first.Value → Option γ)
    (bothCell : Option first.Value → Option second.Value → Option γ)
    (steps : ∀ only, step only = sink.step fun i => do
      let x ← readCell first.reader only i
      .ok (cell x))
    (boths : ∀ left right, both left right = sink.step fun i => do
      let x ← readCell first.reader left i
      let y ← readCell second.reader right i
      .ok (bothCell x y))
    (adds : whole.Extends part last) (single : part.columns.length = 1)
    (neutral : ∀ i < part.numRows, ∃ y, readCell second.reader last i = .ok y ∧
      ∀ x, bothCell x y = cell x) :
    overTwo sink finish both whole = overOne sink finish step part := by
  have left : (whole.column 0 : Result ArrayRef) = part.column 0 := by
    rw [RecordBatch.column, RecordBatch.column, adds.getElem?_lt (by omega)]
  have right : (whole.column 1 : Result ArrayRef) = .ok last := by
    have placed := adds.getElem?_length
    rw [single] at placed
    rw [RecordBatch.column, placed]
  unfold overTwo overOne
  rw [left, right, adds.numRows]
  cases part.column 0 with
  | error abort => rfl
  | ok only =>
    refine loop_congr (boths only last) (steps only) fun i inside => ?_
    obtain ⟨y, read, same⟩ := neutral i inside
    rw [read]
    cases readCell first.reader only i with
    | error abort => rfl
    | ok x => exact congrArg Except.ok (same x)

/-- A function of three columns is one of the first two when the third never changes a cell. -/
theorem overThree_extends {step : ArrayRef → ArrayRef → B → Nat → Result B}
    {all : ArrayRef → ArrayRef → ArrayRef → B → Nat → Result B}
    (cell : Option first.Value → Option second.Value → Option γ)
    (allCell : Option first.Value → Option second.Value → Option third.Value → Option γ)
    (steps : ∀ left right, step left right = sink.step fun i => do
      let x ← readCell first.reader left i
      let y ← readCell second.reader right i
      .ok (cell x y))
    (alls : ∀ left middle right, all left middle right = sink.step fun i => do
      let x ← readCell first.reader left i
      let y ← readCell second.reader middle i
      let z ← readCell third.reader right i
      .ok (allCell x y z))
    (adds : whole.Extends part last) (two : part.columns.length = 2)
    (neutral : ∀ i < part.numRows, ∃ z, readCell third.reader last i = .ok z ∧
      ∀ x y, allCell x y z = cell x y) :
    overThree sink finish all whole = overTwo sink finish step part := by
  have left : (whole.column 0 : Result ArrayRef) = part.column 0 := by
    rw [RecordBatch.column, RecordBatch.column, adds.getElem?_lt (by omega)]
  have middle : (whole.column 1 : Result ArrayRef) = part.column 1 := by
    rw [RecordBatch.column, RecordBatch.column, adds.getElem?_lt (by omega)]
  have right : (whole.column 2 : Result ArrayRef) = .ok last := by
    have placed := adds.getElem?_length
    rw [two] at placed
    rw [RecordBatch.column, placed]
  unfold overThree overTwo
  rw [left, middle, right, adds.numRows]
  cases part.column 0 with
  | error abort => rfl
  | ok first_column =>
    cases part.column 1 with
    | error abort => rfl
    | ok second_column =>
      refine loop_congr (alls first_column second_column last) (steps first_column second_column)
        fun i inside => ?_
      obtain ⟨z, read, same⟩ := neutral i inside
      rw [read]
      cases readCell first.reader first_column i with
      | error abort => rfl
      | ok x =>
        cases readCell second.reader second_column i with
        | error abort => rfl
        | ok y => exact congrArg Except.ok (same x y)

end Loops

/-! ## Overloads -/

variable (rs : TiktokenRs)

/-- The last argument with which an overload does what the function without it does: a name of the
default encoding, or no overlap. -/
def Kind.Neutral : (kind : Kind) → kind.Value → Prop
  | .text, model => resolve rs model = some .defaultEncoding
  | .integer, overlap => Int64.toInt overlap ≤ 0

/-- An overload with one argument more. -/
structure ScalarFunction.Overloads (function plain : ScalarFunction) (kind : Kind) : Prop where
  /-- They have one name. -/
  name : function.name = plain.name
  /-- The argument is the last one. -/
  kinds : function.kinds = plain.kinds ++ [kind]

/-- The overloads of the worker that add one argument. -/
theorem ScalarFunction.Overloads.cases {function plain : ScalarFunction} {kind : Kind}
    (overloads : function.Overloads plain kind) :
    (function, plain, kind) ∈ [(countTokensModel, countTokens, .text),
      (tokenizeModel, tokenize, .text), (truncateToTokensModel, truncateToTokens, .text),
      (chunkByTokensOverlap, chunkByTokens, .integer)] := by
  obtain ⟨name, kinds⟩ := overloads
  revert name kinds
  cases function <;> cases plain <;> cases kind <;> decide

/-- No overlap is an overlap of zero. -/
theorem asUsize_neutral (target : Target) {overlap : Int64}
    (neutral : Kind.Neutral rs .integer overlap) : asUsize target (max overlap 0) = 0 := by
  have below : overlap.toInt ≤ 0 := neutral
  rw [asUsize, toInt_max_zero, max_eq_right below, Int.zero_emod, Int.toNat_zero]

/-- An overload agrees with the function without its last argument, in columns, errors and panics,
on every batch whose last column names the default encoding in each row, or asks for no overlap. -/
theorem overloads_agree (target : Target) {function plain : ScalarFunction} {kind : Kind}
    (overloads : function.Overloads plain kind) {whole part : RecordBatch} {last : ArrayRef}
    (adds : whole.Extends part last) (full : part.columns.length = plain.kinds.length)
    (neutral : ∀ i < part.numRows, ∃ value,
      readCell kind.reader last i = .ok (some value) ∧ kind.Neutral rs value) :
    function.process rs target whole = plain.process rs target part := by
  have listed := overloads.cases
  simp only [List.mem_cons, Prod.mk.injEq, List.not_mem_nil, or_false] at listed
  rcases listed with ⟨rfl, rfl, rfl⟩ | ⟨rfl, rfl, rfl⟩ | ⟨rfl, rfl, rfl⟩ | ⟨rfl, rfl, rfl⟩
  · apply congrArg (Column.ints <$> ·)
    refine overTwo_extends .text .text (CountTokens.cell rs) (CountTokensModel.cell rs)
      (CountTokens.step_eq rs) (CountTokensModel.step_eq rs) adds full fun i inside => ?_
    obtain ⟨model, read, default⟩ := neutral i inside
    refine ⟨some model, read, fun text => ?_⟩
    have resolved : resolve rs model = some .defaultEncoding := default
    simp only [CountTokensModel.cell, CountTokens.cell, Option.bind_eq_bind, Option.bind_some,
      resolved]
  · apply congrArg (Column.intLists <$> ·)
    refine overTwo_extends .text .text (Tokenize.cell rs) (TokenizeModel.cell rs)
      (Tokenize.step_eq rs) (TokenizeModel.step_eq rs) adds full fun i inside => ?_
    obtain ⟨model, read, default⟩ := neutral i inside
    refine ⟨some model, read, fun text => ?_⟩
    have resolved : resolve rs model = some .defaultEncoding := default
    simp only [TokenizeModel.cell, Tokenize.cell, Option.bind_eq_bind, Option.bind_some, resolved]
  · apply congrArg (Column.texts <$> ·)
    refine overThree_extends .text .integer .text (TruncateToTokens.cell rs target)
      (TruncateToTokensModel.cell rs target) (TruncateToTokens.step_eq rs target)
      (TruncateToTokensModel.step_eq rs target) adds full fun i inside => ?_
    obtain ⟨model, read, default⟩ := neutral i inside
    refine ⟨some model, read, fun text n => ?_⟩
    have resolved : resolve rs model = some .defaultEncoding := default
    simp only [TruncateToTokensModel.cell, TruncateToTokens.cell, Option.bind_eq_bind,
      Option.bind_some, resolved]
  · apply congrArg (Column.textLists <$> ·)
    refine overThree_extends .text .integer .integer (ChunkByTokens.cell rs target)
      (ChunkByTokensOverlap.cell rs target) (ChunkByTokens.step_eq rs target)
      (ChunkByTokensOverlap.step_eq rs target) adds full fun i inside => ?_
    obtain ⟨overlap, read, none⟩ := neutral i inside
    refine ⟨some overlap, read, fun text maxTokens => ?_⟩
    have zero := asUsize_neutral rs target none
    simp only [ChunkByTokensOverlap.cell, ChunkByTokens.cell, Option.bind_eq_bind,
      Option.bind_some, zero]

/-- Two texts. -/
def someTexts : ArrayRef :=
  ⟨.utf8, [some "hello world", some "tiktoken is great!"], by decide⟩

/-- Two names of the default encoding. -/
def defaultNames : ArrayRef := ⟨.utf8, [some "gpt-4", some " CL100K "], by decide⟩

/-- Naming the default encoding in every row changes nothing. -/
theorem overloads_agree_default_names :
    ScalarFunction.tokenizeModel.process Greedy.crate .native
        ⟨2, [someTexts, defaultNames], by decide⟩ =
      ScalarFunction.tokenize.process Greedy.crate .native ⟨2, [someTexts], by decide⟩ := by
  have overloads : ScalarFunction.Overloads .tokenizeModel .tokenize .text := ⟨rfl, rfl⟩
  have model : resolve Greedy.crate "gpt-4" = some .defaultEncoding := by decide
  have encoding : resolve Greedy.crate " CL100K " = some .defaultEncoding := by decide
  have names : RecordBatch.Extends ⟨2, [someTexts, defaultNames], by decide⟩
      ⟨2, [someTexts], by decide⟩ defaultNames := ⟨rfl, rfl⟩
  refine overloads_agree Greedy.crate .native overloads names rfl fun i inside => ?_
  match i with
  | 0 => exact ⟨"gpt-4", rfl, model⟩
  | 1 => exact ⟨" CL100K ", rfl, encoding⟩
  | i + 2 => exact absurd inside (Nat.not_lt.mpr (Nat.le_add_left 2 i))

/-! ## Result columns as arguments -/

/-- A column of the cells of a result column, as another call is given it. -/
inductive Feeds : Column → ArrayRef → Prop where
  | ints (cells : List (Option Int32)) {within} : Feeds (.ints cells) ⟨.int32, cells, within⟩
  | texts (cells : List (Option String)) {within} : Feeds (.texts cells) ⟨.utf8, cells, within⟩

/-- Every result column that is no list can be given to another call. -/
theorem exists_feeds {target : Target} {function : ScalarFunction} {batch : RecordBatch}
    {column : Column} {dataType : DataType} (flat : function.onBind = .flat dataType)
    (returned : function.process rs target batch = .ok column) : ∃ col, Feeds column col := by
  have type := dataType_of_process rs target function returned
  rw [flat] at type
  have columns : HasColumns function.kinds batch := by
    by_contra missing
    rw [(function.builds rs target).missing batch missing] at returned
    cases returned
  have outcome := (function.builds rs target).outcome batch columns
  have fits := (outcome.returns.mp ⟨column, returned⟩).2
  rw [← outcome.result column returned] at fits
  cases column with
  | ints cells =>
    have none : (cells.map fun cell => cell.elim 0 DataType.int32.bytes).sum ≤ 0 := by
      rw [nonpos_iff_eq_zero, List.sum_eq_zero_iff]
      intro size member
      obtain ⟨cell, _, rfl⟩ := List.mem_map.mp member
      cases cell <;> rfl
    exact ⟨⟨.int32, cells, none⟩, .ints cells⟩
  | texts cells =>
    have bytes : bytesOfCells (cells.map (Option.map Datum.text)) =
        (cells.map fun cell => cell.elim 0 DataType.utf8.bytes).sum :=
      sum_map_datum Datum.bytes String.utf8ByteSize (fun _ => rfl) cells
    exact ⟨⟨.utf8, cells, bytes ▸ fits.1⟩, .texts cells⟩
  | intLists array => cases type
  | textLists array => cases type

/-- Texts that are given on are read as they are. -/
theorem Feeds.textAt {cells : List (Option String)} {col : ArrayRef}
    (feeds : Feeds (.texts cells) col) {batch : RecordBatch} {position : Nat}
    (found : batch.columns[position]? = some col) (i : Nat) :
    TiktokenWorker.textAt batch position i = cells[i]?.join := by
  cases feeds
  simp only [TiktokenWorker.textAt, readAt, found, Option.bind_some, cellAt, readCell]
  rcases cells[i]? with _ | _ | text <;> rfl

/-- And none of them has an error. -/
theorem Feeds.cellError {cells : List (Option String)} {col : ArrayRef}
    (feeds : Feeds (.texts cells) col) (i : Nat) :
    TiktokenWorker.cellError .text col i = none := by
  cases feeds
  rfl

/-- The error of a row with a column more. -/
theorem rowError_extends {whole part : RecordBatch} {last : ArrayRef} {kinds : List Kind}
    (kind : Kind) (adds : whole.Extends part last) (full : part.columns.length = kinds.length)
    (i : Nat) : rowError (kinds ++ [kind]) whole i =
      (rowError kinds part i).or (cellError kind last i) := by
  have single : ([kind].zip [last]).findSome? (fun column => cellError column.1 column.2 i) =
      cellError kind last i := by
    rw [List.zip_cons_cons, findSome_cons, List.zip_nil_left, List.findSome?_nil, Option.or_none]
  rw [rowError, adds.columns, List.zip_append full.symm, List.findSome?_append, single]
  rfl

/-- Cells that fit still do when some of them are NULL instead. -/
theorem CellsFit.masked {rows : Nat} {cell masked : Nat → Option Datum}
    (null : ∀ i < rows, masked i = none ∨ masked i = cell i)
    (fits : CellsFit ((List.range rows).map cell)) : CellsFit ((List.range rows).map masked) := by
  have smaller (size : Datum → Nat) : ((List.range rows).map fun i => (masked i).elim 0 size).sum ≤
      ((List.range rows).map fun i => (cell i).elim 0 size).sum := by
    apply List.sum_le_sum
    intro i listed
    rcases null i (List.mem_range.mp listed) with gone | kept
    · rw [gone]
      exact Nat.zero_le _
    · rw [kept]
  unfold CellsFit bytesOfCells itemsOfCells at *
  rw [List.map_map, List.map_map] at *
  exact ⟨(smaller Datum.bytes).trans fits.1, (smaller Datum.items).trans fits.2⟩

/-! ## Models and the names of their encodings -/

/-- The name of the encoding of a model resolves as the model does. -/
theorem resolve_encodingForModel (table : rs.ListsModels)
    (gpt2 : ∀ name tokenizer, toAsciiLowercase name = "gpt2" →
      rs.getTokenizer name = some tokenizer → Encoding.ofTokenizer tokenizer = .r50kBase)
    {model : String} {encoding : Encoding} (found : encodingForModel rs model = some encoding) :
    resolve rs encoding.name = some encoding ∧ resolve rs model = some encoding := by
  constructor
  · rw [resolve, Encoding.fromEncodingName_name, Option.some_or]
  · rw [← found]
    apply (resolve_eq_iff rs table model).mpr
    refine ⟨fun named => ?_, fun same => ?_⟩
    · rw [encodingForModel_encodingName rs table named] at found
      cases found
    · have lower : toAsciiLowercase (trim model) = "gpt2" := same
      simp only [encodingForModel, lower] at found ⊢
      split at found
      · cases found
      · rename_i some_name
        rw [if_neg some_name]
        obtain ⟨tokenizer, entry, _⟩ := Option.map_eq_some_iff.mp found
        rw [entry, Option.map_some, gpt2 _ tokenizer lower entry]
        rfl

/-- Names of encodings resolve as the models they were looked up for. -/
theorem resolve_names (table : rs.ListsModels)
    (gpt2 : ∀ name tokenizer, toAsciiLowercase name = "gpt2" →
      rs.getTokenizer name = some tokenizer → Encoding.ofTokenizer tokenizer = .r50kBase)
    (model : Option String) : (model.bind (encodingNameForModel rs)).bind (resolve rs) =
      if model.bind (encodingNameForModel rs) = none then none else model.bind (resolve rs) := by
  cases known : model.bind (encodingNameForModel rs) with
  | none => rfl
  | some name =>
    obtain ⟨m, rfl, named⟩ := Option.bind_eq_some_iff.mp known
    obtain ⟨encoding, found, rfl⟩ := Option.map_eq_some_iff.mp named
    obtain ⟨byName, byModel⟩ := resolve_encodingForModel rs table gpt2 found
    rw [if_neg (Option.some_ne_none _), Option.bind_some, Option.bind_some, byName, byModel]

/-- What a function with a model argument makes of a row is made of the other columns and of the
encoding that its model resolves to. -/
theorem exists_cell_by_encoding (target : Target) {function plain : ScalarFunction}
    (overloads : function.Overloads plain .text) :
    ∃ cell : RecordBatch → Nat → Encoding → Option Datum,
      ∀ {whole part : RecordBatch} {models : ArrayRef}, whole.Extends part models →
        part.columns.length = plain.kinds.length → ∀ i, function.cell rs target whole i =
          ((textAt whole part.columns.length i).bind (resolve rs)).bind (cell part i) := by
  have listed := overloads.cases
  simp only [List.mem_cons, Prod.mk.injEq, List.not_mem_nil, or_false, reduceCtorEq, and_false]
    at listed
  rcases listed with ⟨rfl, rfl, _⟩ | ⟨rfl, rfl, _⟩ | ⟨rfl, rfl, _⟩
  · refine ⟨fun part i encoding => (textAt part 0 i).map fun text =>
      .int (asI32 (count rs text encoding)), fun {whole part models} adds full i => ?_⟩
    have one : part.columns.length = 1 := full
    have text : textAt whole 0 i = textAt part 0 i := adds.readAt_lt readText (by omega) i
    simp only [ScalarFunction.cell, CountTokensModel.cell, one, ← text]
    cases textAt whole 0 i <;> cases textAt whole 1 i <;> simp [Option.map_bind]
  · refine ⟨fun part i encoding => (textAt part 0 i).map fun text =>
      .ints (listInts (tokenize rs text encoding)), fun {whole part models} adds full i => ?_⟩
    have one : part.columns.length = 1 := full
    have text : textAt whole 0 i = textAt part 0 i := adds.readAt_lt readText (by omega) i
    simp only [ScalarFunction.cell, TokenizeModel.cell, one, ← text]
    cases textAt whole 0 i <;> cases textAt whole 1 i <;> simp [Option.map_bind]
  · refine ⟨fun part i encoding => (textAt part 0 i).bind fun text => (intAt part 1 i).map fun n =>
      .text (truncate rs text (asUsize target (max n 0)) encoding),
      fun {whole part models} adds full i => ?_⟩
    have two : part.columns.length = 2 := full
    have text : textAt whole 0 i = textAt part 0 i := adds.readAt_lt readText (by omega) i
    have number : intAt whole 1 i = intAt part 1 i := adds.readAt_lt readInt (by omega) i
    simp only [ScalarFunction.cell, TruncateToTokensModel.cell, two, ← text, ← number]
    cases textAt whole 0 i <;> cases intAt whole 1 i <;> cases textAt whole 2 i <;>
      simp [Option.map_bind]

/-- What `encoding_for_model` returns for a column of models, as a column of names. -/
theorem names_of_lookup (target : Target) {alone : RecordBatch} {models : ArrayRef}
    (column : alone.columns = [models]) {looked : Column}
    (lookup : ScalarFunction.encodingForModel.process rs target alone = .ok looked) :
    ∃ cells, looked = .texts cells ∧ ∀ i < alone.numRows,
      cells[i]? = some ((cellAt readText models i).bind (encodingNameForModel rs)) := by
  have single : HasColumns ScalarFunction.encodingForModel.kinds alone := by
    rw [HasColumns, column]
    exact le_rfl
  have type := dataType_of_process rs target .encodingForModel lookup
  have rows := ((ScalarFunction.builds rs target .encodingForModel).outcome alone single).result
    looked lookup
  cases looked with
  | ints cells => cases type
  | intLists array => cases type
  | textLists array => cases type
  | texts cells =>
    refine ⟨cells, rfl, fun i inside => ?_⟩
    have placed := congrArg (fun rows => rows[i]?) rows
    have read : textAt alone 0 i = cellAt readText models i := by
      simp only [textAt, readAt, column, List.getElem?_cons_zero, Option.bind_some]
    simp only [Column.rows, List.getElem?_map, List.getElem?_range inside, Option.map_some,
      ScalarFunction.cell, read] at placed
    obtain ⟨cell, found, same⟩ := Option.map_eq_some_iff.mp placed
    rw [found]
    exact congrArg some (Option.map_injective (fun _ _ => Datum.text.inj) same)

/-- Rewriting the model column with `encoding_for_model` first: its result can be given on, and
where a function with a model argument returns a column for the models it returns one for the names
of their encodings, NULL in the rows that have no such name and otherwise the same. -/
theorem model_names_agree (target : Target) {function plain : ScalarFunction}
    (overloads : function.Overloads plain .text) (table : rs.ListsModels)
    (gpt2 : ∀ name tokenizer, toAsciiLowercase name = "gpt2" →
      rs.getTokenizer name = some tokenizer → Encoding.ofTokenizer tokenizer = .r50kBase)
    {whole part alone : RecordBatch} {models : ArrayRef} (adds : whole.Extends part models)
    (full : part.columns.length = plain.kinds.length) (rows : alone.numRows = part.numRows)
    (column : alone.columns = [models]) {looked direct : Column}
    (lookup : ScalarFunction.encodingForModel.process rs target alone = .ok looked)
    (returned : function.process rs target whole = .ok direct) :
    (∃ names, Feeds looked names) ∧
    ∀ names (other : RecordBatch), Feeds looked names → other.Extends part names →
      ∃ indirect, function.process rs target other = .ok indirect ∧
        ∀ i < part.numRows, indirect.rows[i]? =
          if looked.rows[i]? = some none then some none else direct.rows[i]? := by
  refine ⟨exists_feeds rs rfl lookup, fun names other feeds renames => ?_⟩
  obtain ⟨cells, rfl, named⟩ := names_of_lookup rs target column lookup
  have enough {batch : RecordBatch} {last : ArrayRef} (longer : batch.Extends part last) :
      HasColumns function.kinds batch := by
    rw [HasColumns, overloads.kinds, longer.columns, List.length_append, List.length_append, full]
    exact le_rfl
  have outcome := (function.builds rs target).outcome whole (enough adds)
  have renamed := (function.builds rs target).outcome other (enough renames)
  obtain ⟨clean, fits⟩ := outcome.returns.mp ⟨direct, returned⟩
  have model (i : Nat) : textAt whole part.columns.length i = cellAt readText models i := by
    simp only [textAt, readAt, adds.getElem?_length, Option.bind_some]
  have name (i : Nat) (inside : i < part.numRows) : textAt other part.columns.length i =
      (cellAt readText models i).bind (encodingNameForModel rs) := by
    rw [feeds.textAt renames.getElem?_length, named i (rows ▸ inside), Option.join_some]
  obtain ⟨cell, by_encoding⟩ := exists_cell_by_encoding rs target overloads
  -- a row keeps its cell when its model has an encoding and loses it otherwise
  have masked (i : Nat) (inside : i < part.numRows) : function.cell rs target other i =
      if cells[i]? = some none then none else function.cell rs target whole i := by
    rw [by_encoding renames full, by_encoding adds full, name i inside, model,
      resolve_names rs table gpt2, named i (rows ▸ inside)]
    simp only [Option.some.injEq]
    split <;> rfl
  have returns : ∃ indirect, function.process rs target other = .ok indirect := by
    refine renamed.returns.mpr ⟨fun i inside => ?_, ?_⟩
    · have none := clean i (by rw [adds.numRows, ← renames.numRows]; exact inside)
      rw [overloads.kinds, rowError_extends .text adds full, Option.or_eq_none_iff] at none
      rw [overloads.kinds, rowError_extends .text renames full, none.1, feeds.cellError]
      rfl
    · rw [adds.numRows] at fits
      rw [renames.numRows]
      refine fits.masked fun i inside => ?_
      rw [masked i inside]
      split
      · exact Or.inl rfl
      · exact Or.inr rfl
  obtain ⟨indirect, built⟩ := returns
  refine ⟨indirect, built, fun i inside => ?_⟩
  have null : (Column.texts cells).rows[i]? = some none ↔ cells[i]? = some none := by
    simp [Column.rows]
  rw [renamed.result indirect built, outcome.result direct returned, renames.numRows, adds.numRows,
    List.getElem?_map, List.getElem?_map, List.getElem?_range inside, Option.map_some,
    Option.map_some, masked i inside]
  simp only [null]
  split <;> rfl

/-- Models of two texts, one of them unknown. -/
def someModels : ArrayRef := ⟨.utf8, [some "gpt-4", some "no-such-model"], by decide⟩

/-- Names of the encodings of the models. -/
def someNames : ArrayRef := ⟨.utf8, [some "cl100k_base", none], by decide⟩

/-- Counts by the names of the encodings of two models. -/
theorem model_names_agree_some_models : ∃ indirect,
    ScalarFunction.countTokensModel.process Greedy.crate .native
        ⟨2, [someTexts, someNames], by decide⟩ = .ok indirect ∧
      indirect.rows[0]? = some (some (.int 2)) ∧ indirect.rows[1]? = some none := by
  have overloads : ScalarFunction.Overloads .countTokensModel .countTokens .text := ⟨rfl, rfl⟩
  have gpt2 (name : String) (tokenizer : Tokenizer) (lower : toAsciiLowercase name = "gpt2")
      (entry : Greedy.crate.getTokenizer name = some tokenizer) :
      Encoding.ofTokenizer tokenizer = .r50kBase := by
    simp only [Greedy.crate] at entry
    split at entry
    · exact absurd lower (by decide)
    · obtain rfl := Option.some.inj entry
      rfl
    · cases entry
  have looked : ScalarFunction.encodingForModel.process Greedy.crate .native
      ⟨2, [someModels], by decide⟩ = .ok (.texts [some "cl100k_base", none]) := rfl
  have adds : RecordBatch.Extends ⟨2, [someTexts, someModels], by decide⟩
      ⟨2, [someTexts], by decide⟩ someModels := ⟨rfl, rfl⟩
  have counted : ScalarFunction.countTokensModel.process Greedy.crate .native
      ⟨2, [someTexts, someModels], by decide⟩ = .ok (.ints [some 2, none]) := rfl
  have column : RecordBatch.columns ⟨2, [someModels], by decide⟩ = [someModels] := rfl
  have agree := model_names_agree Greedy.crate .native overloads crate_listsModels gpt2 adds rfl
    (by exact rfl) column looked counted
  obtain ⟨indirect, built, rows⟩ := agree.2 someNames ⟨2, [someTexts, someNames], by decide⟩
    (.texts _) ⟨rfl, rfl⟩
  exact ⟨indirect, built, rows 0 Nat.two_pos, rows 1 Nat.one_lt_two⟩

/-! ## Tokens next to their number -/

/-- The text of a row and the encoding it is tokenized with. -/
def request (batch : RecordBatch) (i : Nat) : Option (String × Encoding) := do
  let text ← textAt batch 0 i
  some (text, .defaultEncoding)

/-- The text of a row and the encoding of its model. -/
def requestModel (batch : RecordBatch) (i : Nat) : Option (String × Encoding) := do
  let text ← textAt batch 0 i
  let model ← textAt batch 1 i
  let encoding ← resolve rs model
  some (text, encoding)

/-- Cells of a row that is asked to be tokenized: the tokens of its text, which decode to it, and
how many they are. -/
inductive Tokenized : Option (String × Encoding) → Option Datum → Option Datum → Prop where
  | null : Tokenized none none none
  | tokens (text : String) (encoding : Encoding) (ids : List Int32) (n : Int32)
      (decodes : decode rs (ids.map Int32.toUInt32) encoding = text)
      (counts : n.toInt = ids.length) :
      Tokenized (some (text, encoding)) (some (.ints ids)) (some (.int n))

/-- The ids of a list column are those that were put there. -/
theorem toUInt32_listInts (ids : List UInt32) : (listInts ids).map Int32.toUInt32 = ids := by
  rw [listInts, List.map_map]
  exact List.map_id ids

/-- Cells that are numbers fit. -/
theorem cellsFit_ints {rows : Nat} {cell : Nat → Option Datum}
    (numbers : ∀ i < rows, ∀ datum, cell i = some datum → ∃ n, datum = .int n) :
    CellsFit ((List.range rows).map cell) := by
  have none (size : Datum → Nat) (zero : ∀ n, size (.int n) = 0) :
      (((List.range rows).map cell).map fun cell => cell.elim 0 size).sum = 0 := by
    rw [List.sum_eq_zero_iff]
    intro bytes member
    obtain ⟨datum, listed, rfl⟩ := List.mem_map.mp member
    obtain ⟨i, inside, rfl⟩ := List.mem_map.mp listed
    cases found : cell i with
    | none => rfl
    | some datum =>
      obtain ⟨n, rfl⟩ := numbers i (List.mem_range.mp inside) datum found
      exact zero n
  rw [CellsFit, bytesOfCells, itemsOfCells, none Datum.bytes fun _ => rfl,
    none Datum.items fun _ => rfl]
  exact ⟨Nat.zero_le _, Nat.zero_le _⟩

/-- No cell of a column that fits has more values than its offsets reach. -/
theorem items_le_of_fits {cells : List (Option Datum)} (fits : CellsFit cells) {datum : Datum}
    (listed : some datum ∈ cells) : datum.items ≤ offsetMax := by
  refine le_trans ?_ fits.2
  exact List.single_le_sum (fun _ _ => Nat.zero_le _) _ (List.mem_map.mpr ⟨_, listed, rfl⟩)

/-- Where one function returns the tokens of the rows, another one that takes the same columns
returns how many they are. -/
theorem tokens_counted (target : Target) (tokenizer counter : ScalarFunction) {batch : RecordBatch}
    (levels : ∀ encoding : Encoding, (encoding.bpe rs).ByteLevel)
    (kinds : counter.kinds = tokenizer.kinds) (asked : Nat → Option (String × Encoding))
    (lists : ∀ i, tokenizer.cell rs target batch i =
      (asked i).map fun row => .ints (listInts (tokenize rs row.1 row.2)))
    (numbers : ∀ i, counter.cell rs target batch i =
      (asked i).map fun row => .int (asI32 (count rs row.1 row.2)))
    {tokens : Column} (returned : tokenizer.process rs target batch = .ok tokens) :
    ∃ counts, counter.process rs target batch = .ok counts ∧ ∀ i < batch.numRows,
      ∃ ids n, tokens.rows[i]? = some ids ∧ counts.rows[i]? = some n ∧
        Tokenized rs (asked i) ids n := by
  have columns : HasColumns tokenizer.kinds batch := by
    by_contra missing
    rw [(tokenizer.builds rs target).missing batch missing] at returned
    cases returned
  have outcome := (tokenizer.builds rs target).outcome batch columns
  have counting := (counter.builds rs target).outcome batch (kinds ▸ columns)
  obtain ⟨clean, fits⟩ := outcome.returns.mp ⟨tokens, returned⟩
  have room : CellsFit ((List.range batch.numRows).map (counter.cell rs target batch)) := by
    refine cellsFit_ints fun i _ datum found => ?_
    rw [numbers] at found
    obtain ⟨row, _, rfl⟩ := Option.map_eq_some_iff.mp found
    exact ⟨_, rfl⟩
  obtain ⟨counts, built⟩ := counting.returns.mpr ⟨kinds ▸ clean, room⟩
  refine ⟨counts, built, fun i inside => ?_⟩
  have placed (cell : Nat → Option Datum) :
      ((List.range batch.numRows).map cell)[i]? = some (cell i) := by
    rw [List.getElem?_map, List.getElem?_range inside, Option.map_some]
  refine ⟨_, _, by rw [outcome.result tokens returned, placed],
    by rw [counting.result counts built, placed], ?_⟩
  rw [lists, numbers]
  cases row : asked i with
  | none => exact .null
  | some pair =>
    obtain ⟨text, encoding⟩ := pair
    have decodes := decode_tokenize rs encoding (levels encoding) text
    have listed : some (Datum.ints (listInts (tokenize rs text encoding))) ∈
        (List.range batch.numRows).map (tokenizer.cell rs target batch) := by
      refine List.mem_map.mpr ⟨i, List.mem_range.mpr inside, ?_⟩
      rw [lists, row, Option.map_some]
    have items : (listInts (tokenize rs text encoding)).length ≤ offsetMax :=
      items_le_of_fits fits listed
    rw [listInts, List.length_map] at items
    have exact_count := (counts_asI32_iff rs encoding (levels encoding) text).mpr
      (Nat.lt_of_le_of_lt items (by decide))
    refine .tokens text encoding _ _ ?_ ?_
    · rw [toUInt32_listInts]
      exact decodes
    · rw [listInts, List.length_map]
      exact exact_count.tokens

/-- `tokenize` and `count_tokens` on one batch: where the first returns a column so does the second,
NULL in the same rows, and in the others the ids decode to the text of the row and the number is how
many they are, without wrapping; with the default encoding or with the one of the row's model. -/
theorem token_columns_agree (target : Target)
    (levels : ∀ encoding : Encoding, (encoding.bpe rs).ByteLevel) (batch : RecordBatch)
    (tokens : Column) :
    (ScalarFunction.tokenize.process rs target batch = .ok tokens →
      ∃ counts, ScalarFunction.countTokens.process rs target batch = .ok counts ∧
        ∀ i < batch.numRows, ∃ ids n, tokens.rows[i]? = some ids ∧ counts.rows[i]? = some n ∧
          Tokenized rs (request batch i) ids n) ∧
    (ScalarFunction.tokenizeModel.process rs target batch = .ok tokens →
      ∃ counts, ScalarFunction.countTokensModel.process rs target batch = .ok counts ∧
        ∀ i < batch.numRows, ∃ ids n, tokens.rows[i]? = some ids ∧ counts.rows[i]? = some n ∧
          Tokenized rs (requestModel rs batch i) ids n) := by
  constructor
  · refine tokens_counted rs target .tokenize .countTokens levels rfl (request batch) (fun i => ?_)
      fun i => ?_
    · simp only [ScalarFunction.cell, Tokenize.cell, request]
      cases textAt batch 0 i <;> rfl
    · simp only [ScalarFunction.cell, CountTokens.cell, request]
      cases textAt batch 0 i <;> rfl
  · refine tokens_counted rs target .tokenizeModel .countTokensModel levels rfl
      (requestModel rs batch) (fun i => ?_) fun i => ?_
    · simp only [ScalarFunction.cell, TokenizeModel.cell, requestModel, Option.bind_eq_bind]
      cases textAt batch 0 i with
      | none => rfl
      | some text =>
        cases textAt batch 1 i with
        | none => rfl
        | some model =>
          simp only [Option.bind_some]
          cases resolve rs model <;> rfl
    · simp only [ScalarFunction.cell, CountTokensModel.cell, requestModel, Option.bind_eq_bind]
      cases textAt batch 0 i with
      | none => rfl
      | some text =>
        cases textAt batch 1 i with
        | none => rfl
        | some model =>
          simp only [Option.bind_some]
          cases resolve rs model <;> rfl

/-- The tokens of two texts, one of them of no known model, and their number. -/
theorem token_columns_agree_some_models : ∃ counts,
    ScalarFunction.countTokensModel.process Greedy.crate .native
        ⟨2, [someTexts, someModels], by decide⟩ = .ok counts ∧
      ∃ n, counts.rows[0]? = some n ∧
        Tokenized Greedy.crate (some ("hello world", .cl100kBase))
          (some (.ints [15339, 1917])) n := by
  have tokenized : ScalarFunction.tokenizeModel.process Greedy.crate .native
      ⟨2, [someTexts, someModels], by decide⟩ =
        .ok (.intLists ⟨[some 15339, some 1917], [0, 2, 2], [true, false]⟩) := rfl
  have agree := token_columns_agree Greedy.crate .native crate_byteLevel
    ⟨2, [someTexts, someModels], by decide⟩
    (.intLists ⟨[some 15339, some 1917], [0, 2, 2], [true, false]⟩)
  obtain ⟨counts, built, rows⟩ := agree.2 tokenized
  obtain ⟨ids, n, listed, counted, same⟩ := rows 0 Nat.two_pos
  obtain rfl := Option.some.inj listed
  exact ⟨counts, built, n, counted, same⟩

end TiktokenWorker

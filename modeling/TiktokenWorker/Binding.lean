import TiktokenWorker.Targets

/-!
# Calls

What a function declares before it runs, and what a call returns. A declared argument is a position
and the name of a type, `on_bind` declares the type of the result, and `process` hands its column to
a schema that a host made of that type. What a host makes of declarations and which columns make a
batch of a schema are parameters here (`Host`, `tryNew`), with what the functions rely on. Every
result type is written down three times, in the metadata, in `on_bind` and in the builder; a batch
is rejected when they differ.
-/

namespace TiktokenWorker

open Arrow

/-! ## Types of results -/

/-- The field of the items of a list. -/
structure ItemField where
  /-- Its name. -/
  name : String
  /-- Its type. -/
  dataType : DataType
  /-- Items may be NULL. -/
  nullable : Bool
  deriving DecidableEq

/-- The type of a result column. -/
inductive ResultType where
  | flat (dataType : DataType)
  | list (item : ItemField)
  deriving DecidableEq

/-- `list_int_type`. -/
def listIntType : ResultType := .list ⟨"item", .int32, true⟩

/-- The field that `list_int_builder` gives its items. -/
def listIntBuilder : ItemField := ⟨"item", .int32, true⟩

/-- `list_varchar_type`. -/
def listVarcharType : ResultType := .list ⟨"item", .utf8, true⟩

/-- The field that `list_varchar_builder` gives its items. -/
def listVarcharBuilder : ItemField := ⟨"item", .utf8, true⟩

/-- The type of a column, by the builder that made it. -/
def Column.dataType : Column → ResultType
  | ints _ => .flat .int32
  | texts _ => .flat .utf8
  | intLists _ => .list listIntBuilder
  | textLists _ => .list listVarcharBuilder

/-! ## Declarations -/

/-- `ArgSpec::column`. -/
structure ArgSpec where
  /-- Name of the argument. -/
  name : String
  /-- Column it is read from. -/
  position : Nat
  /-- Type it is declared with. -/
  type : String
  deriving DecidableEq

namespace ScalarFunction

/-- `argument_specs`. -/
def argumentSpecs : ScalarFunction → List ArgSpec
  | encodingForModel => [⟨"model", 0, "varchar"⟩]
  | countTokens => [⟨"text", 0, "varchar"⟩]
  | countTokensModel => [⟨"text", 0, "varchar"⟩, ⟨"model", 1, "varchar"⟩]
  | tokenize => [⟨"text", 0, "varchar"⟩]
  | tokenizeModel => [⟨"text", 0, "varchar"⟩, ⟨"model", 1, "varchar"⟩]
  | truncateToTokens => [⟨"text", 0, "varchar"⟩, ⟨"n", 1, "int32"⟩]
  | truncateToTokensModel =>
    [⟨"text", 0, "varchar"⟩, ⟨"n", 1, "int32"⟩, ⟨"model", 2, "varchar"⟩]
  | chunkByTokens => [⟨"text", 0, "varchar"⟩, ⟨"max_tokens", 1, "int32"⟩]
  | chunkByTokensOverlap =>
    [⟨"text", 0, "varchar"⟩, ⟨"max_tokens", 1, "int32"⟩, ⟨"overlap", 2, "int32"⟩]

/-- `return_type`, of the metadata. -/
def returnType : ScalarFunction → ResultType
  | encodingForModel => .flat .utf8
  | countTokens => .flat .int32
  | countTokensModel => .flat .int32
  | tokenize => listIntType
  | tokenizeModel => listIntType
  | truncateToTokens => .flat .utf8
  | truncateToTokensModel => .flat .utf8
  | chunkByTokens => listVarcharType
  | chunkByTokensOverlap => listVarcharType

/-- `on_bind`, by the type it makes a response of. -/
def onBind : ScalarFunction → ResultType
  | encodingForModel => .flat .utf8
  | countTokens => .flat .int32
  | countTokensModel => .flat .int32
  | tokenize => listIntType
  | tokenizeModel => listIntType
  | truncateToTokens => .flat .utf8
  | truncateToTokensModel => .flat .utf8
  | chunkByTokens => listVarcharType
  | chunkByTokensOverlap => listVarcharType

end ScalarFunction

/-- The name of a function and the number of its arguments tell it from the other registered
functions. -/
theorem eq_of_name {function other : ScalarFunction} (name : other.name = function.name)
    (arguments : other.argumentSpecs.length = function.argumentSpecs.length) :
    other = function := by
  have apart : ∀ function ∈ registered, ∀ other ∈ registered, other.name = function.name →
      other.argumentSpecs.length = function.argumentSpecs.length → other = function := by
    decide
  have listed (function : ScalarFunction) : function ∈ registered := by
    cases function <;> decide
  exact apart function (listed function) other (listed other) name arguments

/-! ## Result batches -/

/-- A field of a schema. -/
structure Field where
  /-- Its name. -/
  name : String
  /-- Its type. -/
  dataType : ResultType
  /-- Rows may be NULL. -/
  nullable : Bool

/-- A result batch. -/
structure OutputBatch where
  /-- Its schema. -/
  schema : List Field
  /-- Its columns. -/
  columns : List Column

/-- A column fits a field of its type that admits its NULLs. -/
structure FitsField (column : Column) (field : Field) : Prop where
  /-- The types are the same. -/
  dataType : field.dataType = column.dataType
  /-- A NULL is admitted. -/
  nullable : none ∈ column.rows → field.nullable = true

/-- Columns make a batch of a schema. -/
structure FitsSchema (schema : List Field) (columns : List Column) : Prop where
  /-- There are some, so that they have a number of rows. -/
  nonempty : columns ≠ []
  /-- There are as many as fields. -/
  fields : columns.length = schema.length
  /-- They have one number of rows. -/
  rows : ∀ left ∈ columns, ∀ right ∈ columns, left.rows.length = right.rows.length
  /-- Each fits its field. -/
  fits : ∀ pair ∈ columns.zip schema, FitsField pair.1 pair.2

section Batches

variable {ε : Type}

/-- What `RecordBatch::try_new` promises: it makes a batch of a schema and columns exactly if they
make one. -/
structure TryNew (tryNew : List Field → List Column → Except ε OutputBatch) : Prop where
  ok_iff : ∀ schema columns out,
    tryNew schema columns = .ok out ↔ out = ⟨schema, columns⟩ ∧ FitsSchema schema columns

/-- `RpcError`, as a call raises it. -/
inductive CallError (ε : Type) where
  /-- From a reader. -/
  | argument (error : RpcError)
  /-- `RpcError::runtime_error`, of the error that the result batch was refused with. -/
  | runtime (error : ε)

variable (tryNew : List Field → List Column → Except ε OutputBatch)

/-- `process`, up to the result batch. -/
def ScalarFunction.call (rs : TiktokenRs) (target : Target) (function : ScalarFunction)
    (schema : List Field) (batch : RecordBatch) : Run (CallError ε) OutputBatch :=
  match function.process rs target batch with
  | .error (.error error) => .error (.error (.argument error))
  | .error (.panic message) => .error (.panic message)
  | .ok column =>
    match tryNew schema [column] with
    | .error error => .error (.error (.runtime error))
    | .ok out => .ok out

end Batches

/-! ## What a schema accepts -/

/-- One column makes a batch of a schema of one field that it fits. -/
theorem fitsSchema_single_iff (schema : List Field) (column : Column) :
    FitsSchema schema [column] ↔ ∃ field, schema = [field] ∧ FitsField column field := by
  constructor
  · intro fits
    obtain ⟨field, single⟩ := List.length_eq_one_iff.mp fits.fields.symm
    subst single
    exact ⟨field, rfl, fits.fits (column, field) List.mem_cons_self⟩
  · rintro ⟨field, rfl, fits⟩
    refine ⟨List.cons_ne_nil column [], rfl, fun left first right second => ?_,
      fun pair member => ?_⟩
    · rw [List.mem_singleton.mp first, List.mem_singleton.mp second]
    · rw [List.mem_singleton.mp member]
      exact fits

/-- A column makes a batch exactly of a schema of one field that it fits. -/
theorem TryNew.single_iff {ε : Type} {tryNew : List Field → List Column → Except ε OutputBatch}
    (contract : TryNew tryNew) (schema : List Field) (column : Column) (out : OutputBatch) :
    tryNew schema [column] = .ok out ↔
      out = ⟨schema, [column]⟩ ∧ ∃ field, schema = [field] ∧ FitsField column field := by
  rw [contract.ok_iff, fitsSchema_single_iff]

/-! ## Columns as they are declared -/

/-- What a host makes of declarations. -/
structure Host where
  /-- The type of a column for the name of the type that an argument is declared with. -/
  columnType : String → Option DataType
  /-- The schema for the type that `on_bind` makes a response of. -/
  outputSchema : ResultType → List Field

/-- What the functions rely on of a host. -/
structure Host.Binds (host : Host) : Prop where
  /-- Arguments of the one type are string columns. -/
  varchar : host.columnType "varchar" = some .utf8
  /-- Those of the other are columns of 32-bit integers. -/
  int32 : host.columnType "int32" = some .int32
  /-- The result is one field that admits NULLs. -/
  result : ∀ type, ∃ name, host.outputSchema type = [⟨name, type, true⟩]

/-- The columns of a batch are there and have the types the arguments are declared with. -/
def Declared (host : Host) (function : ScalarFunction) (batch : RecordBatch) : Prop :=
  ∀ spec ∈ function.argumentSpecs, ∃ col, batch.columns[spec.position]? = some col ∧
    host.columnType spec.type = some col.dataType

/-- The type of a column that is declared for the kind. -/
def Kind.declared : Kind → DataType
  | text => .utf8
  | integer => .int32

section Declarations

variable {host : Host} (binds : host.Binds) {function : ScalarFunction} {batch : RecordBatch}

include binds

/-- Arguments are declared in order, with the types of what the function reads them as. -/
theorem kinds_declared {position : Nat} {kind : Kind}
    (listed : function.kinds[position]? = some kind) :
    ∃ spec ∈ function.argumentSpecs, spec.position = position ∧
      host.columnType spec.type = some kind.declared := by
  have types : function.argumentSpecs.map (fun spec => host.columnType spec.type) =
      function.kinds.map fun kind => some kind.declared := by
    cases function <;>
      simp only [ScalarFunction.argumentSpecs, ScalarFunction.kinds, List.map_cons, List.map_nil,
        binds.varchar, binds.int32, Kind.declared]
  have positions : function.argumentSpecs.map ArgSpec.position =
      List.range function.kinds.length := by
    cases function <;> rfl
  have inside := (List.getElem?_eq_some_iff.mp listed).1
  have type := congrArg (fun types => types[position]?) types
  have place := congrArg (fun positions => positions[position]?) positions
  simp only [List.getElem?_map, listed, Option.map_some, List.getElem?_range inside] at type place
  obtain ⟨spec, found, declared⟩ := Option.map_eq_some_iff.mp type
  rw [found, Option.map_some, Option.some.injEq] at place
  exact ⟨spec, List.mem_of_getElem? found, place, declared⟩

/-- Every cell of such a batch is read. -/
theorem Declared.admits (declared : Declared host function batch) :
    Admits function.kinds batch := by
  intro position kind listed
  obtain ⟨spec, member, rfl, type⟩ := kinds_declared binds listed
  obtain ⟨col, found, same⟩ := declared spec member
  rw [type, Option.some.injEq] at same
  refine ⟨col, found, ?_⟩
  rw [← same]
  cases kind with
  | text => exact fun text => ⟨text, rfl⟩
  | integer => exact fun n => ⟨Int32.toInt64 n, rfl⟩

/-- And its numbers are below the limit of the browser. -/
theorem Declared.narrow (declared : Declared host function batch) :
    Narrow function.kinds batch := by
  apply narrow_of_types
  intro position col listed found
  obtain ⟨spec, member, rfl, type⟩ := kinds_declared binds listed
  obtain ⟨other, same, typed⟩ := declared spec member
  rw [found, Option.some.injEq] at same
  subst same
  rw [type, Option.some.injEq] at typed
  rw [← typed]
  rfl

end Declarations

/-- An admitted batch has a column for each argument. -/
theorem Admits.hasColumns {kinds : List Kind} {batch : RecordBatch}
    (admits : Admits kinds batch) : HasColumns kinds batch := by
  by_contra missing
  have inside : batch.columns.length < kinds.length := Nat.not_le.mp missing
  obtain ⟨col, found, _⟩ := admits _ _ (List.getElem?_eq_getElem inside)
  rw [List.getElem?_eq_none le_rfl] at found
  cases found

/-- The result column has the type that `on_bind` declares. -/
theorem dataType_of_process (rs : TiktokenRs) (target : Target) (function : ScalarFunction)
    {batch : RecordBatch} {column : Column}
    (returned : function.process rs target batch = .ok column) :
    column.dataType = function.onBind := by
  have wrapped {β : Type} (wrap : β → Column) (run : Result β) (built : wrap <$> run = .ok column) :
      ∃ value, column = wrap value := by
    cases run with
    | error abort => cases built
    | ok value => exact ⟨value, (Except.ok.inj built).symm⟩
  cases function <;>
    obtain ⟨value, rfl⟩ := wrapped _ _ returned <;> rfl

/-! ## Rows without a result -/

/-- The model that a row names is unknown. -/
def ScalarFunction.Unresolved (rs : TiktokenRs) (batch : RecordBatch) (i : Nat) :
    ScalarFunction → Prop
  | encodingForModel =>
    ∃ model, textAt batch 0 i = some model ∧ TiktokenWorker.encodingForModel rs model = none
  | countTokensModel | tokenizeModel =>
    ∃ model, textAt batch 1 i = some model ∧ resolve rs model = none
  | truncateToTokensModel => ∃ model, textAt batch 2 i = some model ∧ resolve rs model = none
  | countTokens | tokenize | truncateToTokens | chunkByTokens | chunkByTokensOverlap => False

/-- An argument of the row is NULL or its model unknown. -/
def NullRow (rs : TiktokenRs) (function : ScalarFunction) (batch : RecordBatch) (i : Nat) : Prop :=
  (∃ position < function.kinds.length, NullAt batch position i) ∨ function.Unresolved rs batch i

/-- Those are the rows a function has no value for. -/
theorem cell_eq_none_iff (rs : TiktokenRs) (target : Target) (function : ScalarFunction)
    {batch : RecordBatch} (admits : Admits function.kinds batch) {i : Nat}
    (inside : i < batch.numRows) :
    function.cell rs target batch i = none ↔ NullRow rs function batch i := by
  cases function <;>
    simp only [NullRow, ScalarFunction.Unresolved, ScalarFunction.kinds, List.length_cons,
      List.length_nil, Nat.exists_lt_succ_right, Nat.not_lt_zero, false_and, exists_false, false_or,
      or_false]
  case encodingForModel =>
    have model := admits.textAt_eq_none_iff 0 rfl inside
    change (EncodingForModel.cell rs (textAt batch 0 i)).map Datum.text = none ↔ _
    rw [← model, Option.map_eq_none_iff]
    cases textAt batch 0 i with
    | none => simp [EncodingForModel.cell]
    | some model => simp [EncodingForModel.cell, encodingNameForModel]
  case countTokens =>
    have text := admits.textAt_eq_none_iff 0 rfl inside
    change (CountTokens.cell rs (textAt batch 0 i)).map Datum.int = none ↔ _
    rw [← text, Option.map_eq_none_iff]
    cases textAt batch 0 i <;> simp [CountTokens.cell]
  case countTokensModel =>
    have text := admits.textAt_eq_none_iff 0 rfl inside
    have model := admits.textAt_eq_none_iff 1 rfl inside
    change (CountTokensModel.cell rs (textAt batch 0 i) (textAt batch 1 i)).map Datum.int = none ↔ _
    rw [← text, ← model, Option.map_eq_none_iff]
    cases textAt batch 0 i <;> cases textAt batch 1 i <;> simp [CountTokensModel.cell]
    exact Option.eq_none_iff_forall_ne_some.symm
  case tokenize =>
    have text := admits.textAt_eq_none_iff 0 rfl inside
    change (Tokenize.cell rs (textAt batch 0 i)).map Datum.ints = none ↔ _
    rw [← text, Option.map_eq_none_iff]
    cases textAt batch 0 i <;> simp [Tokenize.cell]
  case tokenizeModel =>
    have text := admits.textAt_eq_none_iff 0 rfl inside
    have model := admits.textAt_eq_none_iff 1 rfl inside
    change (TokenizeModel.cell rs (textAt batch 0 i) (textAt batch 1 i)).map Datum.ints = none ↔ _
    rw [← text, ← model, Option.map_eq_none_iff]
    cases textAt batch 0 i <;> cases textAt batch 1 i <;> simp [TokenizeModel.cell]
    exact Option.eq_none_iff_forall_ne_some.symm
  case truncateToTokens =>
    have text := admits.textAt_eq_none_iff 0 rfl inside
    have n := admits.intAt_eq_none_iff 1 rfl inside
    change (TruncateToTokens.cell rs target (textAt batch 0 i) (intAt batch 1 i)).map Datum.text =
      none ↔ _
    rw [← text, ← n, Option.map_eq_none_iff]
    cases textAt batch 0 i <;> cases intAt batch 1 i <;> simp [TruncateToTokens.cell]
  case truncateToTokensModel =>
    have text := admits.textAt_eq_none_iff 0 rfl inside
    have n := admits.intAt_eq_none_iff 1 rfl inside
    have model := admits.textAt_eq_none_iff 2 rfl inside
    change (TruncateToTokensModel.cell rs target (textAt batch 0 i) (intAt batch 1 i)
      (textAt batch 2 i)).map Datum.text = none ↔ _
    rw [← text, ← n, ← model, Option.map_eq_none_iff]
    cases textAt batch 0 i <;> cases intAt batch 1 i <;> cases textAt batch 2 i <;>
      simp [TruncateToTokensModel.cell]
    exact Option.eq_none_iff_forall_ne_some.symm
  case chunkByTokens =>
    have text := admits.textAt_eq_none_iff 0 rfl inside
    have maxTokens := admits.intAt_eq_none_iff 1 rfl inside
    change (ChunkByTokens.cell rs target (textAt batch 0 i) (intAt batch 1 i)).map Datum.texts =
      none ↔ _
    rw [← text, ← maxTokens, Option.map_eq_none_iff]
    cases textAt batch 0 i <;> cases intAt batch 1 i <;> simp [ChunkByTokens.cell]
  case chunkByTokensOverlap =>
    have text := admits.textAt_eq_none_iff 0 rfl inside
    have maxTokens := admits.intAt_eq_none_iff 1 rfl inside
    have overlap := admits.intAt_eq_none_iff 2 rfl inside
    change (ChunkByTokensOverlap.cell rs target (textAt batch 0 i) (intAt batch 1 i)
      (intAt batch 2 i)).map Datum.texts = none ↔ _
    rw [← text, ← maxTokens, ← overlap, Option.map_eq_none_iff]
    cases textAt batch 0 i <;> cases intAt batch 1 i <;> cases intAt batch 2 i <;>
      simp [ChunkByTokensOverlap.cell]

/-! ## Calls -/

section Calls

variable {ε : Type} {tryNew : List Field → List Column → Except ε OutputBatch}
  (contract : TryNew tryNew) (rs : TiktokenRs) (target : Target) (function : ScalarFunction)

/-- A call raises the error of a reader whatever its schema is. -/
theorem call_argument_iff (schema : List Field) (batch : RecordBatch) (error : RpcError) :
    function.call tryNew rs target schema batch = .error (.error (.argument error)) ↔
      function.process rs target batch = .error (.error error) := by
  unfold ScalarFunction.call
  cases function.process rs target batch with
  | error abort => cases abort <;> simp
  | ok column => cases built : tryNew schema [column] <;> simp [built]

include contract

/-- A call returns what `process` does, on a schema that the column fits. -/
theorem call_ok_iff (schema : List Field) (batch : RecordBatch) (out : OutputBatch) :
    function.call tryNew rs target schema batch = .ok out ↔
      ∃ column field, function.process rs target batch = .ok column ∧ schema = [field] ∧
        FitsField column field ∧ out = ⟨schema, [column]⟩ := by
  unfold ScalarFunction.call
  cases function.process rs target batch with
  | error abort => cases abort <;> simp
  | ok column =>
    have made := contract.single_iff schema column
    simp only [Except.ok.injEq]
    constructor
    · intro returned
      cases built : tryNew schema [column] with
      | error error =>
        rw [built] at returned
        cases returned
      | ok result =>
        rw [built] at returned
        cases returned
        obtain ⟨same, field, single, fits⟩ := (made _).mp built
        exact ⟨column, field, rfl, single, fits, same⟩
    · rintro ⟨_, field, rfl, single, fits, rfl⟩
      have built := (made ⟨schema, [column]⟩).mpr ⟨rfl, field, single, fits⟩
      rw [built]

/-- A call raises an error of its own only for a column that was built and does not fit. -/
theorem call_runtime_iff (schema : List Field) (batch : RecordBatch) :
    (∃ error, function.call tryNew rs target schema batch = .error (.error (.runtime error))) ↔
      ∃ column, function.process rs target batch = .ok column ∧
        ¬∃ field, schema = [field] ∧ FitsField column field := by
  have accepts (column : Column) := contract.single_iff schema column
  unfold ScalarFunction.call
  cases function.process rs target batch with
  | error abort => cases abort <;> simp
  | ok column =>
    simp only [Except.ok.injEq, exists_eq_left']
    cases built : tryNew schema [column] with
    | error error =>
      refine iff_of_true ⟨error, rfl⟩ fun accepted => ?_
      have made := (accepts column ⟨schema, [column]⟩).mpr ⟨rfl, accepted⟩
      rw [built] at made
      cases made
    | ok result =>
      have accepted := ((accepts column result).mp built).2
      exact iff_of_false (by simp) (not_not.mpr accepted)

/-- The schemas that a function answers a batch on: with the column that `process` builds those of
one field of its declared type that admits its NULLs, and on any other a call raises an error of its
own, while an error of a reader does not depend on the schema. -/
theorem call_schema_iff (schema : List Field) (batch : RecordBatch) :
    (∀ out, function.call tryNew rs target schema batch = .ok out ↔
      ∃ column field, function.process rs target batch = .ok column ∧ schema = [field] ∧
        field.dataType = function.returnType ∧ (none ∈ column.rows → field.nullable = true) ∧
        out = ⟨schema, [column]⟩) ∧
    ((∃ error, function.call tryNew rs target schema batch = .error (.error (.runtime error))) ↔
      ∃ column, function.process rs target batch = .ok column ∧ ¬∃ field, schema = [field] ∧
        field.dataType = function.returnType ∧ (none ∈ column.rows → field.nullable = true)) ∧
    (∀ error, function.call tryNew rs target schema batch = .error (.error (.argument error)) ↔
      function.process rs target batch = .error (.error error)) := by
  have same : function.onBind = function.returnType := by cases function <;> rfl
  have fits (column : Column) (returned : function.process rs target batch = .ok column)
      (field : Field) : FitsField column field ↔
        field.dataType = function.returnType ∧ (none ∈ column.rows → field.nullable = true) := by
    have type := dataType_of_process rs target function returned
    rw [same] at type
    rw [← type]
    exact ⟨fun fits => ⟨fits.dataType, fits.nullable⟩, fun fits => ⟨fits.1, fits.2⟩⟩
  refine ⟨fun out => ?_, ?_, fun error => call_argument_iff rs target function schema batch error⟩
  · rw [call_ok_iff contract]
    constructor
    · rintro ⟨column, field, returned, single, fitting, built⟩
      obtain ⟨type, nullable⟩ := (fits column returned field).mp fitting
      exact ⟨column, field, returned, single, type, nullable, built⟩
    · rintro ⟨column, field, returned, single, type, nullable, built⟩
      exact ⟨column, field, returned, single, (fits column returned field).mpr ⟨type, nullable⟩,
        built⟩
  · rw [call_runtime_iff contract]
    apply exists_congr
    intro column
    apply and_congr_right
    intro returned
    apply not_congr
    apply exists_congr
    intro field
    exact and_congr_right fun _ => fits column returned field

end Calls

/-! ## An example -/

/-- An instance of `tryNew`, which checks the conditions one by one. -/
def checkedNew (schema : List Field) (columns : List Column) : Except String OutputBatch :=
  if columns = [] then .error "must either specify a row count or at least one column"
  else if columns.length ≠ schema.length then .error "number of columns must match number of fields"
  else if ∃ left ∈ columns, ∃ right ∈ columns, left.rows.length ≠ right.rows.length then
    .error "all columns in a record batch must have the same length"
  else if ∃ pair ∈ columns.zip schema, pair.2.dataType ≠ pair.1.dataType then
    .error "column types must match schema types"
  else if ∃ pair ∈ columns.zip schema, none ∈ pair.1.rows ∧ pair.2.nullable = false then
    .error "column is declared as non-nullable but contains null values"
  else .ok ⟨schema, columns⟩

/-- It keeps the promise that the results above assume. -/
theorem tryNew_checked : TryNew checkedNew where
  ok_iff schema columns out := by
    unfold checkedNew
    constructor
    · intro built
      split_ifs at built with empty fewer uneven mistyped nulls
      cases built
      push Not at fewer uneven mistyped nulls
      refine ⟨rfl, empty, fewer, uneven, fun pair member => ⟨mistyped pair member, fun null => ?_⟩⟩
      exact eq_true_of_ne_false (nulls pair member null)
    · rintro ⟨rfl, fits⟩
      rw [if_neg fits.nonempty, if_neg (not_not.mpr fits.fields), if_neg, if_neg, if_neg]
      · rintro ⟨pair, member, null, refused⟩
        rw [(fits.fits pair member).nullable null] at refused
        cases refused
      · rintro ⟨pair, member, mistyped⟩
        exact mistyped (fits.fits pair member).dataType
      · rintro ⟨left, first, right, second, uneven⟩
        exact uneven (fits.rows left first right second)

/-- An instance of a host, which names the field of a result `result`. -/
def namingHost : Host where
  columnType
    | "varchar" => some .utf8
    | "int32" => some .int32
    | _ => none
  outputSchema type := [⟨"result", type, true⟩]

/-- It binds what the functions declare. -/
theorem binds_naming : namingHost.Binds := ⟨rfl, rfl, fun _ => ⟨"result", rfl⟩⟩

/-- Models of two rows, one of them NULL. -/
def twoModels : RecordBatch := ⟨2, [⟨.utf8, [some "gpt-4", none], by decide⟩], by decide⟩

/-- Their encodings fit a field that admits NULLs and no other. -/
theorem call_schema_iff_two_models :
    (∃ out, ScalarFunction.encodingForModel.call checkedNew Greedy.crate .native
      [⟨"result", .flat .utf8, true⟩] twoModels = .ok out) ∧
    ∃ error, ScalarFunction.encodingForModel.call checkedNew Greedy.crate .native
      [⟨"result", .flat .utf8, false⟩] twoModels = .error (.error (.runtime error)) := by
  have schemas := call_schema_iff tryNew_checked Greedy.crate .native .encodingForModel
  have returned : ScalarFunction.encodingForModel.process Greedy.crate .native twoModels =
      .ok (.texts [some "cl100k_base", none]) := by
    rfl
  constructor
  · exact ⟨_, ((schemas _ twoModels).1 _).mpr ⟨_, _, returned, rfl, rfl, fun _ => rfl, rfl⟩⟩
  · refine (schemas _ twoModels).2.1.mpr ⟨_, returned, ?_⟩
    rintro ⟨field, single, _, admits⟩
    cases single
    cases admits (by decide)

end TiktokenWorker

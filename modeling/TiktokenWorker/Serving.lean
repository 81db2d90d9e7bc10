import TiktokenWorker.OnceCell
import TiktokenWorker.Worker

/-!
# Serving requests from shared encoders

`Encoding::bpe` takes each encoder from a cell of the process, through a call that fills the cell
where it is empty. `Cached` has the functions that need an encoder as the source has them, asking
the cell of the encoding each time, and `ScalarFunction.serve` the registered functions over them.
What the first return is what the functions over encoders do, and they ask for the encoder of their
encoding alone (`Yields`).
-/

namespace TiktokenWorker

open Arrow Utf8 OnceCell

/-! ## Computations over encoders -/

/-- A computation that asks for encoders. -/
abbrev Engine (α : Type) := Prog Encoding CoreBPE α

/-- One that may stop short. -/
abbrev Serve (α : Type) := ExceptT (Abort RpcError) (Prog Encoding CoreBPE) α

/-- A result needs no encoder. -/
instance :
    MonadLift (Except (Abort RpcError)) (ExceptT (Abort RpcError) (Prog Encoding CoreBPE)) where
  monadLift result := ExceptT.mk (pure result)

namespace Cached

/-- `Encoding::bpe`. -/
def bpe (encoding : Encoding) : Engine CoreBPE := .ask encoding .done

/-- `count`. -/
def count (text : String) (encoding : Encoding) : Engine Nat :=
  if text.isEmpty then pure 0
  else do
    let bpe ← bpe encoding
    pure (bpe.encodeOrdinary text).length

/-- `tokenize`. -/
def tokenize (text : String) (encoding : Encoding) : Engine (List UInt32) :=
  if text.isEmpty then pure []
  else do
    let bpe ← bpe encoding
    pure (bpe.encodeOrdinary text)

/-- `decode`. -/
def decode (tokens : List UInt32) (encoding : Encoding) : Engine String :=
  if tokens.isEmpty then pure ""
  else do
    let bpe ← bpe encoding
    let bytes := match bpe.decodeBytes tokens with
      | .ok bytes => bytes
      | .error _ => []
    pure (String.ofList (fromUtf8Lossy bytes))

/-- `truncate`. -/
def truncate (text : String) (n : Nat) (encoding : Encoding) : Engine String :=
  if n = 0 ∨ text.isEmpty then pure ""
  else do
    let bpe ← bpe encoding
    let tokens := bpe.encodeOrdinary text
    let stop := min n tokens.length
    decode (tokens.extract 0 stop) encoding

/-- The loop of `chunk`. -/
def chunkLoop (tokens : List UInt32) (maxTokens step : Nat) (encoding : Encoding)
    (advances : 0 < step) (start : Nat) (out : List String) : Engine (List String) :=
  if start < tokens.length then do
    let stop := min (start + maxTokens) tokens.length
    let piece ← decode (tokens.extract start stop) encoding
    let out := out ++ [piece]
    if stop = tokens.length then pure out
    else chunkLoop tokens maxTokens step encoding advances (start + step) out
  else pure out
termination_by tokens.length - start

/-- The window advances. -/
theorem window_advances {text : String} {maxTokens overlap : Nat}
    (some_text : ¬(text.isEmpty = true ∨ maxTokens = 0)) :
    0 < maxTokens - min overlap (maxTokens - 1) := by
  omega

/-- `chunk`. -/
def chunk (text : String) (maxTokens overlap : Nat) (encoding : Encoding) :
    Engine (List String) :=
  if refused : text.isEmpty ∨ maxTokens = 0 then pure []
  else do
    let bpe ← bpe encoding
    let tokens := bpe.encodeOrdinary text
    if tokens.isEmpty then pure []
    else
      let overlap := min overlap (maxTokens - 1)
      let step := maxTokens - overlap
      chunkLoop tokens maxTokens step encoding (window_advances refused) 0 []

/-- The body of the loop of `EncodingForModel::process`. -/
def encodingForModelStep (rs : TiktokenRs) (col : ArrayRef) (out : Builder String) (i : Nat) :
    Serve (Builder String) := do
  match ← (textStr col i : Result _) with
  | some model =>
    match encodingNameForModel rs model with
    | some name => (out.appendValue name : Result _)
    | none => pure out.appendNull
  | none => pure out.appendNull

/-- The body of the loop of `CountTokens::process`. -/
def countTokensStep (col : ArrayRef) (out : Builder Int32) (i : Nat) : Serve (Builder Int32) := do
  match ← (textStr col i : Result _) with
  | some text =>
    let n ← count text .defaultEncoding
    (out.appendValue (asI32 n) : Result _)
  | none => pure out.appendNull

/-- The body of the loop of `CountTokensModel::process`. -/
def countTokensModelStep (rs : TiktokenRs) (text model : ArrayRef) (out : Builder Int32)
    (i : Nat) : Serve (Builder Int32) := do
  match ← (textStr text i : Result _), ← (textStr model i : Result _) with
  | some t, some m =>
    match resolve rs m with
    | some enc =>
      let n ← count t enc
      (out.appendValue (asI32 n) : Result _)
    | none => pure out.appendNull
  | _, _ => pure out.appendNull

/-- The body of the loop of `Tokenize::process`. -/
def tokenizeStep (col : ArrayRef) (builder : ListBuilder Int32) (i : Nat) :
    Serve (ListBuilder Int32) := do
  match ← (textStr col i : Result _) with
  | none => (builder.appendNull : Result _)
  | some text =>
    let ids ← tokenize text .defaultEncoding
    let builder ← (ids.foldlM (fun builder id => builder.appendValue (UInt32.toInt32 id)) builder :
      Result _)
    (builder.append true : Result _)

/-- The body of the loop of `TokenizeModel::process`. -/
def tokenizeModelStep (rs : TiktokenRs) (text model : ArrayRef) (builder : ListBuilder Int32)
    (i : Nat) : Serve (ListBuilder Int32) := do
  match ← (textStr text i : Result _), ← (textStr model i : Result _) with
  | some t, some m =>
    match resolve rs m with
    | some enc =>
      let ids ← tokenize t enc
      let builder ← (ids.foldlM (fun builder id => builder.appendValue (UInt32.toInt32 id))
        builder : Result _)
      (builder.append true : Result _)
    | none => (builder.appendNull : Result _)
  | _, _ => (builder.appendNull : Result _)

/-- The body of the loop of `TruncateToTokens::process`. -/
def truncateToTokensStep (target : Target) (text n : ArrayRef) (out : Builder String) (i : Nat) :
    Serve (Builder String) := do
  match ← (textStr text i : Result _), ← (intVal n i : Result _) with
  | some t, some n =>
    let n := asUsize target (max n 0)
    let kept ← truncate t n .defaultEncoding
    (out.appendValue kept : Result _)
  | _, _ => pure out.appendNull

/-- The body of the loop of `TruncateToTokensModel::process`. -/
def truncateToTokensModelStep (rs : TiktokenRs) (target : Target) (text n model : ArrayRef)
    (out : Builder String) (i : Nat) : Serve (Builder String) := do
  match ← (textStr text i : Result _), ← (intVal n i : Result _),
    ← (textStr model i : Result _) with
  | some t, some n, some m =>
    match resolve rs m with
    | some enc =>
      let n := asUsize target (max n 0)
      let kept ← truncate t n enc
      (out.appendValue kept : Result _)
    | none => pure out.appendNull
  | _, _, _ => pure out.appendNull

/-- `append_chunks`. -/
def appendChunks (builder : ListBuilder String) (text : String) (maxTokens overlap : Nat) :
    Serve (ListBuilder String) := do
  let pieces ← chunk text maxTokens overlap .defaultEncoding
  let builder ← (pieces.foldlM (fun builder piece => builder.appendValue piece) builder :
    Result _)
  (builder.append true : Result _)

/-- The body of the loop of `ChunkByTokens::process`. -/
def chunkByTokensStep (target : Target) (text maxTokens : ArrayRef) (builder : ListBuilder String)
    (i : Nat) : Serve (ListBuilder String) := do
  match ← (textStr text i : Result _), ← (intVal maxTokens i : Result _) with
  | some t, some m => appendChunks builder t (asUsize target (max m 0)) 0
  | _, _ => (builder.appendNull : Result _)

/-- The body of the loop of `ChunkByTokensOverlap::process`. -/
def chunkByTokensOverlapStep (target : Target) (text maxTokens overlap : ArrayRef)
    (builder : ListBuilder String) (i : Nat) : Serve (ListBuilder String) := do
  match ← (textStr text i : Result _), ← (intVal maxTokens i : Result _),
    ← (intVal overlap i : Result _) with
  | some t, some m, some o =>
    appendChunks builder t (asUsize target (max m 0)) (asUsize target (max o 0))
  | _, _, _ => (builder.appendNull : Result _)

/-- A `process` over one column. -/
def overOne {B : Type} (new : B) (column : B → Column) (step : ArrayRef → B → Nat → Serve B)
    (batch : RecordBatch) : Serve Column := do
  let only ← (batch.column 0 : Result _)
  let out ← (List.range batch.numRows).foldlM (step only) new
  pure (column out)

/-- A `process` over two columns. -/
def overTwo {B : Type} (new : B) (column : B → Column)
    (step : ArrayRef → ArrayRef → B → Nat → Serve B) (batch : RecordBatch) : Serve Column := do
  let left ← (batch.column 0 : Result _)
  let right ← (batch.column 1 : Result _)
  let out ← (List.range batch.numRows).foldlM (step left right) new
  pure (column out)

/-- A `process` over three columns. -/
def overThree {B : Type} (new : B) (column : B → Column)
    (step : ArrayRef → ArrayRef → ArrayRef → B → Nat → Serve B) (batch : RecordBatch) :
    Serve Column := do
  let left ← (batch.column 0 : Result _)
  let middle ← (batch.column 1 : Result _)
  let right ← (batch.column 2 : Result _)
  let out ← (List.range batch.numRows).foldlM (step left middle right) new
  pure (column out)

end Cached

/-- `process`, with encoders from their cells. -/
def ScalarFunction.serve (rs : TiktokenRs) (target : Target) :
    ScalarFunction → RecordBatch → Serve Column
  | encodingForModel =>
    Cached.overOne Builder.new (fun out => .texts out.finish) (Cached.encodingForModelStep rs)
  | countTokens => Cached.overOne Builder.new (fun out => .ints out.finish) Cached.countTokensStep
  | countTokensModel =>
    Cached.overTwo Builder.new (fun out => .ints out.finish) (Cached.countTokensModelStep rs)
  | tokenize =>
    Cached.overOne ListBuilder.new (fun builder => .intLists builder.finish) Cached.tokenizeStep
  | tokenizeModel =>
    Cached.overTwo ListBuilder.new (fun builder => .intLists builder.finish)
      (Cached.tokenizeModelStep rs)
  | truncateToTokens =>
    Cached.overTwo Builder.new (fun out => .texts out.finish) (Cached.truncateToTokensStep target)
  | truncateToTokensModel =>
    Cached.overThree Builder.new (fun out => .texts out.finish)
      (Cached.truncateToTokensModelStep rs target)
  | chunkByTokens =>
    Cached.overTwo ListBuilder.new (fun builder => .textLists builder.finish)
      (Cached.chunkByTokensStep target)
  | chunkByTokensOverlap =>
    Cached.overThree ListBuilder.new (fun builder => .textLists builder.finish)
      (Cached.chunkByTokensOverlapStep target)

/-! ## What is computed, and from which encoder -/

/-- The encoder a row needs, if it has text and asks for something of it. -/
def needIf (idle : Bool) (encoding : Encoding) : Option Encoding :=
  if idle then none else some encoding

/-- The encoder of a text. -/
def needText (encoding : Encoding) (text : Option String) : Option Encoding := do
  let t ← text
  needIf t.isEmpty encoding

/-- The encoder of a text and a model. -/
def needModel (rs : TiktokenRs) (text model : Option String) : Option Encoding := do
  let t ← text
  let m ← model
  let enc ← resolve rs m
  needIf t.isEmpty enc

/-- The encoder of a text and the number of tokens to keep of it. -/
def needTokens (target : Target) (text : Option String) (n : Option Int64) : Option Encoding := do
  let t ← text
  let n ← n
  needIf (asUsize target (max n 0) = 0 ∨ t.isEmpty) .defaultEncoding

/-- The encoder of a text, a number and a model. -/
def needTokensModel (rs : TiktokenRs) (target : Target) (text : Option String) (n : Option Int64)
    (model : Option String) : Option Encoding := do
  let t ← text
  let n ← n
  let m ← model
  let enc ← resolve rs m
  needIf (asUsize target (max n 0) = 0 ∨ t.isEmpty) enc

/-- The encoder of a text and the size of its chunks. -/
def needChunks (target : Target) (text : Option String) (maxTokens : Option Int64) :
    Option Encoding := do
  let t ← text
  let m ← maxTokens
  needIf (t.isEmpty ∨ asUsize target (max m 0) = 0) .defaultEncoding

/-- The encoder of a text, the size of its chunks and their overlap. -/
def needChunksOverlap (target : Target) (text : Option String) (maxTokens overlap : Option Int64) :
    Option Encoding := do
  let t ← text
  let m ← maxTokens
  let _ ← overlap
  needIf (t.isEmpty ∨ asUsize target (max m 0) = 0) .defaultEncoding

/-- A computation returns the result and asks for the encoder it needs, and for no other. -/
structure Yields {α : Type} (rs : TiktokenRs) (engine : Engine α) (result : α)
    (need : Option Encoding) : Prop where
  eval : Prog.eval (Encoding.bpe rs) engine = result
  keys : ∀ encoding, encoding ∈ Prog.keys (Encoding.bpe rs) engine ↔ need = some encoding

/-- So does one that may stop short. -/
abbrev YieldsRun {α : Type} (rs : TiktokenRs) (serve : Serve α) (result : Result α)
    (need : Option Encoding) : Prop := Yields rs serve.run result need

section Yields

variable {rs : TiktokenRs} {α β : Type}

theorem Yields.of_pure (result : α) : Yields rs (pure result) result none :=
  ⟨rfl, fun _ => by simp⟩

/-- A computation that asks for an encoder, and for that one only. -/
theorem Yields.of_bpe {encoding : Encoding} {next : CoreBPE → Engine α} {result : α}
    (eval : Prog.eval (Encoding.bpe rs) (next (encoding.bpe rs)) = result)
    (within : ∀ other ∈ Prog.keys (Encoding.bpe rs) (next (encoding.bpe rs)), other = encoding) :
    Yields rs (Cached.bpe encoding >>= next) result (some encoding) := by
  refine ⟨eval, fun other => ?_⟩
  have keys : Prog.keys (Encoding.bpe rs) (Cached.bpe encoding >>= next) =
      encoding :: Prog.keys (Encoding.bpe rs) (next (encoding.bpe rs)) := rfl
  rw [keys, List.mem_cons, Option.some.injEq]
  constructor
  · rintro (same | member)
    · exact same.symm
    · exact (within other member).symm
  · exact fun same => Or.inl same.symm

/-- A result needs no encoder. -/
theorem YieldsRun.of_result (result : Result α) :
    YieldsRun rs (liftM result : Serve α) result none := .of_pure result

/-- Nor do two results. -/
theorem YieldsRun.of_results (first : Result α) (second : α → Result β) :
    YieldsRun rs ((liftM first : Serve α) >>= fun value => (liftM (second value) : Serve β))
      (first >>= second) none := by
  cases first with
  | error abort => exact .of_pure _
  | ok value => exact .of_pure _

/-- A result is handed on. -/
theorem YieldsRun.of_ok {value : α} {later : α → Serve β} {result : Result β}
    {need : Option Encoding} (rest : YieldsRun rs (later value) result need) :
    YieldsRun rs ((liftM (Except.ok value : Result α) : Serve α) >>= later) result need := rest

/-- A computation over an encoder, and results made of what it returns. -/
theorem YieldsRun.of_engine {engine : Engine α} {value : α} {later : α → Serve β}
    {result : Result β} {need : Option Encoding} (first : Yields rs engine value need)
    (rest : YieldsRun rs (later value) result none) :
    YieldsRun rs ((liftM engine : Serve α) >>= later) result need := by
  have lifted : ((liftM engine : Serve α) >>= later).run =
      engine >>= fun value => (later value).run := ExceptT.run_bind_lift engine later
  rw [YieldsRun, lifted]
  constructor
  · rw [Prog.eval_bind, first.eval]
    exact rest.eval
  · intro encoding
    rw [Prog.keys_bind, List.mem_append, first.keys, first.eval, rest.keys]
    simp

namespace Cached

variable (text : String) (n maxTokens overlap : Nat) (encoding : Encoding)

theorem yields_count : Yields rs (count text encoding) (TiktokenWorker.count rs text encoding)
    (needIf text.isEmpty encoding) := by
  unfold count TiktokenWorker.count needIf
  split
  · exact .of_pure 0
  · exact .of_bpe rfl nofun

theorem yields_tokenize : Yields rs (tokenize text encoding)
    (TiktokenWorker.tokenize rs text encoding) (needIf text.isEmpty encoding) := by
  unfold tokenize TiktokenWorker.tokenize needIf
  split
  · exact .of_pure []
  · exact .of_bpe rfl nofun

theorem yields_decode (tokens : List UInt32) : Yields rs (decode tokens encoding)
    (TiktokenWorker.decode rs tokens encoding) (needIf tokens.isEmpty encoding) := by
  unfold decode TiktokenWorker.decode needIf
  split
  · exact .of_pure ""
  · exact .of_bpe rfl nofun

/-- Decoding asks for the encoder of its encoding alone. -/
theorem keys_decode (tokens : List UInt32) {other : Encoding}
    (asked : other ∈ Prog.keys (Encoding.bpe rs) (decode tokens encoding)) : other = encoding := by
  have need := ((yields_decode encoding tokens).keys other).mp asked
  unfold needIf at need
  split at need
  · cases need
  · exact (Option.some.inj need).symm

theorem yields_truncate : Yields rs (truncate text n encoding)
    (TiktokenWorker.truncate rs text n encoding) (needIf (n = 0 ∨ text.isEmpty) encoding) := by
  unfold truncate TiktokenWorker.truncate needIf
  by_cases idle : n = 0 ∨ text.isEmpty
  · simp only [idle, if_true, decide_true]
    exact .of_pure ""
  · simp only [idle, if_false, decide_false]
    exact .of_bpe (yields_decode encoding _).eval fun other => keys_decode encoding _

variable (rs) in
/-- The loop of `chunk` emits what the loop over the encoder does, and asks for that encoder
alone. -/
theorem chunkLoop_spec (tokens : List UInt32) (step : Nat) (advances : 0 < step) (start : Nat)
    (out : List String) :
    Prog.eval (Encoding.bpe rs) (chunkLoop tokens maxTokens step encoding advances start out) =
        TiktokenWorker.chunkLoop rs tokens maxTokens step encoding advances start out ∧
      ∀ other ∈ Prog.keys (Encoding.bpe rs)
        (chunkLoop tokens maxTokens step encoding advances start out), other = encoding := by
  fun_induction TiktokenWorker.chunkLoop rs tokens maxTokens step encoding advances start out with
  | case1 start out inside stop out' last =>
    have ends : min (start + maxTokens) tokens.length = tokens.length := last
    rw [chunkLoop, if_pos inside, Prog.eval_bind, Prog.keys_bind,
      (yields_decode encoding _).eval]
    simp only [if_pos ends]
    refine ⟨rfl, fun other asked => ?_⟩
    rcases List.mem_append.mp asked with decoding | after
    · exact keys_decode encoding _ decoding
    · cases after
  | case2 start out inside stop out' more ih =>
    have goes_on : ¬min (start + maxTokens) tokens.length = tokens.length := more
    rw [chunkLoop, if_pos inside, Prog.eval_bind, Prog.keys_bind,
      (yields_decode encoding _).eval]
    simp only [if_neg goes_on]
    refine ⟨ih.1, fun other asked => ?_⟩
    rcases List.mem_append.mp asked with decoding | after
    · exact keys_decode encoding _ decoding
    · exact ih.2 other after
  | case3 start out past =>
    rw [chunkLoop, if_neg past]
    exact ⟨rfl, nofun⟩

theorem yields_chunk : Yields rs (chunk text maxTokens overlap encoding)
    (TiktokenWorker.chunk rs text maxTokens overlap encoding)
    (needIf (text.isEmpty ∨ maxTokens = 0) encoding) := by
  unfold chunk TiktokenWorker.chunk needIf
  by_cases idle : text.isEmpty ∨ maxTokens = 0
  · simp only [idle, dif_pos, if_true, decide_true]
    exact .of_pure []
  · simp only [idle, dif_neg, not_false_eq_true, decide_false]
    by_cases none : ((encoding.bpe rs).encodeOrdinary text).isEmpty
    · refine .of_bpe ?_ ?_
      · simp only [none, if_true]
        rfl
      · simp only [none, if_true]
        exact nofun
    · have spec := chunkLoop_spec rs maxTokens encoding ((encoding.bpe rs).encodeOrdinary text)
        (maxTokens - min overlap (maxTokens - 1)) (by omega) 0 []
      refine .of_bpe ?_ ?_
      · simp only [none]
        exact spec.1
      · simp only [none]
        exact spec.2

/-! The bodies of the loops. -/

variable (target : Target) (i : Nat)

theorem yields_encodingForModelStep (col : ArrayRef) (out : Builder String) :
    YieldsRun rs (encodingForModelStep rs col out i) (EncodingForModel.step rs col out i) none := by
  unfold encodingForModelStep EncodingForModel.step
  rcases textStr col i with error | _ | model
  · exact .of_pure _
  · exact .of_pure _
  · refine .of_ok ?_
    simp only [bind, Except.bind]
    cases encodingNameForModel rs model <;> exact .of_pure _

theorem yields_countTokensStep (col : ArrayRef) (out : Builder Int32) :
    YieldsRun rs (countTokensStep col out i) (CountTokens.step rs col out i)
      (needText .defaultEncoding (cellAt readText col i)) := by
  have read : cellAt readText col i = (textStr col i).toOption.join := rfl
  rw [read]
  unfold countTokensStep CountTokens.step
  rcases textStr col i with error | _ | text
  · exact .of_pure _
  · exact .of_pure _
  · exact .of_ok (.of_engine (yields_count text _) (.of_result _))

theorem yields_countTokensModelStep (text model : ArrayRef) (out : Builder Int32) :
    YieldsRun rs (countTokensModelStep rs text model out i)
      (CountTokensModel.step rs text model out i)
      (needModel rs (cellAt readText text i) (cellAt readText model i)) := by
  have readText : cellAt readText text i = (textStr text i).toOption.join := rfl
  have readModel : cellAt TiktokenWorker.readText model i = (textStr model i).toOption.join := rfl
  rw [readText, readModel]
  unfold countTokensModelStep CountTokensModel.step
  rcases textStr text i with error | t
  · exact .of_pure _
  rcases textStr model i with error | m
  · cases t <;> exact .of_pure _
  rcases t with _ | t
  · exact .of_pure _
  rcases m with _ | m
  · exact .of_pure _
  refine .of_ok (.of_ok ?_)
  simp only [needModel, Except.toOption, Option.join_some, bind, Option.bind, Except.bind]
  cases resolve rs m with
  | none => exact .of_pure _
  | some enc => exact .of_engine (yields_count t enc) (.of_result _)

theorem yields_tokenizeStep (col : ArrayRef) (builder : ListBuilder Int32) :
    YieldsRun rs (tokenizeStep col builder i) (Tokenize.step rs col builder i)
      (needText .defaultEncoding (cellAt readText col i)) := by
  have read : cellAt readText col i = (textStr col i).toOption.join := rfl
  rw [read]
  unfold tokenizeStep Tokenize.step
  rcases textStr col i with error | _ | text
  · exact .of_pure _
  · exact .of_pure _
  · exact .of_ok (.of_engine (yields_tokenize text _) (.of_results _ _))

theorem yields_tokenizeModelStep (text model : ArrayRef) (builder : ListBuilder Int32) :
    YieldsRun rs (tokenizeModelStep rs text model builder i)
      (TokenizeModel.step rs text model builder i)
      (needModel rs (cellAt readText text i) (cellAt readText model i)) := by
  have readText : cellAt readText text i = (textStr text i).toOption.join := rfl
  have readModel : cellAt TiktokenWorker.readText model i = (textStr model i).toOption.join := rfl
  rw [readText, readModel]
  unfold tokenizeModelStep TokenizeModel.step
  rcases textStr text i with error | t
  · exact .of_pure _
  rcases textStr model i with error | m
  · cases t <;> exact .of_pure _
  rcases t with _ | t
  · exact .of_pure _
  rcases m with _ | m
  · exact .of_pure _
  refine .of_ok (.of_ok ?_)
  simp only [needModel, Except.toOption, Option.join_some, bind, Option.bind, Except.bind]
  cases resolve rs m with
  | none => exact .of_pure _
  | some enc => exact .of_engine (yields_tokenize t enc) (.of_results _ _)

theorem yields_truncateToTokensStep (text n : ArrayRef) (out : Builder String) :
    YieldsRun rs (truncateToTokensStep target text n out i)
      (TruncateToTokens.step rs target text n out i)
      (needTokens target (cellAt readText text i) (cellAt readInt n i)) := by
  have readText : cellAt readText text i = (textStr text i).toOption.join := rfl
  have readNumber : cellAt readInt n i = (intVal n i).toOption.join := rfl
  rw [readText, readNumber]
  unfold truncateToTokensStep TruncateToTokens.step
  rcases textStr text i with error | t
  · exact .of_pure _
  rcases intVal n i with error | n
  · cases t <;> exact .of_pure _
  rcases t with _ | t
  · exact .of_pure _
  rcases n with _ | n
  · exact .of_pure _
  exact .of_ok (.of_ok (.of_engine (yields_truncate t _ _) (.of_result _)))

theorem yields_truncateToTokensModelStep (text n model : ArrayRef) (out : Builder String) :
    YieldsRun rs (truncateToTokensModelStep rs target text n model out i)
      (TruncateToTokensModel.step rs target text n model out i)
      (needTokensModel rs target (cellAt readText text i) (cellAt readInt n i)
        (cellAt readText model i)) := by
  have readText : cellAt readText text i = (textStr text i).toOption.join := rfl
  have readNumber : cellAt readInt n i = (intVal n i).toOption.join := rfl
  have readModel : cellAt TiktokenWorker.readText model i = (textStr model i).toOption.join := rfl
  rw [readText, readNumber, readModel]
  unfold truncateToTokensModelStep TruncateToTokensModel.step
  rcases textStr text i with error | t
  · exact .of_pure _
  rcases intVal n i with error | n
  · cases t <;> exact .of_pure _
  rcases textStr model i with error | m
  · cases t <;> cases n <;> exact .of_pure _
  rcases t with _ | t
  · exact .of_pure _
  rcases n with _ | n
  · exact .of_pure _
  rcases m with _ | m
  · exact .of_pure _
  refine .of_ok (.of_ok (.of_ok ?_))
  simp only [needTokensModel, Except.toOption, Option.join_some, bind, Option.bind, Except.bind]
  cases resolve rs m with
  | none => exact .of_pure _
  | some enc => exact .of_engine (yields_truncate t _ enc) (.of_result _)

theorem yields_appendChunks (builder : ListBuilder String) :
    YieldsRun rs (appendChunks builder text maxTokens overlap)
      (TiktokenWorker.appendChunks rs builder text maxTokens overlap)
      (needIf (text.isEmpty ∨ maxTokens = 0) .defaultEncoding) :=
  .of_engine (yields_chunk text maxTokens overlap _) (.of_results _ _)

theorem yields_chunkByTokensStep (text maxTokens : ArrayRef) (builder : ListBuilder String) :
    YieldsRun rs (chunkByTokensStep target text maxTokens builder i)
      (ChunkByTokens.step rs target text maxTokens builder i)
      (needChunks target (cellAt readText text i) (cellAt readInt maxTokens i)) := by
  have readText : cellAt readText text i = (textStr text i).toOption.join := rfl
  have readMax : cellAt readInt maxTokens i = (intVal maxTokens i).toOption.join := rfl
  rw [readText, readMax]
  unfold chunkByTokensStep ChunkByTokens.step
  rcases textStr text i with error | t
  · exact .of_pure _
  rcases intVal maxTokens i with error | m
  · cases t <;> exact .of_pure _
  rcases t with _ | t
  · exact .of_pure _
  rcases m with _ | m
  · exact .of_pure _
  exact .of_ok (.of_ok (yields_appendChunks t _ _ builder))

theorem yields_chunkByTokensOverlapStep (text maxTokens overlap : ArrayRef)
    (builder : ListBuilder String) :
    YieldsRun rs (chunkByTokensOverlapStep target text maxTokens overlap builder i)
      (ChunkByTokensOverlap.step rs target text maxTokens overlap builder i)
      (needChunksOverlap target (cellAt readText text i) (cellAt readInt maxTokens i)
        (cellAt readInt overlap i)) := by
  have readText : cellAt readText text i = (textStr text i).toOption.join := rfl
  have readMax : cellAt readInt maxTokens i = (intVal maxTokens i).toOption.join := rfl
  have readOverlap : cellAt readInt overlap i = (intVal overlap i).toOption.join := rfl
  rw [readText, readMax, readOverlap]
  unfold chunkByTokensOverlapStep ChunkByTokensOverlap.step
  rcases textStr text i with error | t
  · exact .of_pure _
  rcases intVal maxTokens i with error | m
  · cases t <;> exact .of_pure _
  rcases intVal overlap i with error | o
  · cases t <;> cases m <;> exact .of_pure _
  rcases t with _ | t
  · exact .of_pure _
  rcases m with _ | m
  · exact .of_pure _
  rcases o with _ | o
  · exact .of_pure _
  exact .of_ok (.of_ok (.of_ok (yields_appendChunks t _ _ builder)))

end Cached

/-- A loop over rows gets as far as the loop over encoders does, and asks for the encoders of the
rows it gets to. The induction is on the rows, the last of them apart. -/
theorem fold_yields {B : Type} {round : B → Nat → Serve B} {step : B → Nat → Result B}
    {need : Nat → Option Encoding}
    (rounds : ∀ out i, YieldsRun rs (round out i) (step out i) (need i))
    (new : B) (rows : Nat) :
    Prog.eval (Encoding.bpe rs) ((List.range rows).foldlM round new).run =
        (List.range rows).foldlM step new ∧
      ∀ encoding, encoding ∈ Prog.keys (Encoding.bpe rs) ((List.range rows).foldlM round new).run ↔
        ∃ i < rows, (∃ out, (List.range i).foldlM step new = .ok out) ∧ need i = some encoding := by
  induction rows with
  | zero => exact ⟨rfl, fun encoding => ⟨nofun, fun ⟨i, inside, _⟩ => by omega⟩⟩
  | succ rows ih =>
    have served : ((List.range (rows + 1)).foldlM round new).run =
        ((List.range rows).foldlM round new).run >>= fun
          | .ok out => (round out rows).run
          | .error abort => pure (.error abort) := by
      rw [List.range_succ, List.foldlM_append, ExceptT.run_bind]
      congr 1
      funext result
      cases result <;> simp
    have stepped : (List.range (rows + 1)).foldlM step new =
        (List.range rows).foldlM step new >>= fun out => step out rows := by
      rw [List.range_succ, List.foldlM_append]
      simp
    rw [served, stepped, Prog.eval_bind]
    simp only [Prog.keys_bind, List.mem_append, ih.1, ih.2, Nat.exists_lt_succ_right]
    cases built : (List.range rows).foldlM step new with
    | error abort => exact ⟨rfl, fun encoding => by simp⟩
    | ok out =>
      have last := rounds out rows
      refine ⟨last.eval, fun encoding => ?_⟩
      have asked := last.keys encoding
      simp only [asked, Except.ok.injEq, exists_eq', true_and]

end Yields

end TiktokenWorker

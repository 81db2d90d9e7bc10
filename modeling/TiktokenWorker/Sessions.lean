import TiktokenWorker.Outcome
import TiktokenWorker.Serving

/-!
# Sessions that share encoders

The serving threads of a process answer calls of the registered functions and share the encoders
they need, in cells that promise what `GetOrInit` says. Whatever calls the clients make and in
whatever order the threads take their steps, every reply is the one the functions over encoders
give, the cells of encoders that rows need are filled and no others, and no thread waits forever
while the calls for encoders return.
-/

namespace TiktokenWorker

open Arrow OnceCell

/-! ## Batches -/

/-- A row that a function gets to: no row before it has an error, and their cells fit. -/
def Reached (kinds : List Kind) (cell : RecordBatch → Nat → Option Datum) (batch : RecordBatch)
    (i : Nat) : Prop :=
  i < batch.numRows ∧ (∀ j < i, rowError kinds batch j = none) ∧
    CellsFit ((List.range i).map (cell batch))

/-- A function that takes encoders from their cells computes what the one over encoders does, and
asks for the encoders of the rows it gets to. -/
structure Serves (rs : TiktokenRs) (serve : RecordBatch → Serve Column)
    (process : RecordBatch → Result Column) (kinds : List Kind)
    (cell : RecordBatch → Nat → Option Datum) (need : RecordBatch → Nat → Option Encoding) :
    Prop where
  /-- The column. -/
  eval : ∀ batch, Prog.eval (Encoding.bpe rs) (serve batch).run = process batch
  /-- The encoders. -/
  keys : ∀ batch, HasColumns kinds batch → ∀ encoding,
    encoding ∈ Prog.keys (Encoding.bpe rs) (serve batch).run ↔
      ∃ i, Reached kinds cell batch i ∧ need batch i = some encoding
  /-- A batch of fewer columns needs none. -/
  idle : ∀ batch, ¬HasColumns kinds batch →
    Prog.keys (Encoding.bpe rs) (serve batch).run = []

section Functions

variable {rs : TiktokenRs} {β γ B : Type} {sink : Sink RpcError B γ} {first second third : Kind}
  {batch : RecordBatch}

/-- A loop that builds a result column asks for the encoders of the rows it gets to. -/
theorem loop_serves {column : B → Column} {datum : γ → Datum}
    (renders : Renders sink column datum) {rows : Nat} {step : B → Nat → Result B}
    {read : Nat → Result (Option γ)} {error : Nat → Option RpcError} {cell : Nat → Option γ}
    (same : step = sink.step read) (reads : ∀ i < rows, read i = settle (error i) (cell i))
    {round : B → Nat → Serve B} {need : Nat → Option Encoding}
    (rounds : ∀ out i, YieldsRun rs (round out i) (step out i) (need i)) :
    Prog.eval (Encoding.bpe rs) ((List.range rows).foldlM round sink.new >>= fun out =>
        (pure (column out) : Serve Column)).run =
      ((List.range rows).foldlM step sink.new >>= fun out => .ok (column out)) ∧
    ∀ encoding, encoding ∈ Prog.keys (Encoding.bpe rs)
        ((List.range rows).foldlM round sink.new >>= fun out =>
          (pure (column out) : Serve Column)).run ↔
      ∃ i, (i < rows ∧ (∀ j < i, error j = none) ∧
        CellsFit ((List.range i).map fun i => (cell i).map datum)) ∧ need i = some encoding := by
  obtain ⟨eval, keys⟩ := fold_yields rounds sink.new rows
  have finished : ((List.range rows).foldlM round sink.new >>= fun out =>
      (pure (column out) : Serve Column)).run =
      ((List.range rows).foldlM round sink.new).run >>= fun result =>
        pure (column <$> result) := by
    rw [ExceptT.run_bind]
    congr 1
    funext result
    cases result <;> rfl
  rw [finished, Prog.eval_bind, eval]
  refine ⟨by cases (List.range rows).foldlM step sink.new <;> rfl, fun encoding => ?_⟩
  rw [Prog.keys_bind, Prog.keys_pure, List.append_nil, keys]
  constructor
  · rintro ⟨i, inside, built, needed⟩
    have reached := (loop_returns renders same fun j before => reads j (by omega)).mp built
    exact ⟨i, ⟨inside, reached⟩, needed⟩
  · rintro ⟨i, ⟨inside, reached⟩, needed⟩
    have built := (loop_returns renders same fun j before => reads j (by omega)).mpr reached
    exact ⟨i, inside, built, needed⟩

section Missing

variable {new : B} {column : B → Column}

/-- A function of one column ends without one. -/
theorem serve_one_missing {round : ArrayRef → B → Nat → Serve B}
    (missing : ¬HasColumns [first] batch) :
    (Cached.overOne new column round batch).run =
      pure (.error (.panic "index out of bounds")) := by
  have past : batch.columns.length ≤ 0 := Nat.lt_succ_iff.mp (Nat.not_le.mp missing)
  rw [Cached.overOne, column_past past]
  rfl

/-- A function of two columns ends with fewer. -/
theorem serve_two_missing {round : ArrayRef → ArrayRef → B → Nat → Serve B}
    (missing : ¬HasColumns [first, second] batch) :
    (Cached.overTwo new column round batch).run =
      pure (.error (.panic "index out of bounds")) := by
  have past : batch.columns.length ≤ 1 := Nat.lt_succ_iff.mp (Nat.not_le.mp missing)
  rw [Cached.overTwo, column_past past]
  rcases column_cases batch 0 with ⟨left, found⟩ | absent
  · rw [found]
    rfl
  · rw [absent]
    rfl

/-- A function of three columns ends with fewer. -/
theorem serve_three_missing {round : ArrayRef → ArrayRef → ArrayRef → B → Nat → Serve B}
    (missing : ¬HasColumns [first, second, third] batch) :
    (Cached.overThree new column round batch).run =
      pure (.error (.panic "index out of bounds")) := by
  have past : batch.columns.length ≤ 2 := Nat.lt_succ_iff.mp (Nat.not_le.mp missing)
  rw [Cached.overThree, column_past past]
  rcases column_cases batch 0 with ⟨left, foundLeft⟩ | absent
  · rcases column_cases batch 1 with ⟨middle, foundMiddle⟩ | absent
    · rw [foundLeft, foundMiddle]
      rfl
    · rw [foundLeft, absent]
      rfl
  · rw [absent]
    rfl

end Missing

variable (wrap : β → Column) (finish : B → β) (first second third) {datum : γ → Datum}
  (renders : Renders sink (fun out => wrap (finish out)) datum)

include renders

/-- A function of one column. -/
theorem Serves.one {round : ArrayRef → B → Nat → Serve B} {step : ArrayRef → B → Nat → Result B}
    {cell : Option first.Value → Option γ} (need : Option first.Value → Option Encoding)
    (same : ∀ only, step only = sink.step fun i => do
      let x ← readCell first.reader only i
      .ok (cell x))
    (rounds : ∀ only out i, YieldsRun rs (round only out i) (step only out i)
      (need (cellAt first.reader only i))) :
    Serves rs (Cached.overOne sink.new (fun out => wrap (finish out)) round)
      (fun batch => wrap <$> overOne sink finish step batch) [first]
      (fun batch i => (cell (readAt first.reader batch 0 i)).map datum)
      (fun batch i => need (readAt first.reader batch 0 i)) where
  eval batch := by
    rw [map_overOne]
    by_cases columns : HasColumns [first] batch
    · obtain ⟨only, found, _, reads⟩ := reads_one columns cell
      rw [Cached.overOne, overOne, found]
      exact (loop_serves renders (same only) reads (rounds only)).1
    · rw [serve_one_missing columns, overOne_missing columns]
      rfl
  keys batch columns encoding := by
    obtain ⟨only, found, cells, reads⟩ := reads_one columns cell
    have needs (out : B) (i : Nat) : YieldsRun rs (round only out i) (step only out i)
        (need (readAt first.reader batch 0 i)) := cells i ▸ rounds only out i
    rw [Cached.overOne, found]
    exact (loop_serves renders (same only) reads needs).2 encoding
  idle batch missing := by
    rw [serve_one_missing missing]
    rfl

/-- A function of two columns. -/
theorem Serves.two {round : ArrayRef → ArrayRef → B → Nat → Serve B}
    {step : ArrayRef → ArrayRef → B → Nat → Result B}
    {cell : Option first.Value → Option second.Value → Option γ}
    (need : Option first.Value → Option second.Value → Option Encoding)
    (same : ∀ left right, step left right = sink.step fun i => do
      let x ← readCell first.reader left i
      let y ← readCell second.reader right i
      .ok (cell x y))
    (rounds : ∀ left right out i, YieldsRun rs (round left right out i) (step left right out i)
      (need (cellAt first.reader left i) (cellAt second.reader right i))) :
    Serves rs (Cached.overTwo sink.new (fun out => wrap (finish out)) round)
      (fun batch => wrap <$> overTwo sink finish step batch) [first, second]
      (fun batch i =>
        (cell (readAt first.reader batch 0 i) (readAt second.reader batch 1 i)).map datum)
      (fun batch i => need (readAt first.reader batch 0 i) (readAt second.reader batch 1 i)) where
  eval batch := by
    rw [map_overTwo]
    by_cases columns : HasColumns [first, second] batch
    · obtain ⟨left, right, foundLeft, foundRight, _, reads⟩ := reads_two columns cell
      rw [Cached.overTwo, overTwo, foundLeft, foundRight]
      exact (loop_serves renders (same left right) reads (rounds left right)).1
    · rw [serve_two_missing columns, overTwo_missing columns]
      rfl
  keys batch columns encoding := by
    obtain ⟨left, right, foundLeft, foundRight, cells, reads⟩ := reads_two columns cell
    have needs (out : B) (i : Nat) : YieldsRun rs (round left right out i) (step left right out i)
        (need (readAt first.reader batch 0 i) (readAt second.reader batch 1 i)) :=
      (cells i).1 ▸ (cells i).2 ▸ rounds left right out i
    rw [Cached.overTwo, foundLeft, foundRight]
    exact (loop_serves renders (same left right) reads needs).2 encoding
  idle batch missing := by
    rw [serve_two_missing missing]
    rfl

/-- A function of three columns. -/
theorem Serves.three {round : ArrayRef → ArrayRef → ArrayRef → B → Nat → Serve B}
    {step : ArrayRef → ArrayRef → ArrayRef → B → Nat → Result B}
    {cell : Option first.Value → Option second.Value → Option third.Value → Option γ}
    (need : Option first.Value → Option second.Value → Option third.Value → Option Encoding)
    (same : ∀ left middle right, step left middle right = sink.step fun i => do
      let x ← readCell first.reader left i
      let y ← readCell second.reader middle i
      let z ← readCell third.reader right i
      .ok (cell x y z))
    (rounds : ∀ left middle right out i,
      YieldsRun rs (round left middle right out i) (step left middle right out i)
        (need (cellAt first.reader left i) (cellAt second.reader middle i)
          (cellAt third.reader right i))) :
    Serves rs (Cached.overThree sink.new (fun out => wrap (finish out)) round)
      (fun batch => wrap <$> overThree sink finish step batch) [first, second, third]
      (fun batch i => (cell (readAt first.reader batch 0 i) (readAt second.reader batch 1 i)
        (readAt third.reader batch 2 i)).map datum)
      (fun batch i => need (readAt first.reader batch 0 i) (readAt second.reader batch 1 i)
        (readAt third.reader batch 2 i)) where
  eval batch := by
    rw [map_overThree]
    by_cases columns : HasColumns [first, second, third] batch
    · obtain ⟨left, middle, right, foundLeft, foundMiddle, foundRight, _, reads⟩ :=
        reads_three columns cell
      rw [Cached.overThree, overThree, foundLeft, foundMiddle, foundRight]
      exact (loop_serves renders (same left middle right) reads (rounds left middle right)).1
    · rw [serve_three_missing columns, overThree_missing columns]
      rfl
  keys batch columns encoding := by
    obtain ⟨left, middle, right, foundLeft, foundMiddle, foundRight, cells, reads⟩ :=
      reads_three columns cell
    have needs (out : B) (i : Nat) :
        YieldsRun rs (round left middle right out i) (step left middle right out i)
          (need (readAt first.reader batch 0 i) (readAt second.reader batch 1 i)
            (readAt third.reader batch 2 i)) :=
      (cells i).1 ▸ (cells i).2.1 ▸ (cells i).2.2 ▸ rounds left middle right out i
    rw [Cached.overThree, foundLeft, foundMiddle, foundRight]
    exact (loop_serves renders (same left middle right) reads needs).2 encoding
  idle batch missing := by
    rw [serve_three_missing missing]
    rfl

end Functions

/-- The encoder that a row of a call needs. -/
def ScalarFunction.need (rs : TiktokenRs) (target : Target) (function : ScalarFunction)
    (batch : RecordBatch) (i : Nat) : Option Encoding :=
  match function with
  | encodingForModel => none
  | countTokens | tokenize => needText .defaultEncoding (textAt batch 0 i)
  | countTokensModel | tokenizeModel => needModel rs (textAt batch 0 i) (textAt batch 1 i)
  | truncateToTokens => needTokens target (textAt batch 0 i) (intAt batch 1 i)
  | truncateToTokensModel =>
    needTokensModel rs target (textAt batch 0 i) (intAt batch 1 i) (textAt batch 2 i)
  | chunkByTokens => needChunks target (textAt batch 0 i) (intAt batch 1 i)
  | chunkByTokensOverlap =>
    needChunksOverlap target (textAt batch 0 i) (intAt batch 1 i) (intAt batch 2 i)

/-- Every registered function computes from cells what it does from encoders. -/
theorem ScalarFunction.serves (rs : TiktokenRs) (target : Target) (function : ScalarFunction) :
    Serves rs (function.serve rs target) (function.process rs target) function.kinds
      (function.cell rs target) (function.need rs target) := by
  cases function with
  | encodingForModel =>
    exact Serves.one .text Column.texts Builder.finish renders_texts (fun _ => none)
      (EncodingForModel.step_eq rs) fun col out i => Cached.yields_encodingForModelStep i col out
  | countTokens =>
    exact Serves.one .text Column.ints Builder.finish renders_ints (needText .defaultEncoding)
      (CountTokens.step_eq rs) fun col out i => Cached.yields_countTokensStep i col out
  | countTokensModel =>
    exact Serves.two .text .text Column.ints Builder.finish renders_ints (needModel rs)
      (CountTokensModel.step_eq rs)
      fun text model out i => Cached.yields_countTokensModelStep i text model out
  | tokenize =>
    exact Serves.one .text Column.intLists ListBuilder.finish renders_intLists
      (needText .defaultEncoding) (Tokenize.step_eq rs)
      fun col builder i => Cached.yields_tokenizeStep i col builder
  | tokenizeModel =>
    exact Serves.two .text .text Column.intLists ListBuilder.finish renders_intLists
      (needModel rs) (TokenizeModel.step_eq rs)
      fun text model builder i => Cached.yields_tokenizeModelStep i text model builder
  | truncateToTokens =>
    exact Serves.two .text .integer Column.texts Builder.finish renders_texts (needTokens target)
      (TruncateToTokens.step_eq rs target)
      fun text n out i => Cached.yields_truncateToTokensStep target i text n out
  | truncateToTokensModel =>
    exact Serves.three .text .integer .text Column.texts Builder.finish renders_texts
      (needTokensModel rs target) (TruncateToTokensModel.step_eq rs target)
      fun text n model out i => Cached.yields_truncateToTokensModelStep target i text n model out
  | chunkByTokens =>
    exact Serves.two .text .integer Column.textLists ListBuilder.finish renders_textLists
      (needChunks target) (ChunkByTokens.step_eq rs target)
      fun text maxTokens builder i =>
        Cached.yields_chunkByTokensStep target i text maxTokens builder
  | chunkByTokensOverlap =>
    exact Serves.three .text .integer .integer Column.textLists ListBuilder.finish
      renders_textLists (needChunksOverlap target) (ChunkByTokensOverlap.step_eq rs target)
      fun text maxTokens overlap builder i =>
        Cached.yields_chunkByTokensOverlapStep target i text maxTokens overlap builder

/-! ## Sessions -/

/-- What a thread is asked for: calls one after the other, each chosen by the replies before it. -/
inductive Session where
  /-- No more calls. -/
  | finish
  /-- A call, and what follows its reply. -/
  | call (function : ScalarFunction) (batch : RecordBatch) (next : Result Column → Session)

namespace Session

variable (rs : TiktokenRs) (target : Target)

/-- The replies of the functions over encoders. -/
def replies : Session → List (Result Column)
  | finish => []
  | call function batch next =>
    let reply := function.process rs target batch
    reply :: (next reply).replies

/-- A thread that takes encoders from their cells. -/
def serve : Session → Engine (List (Result Column))
  | finish => pure []
  | call function batch next => do
    let reply ← (function.serve rs target batch).run
    let replies ← (next reply).serve
    pure (reply :: replies)

/-- Some row that a call gets to needs the encoder. -/
def Needs (encoding : Encoding) : Session → Prop
  | finish => False
  | call function batch next =>
    (HasColumns function.kinds batch ∧ ∃ i,
      Reached function.kinds (function.cell rs target) batch i ∧
        function.need rs target batch i = some encoding) ∨
    (next (function.process rs target batch)).Needs encoding

/-- A thread replies what the functions over encoders do. -/
theorem eval_serve (session : Session) :
    Prog.eval (Encoding.bpe rs) (session.serve rs target) = session.replies rs target := by
  induction session with
  | finish => rfl
  | call function batch next ih =>
    have reply := (function.serves rs target).eval batch
    rw [serve, replies, Prog.eval_bind, reply, Prog.eval_bind, ih]
    rfl

/-- It asks for the encoders its calls need. -/
theorem keys_serve (session : Session) (encoding : Encoding) :
    encoding ∈ Prog.keys (Encoding.bpe rs) (session.serve rs target) ↔
      session.Needs rs target encoding := by
  induction session with
  | finish => exact iff_of_false List.not_mem_nil id
  | call function batch next ih =>
    have reply := (function.serves rs target).eval batch
    have first : encoding ∈ Prog.keys (Encoding.bpe rs) (function.serve rs target batch).run ↔
        HasColumns function.kinds batch ∧ ∃ i,
          Reached function.kinds (function.cell rs target) batch i ∧
            function.need rs target batch i = some encoding := by
      by_cases columns : HasColumns function.kinds batch
      · rw [(function.serves rs target).keys batch columns encoding, and_iff_right columns]
      · rw [(function.serves rs target).idle batch columns]
        exact iff_of_false List.not_mem_nil fun needed => columns needed.1
    rw [serve, Prog.keys_bind, List.mem_append, reply, Prog.keys_bind, Prog.keys_pure,
      List.append_nil, ih, first]
    rfl

end Session

/-! ## Any schedule -/

section Schedules

variable {τ : Type} [DecidableEq τ] {cells : Cells τ Encoding CoreBPE} (rs : TiktokenRs)
  (target : Target) (sessions : τ → Session)

/-- What the serving threads do. -/
abbrev threads : τ → Engine (List (Result Column)) := fun thread =>
  (sessions thread).serve rs target

variable {state : OnceCell.State cells (List (Result Column))}

/-- In every schedule of the threads, every reply is the one of the functions over encoders, and
every encoder that is shared is that of its encoding. -/
theorem shared_replies (contract : cells.GetOrInit)
    (ran : Schedule (Encoding.bpe rs) (start cells (threads rs target sessions)) state) :
    (∀ thread replies, state.threads thread = .done replies →
      replies = (sessions thread).replies rs target) ∧
    ∀ encoding bpe, cells.get state.shared encoding = some bpe → bpe = encoding.bpe rs := by
  have consistent := consistent_of_run contract ran
  refine ⟨fun thread replies returned => ?_, consistent.contents⟩
  rw [result_of_done consistent returned]
  exact (sessions thread).eval_serve rs target

/-- In every schedule, only cells of encoders that a row needs are filled, and those that the calls
of a thread need are filled once it has returned. -/
theorem cells_filled_on_demand (contract : cells.GetOrInit)
    (ran : Schedule (Encoding.bpe rs) (start cells (threads rs target sessions)) state) :
    (∀ encoding, cells.get state.shared encoding ≠ none →
      ∃ thread, (sessions thread).Needs rs target encoding) ∧
    ∀ thread replies, state.threads thread = .done replies → ∀ encoding,
      (sessions thread).Needs rs target encoding →
        cells.get state.shared encoding = some (encoding.bpe rs) := by
  have consistent := consistent_of_run contract ran
  have demand := demand_of_run contract ran
  constructor
  · intro encoding filled
    obtain ⟨thread, asked⟩ := demand.asked encoding filled
    exact ⟨thread, ((sessions thread).keys_serve rs target encoding).mp asked⟩
  · intro thread replies returned encoding needed
    have asked := ((sessions thread).keys_serve rs target encoding).mpr needed
    have filled : cells.get state.shared encoding ≠ none := by
      rcases demand.served thread encoding asked with remaining | filled
      · rw [returned] at remaining
        cases remaining
      · exact filled
    obtain ⟨bpe, found⟩ := Option.ne_none_iff_exists'.mp filled
    rw [found, consistent.contents encoding bpe found]

/-- While no calls for encoders wait for each other forever, every schedule can be continued until
every client has its replies. -/
theorem sessions_end [Fintype τ] (contract : cells.GetOrInit)
    (returning : cells.CallsReturn (Encoding.bpe rs))
    (ran : Schedule (Encoding.bpe rs) (start cells (threads rs target sessions)) state) :
    ∃ last, Schedule (Encoding.bpe rs) state last ∧ ∀ thread,
      last.threads thread = .done ((sessions thread).replies rs target) := by
  obtain ⟨last, later, returned⟩ := exists_run contract returning ran
  have consistent := consistent_of_run contract (ran.trans later)
  refine ⟨last, later, fun thread => ?_⟩
  obtain ⟨replies, done⟩ := returned thread
  rw [done, result_of_done consistent done]
  exact congrArg Prog.done ((sessions thread).eval_serve rs target)

end Schedules

/-- One client counts the tokens of ` world` and the other asks for them. -/
def twoClients (client : Bool) : Session :=
  .call (if client then .tokenize else .countTokens)
    ⟨1, [⟨.utf8, [some " world"], by decide⟩], by decide⟩ fun _ => .finish

/-- Both need the default encoder and no other. -/
theorem needs_two_clients (client : Bool) (encoding : Encoding) :
    (twoClients client).Needs Greedy.crate .native encoding ↔ encoding = .cl100kBase := by
  constructor
  · rintro (⟨_, i, ⟨inside, _⟩, needed⟩ | none)
    · have first : i = 0 := Nat.lt_one_iff.mp inside
      subst first
      cases client <;> exact (Option.some.inj needed).symm
    · exact none.elim
  · rintro rfl
    have reached (kinds : List Kind) (cell : RecordBatch → Nat → Option Datum)
        (batch : RecordBatch) (rows : 0 < batch.numRows) : Reached kinds cell batch 0 :=
      ⟨rows, nofun, Nat.zero_le _, Nat.zero_le _⟩
    cases client
    · exact Or.inl ⟨Nat.le_refl 1, 0, reached _ _ _ Nat.one_pos, rfl⟩
    · exact Or.inl ⟨Nat.le_refl 1, 0, reached _ _ _ Nat.one_pos, rfl⟩

/-- A run of them that ends, over cells that block. -/
theorem run_two_clients : ∃ state,
    Schedule (Encoding.bpe Greedy.crate)
      (start (blocking Bool Encoding CoreBPE) (threads Greedy.crate .native twoClients)) state ∧
    ∀ client, ∃ replies, state.threads client = .done replies :=
  exists_run blocking_getOrInit (blocking_callsReturn _) .refl

/-- Both get the replies of the functions over encoders. -/
theorem shared_replies_two_clients : ∃ state,
    Schedule (Encoding.bpe Greedy.crate)
      (start (blocking Bool Encoding CoreBPE) (threads Greedy.crate .native twoClients)) state ∧
    ∀ client, state.threads client =
      .done ((twoClients client).replies Greedy.crate .native) := by
  obtain ⟨state, ran, returned⟩ := run_two_clients
  refine ⟨state, ran, fun client => ?_⟩
  obtain ⟨replies, done⟩ := returned client
  have replied := shared_replies Greedy.crate .native twoClients blocking_getOrInit ran
  rw [done, replied.1 client replies done]

/-- The cell of that encoder is filled then, and no other. -/
theorem cells_filled_on_demand_two_clients : ∃ state,
    Schedule (Encoding.bpe Greedy.crate)
      (start (blocking Bool Encoding CoreBPE) (threads Greedy.crate .native twoClients)) state ∧
    ∀ encoding, (blocking Bool Encoding CoreBPE).get state.shared encoding ≠ none ↔
      encoding = .cl100kBase := by
  obtain ⟨state, ran, returned⟩ := run_two_clients
  have demand := cells_filled_on_demand Greedy.crate .native twoClients blocking_getOrInit ran
  refine ⟨state, ran, fun encoding => ⟨fun filled => ?_, fun default => ?_⟩⟩
  · obtain ⟨client, needed⟩ := demand.1 encoding filled
    exact (needs_two_clients client encoding).mp needed
  · obtain ⟨replies, done⟩ := returned true
    have needed := (needs_two_clients true encoding).mpr default
    rw [demand.2 true replies done encoding needed]
    exact Option.some_ne_none _

/-- The first to ask fills it while the other waits, and both get their replies. -/
theorem sessions_end_two_clients : ∃ state,
    Schedule (Encoding.bpe Greedy.crate)
      (start (blocking Bool Encoding CoreBPE) (threads Greedy.crate .native twoClients)) state ∧
    state.shared = Function.update (fun _ => .empty) .cl100kBase (.filling false) ∧
    ∃ last, Schedule (Encoding.bpe Greedy.crate) state last ∧ ∀ client, last.threads client =
      .done ((twoClients client).replies Greedy.crate .native) := by
  have claimed : Schedule (Encoding.bpe Greedy.crate)
      (start (blocking Bool Encoding CoreBPE) (threads Greedy.crate .native twoClients))
      ⟨Function.update (fun _ => .empty) .cl100kBase (.filling false),
        threads Greedy.crate .native twoClients⟩ :=
    .single (.waits rfl (Slot.Step.claims rfl))
  exact ⟨_, claimed, rfl, sessions_end Greedy.crate .native twoClients blocking_getOrInit
    (blocking_callsReturn _) claimed⟩

end TiktokenWorker

import TiktokenWorker.ArrowIo
import TiktokenWorker.Chunking
import TiktokenWorker.Machine

/-!
# Chunking on machine integers

The windows of `chunk` with the arithmetic of a `usize`: each of its operations panics where it
overflows, and so does a slice out of bounds. None of them does. The sum of a start and the size of
a window is computed after the loop could have ended; what keeps it small is that a window with a
predecessor is smaller than the vector, whose length is a fraction of what a `usize` counts.
-/

namespace TiktokenWorker

open Arrow Machine Sliding

/-- Machine integers that count items in memory. -/
abbrev Usize (target : Target) := BitVec target.usizeBits

variable {target : Target}

/-! ## Vectors -/

/-- A vector of tokens. No vector takes more than `isize::MAX` bytes, and a token takes four. -/
structure TokenVec (target : Target) where
  tokens : List UInt32
  allocated : 4 * tokens.length ≤ 2 ^ (target.usizeBits - 1) - 1

namespace TokenVec

/-- Four times a length is one a `usize` counts. -/
theorem four_mul_length_lt (vec : TokenVec target) :
    4 * vec.tokens.length < 2 ^ target.usizeBits := by
  have allocated := vec.allocated
  have half : 2 ^ (target.usizeBits - 1) ≤ 2 ^ target.usizeBits :=
    Nat.pow_le_pow_right (by decide) (Nat.sub_le _ 1)
  have positive : 0 < 2 ^ (target.usizeBits - 1) := Nat.two_pow_pos _
  omega

/-- Length of a vector. -/
def len (vec : TokenVec target) : Usize target := BitVec.ofNat _ vec.tokens.length

/-- A vector has as many tokens as its length says. -/
theorem len_toNat (vec : TokenVec target) : vec.len.toNat = vec.tokens.length := by
  have fits := vec.four_mul_length_lt
  rw [len, BitVec.toNat_ofNat, Nat.mod_eq_of_lt (by omega)]

/-- The tokens from `start` to `stop`. -/
def slice (vec : TokenVec target) (start stop : Usize target) : Run Unit (List UInt32) :=
  if stop < start then
    .error (.panic s!"slice index starts at {start.toNat} but ends at {stop.toNat}")
  else if vec.len < stop then
    .error (.panic
      s!"range end index {stop.toNat} out of range for slice of length {vec.len.toNat}")
  else .ok (vec.tokens.extract start.toNat stop.toNat)

/-- A slice within its bounds. -/
theorem slice_ok (vec : TokenVec target) {start stop : Usize target}
    (ordered : start.toNat ≤ stop.toNat) (within : stop.toNat ≤ vec.tokens.length) :
    vec.slice start stop = .ok (vec.tokens.extract start.toNat stop.toNat) := by
  rw [slice, if_neg, if_neg]
  · rw [BitVec.lt_def, vec.len_toNat]
    omega
  · rw [BitVec.lt_def]
    omega

end TokenVec

/-! ## The loop -/

/-- `+`, of a `usize`. -/
def addUsize (a b : Usize target) : Run Unit (Usize target) :=
  match checkedAdd a b with
  | some sum => .ok sum
  | none => .error (.panic "attempt to add with overflow")

/-- `-`, of a `usize`. -/
def subUsize (a b : Usize target) : Run Unit (Usize target) :=
  match checkedSub a b with
  | some difference => .ok difference
  | none => .error (.panic "attempt to subtract with overflow")

/-- The variables of the loop. -/
structure ChunkState (target : Target) where
  start : Usize target
  out : List String
  /-- Bounds of the slices taken so far, one for each round. -/
  slices : List (Usize target × Usize target)

variable (rs : TiktokenRs)

/-- One round of the loop. -/
def chunkRound (vec : TokenVec target) (maxTokens step : Usize target) (encoding : Encoding)
    (state : ChunkState target) : Run Unit (Flow (ChunkState target)) := do
  let stop := minWord (← addUsize state.start maxTokens) vec.len
  let slice ← vec.slice state.start stop
  let out := state.out ++ [decode rs slice encoding]
  let slices := state.slices ++ [(state.start, stop)]
  if stop = vec.len then .ok (.stop { state with out, slices })
  else .ok (.next { start := ← addUsize state.start step, out, slices })

/-- What `chunk` does with the tokens of a text, for as many rounds of its loop as there is
fuel. -/
def chunkTokens (vec : TokenVec target) (maxTokens overlap : Usize target) (encoding : Encoding)
    (fuel : Nat) : Run Unit (Option (ChunkState target)) := do
  let overlap := minWord overlap (saturatingSub maxTokens 1)
  let step ← subUsize maxTokens overlap
  loop (fun state => state.start < vec.len) (chunkRound rs vec maxTokens step encoding) fuel
    { start := 0, out := [], slices := [] }

/-- `chunk`, on machine integers. A text whose tokens no vector holds panics where they are
collected. -/
def chunkUsize (text : String) (maxTokens overlap : Usize target) (encoding : Encoding)
    (fuel : Nat) : Run Unit (Option (List String)) :=
  if text.isEmpty ∨ maxTokens = 0 then .ok (some [])
  else
    let tokens := (encoding.bpe rs).encodeOrdinary text
    if allocated : 4 * tokens.length ≤ 2 ^ (target.usizeBits - 1) - 1 then
      if tokens.isEmpty then .ok (some [])
      else do
        let final ← chunkTokens rs ⟨tokens, allocated⟩ maxTokens overlap encoding fuel
        .ok (final.map ChunkState.out)
    else .error (.panic "capacity overflow")

/-! ## Safety and termination -/

/-- A sum that fits does not panic. -/
theorem addUsize_of_fits {a b : Usize target} (fits : a.toNat + b.toNat < 2 ^ target.usizeBits) :
    ∃ sum, addUsize a b = .ok sum ∧ sum.toNat = a.toNat + b.toNat := by
  obtain ⟨sum, checked, value⟩ := checkedAdd_of_fits fits
  exact ⟨sum, by rw [addUsize, checked], value⟩

/-- A difference that fits does not panic. -/
theorem subUsize_of_fits {a b : Usize target} (fits : b.toNat ≤ a.toNat) :
    ∃ difference, subUsize a b = .ok difference ∧ difference.toNat = a.toNat - b.toNat := by
  obtain ⟨difference, checked, value⟩ := checkedSub_of_fits fits
  exact ⟨difference, by rw [subUsize, checked], value⟩

variable (vec : TokenVec target) (window : Window) (encoding : Encoding)

/-- Every slice taken so far holds a token and ends within the vector. -/
def InBounds (slices : List (Usize target × Usize target)) : Prop :=
  ∀ bounds ∈ slices, bounds.1.toNat < bounds.2.toNat ∧ bounds.2.toNat ≤ vec.tokens.length

/-- What the slices taken so far decode to. -/
def decoded (slices : List (Usize target × Usize target)) : List String :=
  slices.map fun bounds =>
    decode rs (vec.tokens.extract bounds.1.toNat bounds.2.toNat) encoding

/-- The chunks of all windows from one value of `start` on, after those emitted so far. -/
def chunksFrom (start : Nat) (out : List String) : List String :=
  chunkLoop rs vec.tokens window.size window.step encoding window.step_pos start out

/-- The number of tokens from the start of a window on. -/
def remaining (state : ChunkState target) : Nat := vec.tokens.length - state.start.toNat

/-- The loop is at a window, with a slice taken for each one before it. -/
structure AtWindow (i : Nat) (state : ChunkState target) : Prop where
  exists_window : i < window.count vec.tokens.length
  start : state.start.toNat = window.start i
  rounds : state.slices.length = i
  inBounds : InBounds vec state.slices
  emitted : state.out = decoded rs vec encoding state.slices
  agrees : chunksFrom rs vec window encoding 0 [] =
    chunksFrom rs vec window encoding (window.start i) state.out

/-- The loop has ended, after no more rounds than there are tokens and with the chunks of all
windows. -/
structure Chunked (final : ChunkState target) : Prop where
  rounds : final.slices.length ≤ vec.tokens.length
  inBounds : InBounds vec final.slices
  emitted : final.out = decoded rs vec encoding final.slices
  out : final.out = chunksFrom rs vec window encoding 0 []

variable {rs vec window encoding}

/-- The sum of a start and the size of a window fits: the first window starts at zero, and the
size of one with a predecessor is less than the length. -/
theorem start_add_size_lt {i : Nat} (fits : window.size < 2 ^ target.usizeBits)
    (nonempty : 0 < vec.tokens.length) (exists_window : i < window.count vec.tokens.length) :
    window.start i + window.size < 2 ^ target.usizeBits := by
  have room := vec.four_mul_length_lt
  have inside := window.start_lt nonempty exists_window
  cases i with
  | zero => rwa [window.start_zero, Nat.zero_add]
  | succ i =>
    have before := (window.succ_lt_count_iff vec.tokens.length i).mp exists_window
    omega

/-- A slice that holds a token and ends within the vector keeps all slices so. -/
theorem InBounds.append {slices : List (Usize target × Usize target)} {start stop : Usize target}
    (inBounds : InBounds vec slices) (ordered : start.toNat < stop.toNat)
    (within : stop.toNat ≤ vec.tokens.length) : InBounds vec (slices ++ [(start, stop)]) := by
  intro bounds member
  rcases List.mem_append.mp member with earlier | new
  · exact inBounds bounds earlier
  · cases List.mem_singleton.mp new
    exact ⟨ordered, within⟩

/-- One round at a window takes its slice, and either goes on at the next window or ends the loop
at the last one. -/
theorem AtWindow.round {i : Nat} {state : ChunkState target} {maxTokens step : Usize target}
    (size : maxTokens.toNat = window.size) (steps : step.toNat = window.step)
    (at_window : AtWindow rs vec window encoding i state) (nonempty : 0 < vec.tokens.length) :
    (∃ later, chunkRound rs vec maxTokens step encoding state = .ok (.next later) ∧
        AtWindow rs vec window encoding (i + 1) later) ∨
      ∃ final, chunkRound rs vec maxTokens step encoding state = .ok (.stop final) ∧
        Chunked rs vec window encoding final := by
  have size_fits : window.size < 2 ^ target.usizeBits := size ▸ maxTokens.isLt
  have sum_fits := start_add_size_lt size_fits nonempty at_window.exists_window
  rw [← at_window.start, ← size] at sum_fits
  obtain ⟨sum, added, value⟩ := addUsize_of_fits sum_fits
  have stop_value : (minWord sum vec.len).toNat = window.stop vec.tokens.length i := by
    rw [minWord_toNat, value, vec.len_toNat, at_window.start, size, Window.stop]
  have inside := window.start_lt nonempty at_window.exists_window
  have ordered := window.start_lt_stop nonempty at_window.exists_window
  have within : window.stop vec.tokens.length i ≤ vec.tokens.length := min_le_right _ _
  rw [← at_window.start, ← stop_value] at ordered
  rw [← stop_value] at within
  have sliced := vec.slice_ok ordered.le within
  have inBounds := at_window.inBounds.append ordered within
  have agrees := at_window.agrees
  rw [chunksFrom, chunksFrom, chunkLoop_step rs vec.tokens window encoding nonempty i
    at_window.exists_window state.out] at agrees
  have held : vec.tokens.extract state.start.toNat (minWord sum vec.len).toNat =
      window.slice vec.tokens i := by
    rw [at_window.start, stop_value, Window.slice]
  have emitted : state.out ++ [decode rs (window.slice vec.tokens i) encoding] =
      decoded rs vec encoding (state.slices ++ [(state.start, minWord sum vec.len)]) := by
    rw [decoded, List.map_append, List.map_singleton, held, at_window.emitted, decoded]
  have ends : minWord sum vec.len = vec.len ↔ ¬i + 1 < window.count vec.tokens.length := by
    rw [← BitVec.toNat_inj, stop_value, vec.len_toNat, window.stop_eq_length_iff]
  by_cases next : i + 1 < window.count vec.tokens.length
  · -- the next window starts within the vector, so its start fits too
    have later_inside := window.start_lt nonempty next
    have room := vec.four_mul_length_lt
    rw [window.start_succ] at later_inside
    obtain ⟨start, advanced, start_value⟩ := addUsize_of_fits
      (show state.start.toNat + step.toNat < 2 ^ target.usizeBits by
        rw [at_window.start, steps]
        omega)
    rw [if_pos next] at agrees
    refine Or.inl ⟨{ start, out := _, slices := _ }, ?_, next, ?_, ?_, inBounds, emitted, agrees⟩
    · simp [chunkRound, added, sliced, held, ends, next, advanced, bind, Except.bind]
    · rw [start_value, at_window.start, steps, window.start_succ]
    · rw [List.length_append, at_window.rounds]
      rfl
  · rw [if_neg next] at agrees
    refine Or.inr ⟨{ state with out := _, slices := _ }, ?_, ?_, inBounds, emitted, agrees.symm⟩
    · simp [chunkRound, added, sliced, held, ends, next, bind, Except.bind]
    · have rounds := window.le_start i
      rw [List.length_append, at_window.rounds, List.length_singleton]
      omega

/-- The loop goes on while its window starts within the vector. -/
theorem start_lt_len {state : ChunkState target} {i : Nat}
    (at_window : AtWindow rs vec window encoding i state) :
    state.start < vec.len ↔ window.start i < vec.tokens.length := by
  rw [BitVec.lt_def, vec.len_toNat, at_window.start]

/-- A loop that does not go on at a window has no tokens to chunk. -/
theorem AtWindow.leaves {i : Nat} {state : ChunkState target}
    (at_window : AtWindow rs vec window encoding i state) (left : ¬state.start < vec.len) :
    Chunked rs vec window encoding state := by
  rw [start_lt_len at_window] at left
  have empty : vec.tokens.length = 0 := by
    by_contra nonempty
    exact left (window.start_lt (Nat.pos_of_ne_zero nonempty) at_window.exists_window)
  have first : i = 0 := by
    have single : window.count 0 = 1 := if_pos (Nat.zero_le _)
    have exists_window := at_window.exists_window
    rw [empty, single] at exists_window
    omega
  refine ⟨?_, at_window.inBounds, at_window.emitted, ?_⟩
  · rw [at_window.rounds, first]
    exact Nat.zero_le _
  · rw [at_window.agrees, chunksFrom, chunkLoop, if_neg left]

/-- The loop ends from any of its windows, within as many rounds as tokens are left there. -/
theorem AtWindow.loop {i : Nat} {state : ChunkState target} {maxTokens step : Usize target}
    (size : maxTokens.toNat = window.size) (steps : step.toNat = window.step)
    (at_window : AtWindow rs vec window encoding i state) {fuel : Nat}
    (enough : remaining vec state ≤ fuel) :
    ∃ final, loop (fun state => decide (state.start < vec.len))
        (chunkRound rs vec maxTokens step encoding) fuel state = .ok (some final) ∧
      Chunked rs vec window encoding final := by
  refine loop_total (fun state => ∃ i, AtWindow rs vec window encoding i state) (remaining vec)
    ?_ ?_ ⟨i, at_window⟩ enough
  · rintro state ⟨i, at_window⟩ left
    exact at_window.leaves (of_decide_eq_false left)
  · rintro state ⟨i, at_window⟩ entered
    have inside := (start_lt_len at_window).mp (of_decide_eq_true entered)
    have positive := window.step_pos
    rcases at_window.round size steps (Nat.zero_lt_of_lt inside) with
      ⟨later, goes_on, next⟩ | ⟨final, ends, chunked⟩
    · refine Or.inl ⟨later, goes_on, ⟨i + 1, next⟩, ?_⟩
      rw [remaining, remaining, next.start, at_window.start, window.start_succ]
      omega
    · refine Or.inr ⟨final, ends, chunked, ?_⟩
      rw [remaining, at_window.start]
      omega

/-- The loop starts at the first window. -/
theorem AtWindow.first (rs : TiktokenRs) (vec : TokenVec target) (window : Window)
    (encoding : Encoding) :
    AtWindow rs vec window encoding 0 { start := 0, out := [], slices := [] } where
  exists_window := window.count_pos _
  start := by simp
  rounds := rfl
  inBounds := fun bounds member => by cases member
  emitted := rfl
  agrees := by rw [window.start_zero]

/-- The loop starts at the first window with the size and the step of the clamp, and ends. -/
theorem chunkTokens_chunked (rs : TiktokenRs) (vec : TokenVec target)
    (maxTokens overlap : Usize target) (encoding : Encoding) (positive : 1 ≤ maxTokens.toNat)
    {fuel : Nat} (enough : vec.tokens.length ≤ fuel) :
    ∃ final, chunkTokens rs vec maxTokens overlap encoding fuel = .ok (some final) ∧
      Chunked rs vec (chunkWindow maxTokens.toNat overlap.toNat positive) encoding final := by
  have one : (1 : Usize target).toNat = 1 := by
    cases target with
    | native => rfl
    | wasm32 => rfl
  have clamped : (minWord overlap (saturatingSub maxTokens 1)).toNat =
      min overlap.toNat (maxTokens.toNat - 1) := by
    rw [minWord_toNat, saturatingSub_toNat, one]
  obtain ⟨step, subtracted, value⟩ := subUsize_of_fits
    (show (minWord overlap (saturatingSub maxTokens 1)).toNat ≤ maxTokens.toNat by omega)
  rw [clamped] at value
  have first := AtWindow.first rs vec (chunkWindow maxTokens.toNat overlap.toNat positive) encoding
  obtain ⟨final, run, chunked⟩ := first.loop rfl value ((Nat.sub_le _ _).trans enough)
  refine ⟨final, ?_, chunked⟩
  simp only [chunkTokens, subtracted, bind, Except.bind]
  exact run

/-- On machine integers `chunk` returns what it does on natural numbers. -/
theorem chunkUsize_eq (rs : TiktokenRs) (text : String) (maxTokens overlap : Usize target)
    (encoding : Encoding)
    (allocated : 4 * ((encoding.bpe rs).encodeOrdinary text).length ≤
      2 ^ (target.usizeBits - 1) - 1) {fuel : Nat}
    (enough : ((encoding.bpe rs).encodeOrdinary text).length ≤ fuel) :
    chunkUsize rs text maxTokens overlap encoding fuel =
      .ok (some (chunk rs text maxTokens.toNat overlap.toNat encoding)) := by
  have zero : maxTokens = 0 ↔ maxTokens.toNat = 0 := by
    rw [← BitVec.toNat_inj]
    simp
  by_cases refused : text.isEmpty = true ∨ maxTokens.toNat = 0
  · rw [chunkUsize, chunk, dif_pos refused, if_pos (by rwa [zero])]
  · rw [chunkUsize, chunk, dif_neg refused, if_neg (by rwa [zero])]
    by_cases empty : ((encoding.bpe rs).encodeOrdinary text).isEmpty = true
    · simp only [dif_pos allocated, if_pos empty]
    · obtain ⟨final, run, chunked⟩ := chunkTokens_chunked rs ⟨_, allocated⟩ maxTokens overlap
        encoding (Nat.pos_of_ne_zero fun none => refused (Or.inr none)) enough
      have chunks := chunked.out
      simp only [dif_pos allocated, if_neg empty, run, bind, Except.bind, Option.map_some, chunks]
      rfl

/-- Chunking the tokens of any vector with any machine integers neither overflows nor underflows,
takes no slice that is empty or leaves the vector, and ends within as many rounds as there are
tokens, with what its slices decode to, which are the chunks it has on natural numbers. -/
theorem chunkTokens_total (rs : TiktokenRs) (target : Target) (vec : TokenVec target)
    (maxTokens overlap : Usize target) (encoding : Encoding) (positive : 1 ≤ maxTokens.toNat)
    (fuel : Nat) (enough : vec.tokens.length ≤ fuel) :
    let window := chunkWindow maxTokens.toNat overlap.toNat positive
    ∃ final, chunkTokens rs vec maxTokens overlap encoding fuel = .ok (some final) ∧
      final.slices.length ≤ vec.tokens.length ∧
      (∀ bounds ∈ final.slices,
        bounds.1.toNat < bounds.2.toNat ∧ bounds.2.toNat ≤ vec.tokens.length) ∧
      (final.out = final.slices.map fun bounds =>
        decode rs (vec.tokens.extract bounds.1.toNat bounds.2.toNat) encoding) ∧
      final.out =
        chunkLoop rs vec.tokens window.size window.step encoding window.step_pos 0 [] := by
  obtain ⟨final, run, chunked⟩ :=
    chunkTokens_chunked rs vec maxTokens overlap encoding positive enough
  exact ⟨final, run, chunked.rounds, chunked.inBounds, chunked.emitted, chunked.out⟩

/-- Two tokens in one window of the largest size, with the largest overlap. -/
theorem chunkTokens_total_largest :
    ∃ final, chunkTokens Greedy.crate (⟨[15339, 1917], by decide⟩ : TokenVec .native)
        (BitVec.allOnes 64) (BitVec.allOnes 64) .cl100kBase 2 = .ok (some final) ∧
      final.slices.length ≤ 2 ∧ final.out.length = final.slices.length := by
  obtain ⟨final, run, rounds, _, emitted, _⟩ := chunkTokens_total Greedy.crate .native
    ⟨[15339, 1917], by decide⟩ (BitVec.allOnes 64) (BitVec.allOnes 64) .cl100kBase (by decide) 2
    (by decide)
  exact ⟨final, run, rounds, by rw [emitted, List.length_map]⟩

end TiktokenWorker

import TiktokenWorker.Budget

/-!
# Reading returned text back

The documentation of `chunk` says that the chunks without their overlap cover the input, and the
tests check it by tokenizing the chunks again and leaving out the overlap. Both depend on where the
windows end. A boundary between characters splits the text there; when those of a window do, the
window decodes to a piece of the text, and for an encoder that keeps the runs of the text the piece
has the tokens of the window again.
-/

namespace TiktokenWorker

open Utf8 Sliding

/-! ## Boundaries between characters -/

variable (rs : TiktokenRs)

section Boundaries

variable {text : String} {encoding : Encoding} (level : (encoding.bpe rs).ByteLevel)

include level

/-- Encoders that keep the runs of a text give that piece the tokens of the window. -/
theorem tokenize_decode_aligned (keeps : (encoding.bpe rs).KeepsRuns text) {s e : Nat}
    (ordered : s ≤ e) (begins : Aligned rs text encoding s) (ends : Aligned rs text encoding e) :
    tokenize rs (decode rs (((encoding.bpe rs).encodeOrdinary text).extract s e) encoding) encoding
      = ((encoding.bpe rs).encodeOrdinary text).extract s e := by
  have run : ((encoding.bpe rs).encodeOrdinary text).extract s e <:+:
      (encoding.bpe rs).encodeOrdinary text := by
    rw [List.extract_eq_take_drop]
    exact (List.take_prefix _ _).isInfix.trans (List.drop_suffix _ _).isInfix
  have bytes := bytesOf_aligned rs level ordered begins ends
  rw [tokenize_eq_encode rs encoding level]
  exact keeps _ _ run bytes

/-- A window decodes to what the two parts do that an aligned boundary cuts it into. -/
theorem decode_split_aligned {s m e : Nat} (first : s ≤ m) (second : m ≤ e)
    (aligned : Aligned rs text encoding m) :
    decode rs (((encoding.bpe rs).encodeOrdinary text).extract s e) encoding =
      decode rs (((encoding.bpe rs).encodeOrdinary text).extract s m) encoding ++
        decode rs (((encoding.bpe rs).encodeOrdinary text).extract m e) encoding := by
  have low := (encoding.bpe rs).boundary_mono ((encoding.bpe rs).encodeOrdinary text) first
  have high := (encoding.bpe rs).boundary_mono ((encoding.bpe rs).encodeOrdinary text) second
  have split := decodedWindow_split text.toList low high (boundary_le rs level m) aligned
  rw [decode_extract rs encoding level text (first.trans second),
    decode_extract rs encoding level text first, decode_extract rs encoding level text second,
    split, String.ofList_append]

end Boundaries

/-! ## Chunks without what they share -/

/-- There is a chunk for every window of the tokens of a text. -/
theorem length_chunk {text : String} {encoding : Encoding} {maxTokens : Nat} (overlap : Nat)
    (level : (encoding.bpe rs).ByteLevel) (positive : 1 ≤ maxTokens) (nonempty : text ≠ "") :
    (chunk rs text maxTokens overlap encoding).length =
      (chunkWindow maxTokens overlap positive).count
        ((encoding.bpe rs).encodeOrdinary text).length := by
  rw [chunk_eq_windows rs text encoding maxTokens overlap positive nonempty
    (level.encodesText text nonempty), List.length_map, List.length_range]

/-- Offset up to which the first windows of a text cover it. -/
def coveredTo (window : Window) (bpe : CoreBPE) (ids : List UInt32) : Nat → Nat
  | 0 => 0
  | windows + 1 => bpe.boundary ids (window.stop ids.length windows)

section Cover

variable {text : String} {encoding : Encoding} (level : (encoding.bpe rs).ByteLevel)
  (window : Window) (nonempty : text ≠ "")

include level nonempty

/-- Each window covers more of the text than the ones before it. -/
theorem coveredTo_lt {i : Nat}
    (inside : i < window.count ((encoding.bpe rs).encodeOrdinary text).length) :
    coveredTo window (encoding.bpe rs) ((encoding.bpe rs).encodeOrdinary text) i <
      coveredTo window (encoding.bpe rs) ((encoding.bpe rs).encodeOrdinary text) (i + 1) := by
  have tokens := List.length_pos_iff.mpr (level.encodesText text nonempty)
  cases i with
  | zero =>
    have ordered := window.start_lt_stop tokens inside
    rw [Window.start_zero] at ordered
    have apart := level.boundary_spread text ordered.le (Nat.min_le_right _ _)
    rw [CoreBPE.boundary_zero] at apart
    simp only [coveredTo]
    omega
  | succ i =>
    have further := window.stop_lt_stop_succ inside
    have apart := level.boundary_spread text further.le (Nat.min_le_right _ _)
    simp only [coveredTo]
    omega

omit nonempty in
/-- All of them cover all of it. -/
theorem coveredTo_count :
    coveredTo window (encoding.bpe rs) ((encoding.bpe rs).encodeOrdinary text)
        (window.count ((encoding.bpe rs).encodeOrdinary text).length) =
      (utf8 text.toList).length := by
  have some_window := window.count_pos ((encoding.bpe rs).encodeOrdinary text).length
  obtain ⟨last, total⟩ : ∃ last,
      window.count ((encoding.bpe rs).encodeOrdinary text).length = last + 1 :=
    ⟨_, (Nat.sub_add_cancel some_window).symm⟩
  rw [total, coveredTo, window.stop_of_last (by omega)]
  exact boundary_of_length_le rs encoding level text le_rfl

/-- The first window and what each later one adds decode to the run of windows between the offsets
that are covered. -/
theorem join_added_eq_run :
    String.join (decode rs (window.slice ((encoding.bpe rs).encodeOrdinary text) 0) encoding ::
        (List.range (window.count ((encoding.bpe rs).encodeOrdinary text).length - 1)).map fun i =>
          decode rs (((encoding.bpe rs).encodeOrdinary text).extract
            (window.stop ((encoding.bpe rs).encodeOrdinary text).length i)
            (window.stop ((encoding.bpe rs).encodeOrdinary text).length (i + 1))) encoding) =
      String.ofList (decodedRun text.toList
        (coveredTo window (encoding.bpe rs) ((encoding.bpe rs).encodeOrdinary text))
        (window.count ((encoding.bpe rs).encodeOrdinary text).length)) := by
  have tokens := List.length_pos_iff.mpr (level.encodesText text nonempty)
  have some_window := window.count_pos ((encoding.bpe rs).encodeOrdinary text).length
  obtain ⟨last, total⟩ : ∃ last,
      window.count ((encoding.bpe rs).encodeOrdinary text).length = last + 1 :=
    ⟨_, (Nat.sub_add_cancel some_window).symm⟩
  have first := window.start_lt_stop tokens some_window
  rw [Window.start_zero] at first
  apply String.toList_inj.mp
  rw [String.toList_join, String.toList_ofList, decodedRun, total, Nat.add_sub_cancel,
    List.range_succ_eq_map, List.flatMap_cons, List.flatMap_cons, List.flatMap_map,
    List.flatMap_map]
  congr 1
  · rw [Window.slice, Window.start_zero, decode_extract rs encoding level text first.le,
      String.toList_ofList, CoreBPE.boundary_zero]
    rfl
  · apply List.flatMap_congr
    intro i inside
    have next : i + 1 < window.count ((encoding.bpe rs).encodeOrdinary text).length := by
      have := List.mem_range.mp inside
      omega
    have further := window.stop_lt_stop_succ next
    rw [decode_extract rs encoding level text further.le, String.toList_ofList]
    rfl

/-- They make up the text exactly when no window before the last ends inside a character. -/
theorem join_added_eq_iff :
    String.join (decode rs (window.slice ((encoding.bpe rs).encodeOrdinary text) 0) encoding ::
        (List.range (window.count ((encoding.bpe rs).encodeOrdinary text).length - 1)).map fun i =>
          decode rs (((encoding.bpe rs).encodeOrdinary text).extract
            (window.stop ((encoding.bpe rs).encodeOrdinary text).length i)
            (window.stop ((encoding.bpe rs).encodeOrdinary text).length (i + 1))) encoding) = text ↔
      ∀ i, i + 1 < window.count ((encoding.bpe rs).encodeOrdinary text).length →
        Aligned rs text encoding
          (window.stop ((encoding.bpe rs).encodeOrdinary text).length i) := by
  have exactly := decodedRun_eq_iff text.toList
    (coveredTo window (encoding.bpe rs) ((encoding.bpe rs).encodeOrdinary text)) rfl _
    (coveredTo_count rs level window)
    (fun i inside => coveredTo_lt rs level window nonempty inside)
  rw [join_added_eq_run rs level window nonempty, ← String.toList_inj, String.toList_ofList,
    exactly]
  constructor
  · exact fun outside i next => outside (i + 1) next
  · intro aligned i inside
    cases i with
    | zero => exact not_insideChar_zero _
    | succ i => exact aligned i inside

end Cover

/-- What the chunks of a text cover: the first one and the text that each later one adds make up
the text exactly when no window before the last ends inside a character; a chunk is the text its
window shares with the one before, and what it adds, if that one ends between characters; and the
chunk before ends with the shared text if the window starts between characters. -/
theorem chunks_cover (text : String) (encoding : Encoding) (maxTokens overlap : Nat)
    (level : (encoding.bpe rs).ByteLevel) (positive : 1 ≤ maxTokens) :
    let toks := (encoding.bpe rs).encodeOrdinary text
    let ov := min overlap (maxTokens - 1)
    let step := maxTokens - ov
    let chunks := chunk rs text maxTokens overlap encoding
    let stop := fun i => min (i * step + maxTokens) toks.length
    let shared := fun i => decode rs (toks.extract ((i + 1) * step) (stop i)) encoding
    let added := fun i => decode rs (toks.extract (stop i) (stop (i + 1))) encoding
    (String.join (chunks.take 1 ++ (List.range (chunks.length - 1)).map added) = text ↔
      ∀ i, i + 1 < chunks.length → Aligned rs text encoding (stop i)) ∧
    (∀ i, i + 1 < chunks.length → Aligned rs text encoding (stop i) →
      chunks[i + 1]? = some (shared i ++ added i)) ∧
    ∀ i, i + 1 < chunks.length → Aligned rs text encoding ((i + 1) * step) →
      chunks[i]? = some (decode rs (toks.extract (i * step) ((i + 1) * step)) encoding ++
        shared i) := by
  intro toks ov step chunks stop shared added
  by_cases nonempty : text = ""
  · have none : chunks = [] := chunk_of_refused rs (Or.inl nonempty) overlap encoding
    simp [none, nonempty]
  let window := chunkWindow maxTokens overlap positive
  have tokens := level.encodesText text nonempty
  have length : chunks.length = window.count toks.length :=
    length_chunk rs overlap level positive nonempty
  have getChunk {i : Nat} (inside : i < window.count toks.length) :
      chunks[i]? = some (decode rs (window.slice toks i) encoding) :=
    chunk_getElem? rs text encoding maxTokens overlap positive nonempty tokens inside
  refine ⟨?_, ?_, ?_⟩
  · have first : chunks.take 1 = [decode rs (window.slice toks 0) encoding] := by
      have some_window := window.count_pos toks.length
      rw [List.take_one, List.head?_eq_getElem?, getChunk some_window, Option.toList_some]
    rw [first, length]
    exact join_added_eq_iff rs level window nonempty
  · intro i next aligned
    rw [length] at next
    have overlaps := window.stop_eq_start_succ next
    have further := window.stop_lt_stop_succ next
    have shares : window.start (i + 1) ≤ window.stop toks.length i := by omega
    rw [getChunk next]
    exact congrArg some (decode_split_aligned rs level shares further.le aligned)
  · intro i next aligned
    rw [length] at next
    have overlaps := window.stop_eq_start_succ next
    have later := window.start_mono (Nat.le_add_right i 1)
    have shares : window.start (i + 1) ≤ window.stop toks.length i := by omega
    rw [getChunk (by omega)]
    exact congrArg some (decode_split_aligned rs level later shares aligned)

/-- The first window of `a👍` ends inside the second character. -/
theorem chunks_cover_thumb :
    String.join ((chunk Greedy.crate "a👍" 2 1 .cl100kBase).take 1 ++
        (List.range ((chunk Greedy.crate "a👍" 2 1 .cl100kBase).length - 1)).map fun i =>
          decode Greedy.crate ((Greedy.cl100k.bpe.encodeOrdinary "a👍").extract
            (min (i * 1 + 2) 4) (min ((i + 1) * 1 + 2) 4)) .cl100kBase) ≠ "a👍" := by
  have cover := (chunks_cover Greedy.crate "a👍" .cl100kBase 2 1 Greedy.cl100k.bpe_byteLevel
    (by decide)).1
  exact fun same => absurd (cover.mp same 0 (by decide +kernel)) (by decide)

/-! ## Chunks tokenized again -/

/-- What the tests rebuild the tokens of a text from: those of its first chunk, and those of every
later one but the overlap. -/
def stitch (text : String) (maxTokens overlap : Nat) (encoding : Encoding) : List UInt32 :=
  (chunk rs text maxTokens overlap encoding).zipIdx.flatMap fun (c, i) =>
    let ct := tokenize rs c encoding
    if i = 0 then ct else ct.drop (min overlap ct.length)

/-- Windows that each lose the overlap that was asked for make up the sequence exactly when that is
the overlap they have, or when there is one window. -/
theorem Sliding.Window.drop_asked_iff {α : Type*} (window : Window) (items : List α)
    (asked : Nat) (clamped : window.overlap = min asked (window.size - 1)) :
    window.slice items 0 ++ (List.range (window.count items.length - 1)).flatMap
        (fun i => (window.slice items (i + 1)).drop asked) = items ↔
      asked < window.size ∨ items.length ≤ window.size := by
  have rebuilt := window.rebuild items
  have second := window.succ_lt_count_iff items.length 0
  rw [Window.start_zero, Nat.zero_add, Nat.zero_add] at second
  have advances := window.advances
  by_cases kept : asked < window.size
  · have same : window.overlap = asked := by omega
    rw [same] at rebuilt
    exact ⟨fun _ => Or.inl kept, fun _ => rebuilt⟩
  by_cases single : items.length ≤ window.size
  · have one : window.count items.length = 1 := if_pos single
    rw [one, Nat.sub_self, List.range_zero, List.flatMap_nil] at rebuilt ⊢
    exact ⟨fun _ => Or.inr single, fun _ => rebuilt⟩
  · -- every later window is dropped whole, so what is left is the first one
    have nothing : (List.range (window.count items.length - 1)).flatMap
        (fun i => (window.slice items (i + 1)).drop asked) = [] := by
      rw [List.flatMap_eq_nil_iff]
      intro i _
      have bounded := window.length_slice_le items (i + 1)
      exact List.drop_of_length_le (by omega)
    have full := window.length_slice_of_succ (i := 0) (second.mpr (by omega))
    rw [nothing, List.append_nil]
    constructor
    · intro whole
      rw [whole] at full
      omega
    · rintro (asked_fits | fits)
      · exact absurd asked_fits kept
      · exact absurd fits single

/-- Dropping no more than there is drops what was asked for. -/
theorem drop_min_length {α : Type*} (items : List α) (asked : Nat) :
    items.drop (min asked items.length) = items.drop asked := by
  rcases Nat.le_total asked items.length with fewer | more
  · rw [Nat.min_eq_left fewer]
  · rw [Nat.min_eq_right more, List.drop_length, List.drop_of_length_le more]

/-- Values in order of their position. -/
theorem zipIdx_map_range {α : Type*} (value : Nat → α) (n : Nat) :
    ((List.range n).map value).zipIdx = (List.range n).map fun i => (value i, i) := by
  apply List.ext_getElem
  · simp only [List.length_zipIdx, List.length_map]
  · intro i _ _
    simp only [List.getElem_zipIdx, List.getElem_map, List.getElem_range, Nat.zero_add]

/-- Chunks of an encoder that keeps the runs of the text have the tokens of their windows, when
those start and end between characters. -/
theorem tokenize_window {text : String} {encoding : Encoding} {maxTokens overlap : Nat}
    (level : (encoding.bpe rs).ByteLevel) (keeps : (encoding.bpe rs).KeepsRuns text)
    (positive : 1 ≤ maxTokens) (nonempty : text ≠ "")
    (aligned : ∀ i < (chunk rs text maxTokens overlap encoding).length,
      Aligned rs text encoding (i * (maxTokens - min overlap (maxTokens - 1))) ∧
      Aligned rs text encoding (i * (maxTokens - min overlap (maxTokens - 1)) + maxTokens))
    {i : Nat} (inside : i < (chunkWindow maxTokens overlap positive).count
      ((encoding.bpe rs).encodeOrdinary text).length) :
    tokenize rs (decode rs ((chunkWindow maxTokens overlap positive).slice
        ((encoding.bpe rs).encodeOrdinary text) i) encoding) encoding =
      (chunkWindow maxTokens overlap positive).slice
        ((encoding.bpe rs).encodeOrdinary text) i := by
  have tokens := level.encodesText text nonempty
  rw [length_chunk rs overlap level positive nonempty] at aligned
  obtain ⟨begins, ends⟩ := aligned i inside
  have ordered := (chunkWindow maxTokens overlap positive).start_lt_stop
    (List.length_pos_iff.mpr tokens) inside
  refine tokenize_decode_aligned rs level keeps ordered.le begins ?_
  rw [Aligned, Window.stop, CoreBPE.boundary_min]
  exact ends

/-- So a chunk has the tokens of its window, and is not empty. -/
theorem tokenize_chunk {text : String} {encoding : Encoding} {maxTokens overlap : Nat}
    (level : (encoding.bpe rs).ByteLevel) (keeps : (encoding.bpe rs).KeepsRuns text)
    (positive : 1 ≤ maxTokens) (nonempty : text ≠ "")
    (aligned : ∀ i < (chunk rs text maxTokens overlap encoding).length,
      Aligned rs text encoding (i * (maxTokens - min overlap (maxTokens - 1))) ∧
      Aligned rs text encoding (i * (maxTokens - min overlap (maxTokens - 1)) + maxTokens))
    {i : Nat} {piece : String}
    (found : (chunk rs text maxTokens overlap encoding)[i]? = some piece) :
    tokenize rs piece encoding = (chunkWindow maxTokens overlap positive).slice
        ((encoding.bpe rs).encodeOrdinary text) i ∧ piece ≠ "" := by
  have tokens := level.encodesText text nonempty
  have inside := (List.getElem?_eq_some_iff.mp found).1
  rw [length_chunk rs overlap level positive nonempty] at inside
  have decoded := chunk_getElem? rs text encoding maxTokens overlap positive nonempty tokens inside
  rw [found, Option.some.injEq] at decoded
  have again := tokenize_window rs level keeps positive nonempty aligned inside
  rw [← decoded] at again
  refine ⟨again, ?_⟩
  rintro rfl
  have held := congrArg List.length again
  have ordered := (chunkWindow maxTokens overlap positive).start_lt_stop
    (List.length_pos_iff.mpr tokens) inside
  rw [Window.length_slice] at held
  exact absurd held (Nat.sub_pos_of_lt ordered).ne

/-- Nothing is stitched together when there are no chunks. -/
theorem stitch_of_refused {text : String} {maxTokens : Nat} (refused : text = "" ∨ maxTokens = 0)
    (overlap : Nat) (encoding : Encoding) : stitch rs text maxTokens overlap encoding = [] := by
  rw [stitch, chunk_of_refused rs refused overlap encoding]
  rfl

/-- What is stitched together when the chunks have the tokens of their windows. -/
theorem stitch_eq_windows {text : String} {encoding : Encoding} {maxTokens : Nat} (overlap : Nat)
    (level : (encoding.bpe rs).ByteLevel) (positive : 1 ≤ maxTokens) (nonempty : text ≠ "")
    (same : ∀ i < (chunkWindow maxTokens overlap positive).count
        ((encoding.bpe rs).encodeOrdinary text).length,
      tokenize rs (decode rs ((chunkWindow maxTokens overlap positive).slice
          ((encoding.bpe rs).encodeOrdinary text) i) encoding) encoding =
        (chunkWindow maxTokens overlap positive).slice
          ((encoding.bpe rs).encodeOrdinary text) i) :
    stitch rs text maxTokens overlap encoding =
      (chunkWindow maxTokens overlap positive).slice ((encoding.bpe rs).encodeOrdinary text) 0 ++
        (List.range ((chunkWindow maxTokens overlap positive).count
          ((encoding.bpe rs).encodeOrdinary text).length - 1)).flatMap fun i =>
            ((chunkWindow maxTokens overlap positive).slice
              ((encoding.bpe rs).encodeOrdinary text) (i + 1)).drop overlap := by
  have tokens := level.encodesText text nonempty
  have emitted :=
    chunk_eq_windows rs text encoding maxTokens overlap positive nonempty tokens
  have some_window := (chunkWindow maxTokens overlap positive).count_pos
    ((encoding.bpe rs).encodeOrdinary text).length
  obtain ⟨last, total⟩ : ∃ last, (chunkWindow maxTokens overlap positive).count
      ((encoding.bpe rs).encodeOrdinary text).length = last + 1 :=
    ⟨_, (Nat.sub_add_cancel some_window).symm⟩
  rw [total] at emitted same
  rw [stitch, emitted, zipIdx_map_range, List.flatMap_map, total, Nat.add_sub_cancel,
    List.range_succ_eq_map, List.flatMap_cons, List.flatMap_map]
  congr 1
  · exact same 0 (Nat.succ_pos last)
  · apply List.flatMap_congr
    intro i inside
    have window := same (i + 1) (Nat.succ_lt_succ (List.mem_range.mp inside))
    simp only [Nat.succ_eq_add_one, Nat.add_eq_zero_iff, one_ne_zero, and_false, if_false, window,
      drop_min_length]

/-- Chunks of an encoder that keeps the runs of the text, tokenized again: when every window starts
and ends between characters each chunk has the tokens of its window, is within the budget and is
its own only chunk, and leaving out the overlap makes up the tokens of the text exactly when the
overlap is not clamped or there is one window. -/
theorem stitch_eq_iff (text : String) (encoding : Encoding) (maxTokens overlap : Nat)
    (level : (encoding.bpe rs).ByteLevel) (keeps : (encoding.bpe rs).KeepsRuns text)
    (aligned : ∀ i < (chunk rs text maxTokens overlap encoding).length,
      Aligned rs text encoding (i * (maxTokens - min overlap (maxTokens - 1))) ∧
      Aligned rs text encoding (i * (maxTokens - min overlap (maxTokens - 1)) + maxTokens)) :
    let toks := tokenize rs text encoding
    let step := maxTokens - min overlap (maxTokens - 1)
    (∀ i piece, (chunk rs text maxTokens overlap encoding)[i]? = some piece →
      tokenize rs piece encoding =
          toks.extract (i * step) (min (i * step + maxTokens) toks.length) ∧
        count rs piece encoding ≤ maxTokens ∧
        ∀ again, chunk rs piece maxTokens again encoding = [piece]) ∧
    (stitch rs text maxTokens overlap encoding = toks ↔
      overlap < maxTokens ∨ count rs text encoding ≤ maxTokens) := by
  intro toks step
  have counted : count rs text encoding = toks.length := count_eq_length_tokenize rs encoding text
  have listed : toks = (encoding.bpe rs).encodeOrdinary text :=
    tokenize_eq_encode rs encoding level text
  by_cases refused : text = "" ∨ maxTokens = 0
  · have none := chunk_of_refused rs refused overlap encoding
    refine ⟨fun i piece found => ?_, ?_⟩
    · rw [none] at found
      cases found
    · rw [stitch_of_refused rs refused overlap encoding, counted]
      constructor
      · intro empty
        rw [← empty]
        exact Or.inr (Nat.zero_le _)
      · intro enough
        rcases refused with empty | zero
        · rw [listed]
          exact ((level.encode_eq_nil_iff text).mpr empty).symm
        · exact (List.eq_nil_of_length_eq_zero (by omega)).symm
  · rw [not_or] at refused
    obtain ⟨nonempty, some_tokens⟩ := refused
    have positive : 1 ≤ maxTokens := Nat.one_le_iff_ne_zero.mpr some_tokens
    have same (i : Nat) (inside : i < (chunkWindow maxTokens overlap positive).count
        ((encoding.bpe rs).encodeOrdinary text).length) :=
      tokenize_window rs level keeps positive nonempty aligned inside
    refine ⟨fun i piece found => ?_, ?_⟩
    · obtain ⟨again, some_piece⟩ :=
        tokenize_chunk rs level keeps positive nonempty aligned found
      have budget : count rs piece encoding ≤ maxTokens := by
        rw [count_eq_length_tokenize, again]
        exact (chunkWindow maxTokens overlap positive).length_slice_le _ i
      refine ⟨?_, budget, fun overlap => ?_⟩
      · rw [again, listed]
        rfl
      · exact chunk_of_count_le rs encoding level overlap positive some_piece budget
    · rw [stitch_eq_windows rs overlap level positive nonempty same, counted, listed]
      exact (chunkWindow maxTokens overlap positive).drop_asked_iff _ overlap rfl

/-- An overlap of two is left out of windows of four; one of nine was clamped. -/
theorem stitch_eq_iff_great :
    stitch Greedy.crate "tiktoken is great!" 4 2 .cl100kBase =
      tokenize Greedy.crate "tiktoken is great!" .cl100kBase ∧
    stitch Greedy.crate "tiktoken is great!" 4 9 .cl100kBase ≠
      tokenize Greedy.crate "tiktoken is great!" .cl100kBase := by
  have level : (Encoding.cl100kBase.bpe Greedy.crate).ByteLevel := Greedy.cl100k.bpe_byteLevel
  have keeps : (Encoding.cl100kBase.bpe Greedy.crate).KeepsRuns "tiktoken is great!" :=
    Greedy.cl100k.keepsRuns _
  have two := stitch_eq_iff Greedy.crate "tiktoken is great!" .cl100kBase 4 2 level keeps
    (by decide +kernel)
  have nine := stitch_eq_iff Greedy.crate "tiktoken is great!" .cl100kBase 4 9 level keeps
    (by decide +kernel)
  exact ⟨two.2.mpr (by decide), fun same => absurd (nine.2.mp same) (by decide)⟩

/-! ## Tokens of all chunks -/

/-- What chunks cost: they are no more than the tokens of the text, larger windows that share no
more tokens make no more of them, and for an encoder that keeps the runs of the text, when every
window starts and ends between characters, tokenizing the chunks again counts each token of the text
once and the overlap once more for each chunk that has a successor. -/
theorem chunk_cost (text : String) (encoding : Encoding) (maxTokens overlap : Nat)
    (level : (encoding.bpe rs).ByteLevel) (positive : 1 ≤ maxTokens) :
    let pieces := chunk rs text maxTokens overlap encoding
    let shared := min overlap (maxTokens - 1)
    pieces.length ≤ count rs text encoding ∧
    (∀ larger other, maxTokens ≤ larger → min other (larger - 1) ≤ shared →
      (chunk rs text larger other encoding).length ≤ pieces.length) ∧
    ((encoding.bpe rs).KeepsRuns text →
      (∀ i < pieces.length, Aligned rs text encoding (i * (maxTokens - shared)) ∧
        Aligned rs text encoding (i * (maxTokens - shared) + maxTokens)) →
      (pieces.map fun piece => count rs piece encoding).sum =
        count rs text encoding + (pieces.length - 1) * shared) := by
  intro pieces shared
  by_cases empty : text = ""
  · have none (size asked : Nat) : chunk rs text size asked encoding = [] :=
      chunk_of_refused rs (Or.inl empty) asked encoding
    have zero : count rs text encoding = 0 := if_pos (String.isEmpty_iff.mpr empty)
    have nothing : pieces = [] := none maxTokens overlap
    simp [nothing, none, zero]
  · let window := chunkWindow maxTokens overlap positive
    have tokens := level.encodesText text empty
    have counted := count_eq_length_encode rs encoding level text
    have emitted : pieces = _ :=
      chunk_eq_windows rs text encoding maxTokens overlap positive empty tokens
    have length : pieces.length =
        window.count ((encoding.bpe rs).encodeOrdinary text).length :=
      length_chunk rs overlap level positive empty
    refine ⟨?_, fun larger other more fewer => ?_, fun keeps aligned => ?_⟩
    · rw [length, counted]
      exact window.count_le (List.length_pos_iff.mpr tokens)
    · rw [length_chunk rs other level (positive.trans more) empty, length]
      exact window.count_le_count (chunkWindow larger other _) more fewer _
    · have sizes : pieces.map (fun piece => count rs piece encoding) =
          (List.range (window.count ((encoding.bpe rs).encodeOrdinary text).length)).map
            fun i => (window.slice ((encoding.bpe rs).encodeOrdinary text) i).length := by
        rw [emitted, List.map_map]
        apply List.map_congr_left
        intro i inside
        have same := tokenize_window rs level keeps positive empty aligned
          (List.mem_range.mp inside)
        rw [Function.comp_apply, count_eq_length_tokenize, same]
      have summed := window.sum_length ((encoding.bpe rs).encodeOrdinary text)
      rw [sizes, ← List.sum_toFinset _ List.nodup_range, List.toFinset_range, summed, counted,
        length]
      rfl

/-- Two chunks of four tokens that share two have eight tokens for the six of the text. -/
theorem chunk_cost_great :
    ((chunk Greedy.crate "tiktoken is great!" 4 2 .cl100kBase).map
      fun piece => count Greedy.crate piece .cl100kBase).sum = 8 := by
  have cost := chunk_cost Greedy.crate "tiktoken is great!" .cl100kBase 4 2
    Greedy.cl100k.bpe_byteLevel (by decide)
  rw [cost.2.2 (Greedy.cl100k.keepsRuns _) (by decide +kernel)]
  decide +kernel

/-! ## Truncated texts -/

section Truncation

variable {text : String} {encoding : Encoding} (level : (encoding.bpe rs).ByteLevel)

include level

/-- More tokens keep what fewer do, if those end between characters. -/
theorem truncate_append {n m : Nat} (more : n ≤ m) (aligned : Aligned rs text encoding n) :
    truncate rs text m encoding = truncate rs text n encoding ++
      decode rs (((encoding.bpe rs).encodeOrdinary text).extract n m) encoding := by
  rw [truncate_eq_extract rs level, truncate_eq_extract rs level]
  exact decode_split_aligned rs level (Nat.zero_le n) more aligned

/-- Truncation gives a prefix of the text exactly when it ends between characters or cuts a
U+FFFD. -/
theorem truncate_isPrefix_iff (n : Nat) :
    (truncate rs text n encoding).toList <+: text.toList ↔ Aligned rs text encoding n ∨
      ∃ before after, text.toList = before ++ '\uFFFD' :: after ∧ (utf8 before).length <
          (encoding.bpe rs).boundary ((encoding.bpe rs).encodeOrdinary text) n ∧
        (encoding.bpe rs).boundary ((encoding.bpe rs).encodeOrdinary text) n <
          (utf8 before).length + 3 := by
  have kept : (truncate rs text n encoding).toList = decodedWindow (spans 0 text.toList) 0
      ((encoding.bpe rs).boundary ((encoding.bpe rs).encodeOrdinary text) n) := by
    rw [truncate_eq_window rs encoding level, String.toList_ofList]
  constructor
  · intro front
    by_cases aligned : Aligned rs text encoding n
    · exact Or.inl aligned
    · obtain ⟨before, c, after, split, begun, cut⟩ :=
        insideChar_split text.toList 0 _ (not_not.mp aligned)
      rw [Nat.zero_add] at begun cut
      rw [kept, split, decodedWindow_cut before c after begun cut, List.prefix_append_right_inj,
        List.cons_prefix_cons] at front
      have same : c = '\uFFFD' := front.1.symm
      subst same
      exact Or.inr ⟨before, after, split, begun, cut⟩
  · rintro (aligned | ⟨before, after, split, begun, cut⟩)
    · have all := truncate_append rs level
        (Nat.le_add_right n ((encoding.bpe rs).encodeOrdinary text).length) aligned
      have fits : count rs text encoding ≤
          n + ((encoding.bpe rs).encodeOrdinary text).length := by
        rw [count_eq_length_encode rs encoding level]
        exact Nat.le_add_left _ n
      rw [truncate_of_count_le rs encoding level text fits] at all
      have split := congrArg String.toList all
      rw [String.toList_append] at split
      exact ⟨_, split.symm⟩
    · rw [kept, split, decodedWindow_cut before '\uFFFD' after begun cut,
        List.prefix_append_right_inj, List.cons_prefix_cons]
      exact ⟨rfl, List.nil_prefix⟩

/-- An encoder that keeps the runs of the text gives what is kept the tokens that were. -/
theorem tokenize_truncate (keeps : (encoding.bpe rs).KeepsRuns text) {n : Nat}
    (aligned : Aligned rs text encoding n) :
    tokenize rs (truncate rs text n encoding) encoding = (tokenize rs text encoding).take n := by
  have start : Aligned rs text encoding 0 := not_insideChar_zero _
  rw [truncate_eq_extract rs level,
    tokenize_decode_aligned rs level keeps (Nat.zero_le n) start aligned,
    tokenize_eq_encode rs encoding level, List.extract_eq_take_drop, Nat.sub_zero, List.drop_zero]

end Truncation

/-- What `truncate` keeps: a prefix of the text exactly when the last token kept ends between
characters or inside a U+FFFD; in the first case also a prefix of what more tokens keep, and for an
encoder that keeps the runs of the text the tokens that were kept, so that truncating twice is
truncating to the smaller number. -/
theorem truncate_laws (text : String) (encoding : Encoding) (level : (encoding.bpe rs).ByteLevel)
    (n : Nat) :
    let byteAt := (encoding.bpe rs).boundary ((encoding.bpe rs).encodeOrdinary text)
    ((truncate rs text n encoding).toList <+: text.toList ↔ Aligned rs text encoding n ∨
      ∃ before after, text.toList = before ++ '\uFFFD' :: after ∧
        (utf8 before).length < byteAt n ∧ byteAt n < (utf8 before).length + 3) ∧
    (Aligned rs text encoding n →
      (∀ m, n ≤ m →
        (truncate rs text n encoding).toList <+: (truncate rs text m encoding).toList) ∧
      ((encoding.bpe rs).KeepsRuns text →
        tokenize rs (truncate rs text n encoding) encoding = (tokenize rs text encoding).take n ∧
        count rs (truncate rs text n encoding) encoding = min n (count rs text encoding) ∧
        ∀ m, truncate rs (truncate rs text n encoding) m encoding =
          truncate rs text (min m n) encoding)) := by
  intro byteAt
  refine ⟨truncate_isPrefix_iff rs level n, fun aligned => ⟨fun m more => ?_, fun keeps => ?_⟩⟩
  · have longer := congrArg String.toList (truncate_append rs level more aligned)
    rw [String.toList_append] at longer
    exact ⟨_, longer.symm⟩
  · have kept := tokenize_truncate rs level keeps aligned
    refine ⟨kept, ?_, fun m => ?_⟩
    · rw [count_eq_length_tokenize, count_eq_length_tokenize, kept, List.length_take]
    · have encoded := kept
      rw [tokenize_eq_encode rs encoding level, tokenize_eq_encode rs encoding level] at encoded
      have fewer : truncate rs text (min m n) encoding =
          decode rs (((encoding.bpe rs).encodeOrdinary text).extract 0 (min m n)) encoding :=
        truncate_eq_extract rs level (min m n)
      rw [truncate_eq_extract rs level m, encoded, fewer]
      simp only [List.extract_eq_take_drop, Nat.sub_zero, List.drop_zero, List.take_take]

/-- Three of its tokens are the start of the text, and two of those are two of the text. -/
theorem truncate_laws_great :
    (truncate Greedy.crate "tiktoken is great!" 3 .cl100kBase).toList <+:
      "tiktoken is great!".toList ∧
    truncate Greedy.crate (truncate Greedy.crate "tiktoken is great!" 3 .cl100kBase) 2 .cl100kBase =
      truncate Greedy.crate "tiktoken is great!" 2 .cl100kBase := by
  have aligned : Aligned Greedy.crate "tiktoken is great!" .cl100kBase 3 := by decide
  have laws := truncate_laws Greedy.crate "tiktoken is great!" .cl100kBase
    Greedy.cl100k.bpe_byteLevel 3
  have again := (laws.2 aligned).2 (Greedy.cl100k.keepsRuns _)
  exact ⟨laws.1.mpr (Or.inl aligned), again.2.2 2⟩

end TiktokenWorker

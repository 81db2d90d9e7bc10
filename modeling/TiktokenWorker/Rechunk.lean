import TiktokenWorker.Stitch

/-!
# Chunking again

What is kept of the chunks of a text when the text grows, when it is truncated, and when its chunks
are split further. A text whose tokens go on keeps every chunk but the last; what is made of
truncated texts and of chunks is read off the windows of their tokens, for encoders that give those
back.
-/

namespace TiktokenWorker

open Utf8 Sliding

variable (rs : TiktokenRs)

/-- The chunks of a text are its windows, decoded. -/
theorem chunk_eq_map_windows {text : String} {encoding : Encoding} {maxTokens : Nat} (overlap : Nat)
    (level : (encoding.bpe rs).ByteLevel) (positive : 1 ≤ maxTokens) (nonempty : text ≠ "") :
    chunk rs text maxTokens overlap encoding =
      ((chunkWindow maxTokens overlap positive).windows
        ((encoding.bpe rs).encodeOrdinary text)).map fun ids => decode rs ids encoding := by
  rw [chunk_eq_windows rs text encoding maxTokens overlap positive nonempty
    (level.encodesText text nonempty), Window.windows, List.map_map]
  rfl

/-! ## Texts that grow -/

/-- A text whose tokens go on as those of a longer one: every chunk but the last is a chunk of the
longer text at the same place, and so is the last one if its window is full. -/
theorem chunk_grows (text longer : String) (encoding : Encoding) (maxTokens overlap : Nat)
    (level : (encoding.bpe rs).ByteLevel)
    (grows : tokenize rs text encoding <+: tokenize rs longer encoding) :
    let pieces := chunk rs text maxTokens overlap encoding
    let more := chunk rs longer maxTokens overlap encoding
    let step := maxTokens - min overlap (maxTokens - 1)
    pieces.length ≤ more.length ∧ pieces.dropLast <+: more ∧
    ((pieces.length - 1) * step + maxTokens ≤ count rs text encoding → pieces <+: more) := by
  intro pieces more step
  by_cases refused : text = "" ∨ maxTokens = 0
  · have none : pieces = [] := chunk_of_refused rs refused overlap encoding
    simp [none]
  · rw [not_or] at refused
    obtain ⟨nonempty, some_tokens⟩ := refused
    have positive : 1 ≤ maxTokens := Nat.one_le_iff_ne_zero.mpr some_tokens
    let window : Window := chunkWindow maxTokens overlap positive
    rw [tokenize_eq_encode rs encoding level, tokenize_eq_encode rs encoding level] at grows
    obtain ⟨later, tokens⟩ := grows
    have goes_on : longer ≠ "" := by
      intro empty
      rw [(level.encode_eq_nil_iff longer).mpr empty] at tokens
      exact level.encodesText text nonempty (List.append_eq_nil_iff.mp tokens).1
    have length : pieces.length = window.count ((encoding.bpe rs).encodeOrdinary text).length :=
      length_chunk rs overlap level positive nonempty
    have decoded : pieces = _ := chunk_eq_map_windows rs overlap level positive nonempty
    have windows : more = _ := chunk_eq_map_windows rs overlap level positive goes_on
    have some_window := window.count_pos ((encoding.bpe rs).encodeOrdinary text).length
    have kept {several : Nat} (full : ∀ i < several, window.start i + window.size ≤
        ((encoding.bpe rs).encodeOrdinary text).length) : pieces.take several <+: more := by
      have front := (window.windows_append _ later full).map fun ids => decode rs ids encoding
      rwa [tokens, List.map_take, ← decoded, ← windows] at front
    refine ⟨?_, ?_, fun full => ?_⟩
    · rw [length, windows, List.length_map, Window.length_windows, ← tokens, List.length_append]
      exact window.count_mono (Nat.le_add_right _ _)
    · rw [List.dropLast_eq_take]
      refine kept fun i earlier => ?_
      have next := (window.succ_lt_count_iff
        ((encoding.bpe rs).encodeOrdinary text).length i).mp (by omega)
      exact next.le
    · rw [count_eq_length_encode rs encoding level] at full
      have all : pieces.take pieces.length <+: more := kept fun i inside => by
        have ordered := window.start_mono (show i ≤ pieces.length - 1 by omega)
        have ends : window.start (pieces.length - 1) + window.size ≤
            ((encoding.bpe rs).encodeOrdinary text).length := full
        omega
      rwa [List.take_length] at all

/-- The chunks of the start of a text but the last are chunks of it. -/
theorem chunk_grows_great :
    (chunk Greedy.crate "tiktoken is" 2 1 .cl100kBase).dropLast <+:
      chunk Greedy.crate "tiktoken is great!" 2 1 .cl100kBase :=
  (chunk_grows Greedy.crate "tiktoken is" "tiktoken is great!" .cl100kBase 2 1
    Greedy.cl100k.bpe_byteLevel (by decide)).2.1

/-! ## Texts cut after a window -/

/-- Truncating a text after one of its windows keeps the chunks up to that one, for an encoder that
keeps the runs of the text, when the window ends between characters. -/
theorem chunk_truncate (text : String) (encoding : Encoding) (maxTokens overlap : Nat)
    (level : (encoding.bpe rs).ByteLevel) (keeps : (encoding.bpe rs).KeepsRuns text) (k : Nat)
    (exists_chunk : k < (chunk rs text maxTokens overlap encoding).length)
    (aligned : Aligned rs text encoding
      (k * (maxTokens - min overlap (maxTokens - 1)) + maxTokens)) :
    chunk rs (truncate rs text (k * (maxTokens - min overlap (maxTokens - 1)) + maxTokens) encoding)
        maxTokens overlap encoding =
      (chunk rs text maxTokens overlap encoding).take (k + 1) := by
  by_cases refused : text = "" ∨ maxTokens = 0
  · rw [chunk_of_refused rs refused overlap encoding] at exists_chunk
    exact absurd exists_chunk (Nat.not_lt_zero k)
  · rw [not_or] at refused
    obtain ⟨nonempty, some_tokens⟩ := refused
    have positive : 1 ≤ maxTokens := Nat.one_le_iff_ne_zero.mpr some_tokens
    let window : Window := chunkWindow maxTokens overlap positive
    rw [length_chunk rs overlap level positive nonempty] at exists_chunk
    have kept := tokenize_truncate rs level keeps aligned
    rw [tokenize_eq_encode rs encoding level, tokenize_eq_encode rs encoding level] at kept
    have goes_on : truncate rs text (k * (maxTokens - min overlap (maxTokens - 1)) + maxTokens)
        encoding ≠ "" := by
      intro empty
      rw [(level.encode_eq_nil_iff _).mpr empty] at kept
      have tokens := List.length_pos_iff.mpr (level.encodesText text nonempty)
      have none := congrArg List.length kept
      rw [List.length_nil, List.length_take] at none
      omega
    rw [chunk_eq_map_windows rs overlap level positive nonempty,
      chunk_eq_map_windows rs overlap level positive goes_on, kept, ← List.map_take]
    exact congrArg _ (window.windows_take _ exists_chunk)

/-- Two chunks are left of the text when it is cut after the second window. -/
theorem chunk_truncate_great :
    chunk Greedy.crate (truncate Greedy.crate "tiktoken is great!" (1 * (2 - min 1 (2 - 1)) + 2)
        .cl100kBase) 2 1 .cl100kBase =
      (chunk Greedy.crate "tiktoken is great!" 2 1 .cl100kBase).take 2 :=
  chunk_truncate Greedy.crate "tiktoken is great!" .cl100kBase 2 1 Greedy.cl100k.bpe_byteLevel
    (Greedy.cl100k.keepsRuns _) 1 (by decide +kernel) (by decide)

/-! ## Chunks of chunks -/

/-- A text ends between characters. -/
theorem aligned_of_length_le {text : String} {encoding : Encoding}
    (level : (encoding.bpe rs).ByteLevel) {n : Nat}
    (all : ((encoding.bpe rs).encodeOrdinary text).length ≤ n) : Aligned rs text encoding n := by
  intro inside
  rw [boundary_of_length_le rs encoding level text all] at inside
  obtain ⟨before, c, after, split, _, cut⟩ := insideChar_split text.toList 0 _ inside
  rw [split, utf8_append, utf8_cons, List.length_append, List.length_append,
    String.length_utf8EncodeChar] at cut
  omega

/-- Windows that share as many tokens as small ones and advance several times as far start and end
between characters when those do. -/
theorem aligned_large {text : String} {encoding : Encoding} {window large : Window} {several : Nat}
    (level : (encoding.bpe rs).ByteLevel) (shared : large.overlap = window.overlap)
    (advance : large.step = several * window.step)
    (aligned : ∀ i < window.count ((encoding.bpe rs).encodeOrdinary text).length,
      Aligned rs text encoding (window.start i) ∧
      Aligned rs text encoding (window.start i + window.size))
    {i : Nat} (inside : i < large.count ((encoding.bpe rs).encodeOrdinary text).length) :
    Aligned rs text encoding (large.start i) ∧
      Aligned rs text encoding (large.start i + large.size) := by
  have begins : large.start i = window.start (i * several) := by
    rw [Window.start, Window.start, advance, Nat.mul_assoc]
  have listed : i * several < window.count ((encoding.bpe rs).encodeOrdinary text).length := by
    by_cases first : i * several = 0
    · rw [first]
      exact window.count_pos _
    · have later : 0 < i := Nat.pos_of_ne_zero fun zero => first (by rw [zero, Nat.zero_mul])
      have more := (large.lt_count_iff _ later).mp inside
      rw [begins, shared] at more
      exact (window.lt_count_iff _ (Nat.pos_of_ne_zero first)).mpr more
  refine ⟨begins ▸ (aligned _ listed).1, ?_⟩
  -- the last small window of a large one ends with it, if there are that many
  have positive := large.step_pos
  obtain ⟨last, rfl⟩ : ∃ last, several = last + 1 := ⟨several - 1, by
    have : several ≠ 0 := fun zero => by
      rw [advance, zero, Nat.zero_mul] at positive
      exact Nat.lt_irrefl 0 positive
    omega⟩
  have ends : large.start i + large.size = window.start (i * (last + 1) + last) + window.size := by
    rw [begins, ← large.step_add_overlap, ← window.step_add_overlap, advance, shared]
    simp only [Window.start]
    ring
  rw [ends]
  by_cases exists_window : i * (last + 1) + last <
      window.count ((encoding.bpe rs).encodeOrdinary text).length
  · exact (aligned _ exists_window).2
  · apply aligned_of_length_le rs level
    have some_window := window.count_pos ((encoding.bpe rs).encodeOrdinary text).length
    have stops := (window.succ_lt_count_iff ((encoding.bpe rs).encodeOrdinary text).length
      (i * (last + 1) + last)).not.mp (by omega)
    omega

/-- Larger chunks chunked again: for an encoder that keeps the runs of the text, when every small
window starts and ends between characters, the small chunks of chunks that share as many tokens and
advance several times as far are, in order, the small chunks of the text. -/
theorem chunk_chunk (text : String) (encoding : Encoding) (few overlap several : Nat)
    (level : (encoding.bpe rs).ByteLevel) (keeps : (encoding.bpe rs).KeepsRuns text)
    (shared : overlap < few) (positive : 1 ≤ several)
    (aligned : ∀ i < (chunk rs text few overlap encoding).length,
      Aligned rs text encoding (i * (few - overlap)) ∧
      Aligned rs text encoding (i * (few - overlap) + few)) :
    ((chunk rs text (several * (few - overlap) + overlap) overlap encoding).flatMap
        fun piece => chunk rs piece few overlap encoding) =
      chunk rs text few overlap encoding := by
  by_cases empty : text = ""
  · rw [chunk_of_refused rs (Or.inl empty), chunk_of_refused rs (Or.inl empty)]
    rfl
  have advances : 1 ≤ several * (few - overlap) := Nat.mul_pos positive (by omega)
  have some_tokens : 1 ≤ few := by omega
  have more_tokens : 1 ≤ several * (few - overlap) + overlap := by omega
  let window : Window := chunkWindow few overlap some_tokens
  let large : Window := chunkWindow (several * (few - overlap) + overlap) overlap more_tokens
  have kept : window.overlap = overlap := Nat.min_eq_left (by omega)
  have same : large.overlap = overlap := Nat.min_eq_left (by omega)
  have step : window.step = few - overlap := by
    rw [Window.step, kept]
    rfl
  have advance : large.step = several * window.step := by
    rw [Window.step, same, step]
    exact Nat.add_sub_cancel ..
  have small (i : Nat)
      (inside : i < window.count ((encoding.bpe rs).encodeOrdinary text).length) :
      Aligned rs text encoding (window.start i) ∧
        Aligned rs text encoding (window.start i + window.size) := by
    rw [length_chunk rs overlap level some_tokens empty] at aligned
    have both := aligned i inside
    rw [← step] at both
    exact both
  have outer : ∀ i < (chunk rs text large.size overlap encoding).length,
      Aligned rs text encoding (large.start i) ∧
        Aligned rs text encoding (large.start i + large.size) := by
    intro i inside
    have length : (chunk rs text large.size overlap encoding).length =
        large.count ((encoding.bpe rs).encodeOrdinary text).length :=
      length_chunk rs overlap level more_tokens empty
    exact aligned_large rs level (same.trans kept.symm) advance small (length ▸ inside)
  have again (ids : List UInt32)
      (listed : ids ∈ large.windows ((encoding.bpe rs).encodeOrdinary text)) :
      chunk rs (decode rs ids encoding) few overlap encoding =
        (window.windows ids).map fun ids => decode rs ids encoding := by
    obtain ⟨i, inside, rfl⟩ := List.mem_map.mp listed
    have found : (chunk rs text large.size overlap encoding)[i]? =
        some (decode rs (large.slice ((encoding.bpe rs).encodeOrdinary text) i) encoding) :=
      chunk_getElem? rs text encoding large.size overlap more_tokens empty
        (level.encodesText text empty) (List.mem_range.mp inside)
    obtain ⟨tokens, some_piece⟩ := tokenize_chunk rs level keeps more_tokens empty outer found
    rw [tokenize_eq_encode rs encoding level] at tokens
    rw [chunk_eq_map_windows rs overlap level some_tokens some_piece]
    exact congrArg (fun ids => (window.windows ids).map _) tokens
  have pieces := window.flatMap_windows large several (same.trans kept.symm) advance
    ((encoding.bpe rs).encodeOrdinary text)
  rw [chunk_eq_map_windows rs overlap level more_tokens empty,
    chunk_eq_map_windows rs overlap level some_tokens empty, List.flatMap_map,
    List.flatMap_congr again, ← List.map_flatMap]
  exact congrArg _ pieces

/-- Chunks of two tokens that share one are those of the chunks of three that do. -/
theorem chunk_chunk_great :
    ((chunk Greedy.crate "tiktoken is great!" (2 * (2 - 1) + 1) 1 .cl100kBase).flatMap
        fun piece => chunk Greedy.crate piece 2 1 .cl100kBase) =
      chunk Greedy.crate "tiktoken is great!" 2 1 .cl100kBase :=
  chunk_chunk Greedy.crate "tiktoken is great!" .cl100kBase 2 1 2 Greedy.cl100k.bpe_byteLevel
    (Greedy.cl100k.keepsRuns _) (by decide) (by decide) (by decide +kernel)

end TiktokenWorker

import TiktokenWorker.Tiktoken
import TiktokenWorker.Sliding
import TiktokenWorker.Greedy

/-!
# The windows of a chunking

The loop of `chunk` visits the windows of `Sliding.Window` in order and stops at the one that
reaches the end of the tokens. The step lemma is one iteration; the run lemma carries the windows
emitted so far through the `break`, and every property of the chunks is a property of the windows.
-/

namespace TiktokenWorker

open Sliding

variable (rs : TiktokenRs)

/-- The window `chunk` slides: the overlap is clamped so that it advances. -/
def chunkWindow (maxTokens overlap : Nat) (positive : 1 ≤ maxTokens) : Window where
  size := maxTokens
  overlap := min overlap (maxTokens - 1)
  advances := by omega

/-- One iteration at a window of a nonempty sequence emits the window and either stops there or
goes on at the next one. -/
theorem chunkLoop_step (tokens : List UInt32) (window : Window) (encoding : Encoding)
    (nonempty : 0 < tokens.length) (i : Nat) (exists_window : i < window.count tokens.length)
    (out : List String) :
    chunkLoop rs tokens window.size window.step encoding window.step_pos (window.start i) out =
      if i + 1 < window.count tokens.length then
        chunkLoop rs tokens window.size window.step encoding window.step_pos (window.start (i + 1))
          (out ++ [decode rs (window.slice tokens i) encoding])
      else out ++ [decode rs (window.slice tokens i) encoding] := by
  rw [chunkLoop, if_pos (window.start_lt nonempty exists_window)]
  have reaches : window.stop tokens.length i = tokens.length ↔ _ := window.stop_eq_length_iff
  rw [Window.stop] at reaches
  by_cases next : i + 1 < window.count tokens.length
  · rw [if_pos next, if_neg (mt reaches.mp (not_not.mpr next)), window.start_succ]
    rfl
  · rw [if_neg next, if_pos (reaches.mpr next)]
    rfl

/-- From one of its windows on, the loop emits that window and all later ones. The induction is
on the number of later windows. -/
theorem chunkLoop_run (tokens : List UInt32) (window : Window) (encoding : Encoding)
    (nonempty : 0 < tokens.length) (later i : Nat)
    (total : window.count tokens.length = i + 1 + later) (out : List String) :
    chunkLoop rs tokens window.size window.step encoding window.step_pos (window.start i) out =
      out ++ (List.range' i (later + 1)).map
        fun k => decode rs (window.slice tokens k) encoding := by
  induction later generalizing i out with
  | zero =>
    rw [chunkLoop_step rs tokens window encoding nonempty i (by omega), if_neg (by omega)]
    rfl
  | succ later ih =>
    rw [chunkLoop_step rs tokens window encoding nonempty i (by omega), if_pos (by omega),
      ih (i + 1) (by omega), List.append_assoc, List.range'_succ (n := later + 1)]
    rfl

/-- No text, or windows of no tokens, make no chunks. -/
theorem chunk_of_refused {text : String} {maxTokens : Nat} (refused : text = "" ∨ maxTokens = 0)
    (overlap : Nat) (encoding : Encoding) : chunk rs text maxTokens overlap encoding = [] := by
  rw [chunk, dif_pos]
  rcases refused with empty | zero
  · exact Or.inl (String.isEmpty_iff.mpr empty)
  · exact Or.inr zero

/-- The chunks of a text with tokens are its decoded windows, in order. -/
theorem chunk_eq_windows (text : String) (encoding : Encoding) (maxTokens overlap : Nat)
    (positive : 1 ≤ maxTokens) (nonempty : text ≠ "")
    (tokens : (encoding.bpe rs).encodeOrdinary text ≠ []) :
    chunk rs text maxTokens overlap encoding =
      (List.range ((chunkWindow maxTokens overlap positive).count
        ((encoding.bpe rs).encodeOrdinary text).length)).map fun i =>
          decode rs ((chunkWindow maxTokens overlap positive).slice
            ((encoding.bpe rs).encodeOrdinary text) i) encoding := by
  have some_text : ¬(text.isEmpty = true ∨ maxTokens = 0) := by
    rintro (empty | zero)
    · exact nonempty (String.isEmpty_iff.mp empty)
    · omega
  have some_tokens : ((encoding.bpe rs).encodeOrdinary text).isEmpty = false := by
    rw [List.isEmpty_eq_false_iff]
    exact tokens
  have some_window := (chunkWindow maxTokens overlap positive).count_pos
    ((encoding.bpe rs).encodeOrdinary text).length
  rw [chunk, dif_neg some_text]
  simp only [some_tokens, Bool.false_eq_true, if_false]
  have run := chunkLoop_run rs ((encoding.bpe rs).encodeOrdinary text)
    (chunkWindow maxTokens overlap positive) encoding (List.length_pos_iff.mpr tokens)
    ((chunkWindow maxTokens overlap positive).count
      ((encoding.bpe rs).encodeOrdinary text).length - 1) 0 (by omega) []
  rw [Window.start_zero, List.nil_append, Nat.sub_add_cancel some_window,
    ← List.range_eq_range'] at run
  exact run

/-- A chunk of a text is the decoded window of its position. -/
theorem chunk_getElem? (text : String) (encoding : Encoding) (maxTokens overlap : Nat)
    (positive : 1 ≤ maxTokens) (nonempty : text ≠ "")
    (tokens : (encoding.bpe rs).encodeOrdinary text ≠ []) {i : Nat}
    (inside : i < (chunkWindow maxTokens overlap positive).count
      ((encoding.bpe rs).encodeOrdinary text).length) :
    (chunk rs text maxTokens overlap encoding)[i]? =
      some (decode rs ((chunkWindow maxTokens overlap positive).slice
        ((encoding.bpe rs).encodeOrdinary text) i) encoding) := by
  rw [chunk_eq_windows rs text encoding maxTokens overlap positive nonempty tokens,
    List.getElem?_map, List.getElem?_range inside, Option.map_some]

/-- Every chunk is a decoded window, and only nonempty text that has tokens has chunks. -/
theorem exists_window_of_mem_chunk {text piece : String} {encoding : Encoding}
    {maxTokens overlap : Nat} (positive : 1 ≤ maxTokens)
    (emitted : piece ∈ chunk rs text maxTokens overlap encoding) :
    text ≠ "" ∧ (encoding.bpe rs).encodeOrdinary text ≠ [] ∧
      ∃ i < (chunkWindow maxTokens overlap positive).count
          ((encoding.bpe rs).encodeOrdinary text).length,
        piece = decode rs ((chunkWindow maxTokens overlap positive).slice
          ((encoding.bpe rs).encodeOrdinary text) i) encoding := by
  by_cases empty : text = ""
  · simp [chunk, empty] at emitted
  by_cases none : (encoding.bpe rs).encodeOrdinary text = []
  · simp [chunk, none] at emitted
  rw [chunk_eq_windows rs text encoding maxTokens overlap positive empty none] at emitted
  obtain ⟨i, inside, same⟩ := List.mem_map.mp emitted
  exact ⟨empty, none, i, List.mem_range.mp inside, same.symm⟩

/-- The first chunk is the text truncated to one window. -/
theorem truncate_eq_first_window (text : String) (encoding : Encoding) (maxTokens overlap : Nat)
    (positive : 1 ≤ maxTokens) (nonempty : text ≠ "") :
    truncate rs text maxTokens encoding =
      decode rs ((chunkWindow maxTokens overlap positive).slice
        ((encoding.bpe rs).encodeOrdinary text) 0) encoding := by
  rw [truncate, if_neg]
  · simp only [Window.slice, Window.start_zero, Window.stop, chunkWindow, Nat.zero_add]
  · rintro (zero | empty)
    · omega
    · exact nonempty (String.isEmpty_iff.mp empty)

/-- The window law of `chunk`: how many chunks there are, which tokens each decodes, what
consecutive windows share, and that the windows are the tokens of the text with nothing lost,
repeated or redundant. -/
theorem chunk_window_law (text : String) (encoding : Encoding) (maxTokens overlap : Nat)
    (encodes : (encoding.bpe rs).EncodesText) (nonempty : text ≠ "") (positive : 1 ≤ maxTokens) :
    let toks := (encoding.bpe rs).encodeOrdinary text
    let L := toks.length
    let ov := min overlap (maxTokens - 1)
    let step := maxTokens - ov
    let K := if L ≤ maxTokens then 1 else 1 + (L - maxTokens) ⌈/⌉ step
    let stop := fun i => min (i * step + maxTokens) L
    let window := fun i => toks.extract (i * step) (stop i)
    let chunks := chunk rs text maxTokens overlap encoding
    chunks.length = K ∧
    (∀ i < K, chunks[i]? = some (decode rs (window i) encoding)) ∧
    (∀ i, i + 1 < K → (window i).length = maxTokens) ∧
    (∀ i, i + 1 < K →
      (window i).drop step = (window (i + 1)).take ov ∧
      (Finset.Ico (i * step) (stop i) ∩ Finset.Ico ((i + 1) * step) (stop (i + 1))).card = ov) ∧
    (∀ i, i + 1 < K → ∃ t ∈ Finset.Ico ((i + 1) * step) (stop (i + 1)),
      ∀ j < i + 1, t ∉ Finset.Ico (j * step) (stop j)) ∧
    window 0 ++ (List.range (K - 1)).flatMap (fun i => (window (i + 1)).drop ov) = toks ∧
    chunks[0]? = some (truncate rs text maxTokens encoding) := by
  have tokens := encodes text nonempty
  have windows := chunk_eq_windows rs text encoding maxTokens overlap positive nonempty tokens
  have first := truncate_eq_first_window rs text encoding maxTokens overlap positive nonempty
  intro toks L ov step K stop window chunks
  have emitted : chunks = (List.range K).map fun i => decode rs (window i) encoding := windows
  refine ⟨?_, ?_, ?_, ?_, ?_, ?_, ?_⟩
  · rw [emitted, List.length_map, List.length_range]
  · exact fun i inside =>
      chunk_getElem? rs text encoding maxTokens overlap positive nonempty tokens inside
  · exact fun i next => (chunkWindow maxTokens overlap positive).length_slice_of_succ next
  · exact fun i next => ⟨(chunkWindow maxTokens overlap positive).slice_drop_step next,
      (chunkWindow maxTokens overlap positive).card_shared next⟩
  · exact fun i next => (chunkWindow maxTokens overlap positive).exists_new_item next
  · exact (chunkWindow maxTokens overlap positive).rebuild toks
  · have some_window : 0 < K := (chunkWindow maxTokens overlap positive).count_pos L
    rw [first]
    exact chunk_getElem? rs text encoding maxTokens overlap positive nonempty tokens some_window

/-- Two tokens in windows of one, with an overlap past the clamp. -/
theorem chunk_window_law_hello_world :
    (chunk Greedy.crate "hello world" 1 5 .cl100kBase).length = 2 ∧
    (chunk Greedy.crate "hello world" 1 5 .cl100kBase)[1]? =
      some (decode Greedy.crate [1917] .cl100kBase) := by
  have law := chunk_window_law Greedy.crate "hello world" .cl100kBase 1 5
    Greedy.cl100k.bpe_byteLevel.encodesText (by decide) (by decide)
  exact ⟨law.1, law.2.1 1 (by decide)⟩

end TiktokenWorker

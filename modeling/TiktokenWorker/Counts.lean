import TiktokenWorker.Budget
import TiktokenWorker.Scalar.Count

/-!
# Counts as integers

`count_tokens` returns a `usize` as an `i32`. The two are the same number below `2 ^ 31`, and a
text has fewer tokens than that when it comes from a column with 32-bit offsets.
-/

namespace TiktokenWorker

open Arrow Utf8

variable (rs : TiktokenRs)

/-- An emitted integer is the number of tokens of a text, and zero for the empty text only. -/
structure Counts (text : String) (encoding : Encoding) (emitted : Int32) : Prop where
  /-- It is the number of tokens. -/
  tokens : emitted.toInt = (tokenize rs text encoding).length
  /-- It is zero exactly when there is no text. -/
  empty : emitted = 0 ↔ text = ""

/-- Only the empty text has no tokens. -/
theorem length_tokenize_eq_zero_iff (encoding : Encoding) (level : (encoding.bpe rs).ByteLevel)
    (text : String) : (tokenize rs text encoding).length = 0 ↔ text = "" := by
  rw [tokenize_eq_encode rs encoding level, List.length_eq_zero_iff, level.encode_eq_nil_iff]

/-- The cast of a count is the count exactly below the largest `i32`. -/
theorem counts_asI32_iff (encoding : Encoding) (level : (encoding.bpe rs).ByteLevel)
    (text : String) : Counts rs text encoding (asI32 (count rs text encoding)) ↔
      (tokenize rs text encoding).length < 2 ^ 31 := by
  rw [count_eq_length_tokenize]
  constructor
  · intro counts
    have below := (asI32 (tokenize rs text encoding).length).toInt_lt
    rw [counts.tokens] at below
    omega
  · intro small
    have kept : (asI32 (tokenize rs text encoding).length).toInt =
        (tokenize rs text encoding).length := Int32.toInt_ofNat_of_lt small
    refine ⟨kept, ?_⟩
    rw [← length_tokenize_eq_zero_iff rs encoding level text, ← Int32.toInt_inj, kept,
      Int32.toInt_zero, Int.natCast_eq_zero]

/-- A text from a column with 32-bit offsets has fewer than `2 ^ 31` tokens. -/
theorem length_tokenize_lt_of_utf8 (encoding : Encoding) (level : (encoding.bpe rs).ByteLevel)
    {col : ArrayRef} {row : Nat} {text : String} (narrow : col.dataType = .utf8)
    (read : textStr col row = .ok (some text)) :
    (tokenize rs text encoding).length < 2 ^ 31 := by
  have bytes := textStr_bytes_le read
  have tokens := count_le_bytes rs encoding level text
  rw [count_eq_length_tokenize] at tokens
  rw [narrow, DataType.offsetMax, utf8ByteSize_eq] at bytes
  omega

/-- A batch of one text. -/
def oneText (col : ArrayRef) (single : col.cells.length = 1) : RecordBatch where
  numRows := 1
  columns := [col]
  lengths := by simpa using single

/-- Every encoder of the crate of the small vocabularies keeps its promises. -/
theorem crate_byteLevel (encoding : Encoding) : (encoding.bpe Greedy.crate).ByteLevel := by
  cases encoding <;> exact Greedy.Vocabulary.bpe_byteLevel _

/-- A column with 64-bit offsets of one text, ` world` many times. -/
def manyWorlds (n : Nat) (small : 6 * n ≤ 2 ^ 63 - 1) : ArrayRef where
  dataType := .largeUtf8
  cells := [some (Greedy.worlds n)]
  within := by
    simp only [List.map_cons, List.map_nil, List.sum_singleton, Option.elim_some, DataType.bytes,
      Greedy.utf8ByteSize_worlds]
    exact small

/-- No `i32` is `2 ^ 31`, the number of tokens of a text that a column with 64-bit offsets can
hold. -/
theorem large_count_wraps :
    ¬∀ (rs : TiktokenRs) (batch : RecordBatch) (i : Nat) (text : String),
      (∀ encoding : Encoding, (encoding.bpe rs).ByteLevel) → Admits [.text] batch →
      i < batch.numRows → textAt batch 0 i = some text →
        ∃ out emitted, CountTokens.process rs batch = .ok out ∧ out[i]? = some (some emitted) ∧
          Counts rs text .defaultEncoding emitted := by
  intro counts
  have admits : Admits [.text] (oneText (manyWorlds (2 ^ 31) (by norm_num)) rfl) :=
    .of_columns (.cons (fun text => ⟨text, rfl⟩) .nil)
  obtain ⟨out, emitted, _, _, exactly⟩ := counts Greedy.crate _ 0 (Greedy.worlds (2 ^ 31))
    crate_byteLevel admits Nat.one_pos rfl
  have tokens := exactly.tokens
  have below := emitted.toInt_lt
  rw [tokenize_eq_encode _ _ (crate_byteLevel _)] at tokens
  have many : (Encoding.defaultEncoding.bpe Greedy.crate).encodeOrdinary (Greedy.worlds (2 ^ 31)) =
      List.replicate (2 ^ 31) 1917 := Greedy.encodeOrdinary_worlds (2 ^ 31)
  rw [many, List.length_replicate] at tokens
  omega

/-- `count_tokens` emits the number of tokens exactly when it is below `2 ^ 31`, under the default
encoding and under that of any model, and every text of a column with 32-bit offsets has fewer. -/
theorem count_tokens_exact_iff (levels : ∀ encoding : Encoding, (encoding.bpe rs).ByteLevel) :
    (∀ (batch : RecordBatch) (i : Nat) (text : String), Admits [.text] batch →
      i < batch.numRows → textAt batch 0 i = some text →
        ∃ out emitted, CountTokens.process rs batch = .ok out ∧ out[i]? = some (some emitted) ∧
          (Counts rs text .defaultEncoding emitted ↔
            (tokenize rs text .defaultEncoding).length < 2 ^ 31)) ∧
    (∀ (batch : RecordBatch) (i : Nat) (text model : String) (encoding : Encoding),
      Admits [.text, .text] batch → i < batch.numRows → textAt batch 0 i = some text →
      textAt batch 1 i = some model → resolve rs model = some encoding →
        ∃ out emitted, CountTokensModel.process rs batch = .ok out ∧
          out[i]? = some (some emitted) ∧
          (Counts rs text encoding emitted ↔ (tokenize rs text encoding).length < 2 ^ 31)) ∧
    (∀ (col : ArrayRef) (i : Nat) (text : String) (encoding : Encoding), col.dataType = .utf8 →
      textStr col i = .ok (some text) → (tokenize rs text encoding).length < 2 ^ 31) := by
  refine ⟨?_, ?_, ?_⟩
  · intro batch i text admits inside found
    refine ⟨_, _, CountTokens.process_ok rs admits, ?_,
      counts_asI32_iff rs .defaultEncoding (levels _) text⟩
    rw [List.getElem?_map, List.getElem?_range inside, Option.map_some, found]
    rfl
  · intro batch i text model encoding admits inside found foundModel resolved
    refine ⟨_, _, CountTokensModel.process_ok rs admits, ?_,
      counts_asI32_iff rs encoding (levels _) text⟩
    rw [List.getElem?_map, List.getElem?_range inside, Option.map_some, found, foundModel,
      CountTokensModel.cell]
    simp only [resolved, Option.bind_eq_bind, Option.bind_some]
  · intro col i text encoding narrow reads
    exact length_tokenize_lt_of_utf8 rs encoding (levels _) narrow reads

/-- `hello world` has two tokens. -/
theorem count_tokens_exact_iff_hello_world :
    ∃ out emitted, CountTokens.process Greedy.crate
        (oneText ⟨.utf8, [some "hello world"], by decide⟩ rfl) = .ok out ∧
      out[0]? = some (some emitted) ∧
      Counts Greedy.crate "hello world" .defaultEncoding emitted := by
  have admits : Admits [.text] (oneText ⟨.utf8, [some "hello world"], by decide⟩ rfl) :=
    .of_columns (.cons (fun text => ⟨text, rfl⟩) .nil)
  obtain ⟨out, emitted, returned, found, exactly⟩ :=
    (count_tokens_exact_iff Greedy.crate crate_byteLevel).1 _ 0 "hello world" admits Nat.one_pos rfl
  exact ⟨out, emitted, returned, found, exactly.mpr (by decide)⟩

end TiktokenWorker

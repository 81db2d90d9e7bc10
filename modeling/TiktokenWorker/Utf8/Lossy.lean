import Mathlib.Data.List.Basic
import Mathlib.Data.Char
import Mathlib.Tactic

/-!
# Lossy UTF-8 decoding

The standard library's lossy conversion reads a byte string from the left. A well-formed
sequence becomes its character; every maximal prefix of a sequence that cannot be completed
becomes one U+FFFD, and reading resumes at the first byte not consumed. `readChar` is one such
step and `fromUtf8Lossy` its iteration.

Three facts carry everything proved about slices of valid text: the encoding of a character is
read as that character, a continuation byte at the front is one U+FFFD, and a cut encoding at
the end is one U+FFFD, however many of its bytes are present.
-/

namespace TiktokenWorker.Utf8

/-- U+FFFD, the character that stands for a malformed sequence. -/
def replacement : Char := '\uFFFD'

/-- The bytes of a sequence of characters. -/
def utf8 (text : List Char) : List UInt8 := text.flatMap String.utf8EncodeChar

@[simp] theorem utf8_nil : utf8 [] = [] := rfl

@[simp] theorem utf8_cons (c : Char) (text : List Char) :
    utf8 (c :: text) = String.utf8EncodeChar c ++ utf8 text := rfl

@[simp] theorem utf8_append (left right : List Char) :
    utf8 (left ++ right) = utf8 left ++ utf8 right := List.flatMap_append

/-- The bytes a string takes. -/
theorem utf8ByteSize_eq (text : String) : text.utf8ByteSize = (utf8 text.toList).length := by
  conv_lhs => rw [← String.ofList_toList (s := text)]
  simp only [String.utf8ByteSize, String.ofList, List.utf8Encode, utf8, List.size_toByteArray]

/-- The length of the sequence a byte announces, zero for a byte that starts none. -/
def charWidth (first : UInt8) : Nat :=
  if first.toNat < 0x80 then 1
  else if first.toNat < 0xC2 then 0
  else if first.toNat < 0xE0 then 2
  else if first.toNat < 0xF0 then 3
  else if first.toNat < 0xF5 then 4
  else 0

/-- A continuation byte has its top two bits equal to `10`. -/
def isContinuation (byte : UInt8) : Bool := byte.toNat / 64 == 2

/-- The second bytes a first byte of a three-byte or four-byte sequence admits: overlong forms,
surrogates and values past U+10FFFF are refused here. -/
def secondAdmitted (first second : UInt8) : Bool :=
  if first.toNat = 0xE0 then 0xA0 ≤ second.toNat && second.toNat ≤ 0xBF
  else if first.toNat = 0xED then 0x80 ≤ second.toNat && second.toNat ≤ 0x9F
  else if first.toNat = 0xF0 then 0x90 ≤ second.toNat && second.toNat ≤ 0xBF
  else if first.toNat = 0xF4 then 0x80 ≤ second.toNat && second.toNat ≤ 0x8F
  else isContinuation second

/-- The character of a two-byte sequence. -/
def assemble2 (b0 b1 : UInt8) : Char :=
  Char.ofNat (b0.toNat % 32 * 64 + b1.toNat % 64)

/-- The character of a three-byte sequence. -/
def assemble3 (b0 b1 b2 : UInt8) : Char :=
  Char.ofNat (b0.toNat % 16 * 4096 + b1.toNat % 64 * 64 + b2.toNat % 64)

/-- The character of a four-byte sequence. -/
def assemble4 (b0 b1 b2 b3 : UInt8) : Char :=
  Char.ofNat (b0.toNat % 8 * 262144 + b1.toNat % 64 * 4096 + b2.toNat % 64 * 64 + b3.toNat % 64)

/-- One step of the reader at a first byte: the character emitted and the bytes left. A sequence
that fails at its `k`-th byte consumes the `k` bytes before it. -/
def readChar (b0 : UInt8) (rest : List UInt8) : Char × List UInt8 :=
  match charWidth b0, rest with
  | 1, rest => (Char.ofNat b0.toNat, rest)
  | 2, b1 :: rest1 =>
    if isContinuation b1 then (assemble2 b0 b1, rest1) else (replacement, b1 :: rest1)
  | 3, b1 :: rest1 =>
    if secondAdmitted b0 b1 then
      match rest1 with
      | b2 :: rest2 =>
        if isContinuation b2 then (assemble3 b0 b1 b2, rest2) else (replacement, b2 :: rest2)
      | [] => (replacement, [])
    else (replacement, b1 :: rest1)
  | 4, b1 :: rest1 =>
    if secondAdmitted b0 b1 then
      match rest1 with
      | b2 :: rest2 =>
        if isContinuation b2 then
          match rest2 with
          | b3 :: rest3 =>
            if isContinuation b3 then (assemble4 b0 b1 b2 b3, rest3)
            else (replacement, b3 :: rest3)
          | [] => (replacement, [])
        else (replacement, b2 :: rest2)
      | [] => (replacement, [])
    else (replacement, b1 :: rest1)
  | _, rest => (replacement, rest)

/-- A step never gives back the byte it started at. -/
theorem readChar_length (b0 : UInt8) (rest : List UInt8) :
    (readChar b0 rest).2.length ≤ rest.length := by
  fun_cases readChar b0 rest <;> simp only [List.length_cons, List.length_nil] <;> omega

/-- `String::from_utf8_lossy`, as the characters of its result. -/
def fromUtf8Lossy : List UInt8 → List Char
  | [] => []
  | b0 :: rest => (readChar b0 rest).1 :: fromUtf8Lossy (readChar b0 rest).2
termination_by bytes => bytes.length
decreasing_by
  have shorter := readChar_length b0 rest
  simp only [List.length_cons]
  omega

@[simp] theorem fromUtf8Lossy_nil : fromUtf8Lossy [] = [] := by
  rw [fromUtf8Lossy]

/-- Reading a nonempty string is one step and then the rest. -/
theorem fromUtf8Lossy_cons (b0 : UInt8) (rest : List UInt8) :
    fromUtf8Lossy (b0 :: rest) = (readChar b0 rest).1 :: fromUtf8Lossy (readChar b0 rest).2 := by
  rw [fromUtf8Lossy]

/-! ## Encoded characters -/

/-- The well-formed sequences of a character, one constructor for each length. -/
inductive Sequence (c : Char) : List UInt8 → Prop where
  /-- A byte below 0x80. -/
  | one {b0 : UInt8} (width : charWidth b0 = 1) (value : Char.ofNat b0.toNat = c) :
      Sequence c [b0]
  /-- A first byte and one continuation byte. -/
  | two {b0 b1 : UInt8} (width : charWidth b0 = 2) (tail1 : isContinuation b1 = true)
      (value : assemble2 b0 b1 = c) : Sequence c [b0, b1]
  /-- A first byte, an admitted second byte and one continuation byte. -/
  | three {b0 b1 b2 : UInt8} (width : charWidth b0 = 3) (second : secondAdmitted b0 b1 = true)
      (tail2 : isContinuation b2 = true) (value : assemble3 b0 b1 b2 = c) : Sequence c [b0, b1, b2]
  /-- A first byte, an admitted second byte and two continuation bytes. -/
  | four {b0 b1 b2 b3 : UInt8} (width : charWidth b0 = 4) (second : secondAdmitted b0 b1 = true)
      (tail2 : isContinuation b2 = true) (tail3 : isContinuation b3 = true)
      (value : assemble4 b0 b1 b2 b3 = c) : Sequence c [b0, b1, b2, b3]

/-- A byte built from a number below 256 denotes it. -/
theorem toNat_byte {n : Nat} (small : n < 256) : (UInt8.ofNat n).toNat = n := by
  rw [UInt8.toNat_ofNat']
  exact Nat.mod_eq_of_lt small

/-- A byte of the form `10xxxxxx` is a continuation byte. -/
theorem isContinuation_low (n : Nat) : isContinuation (UInt8.ofNat (n % 64 + 128)) = true := by
  have denoted := toNat_byte (n := n % 64 + 128) (by omega)
  simp only [isContinuation, denoted, beq_iff_eq]
  omega

/-- The encoder writes a well-formed sequence of its character. The scalar value is no surrogate
and at most U+10FFFF, which is what the second byte is checked for. -/
theorem encode_sequence (c : Char) : Sequence c (String.utf8EncodeChar c) := by
  have valid : c.val.toNat < 0xD800 ∨ (0xDFFF < c.val.toNat ∧ c.val.toNat < 0x110000) := c.valid
  have same : Char.ofNat c.val.toNat = c := Char.ofNat_toNat c
  unfold String.utf8EncodeChar
  generalize c.val.toNat = v at valid same ⊢
  dsimp only
  split_ifs with one two three
  · have d0 := toNat_byte (n := v) (by omega)
    refine .one ?_ (by rw [d0, same])
    simp only [charWidth, d0]
    split_ifs <;> omega
  · have d0 := toNat_byte (n := v / 64 % 32 + 192) (by omega)
    have d1 := toNat_byte (n := v % 64 + 128) (by omega)
    refine .two ?_ (isContinuation_low v) ?_
    · simp only [charWidth, d0]
      split_ifs <;> omega
    · rw [← same, assemble2, d0, d1]
      congr 1
      omega
  · have d0 := toNat_byte (n := v / 4096 % 16 + 224) (by omega)
    have d1 := toNat_byte (n := v / 64 % 64 + 128) (by omega)
    have d2 := toNat_byte (n := v % 64 + 128) (by omega)
    refine .three ?_ ?_ (isContinuation_low v) ?_
    · simp only [charWidth, d0]
      split_ifs <;> omega
    · simp only [secondAdmitted, isContinuation, d0, d1]
      split_ifs <;> simp only [Bool.and_eq_true, decide_eq_true_eq, beq_iff_eq] <;> omega
    · rw [← same, assemble3, d0, d1, d2]
      congr 1
      omega
  · have d0 := toNat_byte (n := v / 262144 % 8 + 240) (by omega)
    have d1 := toNat_byte (n := v / 4096 % 64 + 128) (by omega)
    have d2 := toNat_byte (n := v / 64 % 64 + 128) (by omega)
    have d3 := toNat_byte (n := v % 64 + 128) (by omega)
    refine .four ?_ ?_ (isContinuation_low (v / 64)) (isContinuation_low v) ?_
    · simp only [charWidth, d0]
      split_ifs <;> omega
    · simp only [secondAdmitted, isContinuation, d0, d1]
      split_ifs <;> simp only [Bool.and_eq_true, decide_eq_true_eq, beq_iff_eq] <;> omega
    · rw [← same, assemble4, d0, d1, d2, d3]
      congr 1
      omega

/-- An admitted second byte is a continuation byte. -/
theorem secondAdmitted_continuation {first second : UInt8}
    (admitted : secondAdmitted first second = true) : isContinuation second = true := by
  revert admitted
  simp only [secondAdmitted, isContinuation]
  split_ifs <;> simp only [Bool.and_eq_true, decide_eq_true_eq, beq_iff_eq] <;> omega

/-- No byte after the first of a sequence starts a sequence. -/
theorem Sequence.tail_continuation {c : Char} {bytes : List UInt8} (seq : Sequence c bytes) :
    ∀ byte ∈ bytes.tail, isContinuation byte = true := by
  cases seq with
  | one width value => simp
  | two width tail1 value => simpa using tail1
  | three width second tail2 value =>
    simpa using ⟨secondAdmitted_continuation second, tail2⟩
  | four width second tail2 tail3 value =>
    simpa using ⟨secondAdmitted_continuation second, tail2, tail3⟩

/-- A well-formed sequence is read as its character, whatever follows. -/
theorem Sequence.read {c : Char} {bytes : List UInt8} (seq : Sequence c bytes)
    (rest : List UInt8) : fromUtf8Lossy (bytes ++ rest) = c :: fromUtf8Lossy rest := by
  cases seq with
  | one width value => simp [fromUtf8Lossy_cons, readChar, width, value]
  | two width tail1 value => simp [fromUtf8Lossy_cons, readChar, width, tail1, value]
  | three width second tail2 value =>
    simp [fromUtf8Lossy_cons, readChar, width, second, tail2, value]
  | four width second tail2 tail3 value =>
    simp [fromUtf8Lossy_cons, readChar, width, second, tail2, tail3, value]

/-- A sequence that ends early is one U+FFFD, however many of its bytes are there. -/
theorem Sequence.read_cut {c : Char} {bytes : List UInt8} (seq : Sequence c bytes) {kept : Nat}
    (some_kept : 0 < kept) (cut : kept < bytes.length) :
    fromUtf8Lossy (bytes.take kept) = [replacement] := by
  obtain ⟨kept, rfl⟩ : ∃ k, kept = k + 1 := ⟨kept - 1, by omega⟩
  cases seq with
  | one width value => simp at cut
  | two width tail1 value =>
    obtain rfl : kept = 0 := by simp at cut; omega
    simp [fromUtf8Lossy_cons, readChar, width]
  | three width second tail2 value =>
    obtain rfl | rfl : kept = 0 ∨ kept = 1 := by simp at cut; omega
    · simp [fromUtf8Lossy_cons, readChar, width]
    · simp [fromUtf8Lossy_cons, readChar, width, second]
  | four width second tail2 tail3 value =>
    obtain rfl | rfl | rfl : kept = 0 ∨ kept = 1 ∨ kept = 2 := by simp at cut; omega
    · simp [fromUtf8Lossy_cons, readChar, width]
    · simp [fromUtf8Lossy_cons, readChar, width, second]
    · simp [fromUtf8Lossy_cons, readChar, width, second, tail2]

/-- A continuation byte announces no sequence. -/
theorem charWidth_continuation {byte : UInt8} (continuation : isContinuation byte = true) :
    charWidth byte = 0 := by
  simp only [isContinuation, beq_iff_eq] at continuation
  simp only [charWidth]
  split_ifs <;> omega

/-- Continuation bytes at the front are one U+FFFD each. -/
theorem fromUtf8Lossy_continuations (bytes rest : List UInt8)
    (continuations : ∀ byte ∈ bytes, isContinuation byte = true) :
    fromUtf8Lossy (bytes ++ rest) =
      List.replicate bytes.length replacement ++ fromUtf8Lossy rest := by
  induction bytes with
  | nil => rfl
  | cons byte bytes ih =>
    have width := charWidth_continuation (continuations byte (by simp))
    have tail := ih (fun other member => continuations other (by simp [member]))
    simp only [List.cons_append, fromUtf8Lossy_cons, readChar, width, tail, List.length_cons,
      List.replicate_succ]

/-- Valid text in front is read as itself, whatever follows. -/
theorem fromUtf8Lossy_utf8_append (text : List Char) (rest : List UInt8) :
    fromUtf8Lossy (utf8 text ++ rest) = text ++ fromUtf8Lossy rest := by
  induction text with
  | nil => rfl
  | cons c text ih =>
    rw [utf8_cons, List.append_assoc, (encode_sequence c).read, ih, List.cons_append]

/-- Valid text is read as itself. -/
theorem fromUtf8Lossy_utf8 (text : List Char) : fromUtf8Lossy (utf8 text) = text := by
  simpa using fromUtf8Lossy_utf8_append text []

/-! ## Lengths -/

/-- A step emits at most three bytes for each byte it consumes: a malformed byte becomes the
three bytes of U+FFFD, and no character takes more bytes than three times its sequence. -/
theorem readChar_expansion (b0 : UInt8) (rest : List UInt8) :
    (readChar b0 rest).1.utf8Size + 3 * (readChar b0 rest).2.length ≤ 3 * (rest.length + 1) := by
  have malformed : replacement.utf8Size = 3 := by decide
  have widest2 (b1 : UInt8) := (assemble2 b0 b1).utf8Size_le_four
  have widest3 (b1 b2 : UInt8) := (assemble3 b0 b1 b2).utf8Size_le_four
  have widest4 (b1 b2 b3 : UInt8) := (assemble4 b0 b1 b2 b3).utf8Size_le_four
  fun_cases readChar b0 rest
  all_goals simp only [List.length_cons, List.length_nil, malformed]
  case case1 width =>
    have ascii : b0.toNat < 0x80 := by
      simp only [charWidth] at width
      split_ifs at width <;> omega
    have single : (Char.ofNat b0.toNat).utf8Size = 1 := by
      have below : ∀ n < 128, (Char.ofNat n).utf8Size = 1 := by decide
      exact below b0.toNat ascii
    omega
  all_goals grind

/-- Lossy decoding at most triples the length. -/
theorem length_utf8_fromUtf8Lossy (bytes : List UInt8) :
    (utf8 (fromUtf8Lossy bytes)).length ≤ 3 * bytes.length := by
  fun_induction fromUtf8Lossy bytes with
  | case1 => simp
  | case2 b0 rest ih =>
    have step := readChar_expansion b0 rest
    simp only [utf8_cons, List.length_append, String.length_utf8EncodeChar, List.length_cons]
    omega

end TiktokenWorker.Utf8

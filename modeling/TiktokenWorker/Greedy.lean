import TiktokenWorker.CoreBpe

/-!
# A byte-level encoder

The promises of `CoreBPE.ByteLevel` are met by reading a text from the left and taking, at each
byte, the first entry of a vocabulary that matches there, or the byte itself. `bpe_byteLevel`
proves it for every vocabulary, and `pieceBpe_byteLevel` for reading each piece of a text by itself.
The crate's own encoder chooses tokens otherwise; on the texts below, which its documentation or the
repository's tests give the tokens of, the two agree.
-/

namespace TiktokenWorker.Greedy

open Utf8

/-- Id of a single byte in the bundled vocabularies: the printable bytes in order, then the
others in order. -/
def byteRank (byte : UInt8) : UInt32 :=
  let v := byte.toNat
  UInt32.ofNat <|
    if v ≤ 0x20 then v + 188
    else if v ≤ 0x7E then v - 33
    else if v ≤ 0xA0 then v + 94
    else if v ≤ 0xAC then v - 67
    else if v = 0xAD then 255
    else v - 68

/-- The byte of an id below 256. -/
def rankByte (id : UInt32) : UInt8 :=
  let v := id.toNat
  UInt8.ofNat <|
    if v < 94 then v + 33
    else if v < 106 then v + 67
    else if v < 188 then v + 68
    else if v < 221 then v - 188
    else if v < 255 then v - 94
    else 0xAD

/-- Every byte is the byte of its id. -/
theorem rankByte_byteRank (byte : UInt8) :
    (byteRank byte).toNat < 256 ∧ rankByte (byteRank byte) = byte := by
  have every : ∀ n < 256, (byteRank (UInt8.ofNat n)).toNat < 256 ∧
      rankByte (byteRank (UInt8.ofNat n)) = UInt8.ofNat n := by decide +kernel
  simpa using every byte.toNat byte.toNat_lt

/-- A token of more than one byte. -/
structure Entry where
  /-- Its bytes. -/
  bytes : List UInt8
  /-- Its id. -/
  id : UInt32
  deriving DecidableEq

/-- Tokens in the order they are tried. The ids below 256 are the single bytes. -/
structure Vocabulary where
  /-- The tokens. -/
  entries : List Entry
  /-- No token is empty. -/
  nonempty : ∀ entry ∈ entries, entry.bytes ≠ []
  /-- No token has the id of a byte. -/
  above : ∀ entry ∈ entries, 256 ≤ entry.id.toNat
  /-- An id determines its token. -/
  unique : ∀ entry ∈ entries, entries.find? (fun other => other.id == entry.id) = some entry

namespace Vocabulary

variable (vocabulary : Vocabulary)

/-- The bytes a token stands for. -/
def decoder (id : UInt32) : Option (List UInt8) :=
  if id.toNat < 256 then some [rankByte id]
  else (vocabulary.entries.find? fun entry => entry.id == id).map Entry.bytes

/-- The tokens of a byte string of which the first `skip` bytes belong to a token already taken. -/
def encodeFrom : Nat → List UInt8 → List UInt32
  | _, [] => []
  | skip + 1, _ :: rest => encodeFrom skip rest
  | 0, byte :: rest =>
    match vocabulary.entries.find? fun entry => entry.bytes.isPrefixOf (byte :: rest) with
    | some entry => entry.id :: encodeFrom (entry.bytes.length - 1) rest
    | none => byteRank byte :: encodeFrom 0 rest

/-- The encoder of a vocabulary. -/
def bpe : CoreBPE where
  decoder := vocabulary.decoder
  encodeOrdinary text := vocabulary.encodeFrom 0 (utf8 text.toList)
  decodeBytes ids :=
    match ids.find? fun id => (vocabulary.decoder id).isNone with
    | some id => .error ⟨id⟩
    | none => .ok (ids.flatMap fun id => (vocabulary.decoder id).getD [])

/-- A byte decodes to itself. -/
theorem decoder_byteRank (byte : UInt8) : vocabulary.decoder (byteRank byte) = some [byte] := by
  obtain ⟨small, inverse⟩ := rankByte_byteRank byte
  rw [decoder, if_pos small, inverse]

/-- An entry decodes to its bytes. -/
theorem decoder_entry {entry : Entry} (listed : entry ∈ vocabulary.entries) :
    vocabulary.decoder entry.id = some entry.bytes := by
  have above := vocabulary.above entry listed
  rw [decoder, if_neg (by omega), vocabulary.unique entry listed, Option.map_some]

/-- What follows an entry at the front of a byte string. -/
theorem drop_matched {entry : Entry} (listed : entry ∈ vocabulary.entries) {byte : UInt8}
    {rest tail : List UInt8} (split : entry.bytes ++ tail = byte :: rest) :
    rest.drop (entry.bytes.length - 1) = tail := by
  have nonempty := List.length_pos_iff.mpr (vocabulary.nonempty entry listed)
  have dropped := congrArg (List.drop entry.bytes.length) split
  rw [List.drop_left, ← Nat.sub_add_cancel nonempty, List.drop_succ_cons] at dropped
  exact dropped.symm

/-- The tokens taken from a byte string are known and stand for the bytes not skipped. -/
theorem encodeFrom_exact (skip : Nat) (bytes : List UInt8) :
    vocabulary.bpe.Known (vocabulary.encodeFrom skip bytes) ∧
      vocabulary.bpe.bytesOf (vocabulary.encodeFrom skip bytes) = bytes.drop skip := by
  induction bytes generalizing skip with
  | nil => simp [encodeFrom, CoreBPE.Known]
  | cons byte rest ih =>
    cases skip with
    | succ skip => simpa [encodeFrom] using ih skip
    | zero =>
      rw [encodeFrom]
      split
      · rename_i entry found
        have listed := List.mem_of_find?_eq_some found
        have matched := List.find?_some found
        obtain ⟨tail, split⟩ := List.isPrefixOf_iff_prefix.mp matched
        have known : vocabulary.bpe.decoder entry.id = some entry.bytes :=
          vocabulary.decoder_entry listed
        obtain ⟨restKnown, restBytes⟩ := ih (entry.bytes.length - 1)
        refine ⟨List.forall_mem_cons.mpr ⟨by simp [known], restKnown⟩, ?_⟩
        rw [vocabulary.bpe.bytesOf_cons known, restBytes, vocabulary.drop_matched listed split,
          split, List.drop_zero]
      · obtain ⟨restKnown, restBytes⟩ := ih 0
        have known : vocabulary.bpe.decoder (byteRank byte) = some [byte] :=
          vocabulary.decoder_byteRank byte
        refine ⟨List.forall_mem_cons.mpr ⟨by simp [known], restKnown⟩, ?_⟩
        rw [vocabulary.bpe.bytesOf_cons known, restBytes, List.singleton_append, List.drop_zero,
          List.drop_zero]

/-- Known tokens decode to their bytes. -/
theorem decodeBytes_known {ids : List UInt32} (known : vocabulary.bpe.Known ids) :
    vocabulary.bpe.decodeBytes ids = .ok (vocabulary.bpe.bytesOf ids) := by
  have none : ids.find? (fun id => (vocabulary.decoder id).isNone) = none := by
    rw [List.find?_eq_none]
    intro id member absent
    have present : (vocabulary.decoder id).isSome = true := known id member
    rw [Option.isNone_iff_eq_none.mp absent] at present
    contradiction
  simp only [bpe, none, CoreBPE.bytesOf]

/-- The encoder of a vocabulary keeps every promise. -/
theorem bpe_byteLevel : vocabulary.bpe.ByteLevel where
  token_nonempty id bytes found := by
    simp only [bpe, decoder] at found
    split at found
    · cases found
      simp
    · obtain ⟨entry, listed, rfl⟩ := Option.map_eq_some_iff.mp found
      exact vocabulary.nonempty entry (List.mem_of_find?_eq_some listed)
  decode_known ids known := vocabulary.decodeBytes_known known
  decode_unknown ids unknown := by
    simp only [bpe]
    split
    · exact ⟨_, rfl⟩
    · rename_i none
      refine absurd (fun id member => ?_) unknown
      have present := List.find?_eq_none.mp none id member
      simpa [bpe, Option.isSome_iff_ne_none] using present
  roundtrip text := by
    obtain ⟨known, bytes⟩ := vocabulary.encodeFrom_exact 0 (utf8 text.toList)
    rw [List.drop_zero] at bytes
    exact (vocabulary.decodeBytes_known known).trans (congrArg Except.ok bytes)

/-- Bytes of a token already taken are passed over. -/
theorem encodeFrom_skip (skip : Nat) (bytes : List UInt8) :
    vocabulary.encodeFrom skip bytes = vocabulary.encodeFrom 0 (bytes.drop skip) := by
  induction bytes generalizing skip with
  | nil => cases skip <;> rfl
  | cons byte rest ih =>
    cases skip with
    | zero => rfl
    | succ skip => exact ih skip

/-- An entry found at the front is taken, and the rest is read after it. -/
theorem encodeFrom_entry {entry : Entry} {tail : List UInt8}
    (found : (vocabulary.entries.find? fun other =>
      other.bytes.isPrefixOf (entry.bytes ++ tail)) = some entry) :
    vocabulary.encodeFrom 0 (entry.bytes ++ tail) = entry.id :: vocabulary.encodeFrom 0 tail := by
  have listed := List.mem_of_find?_eq_some found
  cases split : entry.bytes ++ tail with
  | nil => exact absurd (List.append_eq_nil_iff.mp split).1 (vocabulary.nonempty entry listed)
  | cons byte rest =>
    rw [split] at found
    simp only [encodeFrom, found]
    rw [encodeFrom_skip, vocabulary.drop_matched listed split]

/-- A search that matches less finds the same element if it still matches it. -/
theorem find?_of_imp {α : Type} {items : List α} {wide narrow : α → Bool} {item : α}
    (found : items.find? wide = some item)
    (weaker : ∀ other, narrow other = true → wide other = true)
    (matched : narrow item = true) : items.find? narrow = some item := by
  obtain ⟨_, before, after, rfl, unmatched⟩ := List.find?_eq_some_iff_append.mp found
  refine List.find?_eq_some_iff_append.mpr ⟨matched, before, after, rfl, fun other member => ?_⟩
  have missed := unmatched other member
  cases h : narrow other with
  | false => rfl
  | true => rw [weaker other h] at missed; contradiction

/-- The first tokens of a byte string are the tokens of their bytes: an entry tried before the one
taken does not match fewer bytes either. -/
theorem encodeFrom_prefix (bytes : List UInt8) (left right : List UInt32)
    (split : vocabulary.encodeFrom 0 bytes = left ++ right) :
    vocabulary.encodeFrom 0 (vocabulary.bpe.bytesOf left) = left := by
  induction left generalizing bytes with
  | nil => rfl
  | cons id left ih =>
    cases bytes with
    | nil => simp [encodeFrom] at split
    | cons byte rest =>
      have covers (later : List UInt8) (split : vocabulary.encodeFrom 0 later = left ++ right) :
          vocabulary.bpe.bytesOf left <+: later := by
        have bytes := (vocabulary.encodeFrom_exact 0 later).2
        rw [split, CoreBPE.bytesOf_append, List.drop_zero] at bytes
        exact ⟨_, bytes⟩
      cases found : vocabulary.entries.find? fun entry => entry.bytes.isPrefixOf (byte :: rest) with
      | some entry =>
        have listed := List.mem_of_find?_eq_some found
        have front : entry.bytes.isPrefixOf (byte :: rest) = true := by
          simpa using List.find?_some found
        obtain ⟨tail, matched⟩ := List.isPrefixOf_iff_prefix.mp front
        rw [← matched] at found split
        rw [vocabulary.encodeFrom_entry found, List.cons_append, List.cons.injEq] at split
        obtain ⟨rfl, later⟩ := split
        rw [vocabulary.bpe.bytesOf_cons (vocabulary.decoder_entry listed)]
        have shorter : entry.bytes ++ vocabulary.bpe.bytesOf left <+: entry.bytes ++ tail :=
          (List.prefix_append_right_inj _).mpr (covers tail later)
        have still : (vocabulary.entries.find? fun other =>
            other.bytes.isPrefixOf (entry.bytes ++ vocabulary.bpe.bytesOf left)) = some entry := by
          apply find?_of_imp found
          · intro other fewer
            have longer := (List.isPrefixOf_iff_prefix.mp fewer).trans shorter
            exact List.isPrefixOf_iff_prefix.mpr longer
          · exact List.isPrefixOf_iff_prefix.mpr (List.prefix_append _ _)
        rw [vocabulary.encodeFrom_entry still, ih tail later]
      | none =>
        simp only [encodeFrom, found, List.cons_append, List.cons.injEq] at split
        obtain ⟨rfl, later⟩ := split
        have known : vocabulary.bpe.decoder (byteRank byte) = some [byte] :=
          vocabulary.decoder_byteRank byte
        rw [vocabulary.bpe.bytesOf_cons known, List.singleton_append]
        have shorter : byte :: vocabulary.bpe.bytesOf left <+: byte :: rest :=
          List.cons_prefix_cons.mpr ⟨rfl, covers rest later⟩
        have unmatched : (vocabulary.entries.find? fun entry =>
            entry.bytes.isPrefixOf (byte :: vocabulary.bpe.bytesOf left)) = none := by
          rw [List.find?_eq_none] at found ⊢
          intro entry listed matched
          have longer := (List.isPrefixOf_iff_prefix.mp matched).trans shorter
          exact found entry listed (List.isPrefixOf_iff_prefix.mpr longer)
        simp only [encodeFrom, unmatched, ih rest later]

/-- What follows the first tokens of a byte string is the tokens of what follows their bytes. -/
theorem encodeFrom_suffix (bytes : List UInt8) (left right : List UInt32)
    (tokens : vocabulary.encodeFrom 0 bytes = left ++ right) :
    vocabulary.encodeFrom 0 (vocabulary.bpe.bytesOf right) = right := by
  induction left generalizing bytes with
  | nil =>
    have exactly := (vocabulary.encodeFrom_exact 0 bytes).2
    rw [tokens, List.nil_append, List.drop_zero] at exactly
    rw [exactly, tokens, List.nil_append]
  | cons id left ih =>
    cases bytes with
    | nil => simp [encodeFrom] at tokens
    | cons byte rest =>
      rw [encodeFrom] at tokens
      split at tokens
      · rw [List.cons_append, List.cons.injEq, encodeFrom_skip] at tokens
        exact ih _ tokens.2
      · rw [List.cons_append, List.cons.injEq] at tokens
        exact ih rest tokens.2

/-- A run of tokens is what its bytes encode to again. -/
theorem keepsRuns (text : String) : vocabulary.bpe.KeepsRuns text := by
  intro piece ids run same
  obtain ⟨left, right, split⟩ := run
  rw [List.append_assoc] at split
  have rest := vocabulary.encodeFrom_suffix _ left (ids ++ right) split.symm
  have again := vocabulary.encodeFrom_prefix _ ids right rest
  rw [same] at again
  exact again

end Vocabulary

/-! ## Pieces

The pattern of `cl100k_base` cuts a text into pieces, and no token goes over the end of one. Which
characters a piece holds can change when the character before it does. -/

/-- Letters, of the characters of the texts below. -/
def isLetter (c : Char) : Bool := c.isAlpha || (0xC0 ≤ c.toNat && c.toNat < 0xA000)

/-- Characters that are neither letters nor digits nor white space. -/
def isSymbol (c : Char) : Bool := !isLetter c && !c.isDigit && !c.isWhitespace

/-- Length of the first piece: letters, after at most one other character, or symbols, or one
character. -/
def pieceLength : List Char → Nat
  | [] => 0
  | c :: rest =>
    let letters := (rest.takeWhile isLetter).length
    if isLetter c then letters + 1
    else if 0 < letters && !c.isDigit && c != '\r' && c != '\n' then letters + 1
    else if isSymbol c then (rest.takeWhile isSymbol).length + 1
    else 1

/-- The pieces of a text of which the first `skip` characters belong to a piece already cut. -/
def piecesFrom : Nat → List Char → List (List Char)
  | _, [] => []
  | skip + 1, _ :: rest => piecesFrom skip rest
  | 0, c :: rest =>
    (c :: rest).take (pieceLength (c :: rest)) :: piecesFrom (pieceLength (c :: rest) - 1) rest

/-- A piece holds a character. -/
theorem pieceLength_pos (c : Char) (rest : List Char) : 0 < pieceLength (c :: rest) := by
  simp only [pieceLength]
  split_ifs <;> exact Nat.succ_pos _

/-- The pieces of a text make it up. -/
theorem flatten_piecesFrom (skip : Nat) (text : List Char) :
    (piecesFrom skip text).flatten = text.drop skip := by
  induction text generalizing skip with
  | nil => simp [piecesFrom]
  | cons c rest ih =>
    cases skip with
    | succ skip => exact ih skip
    | zero =>
      obtain ⟨length, total⟩ := Nat.exists_eq_succ_of_ne_zero (pieceLength_pos c rest).ne'
      rw [piecesFrom, List.flatten_cons, ih, total, Nat.succ_sub_one, List.take_succ_cons,
        List.cons_append, List.take_append_drop, List.drop_zero]

namespace Vocabulary

variable (vocabulary : Vocabulary)

/-- The encoder of a vocabulary that reads each piece of a text by itself. -/
def pieceBpe : CoreBPE where
  decoder := vocabulary.bpe.decoder
  encodeOrdinary text :=
    (piecesFrom 0 text.toList).flatMap fun piece => vocabulary.encodeFrom 0 (utf8 piece)
  decodeBytes := vocabulary.bpe.decodeBytes

/-- The tokens of pieces are known and stand for their bytes. -/
theorem encode_pieces_exact (pieces : List (List Char)) :
    vocabulary.bpe.Known (pieces.flatMap fun piece => vocabulary.encodeFrom 0 (utf8 piece)) ∧
      vocabulary.bpe.bytesOf (pieces.flatMap fun piece => vocabulary.encodeFrom 0 (utf8 piece)) =
        utf8 pieces.flatten := by
  induction pieces with
  | nil => simp [CoreBPE.Known]
  | cons piece pieces ih =>
    obtain ⟨known, bytes⟩ := vocabulary.encodeFrom_exact 0 (utf8 piece)
    rw [List.drop_zero] at bytes
    rw [List.flatMap_cons, List.flatten_cons, utf8_append, CoreBPE.bytesOf_append, bytes, ih.2]
    exact ⟨List.forall_mem_append.mpr ⟨known, ih.1⟩, rfl⟩

/-- It keeps every promise too. -/
theorem pieceBpe_byteLevel : vocabulary.pieceBpe.ByteLevel where
  token_nonempty := vocabulary.bpe_byteLevel.token_nonempty
  decode_known := vocabulary.bpe_byteLevel.decode_known
  decode_unknown := vocabulary.bpe_byteLevel.decode_unknown
  roundtrip text := by
    obtain ⟨known, bytes⟩ := vocabulary.encode_pieces_exact (piecesFrom 0 text.toList)
    rw [flatten_piecesFrom, List.drop_zero] at bytes
    exact (vocabulary.bpe_byteLevel.decode_known _ known).trans (congrArg Except.ok bytes)

end Vocabulary

/-! ## Vocabularies -/

/-- Tokens of `cl100k_base` that the repository's tests name, and the one `👍` begins with. -/
def cl100k : Vocabulary where
  entries := [⟨utf8 " great".toList, 2294⟩, ⟨utf8 " world".toList, 1917⟩,
    ⟨utf8 "hello".toList, 15339⟩, ⟨utf8 "token".toList, 5963⟩, ⟨utf8 " is".toList, 374⟩,
    ⟨utf8 "ik".toList, 1609⟩, ⟨[0xF0, 0x9F], 9468⟩]
  nonempty := by decide
  above := by decide
  unique := by decide

/-- ` world` many times. -/
def worlds (n : Nat) : String := String.ofList (List.replicate n " world".toList).flatten

theorem utf8_worlds_succ (n : Nat) :
    utf8 (worlds (n + 1)).toList = utf8 " world".toList ++ utf8 (worlds n).toList := by
  simp only [worlds, String.toList_ofList, List.replicate_succ, List.flatten_cons, utf8,
    List.flatMap_append]

/-- It is six bytes each time. -/
theorem utf8ByteSize_worlds (n : Nat) : (worlds n).utf8ByteSize = 6 * n := by
  rw [utf8ByteSize_eq]
  induction n with
  | zero => rfl
  | succ n ih =>
    rw [utf8_worlds_succ, List.length_append, ih, Nat.mul_succ, Nat.add_comm]
    rfl

/-- It is one token each time. -/
theorem encodeOrdinary_worlds (n : Nat) :
    cl100k.bpe.encodeOrdinary (worlds n) = List.replicate n 1917 := by
  induction n with
  | zero => rfl
  | succ n ih =>
    have found : (cl100k.entries.find? fun other =>
        other.bytes.isPrefixOf (utf8 " world".toList ++ utf8 (worlds n).toList)) =
          some ⟨utf8 " world".toList, 1917⟩ := rfl
    have taken : cl100k.encodeFrom 0 (utf8 " world".toList ++ utf8 (worlds n).toList) =
        1917 :: cl100k.encodeFrom 0 (utf8 (worlds n).toList) :=
      @Vocabulary.encodeFrom_entry cl100k ⟨utf8 " world".toList, 1917⟩ _ found
    rw [← utf8_worlds_succ] at taken
    exact taken.trans (congrArg _ ih)

/-- Tokens of `o200k_base` that the repository's tests name. -/
def o200k : Vocabulary where
  entries := [⟨utf8 " world".toList, 2375⟩, ⟨utf8 "hello".toList, 24912⟩]
  nonempty := by decide
  above := by decide
  unique := by decide

/-- Tokens of `p50k_base` and `r50k_base`. -/
def gpt2 : Vocabulary where
  entries := [⟨utf8 " world".toList, 995⟩, ⟨utf8 "hello".toList, 31373⟩]
  nonempty := by decide
  above := by decide
  unique := by decide

/-- Tokens that `cl100k_base` makes of `éД中Ж.s\ndД` and of U+FFFD. `Ж` is none, its two bytes are. A
budget depends on the bytes of the tokens alone. -/
def cl100kWords : Vocabulary where
  entries := [⟨utf8 "\uFFFD".toList, 5809⟩, ⟨utf8 "中".toList, 16325⟩, ⟨utf8 "é".toList, 978⟩,
    ⟨utf8 "Д".toList, 60627⟩, ⟨utf8 ".s".toList, 516⟩]
  nonempty := by decide
  above := by decide
  unique := by decide

/-- A crate over the vocabularies above, with two entries of the model table. -/
def crate : TiktokenRs where
  cl100kBaseSingleton := cl100k.bpe
  o200kBaseSingleton := o200k.bpe
  p50kBaseSingleton := gpt2.bpe
  r50kBaseSingleton := gpt2.bpe
  bpeForTokenizer
    | .cl100kBase => cl100k.bpe
    | .o200kBase | .o200kHarmony => o200k.bpe
    | .p50kBase | .p50kEdit | .r50kBase | .gpt2 => gpt2.bpe
  getTokenizer
    | "text-davinci-003" => some .p50kBase
    | "gpt2" => some .gpt2
    | _ => none

/-- The same with the pieces and tokens that `cl100k_base` makes of those texts. -/
def wordsCrate : TiktokenRs :=
  { crate with
    cl100kBaseSingleton := cl100kWords.pieceBpe
    bpeForTokenizer := fun
      | .cl100kBase => cl100kWords.pieceBpe
      | tokenizer => crate.bpeForTokenizer tokenizer }

example : cl100k.bpe.encodeOrdinary "tiktoken is great!" = [83, 1609, 5963, 374, 2294, 0] := by
  decide

end TiktokenWorker.Greedy

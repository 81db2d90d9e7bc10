import TiktokenWorker.CoreBpe
import Mathlib.Data.List.DropRight

/-!
# The tokenization engine

`tiktoken.rs`, function by function. Text is a `String`, a `usize` is a natural number, and the
process-wide cache of encoders is the value it caches. The one loop, in `chunk`, is `chunkLoop`;
it terminates because the window advances.
-/

namespace TiktokenWorker

open Utf8

/-! ## Strings -/

/-- `char::is_whitespace`, the Unicode White_Space property. -/
def isWhitespace (c : Char) : Bool :=
  let v := c.toNat
  (0x09 ≤ v && v ≤ 0x0D) || v == 0x20 || v == 0x85 || v == 0xA0 || v == 0x1680 ||
    (0x2000 ≤ v && v ≤ 0x200A) || v == 0x2028 || v == 0x2029 || v == 0x202F || v == 0x205F ||
    v == 0x3000

/-- `str::trim`. -/
def trim (text : String) : String :=
  String.ofList ((text.toList.dropWhile isWhitespace).rdropWhile isWhitespace)

/-- `str::to_ascii_lowercase`. -/
def toAsciiLowercase (text : String) : String := String.ofList (text.toList.map Char.toLower)

/-! ## Encodings -/

/-- `DEFAULT_ENCODING`. -/
def defaultEncodingName : String := "cl100k_base"

/-- A supported encoding. -/
inductive Encoding where
  | cl100kBase
  | o200kBase
  | p50kBase
  | r50kBase
  | o200kHarmony
  deriving DecidableEq, Repr

namespace Encoding

/-- The canonical encoding name. -/
def name : Encoding → String
  | .cl100kBase => "cl100k_base"
  | .o200kBase => "o200k_base"
  | .p50kBase => "p50k_base"
  | .r50kBase => "r50k_base"
  | .o200kHarmony => "o200k_harmony"

/-- Resolve a canonical encoding name, in any case and with any padding. -/
def fromEncodingName (name : String) : Option Encoding :=
  match toAsciiLowercase (trim name) with
  | "cl100k_base" | "cl100k" => some .cl100kBase
  | "o200k_base" | "o200k" => some .o200kBase
  | "p50k_base" | "p50k" => some .p50kBase
  | "r50k_base" | "r50k" | "gpt2" => some .r50kBase
  | "o200k_harmony" => some .o200kHarmony
  | _ => none

/-- The encoding used when the caller names none. The name it is read from is valid, so the
`expect` of the source never fires. -/
def defaultEncoding : Encoding := (fromEncodingName defaultEncodingName).get (by decide)

/-- The tokenizer of an encoding. -/
def tokenizer : Encoding → Tokenizer
  | .cl100kBase => .cl100kBase
  | .o200kBase => .o200kBase
  | .p50kBase => .p50kBase
  | .r50kBase => .r50kBase
  | .o200kHarmony => .o200kHarmony

/-- The encoder of an encoding; the source caches each. -/
def bpe (rs : TiktokenRs) : Encoding → CoreBPE
  | .cl100kBase => rs.cl100kBaseSingleton
  | .o200kBase => rs.o200kBaseSingleton
  | .p50kBase => rs.p50kBaseSingleton
  | .r50kBase => rs.r50kBaseSingleton
  | .o200kHarmony => rs.bpeForTokenizer Encoding.o200kHarmony.tokenizer

/-- The encoding a tokenizer of the model table is mapped to. -/
def ofTokenizer : Tokenizer → Encoding
  | .cl100kBase => .cl100kBase
  | .o200kBase => .o200kBase
  | .p50kBase | .p50kEdit => .p50kBase
  | .r50kBase | .gpt2 => .r50kBase
  | .o200kHarmony => .o200kHarmony

/-- Every canonical name resolves to its encoding. -/
theorem fromEncodingName_name (encoding : Encoding) :
    fromEncodingName encoding.name = some encoding := by
  cases encoding <;> decide

end Encoding

variable (rs : TiktokenRs)

/-- Resolve a model name. The names callers pass most are answered without the table; they are
matched in lower case, the table is asked for the name as it was passed. -/
def encodingForModel (model : String) : Option Encoding :=
  let m := trim model
  if m.isEmpty then none
  else match toAsciiLowercase m with
    | "gpt-4o" | "gpt-4o-mini" | "gpt-4.1" | "gpt-4.5" => some .o200kBase
    | "gpt-4" | "gpt-4-turbo" | "gpt-3.5-turbo" | "gpt-3.5" | "chatgpt" => some .cl100kBase
    | _ => (rs.getTokenizer m).map Encoding.ofTokenizer

/-- Resolve a model name to the name of its encoding. -/
def encodingNameForModel (model : String) : Option String :=
  (encodingForModel rs model).map Encoding.name

/-- Resolve an encoding name or, failing that, a model name. -/
def resolve (identifier : String) : Option Encoding :=
  (Encoding.fromEncodingName identifier).or (encodingForModel rs identifier)

/-! ## Tokens -/

/-- Number of tokens of a text. -/
def count (text : String) (encoding : Encoding) : Nat :=
  if text.isEmpty then 0 else ((encoding.bpe rs).encodeOrdinary text).length

/-- Token ids of a text. -/
def tokenize (text : String) (encoding : Encoding) : List UInt32 :=
  if text.isEmpty then [] else (encoding.bpe rs).encodeOrdinary text

/-- Text of a run of tokens. Tokens that do not decode are no bytes, and bytes that are not valid
UTF-8 are replaced. -/
def decode (tokens : List UInt32) (encoding : Encoding) : String :=
  if tokens.isEmpty then ""
  else
    let bytes := match (encoding.bpe rs).decodeBytes tokens with
      | .ok bytes => bytes
      | .error _ => []
    String.ofList (fromUtf8Lossy bytes)

/-- The first `n` tokens of a text, decoded. -/
def truncate (text : String) (n : Nat) (encoding : Encoding) : String :=
  if n = 0 ∨ text.isEmpty then ""
  else
    let tokens := (encoding.bpe rs).encodeOrdinary text
    let stop := min n tokens.length
    decode rs (tokens.extract 0 stop) encoding

/-- The loop of `chunk` from one value of `start` on. Reaching the end of the tokens is the
`break`. -/
def chunkLoop (tokens : List UInt32) (maxTokens step : Nat) (encoding : Encoding)
    (advances : 0 < step) (start : Nat) (out : List String) : List String :=
  if start < tokens.length then
    let stop := min (start + maxTokens) tokens.length
    let out := out ++ [decode rs (tokens.extract start stop) encoding]
    if stop = tokens.length then out
    else chunkLoop tokens maxTokens step encoding advances (start + step) out
  else out
termination_by tokens.length - start

/-- Split a text into windows of at most `maxTokens` tokens that share `overlap` tokens. -/
def chunk (text : String) (maxTokens overlap : Nat) (encoding : Encoding) : List String :=
  if refused : text.isEmpty ∨ maxTokens = 0 then []
  else
    let tokens := (encoding.bpe rs).encodeOrdinary text
    if tokens.isEmpty then []
    else
      let overlap := min overlap (maxTokens - 1)
      let step := maxTokens - overlap
      chunkLoop rs tokens maxTokens step encoding (by omega) 0 []

end TiktokenWorker

import Mathlib.Data.List.Basic
import Mathlib.Tactic

/-!
# The JSON grammar

RFC 8259, rule by rule, on lists of characters. `Denotes` relates a text of a rule to what it
denotes; `Text` is a whole JSON text. A number is kept as it is written and the members of an
object in the order they are written. A string that escapes half of a surrogate pair alone denotes
no text, so it is left out.
-/

namespace TiktokenWorker.Json

/-- A JSON value. -/
inductive Value where
  | null
  | bool (value : Bool)
  | number (literal : List Char)
  | string (text : String)
  | array (elements : List Value)
  | object (members : List (String × Value))

/-! ## Whitespace -/

/-- The characters of `ws`. -/
def isWs (c : Char) : Bool := c == ' ' || c == '\t' || c == '\n' || c == '\r'

/-- `ws`. -/
def Ws (text : List Char) : Prop := ∀ c ∈ text, isWs c = true

/-- A structural character, with the whitespace around it. -/
def Structural (c : Char) (text : List Char) : Prop :=
  ∃ before after, Ws before ∧ Ws after ∧ text = before ++ c :: after

/-- There may be no whitespace. -/
theorem Ws.nil : Ws [] := by
  intro c member
  cases member

/-- A structural character may stand alone. -/
theorem Structural.bare (c : Char) : Structural c [c] := ⟨[], [], .nil, .nil, rfl⟩

/-! ## Numbers -/

/-- `1*DIGIT`. -/
def Digits (text : List Char) : Prop := text ≠ [] ∧ ∀ c ∈ text, c.isDigit = true

/-- `int`. -/
def IntPart (text : List Char) : Prop :=
  text = ['0'] ∨ ∃ first rest, text = first :: rest ∧ first ≠ '0' ∧ Digits text

/-- `frac`. -/
def FracPart (text : List Char) : Prop := ∃ digits, Digits digits ∧ text = '.' :: digits

/-- `exp`. -/
def ExpPart (text : List Char) : Prop :=
  ∃ e sign digits, (e = 'e' ∨ e = 'E') ∧ (sign = [] ∨ sign = ['-'] ∨ sign = ['+']) ∧
    Digits digits ∧ text = e :: sign ++ digits

/-- `number`. -/
def Number (text : List Char) : Prop :=
  ∃ minus int frac exp, (minus = [] ∨ minus = ['-']) ∧ IntPart int ∧ (frac = [] ∨ FracPart frac) ∧
    (exp = [] ∨ ExpPart exp) ∧ text = minus ++ int ++ frac ++ exp

/-! ## Strings -/

/-- `unescaped`. -/
def isUnescaped (c : Char) : Bool := 0x20 ≤ c.toNat && c != '"' && c != '\\'

/-- The characters that stand for another after a backslash. -/
def escapes : List (Char × Char) :=
  [('"', '"'), ('\\', '\\'), ('/', '/'), ('b', '\x08'), ('f', '\x0c'), ('n', '\n'), ('r', '\r'),
    ('t', '\t')]

/-- The value of a `HEXDIG`. -/
def hexValue (c : Char) : Option Nat :=
  if '0' ≤ c ∧ c ≤ '9' then some (c.toNat - '0'.toNat)
  else if 'a' ≤ c ∧ c ≤ 'f' then some (c.toNat - 'a'.toNat + 10)
  else if 'A' ≤ c ∧ c ≤ 'F' then some (c.toNat - 'A'.toNat + 10)
  else none

/-- The value of `4HEXDIG`. -/
def unitValue : List Char → Option Nat
  | [a, b, c, d] => do
    let a ← hexValue a
    let b ← hexValue b
    let c ← hexValue c
    let d ← hexValue d
    some (((a * 16 + b) * 16 + c) * 16 + d)
  | _ => none

/-- The first unit of a surrogate pair. -/
def isHigh (unit : Nat) : Bool := 0xD800 ≤ unit && unit < 0xDC00

/-- The second unit of a surrogate pair. -/
def isLow (unit : Nat) : Bool := 0xDC00 ≤ unit && unit < 0xE000

/-- The character of a surrogate pair. -/
def ofPair (high low : Nat) : Char :=
  Char.ofNat (0x10000 + (high - 0xD800) * 0x400 + (low - 0xDC00))

/-- What may follow a backslash, and the character it stands for. -/
inductive Escape : List Char → Char → Prop where
  | short {e c : Char} (listed : escapes.lookup e = some c) : Escape [e] c
  | unit {digits : List Char} {unit : Nat} (value : unitValue digits = some unit)
      (single : isHigh unit = false ∧ isLow unit = false) : Escape ('u' :: digits) (Char.ofNat unit)
  | pair {first second : List Char} {high low : Nat} (firstValue : unitValue first = some high)
      (isFirst : isHigh high = true) (secondValue : unitValue second = some low)
      (isSecond : isLow low = true) :
      Escape ('u' :: first ++ '\\' :: 'u' :: second) (ofPair high low)

/-- `*char`, and the characters it denotes. -/
inductive Chars : List Char → List Char → Prop where
  | nil : Chars [] []
  | unescaped {c : Char} {text chars : List Char} (plain : isUnescaped c = true)
      (rest : Chars text chars) : Chars (c :: text) (c :: chars)
  | escaped {escape : List Char} {c : Char} {text chars : List Char} (stands : Escape escape c)
      (rest : Chars text chars) : Chars ('\\' :: escape ++ text) (c :: chars)

/-- Plain characters denote themselves. -/
theorem Chars.of_unescaped {chars : List Char} (plain : ∀ c ∈ chars, isUnescaped c = true) :
    Chars chars chars := by
  induction chars with
  | nil => exact .nil
  | cons c chars ih =>
    rw [List.forall_mem_cons] at plain
    exact .unescaped plain.1 (ih plain.2)

/-- `string`. -/
def Str (text : List Char) (value : String) : Prop :=
  ∃ chars, Chars chars value.toList ∧ text = '"' :: chars ++ ['"']

/-! ## Values -/

/-- What the rules with values in them denote. -/
inductive Phrase where
  /-- `value`. -/
  | value (value : Value)
  /-- `value *( value-separator value )`. -/
  | elements (elements : List Value)
  /-- `member *( value-separator member )`. -/
  | members (members : List (String × Value))

/-- A text of a rule, and what it denotes. -/
inductive Denotes : Phrase → List Char → Prop where
  | null : Denotes (.value .null) ['n', 'u', 'l', 'l']
  | bool_true : Denotes (.value (.bool true)) ['t', 'r', 'u', 'e']
  | bool_false : Denotes (.value (.bool false)) ['f', 'a', 'l', 's', 'e']
  | number {literal : List Char} (number : Number literal) :
      Denotes (.value (.number literal)) literal
  | string {text : List Char} {value : String} (string : Str text value) :
      Denotes (.value (.string value)) text
  | array_empty {opening closing : List Char} (opens : Structural '[' opening)
      (closes : Structural ']' closing) : Denotes (.value (.array [])) (opening ++ closing)
  | array {opening inner closing : List Char} {elements : List Value}
      (opens : Structural '[' opening) (within : Denotes (.elements elements) inner)
      (closes : Structural ']' closing) :
      Denotes (.value (.array elements)) (opening ++ inner ++ closing)
  | object_empty {opening closing : List Char} (opens : Structural '\x7b' opening)
      (closes : Structural '\x7d' closing) : Denotes (.value (.object [])) (opening ++ closing)
  | object {opening inner closing : List Char} {members : List (String × Value)}
      (opens : Structural '\x7b' opening) (within : Denotes (.members members) inner)
      (closes : Structural '\x7d' closing) :
      Denotes (.value (.object members)) (opening ++ inner ++ closing)
  | element {text : List Char} {value : Value} (only : Denotes (.value value) text) :
      Denotes (.elements [value]) text
  | elements {text separator rest : List Char} {value : Value} {values : List Value}
      (first : Denotes (.value value) text) (separates : Structural ',' separator)
      (later : Denotes (.elements values) rest) :
      Denotes (.elements (value :: values)) (text ++ separator ++ rest)
  | member {key separator text : List Char} {name : String} {value : Value} (named : Str key name)
      (separates : Structural ':' separator) (only : Denotes (.value value) text) :
      Denotes (.members [(name, value)]) (key ++ separator ++ text)
  | members {key separator text comma rest : List Char} {name : String} {value : Value}
      {others : List (String × Value)} (named : Str key name)
      (separates : Structural ':' separator) (first : Denotes (.value value) text)
      (continues : Structural ',' comma) (later : Denotes (.members others) rest) :
      Denotes (.members ((name, value) :: others)) (key ++ separator ++ text ++ comma ++ rest)

/-- `JSON-text`, and the value it denotes. -/
def Text (text : List Char) (value : Value) : Prop :=
  ∃ before inner after, Ws before ∧ Denotes (.value value) inner ∧ Ws after ∧
    text = before ++ inner ++ after

end TiktokenWorker.Json

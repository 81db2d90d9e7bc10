import Mathlib.Data.List.Enum
import TiktokenWorker.Json.Parser

/-!
# Discovery metadata

The hand-written JSON encoders of `meta.rs`. A string is pushed onto the output as a JSON string
that denotes it, and the loop around it separates what it pushes with commas; so each encoder
writes a text that denotes exactly the list it was given.
-/

namespace TiktokenWorker

open Json

/-! ## Encoders -/

/-- `{:04x}`. -/
def hex04 (n : Nat) : List Char :=
  let digits := Nat.toDigits 16 n
  List.replicate (4 - digits.length) '0' ++ digits

/-- Push a character of a string. The source has this match twice, in `keywords_json` and in
`push_escaped`. -/
def pushChar (out : String) (ch : Char) : String :=
  if ch = '"' then out ++ "\\\""
  else if ch = '\\' then out ++ "\\\\"
  else if ch = '\n' then out ++ "\\n"
  else if ch = '\r' then out ++ "\\r"
  else if ch = '\t' then out ++ "\\t"
  else if ch.toNat < 0x20 then out ++ ("\\u" ++ String.ofList (hex04 ch.toNat))
  else out.push ch

/-- Push a string between quotes. -/
def pushEscaped (out s : String) : String := (s.toList.foldl pushChar (out.push '"')).push '"'

/-- The loop over a list, which pushes a comma before each item but the first. -/
def pushAll {α : Type} (push : String → α → String) (items : List (α × Nat)) (out : String) :
    String :=
  items.foldl (fun out (item, i) => push (if 0 < i then out.push ',' else out) item) out

/-- Render a list between brackets. -/
def arrayJson {α : Type} (push : String → α → String) (items : List α) : String :=
  (pushAll push items.zipIdx "[").push ']'

/-- Render a list of keywords. -/
def keywordsJson (keywords : List String) : String := arrayJson pushEscaped keywords

/-- Push a description and its SQL. -/
def pushExample (out : String) : String × String → String
  | (description, sql) =>
    let out := out ++ "\x7b\"description\":"
    let out := pushEscaped out description
    let out := out ++ ",\"sql\":"
    let out := pushEscaped out sql
    out.push '\x7d'

/-- Render a list of descriptions with their SQL. -/
def exampleQueriesJson (examples : List (String × String)) : String :=
  arrayJson pushExample examples

/-! ## Strings -/

/-- The four digits of a control character have its value. -/
theorem unitValue_hex04 : ∀ n < 0x20, unitValue (hex04 n) = some n := by decide

/-- A character is pushed as what denotes it in a string. -/
theorem pushChar_denotes (ch : Char) : ∃ text,
    (∀ out, (pushChar out ch).toList = out.toList ++ text) ∧
      ∀ {rest chars}, Chars rest chars → Chars (text ++ rest) (ch :: chars) := by
  unfold pushChar
  split_ifs with quote backslash newline carriage tab control
  · exact ⟨['\\', '"'], fun out => String.toList_append, .escaped (.short (by rw [quote]; rfl))⟩
  · exact ⟨['\\', '\\'], fun out => String.toList_append,
      .escaped (.short (by rw [backslash]; rfl))⟩
  · exact ⟨['\\', 'n'], fun out => String.toList_append, .escaped (.short (by rw [newline]; rfl))⟩
  · exact ⟨['\\', 'r'], fun out => String.toList_append, .escaped (.short (by rw [carriage]; rfl))⟩
  · exact ⟨['\\', 't'], fun out => String.toList_append, .escaped (.short (by rw [tab]; rfl))⟩
  · have high : isHigh ch.toNat = false := by
      simp [isHigh]
      omega
    have low : isLow ch.toNat = false := by
      simp [isLow]
      omega
    have stands := Escape.unit (unitValue_hex04 ch.toNat control) ⟨high, low⟩
    rw [Char.ofNat_toNat] at stands
    exact ⟨'\\' :: 'u' :: hex04 ch.toNat, fun out => by simp, .escaped stands⟩
  · refine ⟨[ch], fun out => by simp, .unescaped ?_⟩
    simp [isUnescaped, quote, backslash]
    omega

/-- The characters of a string are pushed as what denotes them. -/
theorem foldl_pushChar_denotes (chars : List Char) : ∃ text, Chars text chars ∧
    ∀ out, (chars.foldl pushChar out).toList = out.toList ++ text := by
  induction chars with
  | nil => exact ⟨[], .nil, by simp⟩
  | cons ch chars ih =>
    obtain ⟨later, denotes, loop⟩ := ih
    obtain ⟨text, pushed, extends_chars⟩ := pushChar_denotes ch
    refine ⟨text ++ later, extends_chars denotes, fun out => ?_⟩
    rw [List.foldl_cons, loop, pushed, List.append_assoc]

/-- What `push` appends for an item denotes a value. -/
def Pushes {α : Type} (push : String → α → String) (item : α) (value : Value) : Prop :=
  ∃ text, Denotes (.value value) text ∧ ∀ out, (push out item).toList = out.toList ++ text

/-- A string is pushed as one that denotes it. -/
theorem pushEscaped_str (s : String) : ∃ text, Str text s ∧
    ∀ out, (pushEscaped out s).toList = out.toList ++ text := by
  obtain ⟨inner, denotes, loop⟩ := foldl_pushChar_denotes s.toList
  refine ⟨'"' :: inner ++ ['"'], ⟨inner, denotes, rfl⟩, fun out => ?_⟩
  simp [pushEscaped, loop]

/-- A keyword is pushed as a value. -/
theorem pushes_keyword (keyword : String) : Pushes pushEscaped keyword (.string keyword) := by
  obtain ⟨text, denotes, pushed⟩ := pushEscaped_str keyword
  exact ⟨text, .string denotes, pushed⟩

/-! ## Arrays and objects -/

/-- The object of an example. -/
def exampleValue (entry : String × String) : Value :=
  .object [("description", .string entry.1), ("sql", .string entry.2)]

/-- A plain name between quotes is a string. -/
theorem str_of_plain {name : String} (plain : name.toList.all isUnescaped = true) :
    Str ('"' :: name.toList ++ ['"']) name :=
  ⟨name.toList, .of_unescaped (List.all_eq_true.mp plain), rfl⟩

/-- An example is pushed as its object. -/
theorem pushes_example (entry : String × String) :
    Pushes pushExample entry (exampleValue entry) := by
  obtain ⟨description, sql⟩ := entry
  obtain ⟨first, described, pushedFirst⟩ := pushEscaped_str description
  obtain ⟨second, queried, pushedSecond⟩ := pushEscaped_str sql
  have descriptionKey : Str ('"' :: "description".toList ++ ['"']) "description" :=
    str_of_plain (by decide)
  have sqlKey : Str ('"' :: "sql".toList ++ ['"']) "sql" := str_of_plain (by decide)
  refine ⟨_, .object (.bare '\x7b') (.members descriptionKey (.bare ':') (.string described)
    (.bare ',') (.member sqlKey (.bare ':') (.string queried))) (.bare '\x7d'), fun out => ?_⟩
  simp [pushExample, pushedFirst, pushedSecond]

/-- What the loop puts before an item. -/
def separator (index : Nat) : List Char := if 0 < index then [','] else []

/-- One round of the loop appends the separator and what `push` appends. -/
theorem pushAll_cons {α : Type} {push : String → α → String} {item : α} {text : List Char}
    (pushed : ∀ out, (push out item).toList = out.toList ++ text) (items : List α) (index : Nat)
    (out : String) : ∃ next, next.toList = out.toList ++ (separator index ++ text) ∧
      pushAll push ((item :: items).zipIdx index) out =
        pushAll push (items.zipIdx (index + 1)) next := by
  refine ⟨push (if 0 < index then out.push ',' else out) item, ?_, rfl⟩
  rw [pushed, separator, ← List.append_assoc]
  split_ifs
  · rw [String.toList_push]
  · rw [List.append_nil]

/-- The loop separates the values with commas. -/
theorem pushAll_denotes {α : Type} {push : String → α → String} {value : α → Value}
    (pushes : ∀ item, Pushes push item (value item)) (item : α) (items : List α) (index : Nat) :
    ∃ text, Denotes (.elements ((item :: items).map value)) text ∧
      ∀ out, (pushAll push ((item :: items).zipIdx index) out).toList =
        out.toList ++ (separator index ++ text) := by
  induction items generalizing item index with
  | nil =>
    obtain ⟨text, denotes, pushed⟩ := pushes item
    refine ⟨text, .element denotes, fun out => ?_⟩
    obtain ⟨next, written, round⟩ := pushAll_cons pushed [] index out
    rw [round, ← written]
    rfl
  | cons other items ih =>
    obtain ⟨text, denotes, pushed⟩ := pushes item
    obtain ⟨later, others, loop⟩ := ih other (index + 1)
    refine ⟨text ++ [','] ++ later, .elements denotes (.bare ',') others, fun out => ?_⟩
    obtain ⟨next, written, round⟩ := pushAll_cons pushed (other :: items) index out
    rw [round, loop, written, separator, separator, if_pos (Nat.succ_pos index)]
    simp only [List.append_assoc]

/-- A rendered list is the array of the values of its items. -/
theorem arrayJson_text {α : Type} {push : String → α → String} {value : α → Value}
    (pushes : ∀ item, Pushes push item (value item)) (items : List α) :
    Text (arrayJson push items).toList (.array (items.map value)) := by
  refine ⟨[], (arrayJson push items).toList, [], .nil, ?_, .nil, by simp⟩
  cases items with
  | nil =>
    have rendered : (arrayJson push []).toList = ['['] ++ [']'] := by simp [arrayJson, pushAll]
    rw [rendered]
    exact .array_empty (.bare '[') (.bare ']')
  | cons item items =>
    obtain ⟨text, denotes, loop⟩ := pushAll_denotes pushes item items 0
    have rendered := Denotes.array (.bare '[') denotes (.bare ']')
    rw [arrayJson, String.toList_push, loop]
    exact rendered

/-! ## The encoders -/

/-- Keywords render as the array of their strings. -/
theorem keywordsJson_text (keywords : List String) :
    Text (keywordsJson keywords).toList (.array (keywords.map .string)) :=
  arrayJson_text pushes_keyword keywords

/-- Examples render as the array of their objects. -/
theorem exampleQueriesJson_text (examples : List (String × String)) :
    Text (exampleQueriesJson examples).toList (.array (examples.map exampleValue)) :=
  arrayJson_text pushes_example examples

/-- Examples with one object are the same. -/
theorem exampleValue_injective : Function.Injective exampleValue := by
  rintro ⟨description, sql⟩ ⟨other, query⟩ same
  simp only [exampleValue, Value.object.injEq, List.cons.injEq, Prod.mk.injEq, true_and,
    Value.string.injEq, and_true] at same
  rw [same.1, same.2]

/-- An encoder writes a text of the grammar that parses to the array of the values of its items and
to nothing else, and lists that render alike are one. -/
structure RoundTrips {α : Type} (encode : List α → String) (value : α → Value) : Prop where
  valid : ∀ items, Text (encode items).toList (.array (items.map value))
  parses : ∀ items, parse (encode items).toList = some (.array (items.map value))
  only : ∀ items other, Text (encode items).toList other → other = .array (items.map value)
  injective : Function.Injective encode

/-- An encoder of a valid text round trips when distinct items have distinct values. -/
theorem RoundTrips.of_text {α : Type} {encode : List α → String} {value : α → Value}
    (valid : ∀ items, Text (encode items).toList (.array (items.map value)))
    (distinct : Function.Injective value) : RoundTrips encode value where
  valid := valid
  parses items := (parse_eq_some_iff _ _).mpr (valid items)
  only items other denotes := denotes.unique (valid items)
  injective := by
    intro items others same
    have first := valid items
    rw [same] at first
    have values := first.unique (valid others)
    rw [Value.array.injEq] at values
    exact List.map_injective_iff.mpr distinct values

/-- Both encoders round trip: keywords as the array of their strings, examples as the array of
objects with their two members. -/
theorem encoders_round_trip :
    RoundTrips keywordsJson (fun keyword => .string keyword) ∧
      RoundTrips exampleQueriesJson (fun (description, sql) =>
        .object [("description", .string description), ("sql", .string sql)]) := by
  constructor
  · apply RoundTrips.of_text keywordsJson_text
    intro keyword other same
    exact Value.string.inj same
  · exact RoundTrips.of_text exampleQueriesJson_text exampleValue_injective

example : keywordsJson ["a\"", "\x01\n"] = "[\"a\\\"\",\"\\u0001\\n\"]" := by decide

end TiktokenWorker

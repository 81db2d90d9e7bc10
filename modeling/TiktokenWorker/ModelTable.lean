import TiktokenWorker.Resolution
import Mathlib.Data.List.Find

/-!
# The model table

The table of models outside the worker compares what it is asked for letter by letter with names
and stems that are in lower case. The worker compares encoding names and the names of its fast
path in lower case, and asks the table for the name as it was passed: so a known model in another
case is no model. `isFor_eq` says what case does to one entry of the table, and
`resolution_uniform_iff` to the two resolvers.
-/

namespace TiktokenWorker

/-- A model name, or a stem that model names start with. -/
structure TableEntry where
  key : String
  /-- Whether the key is a stem. -/
  stem : Bool
  tokenizer : Tokenizer

namespace TableEntry

/-- Whether a name is one the entry is for. -/
def isFor (entry : TableEntry) (name : String) : Bool :=
  if entry.stem then entry.key.toList.isPrefixOf name.toList else entry.key.toList == name.toList

/-- Whether a name has no upper-case letter where the entry compares it. -/
def spelledIn (entry : TableEntry) (name : String) : Bool :=
  (name.toList.take entry.key.toList.length).all fun c => c.toLower == c

/-- The encoding of the models the entry is for. -/
def encoding (entry : TableEntry) : Encoding := .ofTokenizer entry.tokenizer

end TableEntry

/-- The model table is one of lower-case keys, each compared as it is written. The first entry that
matches is the one that is used. -/
structure TiktokenRs.CaseSensitive (rs : TiktokenRs) (entries : List TableEntry) : Prop where
  lower : ∀ entry ∈ entries, toAsciiLowercase entry.key = entry.key
  lookup : ∀ name, rs.getTokenizer name =
    (entries.find? fun entry => entry.isFor name).map TableEntry.tokenizer

/-- The names `encodingForModel` knows without the table. -/
def fastPath : List String :=
  ["gpt-4o", "gpt-4o-mini", "gpt-4.1", "gpt-4.5", "gpt-4", "gpt-4-turbo", "gpt-3.5-turbo",
    "gpt-3.5", "chatgpt"]

/-! ## One entry -/

/-- Characters that lower-casing leaves alone. -/
theorem map_toLower_eq_self (chars : List Char) :
    chars.map Char.toLower = chars ↔ chars.all (fun c => c.toLower == c) = true := by
  have pointwise : chars.map Char.toLower = chars.map id ↔ _ := List.map_inj_left
  rw [List.map_id] at pointwise
  rw [pointwise]
  simp

/-- A lower-case key is where the characters start exactly when it is where their lower-case forms
start and they are in lower case there. -/
theorem prefix_iff_lower {key : List Char} (lower : key.map Char.toLower = key)
    (chars : List Char) : key <+: chars ↔ key <+: chars.map Char.toLower ∧
      (chars.take key.length).map Char.toLower = chars.take key.length := by
  rw [List.prefix_iff_eq_take, List.prefix_iff_eq_take, ← List.map_take]
  constructor
  · intro starts
    rw [← starts, lower]
    exact ⟨rfl, rfl⟩
  · rintro ⟨starts, unchanged⟩
    rw [unchanged] at starts
    exact starts

/-- An entry is for a name when it is for its lower-case form and the name has no upper-case letter
where the entry compares it. -/
theorem TableEntry.isFor_eq {entry : TableEntry} (lower : toAsciiLowercase entry.key = entry.key)
    (name : String) : entry.isFor name =
      (entry.isFor (toAsciiLowercase name) && entry.spelledIn name) := by
  have key_lower : entry.key.toList.map Char.toLower = entry.key.toList := by
    have chars := congrArg String.toList lower
    rwa [toAsciiLowercase, String.toList_ofList] at chars
  rw [Bool.eq_iff_iff, Bool.and_eq_true, spelledIn, ← map_toLower_eq_self, isFor, isFor,
    toAsciiLowercase, String.toList_ofList]
  split_ifs
  · rw [List.isPrefixOf_iff_prefix, List.isPrefixOf_iff_prefix]
    exact prefix_iff_lower key_lower name.toList
  · rw [beq_iff_eq, beq_iff_eq]
    constructor
    · intro same
      rw [← same, List.take_length, key_lower]
      exact ⟨rfl, rfl⟩
    · rintro ⟨same, unchanged⟩
      have length := congrArg List.length same
      rw [List.length_map] at length
      rw [length, List.take_length] at unchanged
      rw [same, unchanged]

/-! ## The table -/

/-- Of the entries that are for a name in lower case, the first that `name` spells in lower
case. -/
def firstSpelled (entries : List TableEntry) (lowered name : String) : Option TableEntry :=
  (entries.filter fun entry => entry.isFor lowered).find? fun entry => entry.spelledIn name

variable {rs : TiktokenRs} {entries : List TableEntry}

/-- The table answers with the first entry that a name spells in lower case. -/
theorem TiktokenRs.CaseSensitive.getTokenizer_eq (table : rs.CaseSensitive entries)
    (name : String) : rs.getTokenizer name =
      (firstSpelled entries (toAsciiLowercase name) name).map TableEntry.tokenizer := by
  rw [table.lookup, firstSpelled, List.find?_filter]
  congr 1
  apply List.find?_congr
  intro entry listed
  rw [entry.isFor_eq (table.lower entry listed), Bool.decide_and, Bool.decide_eq_true,
    Bool.decide_eq_true]

/-! ## The resolvers -/

/-- Encoding names are compared in lower case and without padding. -/
theorem fromEncodingName_congr {m₁ m₂ : String} (same : normalized m₁ = normalized m₂) :
    Encoding.fromEncodingName m₁ = Encoding.fromEncodingName m₂ := by
  unfold normalized at same
  rw [Encoding.fromEncodingName, Encoding.fromEncodingName, same]

/-- Nothing but padding is nothing in lower case. -/
theorem normalized_eq_empty_iff (identifier : String) :
    normalized identifier = "" ↔ trim identifier = "" := by
  rw [normalized, toAsciiLowercase, ← String.toList_inj, ← String.toList_inj,
    String.toList_ofList]
  exact List.map_eq_nil_iff

/-- The names of the fast path are compared in lower case and without padding. -/
theorem encodingForModel_congr {m₁ m₂ : String} (same : normalized m₁ = normalized m₂)
    (fast : normalized m₁ ∈ fastPath) : encodingForModel rs m₁ = encodingForModel rs m₂ := by
  have empty : (trim m₁).isEmpty = (trim m₂).isEmpty := by
    rw [Bool.eq_iff_iff, String.isEmpty_iff, String.isEmpty_iff, ← normalized_eq_empty_iff,
      ← normalized_eq_empty_iff, same]
  unfold normalized at same fast
  simp only [encodingForModel, empty, ← same]
  split
  · rfl
  · split <;> simp_all [fastPath]

/-- Every other name is looked up in the table, as it is but for its padding. -/
theorem encodingForModel_table {model : String} (named : trim model ≠ "")
    (slow : normalized model ∉ fastPath) :
    encodingForModel rs model = (rs.getTokenizer (trim model)).map Encoding.ofTokenizer := by
  have nonempty : ¬(trim model).isEmpty = true := mt String.isEmpty_iff.mp named
  unfold normalized at slow
  simp only [encodingForModel, if_neg nonempty]
  split <;> simp_all [fastPath]

/-- Both resolvers compare two identifiers of one lower-case form alike. -/
def Uniform (rs : TiktokenRs) (m₁ m₂ : String) : Prop :=
  resolve rs m₁ = resolve rs m₂ ∧ encodingForModel rs m₁ = encodingForModel rs m₂

/-- What the resolvers make of two identifiers of one lower-case form is up to the second. -/
theorem uniform_iff {m₁ m₂ : String} (same : normalized m₁ = normalized m₂) :
    Uniform rs m₁ m₂ ↔ encodingForModel rs m₁ = encodingForModel rs m₂ := by
  rw [Uniform, resolve, resolve, fromEncodingName_congr same]
  constructor
  · exact And.right
  · intro agree
    rw [agree]
    exact ⟨rfl, rfl⟩

/-- A table of the two models in `Greedy.crate`. -/
def crateTable : List TableEntry :=
  [⟨"text-davinci-003", false, .p50kBase⟩, ⟨"gpt2", false, .gpt2⟩]

/-- The crate looks its models up in that table. -/
theorem crate_caseSensitive : Greedy.crate.CaseSensitive crateTable where
  lower := by decide
  lookup name := by
    simp only [Greedy.crate, crateTable, List.find?_cons, List.find?_nil, TableEntry.isFor]
    split
    · decide
    · decide
    · rename_i first second
      have other : ("text-davinci-003".toList == name.toList) = false := by
        rw [beq_eq_false_iff_ne, ne_eq, String.toList_inj]
        exact fun same => first same.symm
      have another : ("gpt2".toList == name.toList) = false := by
        rw [beq_eq_false_iff_ne, ne_eq, String.toList_inj]
        exact fun same => second same.symm
      simp only [Bool.false_eq_true, if_false, other, another, Option.map_none]

/-- A model that the table knows is none in another case. -/
theorem resolution_depends_on_case :
    ¬∀ (rs : TiktokenRs) (entries : List TableEntry), rs.CaseSensitive entries →
      ∀ m₁ m₂ : String, normalized m₁ = normalized m₂ →
        resolve rs m₁ = resolve rs m₂ ∧ encodingForModel rs m₁ = encodingForModel rs m₂ := by
  intro uniform
  have same := (uniform Greedy.crate crateTable crate_caseSensitive "text-davinci-003"
    "TEXT-DAVINCI-003" (by decide +kernel)).1
  revert same
  decide +kernel

/-- When case and padding make no difference to the resolvers: to a name of the fast path, to
nothing but padding, and where the first entry of the table that either name spells in lower case,
of those for their lower-case form, is for models of one encoding. -/
theorem resolution_uniform_iff (table : rs.CaseSensitive entries) (m₁ m₂ : String)
    (same : normalized m₁ = normalized m₂) :
    (resolve rs m₁ = resolve rs m₂ ∧ encodingForModel rs m₁ = encodingForModel rs m₂) ↔
      trim m₁ = "" ∨ normalized m₁ ∈ fastPath ∨
        (firstSpelled entries (normalized m₁) (trim m₁)).map TableEntry.encoding =
          (firstSpelled entries (normalized m₁) (trim m₂)).map TableEntry.encoding := by
  have exactly : Uniform rs m₁ m₂ ↔ _ := uniform_iff same
  have empty_iff : trim m₁ = "" ↔ trim m₂ = "" := by
    rw [← normalized_eq_empty_iff, ← normalized_eq_empty_iff, same]
  rw [Uniform] at exactly
  rw [exactly]
  by_cases empty : trim m₁ = ""
  · have empty_other := empty_iff.mp empty
    simp [encodingForModel, empty, empty_other]
  by_cases fast : normalized m₁ ∈ fastPath
  · simp [fast, encodingForModel_congr same fast]
  · have slow : normalized m₂ ∉ fastPath := same ▸ fast
    have looked_up {model : String} : toAsciiLowercase (trim model) = normalized model := rfl
    have encodings {lowered name : String} : ((firstSpelled entries lowered name).map
        TableEntry.tokenizer).map Encoding.ofTokenizer =
          (firstSpelled entries lowered name).map TableEntry.encoding := by
      rw [Option.map_map]
      rfl
    rw [encodingForModel_table empty fast, encodingForModel_table (mt empty_iff.mpr empty) slow,
      table.getTokenizer_eq, table.getTokenizer_eq, looked_up, looked_up, ← same, encodings,
      encodings]
    simp [empty, fast]

/-- A padded name of the fast path in another case. -/
theorem resolution_uniform_gpt4 :
    resolve Greedy.crate " GPT-4\n" = resolve Greedy.crate "gpt-4" ∧
      encodingForModel Greedy.crate " GPT-4\n" = encodingForModel Greedy.crate "gpt-4" :=
  (resolution_uniform_iff crate_caseSensitive " GPT-4\n" "gpt-4" (by decide)).mpr
    (Or.inr (Or.inl (by decide)))

end TiktokenWorker

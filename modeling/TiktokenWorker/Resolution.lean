import TiktokenWorker.Scalar.Count
import TiktokenWorker.Scalar.Encoding
import TiktokenWorker.Scalar.Tokenize
import TiktokenWorker.Scalar.Truncate
import TiktokenWorker.Greedy

/-!
# Two resolvers

The functions with a model argument resolve it as an encoding name first and as a model name
otherwise; `encoding_for_model` looks up model names only. The names the first resolver knows and
the second does not are the encoding names, so they are what separates the functions from a filter
on `encoding_for_model`.
-/

namespace TiktokenWorker

/-- How an identifier is compared with the names of encodings. -/
def normalized (identifier : String) : String := toAsciiLowercase (trim identifier)

/-- The names of encodings that are not names of models; `gpt2` is both. -/
def encodingNames : List String :=
  ["cl100k_base", "cl100k", "o200k_base", "o200k", "p50k_base", "p50k", "r50k_base", "r50k",
    "o200k_harmony"]

/-- The model table has no entry for the name of an encoding, in any case. -/
def TiktokenRs.ListsModels (rs : TiktokenRs) : Prop :=
  ∀ name, toAsciiLowercase name ∈ encodingNames → rs.getTokenizer name = none

/-- Which identifiers are names of encodings. -/
theorem fromEncodingName_eq_none_iff (identifier : String) :
    Encoding.fromEncodingName identifier = none ↔
      normalized identifier ∉ "gpt2" :: encodingNames := by
  unfold Encoding.fromEncodingName normalized
  split <;> simp_all [encodingNames]

/-- `gpt2` names `r50k_base`. -/
theorem fromEncodingName_gpt2 {identifier : String} (gpt2 : normalized identifier = "gpt2") :
    Encoding.fromEncodingName identifier = some .r50kBase := by
  unfold normalized at gpt2
  rw [Encoding.fromEncodingName, gpt2]
  rfl

variable (rs : TiktokenRs)

/-- The model table does not know the names of encodings. -/
theorem encodingForModel_encodingName (table : rs.ListsModels) {identifier : String}
    (named : normalized identifier ∈ encodingNames) : encodingForModel rs identifier = none := by
  have absent := table (trim identifier) named
  unfold normalized at named
  simp only [encodingForModel, absent, Option.map_none]
  split
  · rfl
  · split <;> simp_all [encodingNames]

/-- When the two resolvers agree: on every identifier but the encoding names that the model table
does not know, and those that are no model names. -/
theorem resolve_eq_iff (table : rs.ListsModels) (identifier : String) :
    resolve rs identifier = encodingForModel rs identifier ↔
      normalized identifier ∉ encodingNames ∧
        (normalized identifier = "gpt2" → encodingForModel rs identifier = some .r50kBase) := by
  by_cases named : normalized identifier ∈ encodingNames
  · have absent := encodingForModel_encodingName rs table named
    have found : Encoding.fromEncodingName identifier ≠ none := fun none =>
      (fromEncodingName_eq_none_iff identifier).mp none (List.mem_cons_of_mem _ named)
    obtain ⟨encoding, found⟩ := Option.ne_none_iff_exists'.mp found
    simp [resolve, found, absent, named]
  · by_cases gpt2 : normalized identifier = "gpt2"
    · rw [resolve, fromEncodingName_gpt2 gpt2, Option.some_or, eq_comm]
      exact ⟨fun same => ⟨named, fun _ => same⟩, fun agree => agree.2 gpt2⟩
    · have unnamed := List.not_mem_cons_of_ne_of_not_mem gpt2 named
      have absent := (fromEncodingName_eq_none_iff identifier).mpr unnamed
      simp [resolve, absent, named, gpt2]

/-- What resolves: the names of models and of encodings. -/
theorem resolve_isSome_iff (identifier : String) : (resolve rs identifier).isSome ↔
    (encodingForModel rs identifier).isSome ∨ normalized identifier ∈ "gpt2" :: encodingNames := by
  have names := (fromEncodingName_eq_none_iff identifier).not
  rw [not_not, ← ne_eq, Option.ne_none_iff_isSome] at names
  rw [resolve, Option.isSome_or, Bool.or_eq_true, names, or_comm]

/-- A model table that knows two models, neither of them an encoding name. -/
theorem crate_listsModels : Greedy.crate.ListsModels := by
  intro name named
  simp only [Greedy.crate]
  split
  · exact absurd named (by decide)
  · exact absurd named (by decide)
  · rfl

/-- A filter on `encoding_for_model` drops a row whose tokens are counted. -/
theorem filter_drops_encoding_name :
    ¬∀ rs : TiktokenRs, rs.ListsModels → ∀ t m : String,
      ((CountTokensModel.cell rs (some t) (some m)).isSome ↔
        (EncodingForModel.cell rs (some m)).isSome) ∧
      resolve rs m = encodingForModel rs m := by
  intro exact_filter
  have same := (exact_filter Greedy.crate crate_listsModels "hello world" "o200k_base").1
  revert same
  decide

/-- The functions with a model argument return NULL exactly for what neither resolver knows: they
keep every row that `encoding_for_model` is not NULL for, and the names of encodings besides. They
use the encoding of `encoding_for_model` for every identifier but those names. -/
theorem model_functions_resolve (table : rs.ListsModels) (target : Target) (t m : String)
    (n : Int64) :
    let named := normalized m ∈ "gpt2" :: encodingNames
    let listed := (EncodingForModel.cell rs (some m)).isSome
    let counted := CountTokensModel.cell rs (some t) (some m)
    let tokenized := TokenizeModel.cell rs (some t) (some m)
    let truncated := TruncateToTokensModel.cell rs target (some t) (some n) (some m)
    (counted.isSome ↔ listed ∨ named) ∧ (tokenized.isSome ↔ listed ∨ named) ∧
    (truncated.isSome ↔ listed ∨ named) ∧
    EncodingForModel.cell rs (some m) = (encodingForModel rs m).map Encoding.name ∧
    (∀ enc, resolve rs m = some enc →
      counted = some (asI32 (count rs t enc)) ∧
      tokenized = some (listInts (tokenize rs t enc)) ∧
      truncated = some (truncate rs t (asUsize target (max n 0)) enc)) ∧
    (resolve rs m = encodingForModel rs m ↔ normalized m ∉ encodingNames ∧
      (normalized m = "gpt2" → encodingForModel rs m = some .r50kBase)) := by
  intro named listed counted tokenized truncated
  have known : (resolve rs m).isSome ↔ listed ∨ named := by
    rw [resolve_isSome_iff]
    simp only [listed, named, EncodingForModel.cell, encodingNameForModel, Option.bind_eq_bind,
      Option.bind_some, Option.isSome_map]
  have agrees := resolve_eq_iff rs table m
  refine ⟨?_, ?_, ?_, ?_, ?_, agrees⟩
  · rw [← known]
    cases found : resolve rs m <;> simp [counted, CountTokensModel.cell, found]
  · rw [← known]
    cases found : resolve rs m <;> simp [tokenized, TokenizeModel.cell, found]
  · rw [← known]
    cases found : resolve rs m <;> simp [truncated, TruncateToTokensModel.cell, found]
  · rw [EncodingForModel.cell, Option.bind_eq_bind, Option.bind_some, encodingNameForModel]
  · intro enc found
    simp [counted, tokenized, truncated, CountTokensModel.cell, TokenizeModel.cell,
      TruncateToTokensModel.cell, found]

/-- The filter and the functions on `GPT2`: an encoding name whose case the model table does not
know. -/
theorem model_functions_resolve_gpt2 :
    (CountTokensModel.cell Greedy.crate (some "hello world") (some "GPT2")).isSome ∧
      resolve Greedy.crate "GPT2" ≠ encodingForModel Greedy.crate "GPT2" := by
  have resolves := model_functions_resolve Greedy.crate crate_listsModels .native "hello world"
    "GPT2" 1
  exact ⟨resolves.1.mpr (Or.inr (by decide)),
    fun same => absurd ((resolves.2.2.2.2.2.mp same).2 (by decide)) (by decide)⟩

end TiktokenWorker

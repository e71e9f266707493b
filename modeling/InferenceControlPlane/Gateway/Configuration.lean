import InferenceControlPlane.Gateway.Schemas
import InferenceControlPlane.Exceptions
import Mathlib.Data.List.DropRight

/-!
# Loading the settings

Settings come from the environment, their lists as texts. What is loaded is in a normal form:
loading it once more, also with its lists written with commas, changes nothing.
-/
namespace InferenceControlPlane.Gateway
open Python

/-! ## The validators -/

/-- A value of a setting that holds a list: a text, a list, or anything else. -/
inductive ListSetting where
  | text (s : String)
  | items (items : List String)
  | other

/-- `[item.strip() for item in items if item.strip()]`. -/
def stripItems (items : List String) : List String := (items.map strip).filter (· ≠ "")

/-- `text.split(",")`. -/
def splitCommas (text : String) : List String := (text.toList.splitOn ',').map String.ofList

/-- What both list validators do, with the list that stands for anything that is neither a text
nor a list. -/
def parseList (dflt : List String) : ListSetting → List String
  | .text s => stripItems (splitCommas s)
  | .items items => stripItems items
  | .other => dflt

/-- `parse_llm_provider_order`: a list is taken as it is; a text is split at its commas, with the
blanks around the parts and the empty parts left out. -/
def parseLlmProviderOrder : ListSetting → List String := parseList ["openai"]

/-- `parse_cors_allowed_origins`: origins are split at commas as the provider order is. -/
def parseCorsAllowedOrigins : ListSetting → List String := parseList ["http://localhost:3000"]

/-- `value.replace(scheme, "postgresql+asyncpg://", 1)` for a value that starts with `scheme`. -/
def withAsyncpg (scheme value : String) : String :=
  "postgresql+asyncpg://" ++ String.ofList (value.toList.drop scheme.length)

/-- `parse_database_url`, and what `init_engine` does to the URL once more. -/
def parseDatabaseUrl (value : String) : String :=
  if startsWith value "postgres://" then withAsyncpg "postgres://" value
  else if startsWith value "postgresql://" && !startsWith value "postgresql+asyncpg://" then
    withAsyncpg "postgresql://" value
  else value

/-- The settings that the validators read. `Listed` is what stands for a list: a raw value before
the validators of the fields, a list of texts after them. -/
structure ValidatedSettings (Listed : Type) where
  environment : String
  corsAllowedOrigins : Listed
  databaseUrl : String
  redisUrl : String
  llmMode : LlmMode
  llmProviderOrder : Listed
  llmApiKey : Option String
  anthropicApiKey : Option String
  azureOpenaiBaseUrl : Option String
  azureOpenaiApiKey : Option String
  azureOpenaiDeployment : Option String

abbrev RawSettings : Type := ValidatedSettings ListSetting

abbrev LoadedSettings : Type := ValidatedSettings (List String)

/-- A setting that is there and not empty. -/
def present (value : Option String) : Bool := value.any (· ≠ "")

section Validation
variable [Runtime]

/-- `provider in {provider.lower() for provider in self.llm_provider_order}`. -/
def LoadedSettings.names (settings : LoadedSettings) (provider : String) : Bool :=
  settings.llmProviderOrder.any fun name => Runtime.lower name = provider

/-- The check of a provider that is named: what it needs to be called must be present and not
empty. -/
def LoadedSettings.require (settings : LoadedSettings) (provider : String) (configured : Bool)
    (message : String) : Except String Unit :=
  if settings.names provider && !configured then .error message else .ok ()

/-- The checks of the mode "openai-compatible". -/
def LoadedSettings.validateProviders (settings : LoadedSettings) : Except String Unit :=
  if settings.llmMode = .openaiCompatible then do
    if settings.llmProviderOrder = [] then
      throw "LLM_PROVIDER_ORDER must include at least one provider."
    settings.require "openai" (present settings.llmApiKey)
      "LLM_API_KEY is required when using the openai provider."
    settings.require "anthropic" (present settings.anthropicApiKey)
      "ANTHROPIC_API_KEY is required when using the anthropic provider."
    settings.require "azure"
      (present settings.azureOpenaiBaseUrl && present settings.azureOpenaiApiKey)
      "AZURE_OPENAI_BASE_URL and AZURE_OPENAI_API_KEY are required."
    settings.require "azure" (present settings.azureOpenaiDeployment)
      "AZURE_OPENAI_DEPLOYMENT is required when using azure provider."
  else .ok ()

/-- `validate_runtime_security`: the two URLs must be there, the providers that the order names
must be configured in the mode that calls them, and production accepts no wildcard origin. -/
def LoadedSettings.validate (settings : LoadedSettings) : Except String Unit := do
  if settings.databaseUrl = "" then throw "DATABASE_URL is required."
  if settings.redisUrl = "" then throw "REDIS_URL is required."
  settings.validateProviders
  if Runtime.lower settings.environment = "production" then
    if "*" ∈ settings.corsAllowedOrigins then
      throw "CORS_ALLOWED_ORIGINS cannot include '*' in production"

end Validation

/-- The settings after the field validators. -/
def RawSettings.parsed (raw : RawSettings) : LoadedSettings :=
  { raw with
    corsAllowedOrigins := parseCorsAllowedOrigins raw.corsAllowedOrigins
    databaseUrl := parseDatabaseUrl raw.databaseUrl
    llmProviderOrder := parseLlmProviderOrder raw.llmProviderOrder }

/-- `Settings(…)`: the validators of the fields, and then the check of the settings as a whole. -/
def RawSettings.load [Runtime] (raw : RawSettings) : Except String LoadedSettings := do
  raw.parsed.validate
  return raw.parsed

/-! ## Lists -/

lemma stripChars_eq (cs : List Char) :
    stripChars cs = (cs.dropWhile isSpace).rdropWhile isSpace := rfl

lemma stripChars_stripChars (cs : List Char) : stripChars (stripChars cs) = stripChars cs := by
  have hbegins : stripChars cs <+: cs.dropWhile isSpace := List.rdropWhile_prefix isSpace _
  have hfull := List.dropWhile_idempotent isSpace cs
  rw [List.dropWhile_eq_self_iff] at hfull
  have hhead : (stripChars cs).dropWhile isSpace = stripChars cs := by
    rw [List.dropWhile_eq_self_iff]
    intro hpos
    rw [hbegins.getElem hpos]
    exact hfull (hpos.trans_le hbegins.length_le)
  rw [stripChars_eq (stripChars cs), hhead, stripChars_eq, List.rdropWhile_idempotent]

lemma stripChars_subset (cs : List Char) : stripChars cs ⊆ cs :=
  fun _ hc => (List.dropWhile_suffix isSpace).subset ((List.rdropWhile_prefix isSpace _).subset hc)

lemma strip_strip (s : String) : strip (strip s) = strip s := by
  rw [strip, strip, String.toList_ofList, stripChars_stripChars]

/-- An item in the form that the validators give it. -/
def Stripped (item : String) : Prop := item ≠ "" ∧ strip item = item

lemma stripped_of_mem {items : List String} {item : String} (h : item ∈ stripItems items) :
    Stripped item := by
  obtain ⟨hmem, hne⟩ := List.mem_filter.mp h
  obtain ⟨raw, -, rfl⟩ := List.mem_map.mp hmem
  exact ⟨of_decide_eq_true hne, strip_strip raw⟩

lemma stripItems_eq {items : List String} (h : ∀ item ∈ items, Stripped item) :
    stripItems items = items := by
  have hmap : items.map strip = items := by
    conv_rhs => rw [← List.map_id items]
    exact List.map_congr_left fun item hitem => (h item hitem).2
  rw [stripItems, hmap, List.filter_eq_self]
  exact fun item hitem => decide_eq_true (h item hitem).1

/-- No part of a split list holds the separator. -/
lemma notMem_of_mem_splitOn {sep : Char} {cs part : List Char} (h : part ∈ cs.splitOn sep) :
    sep ∉ part := by
  induction cs generalizing part with
  | nil =>
    rw [List.splitOn_nil, List.mem_singleton] at h
    rw [h]
    exact List.not_mem_nil
  | cons c cs ih =>
    rw [List.splitOn_cons_eq_if_modifyHead] at h
    obtain ⟨first, rest, hsplit⟩ := List.exists_cons_of_ne_nil (List.splitOn_ne_nil sep cs)
    rw [hsplit] at h ih
    split_ifs at h with hc
    · rcases List.mem_cons.mp h with rfl | hmem
      · exact List.not_mem_nil
      · exact ih hmem
    · rw [List.modifyHead_cons] at h
      rcases List.mem_cons.mp h with rfl | hmem
      · rw [List.mem_cons, not_or]
        exact ⟨fun heq => hc (by rw [heq]; exact beq_self_eq_true c), ih List.mem_cons_self⟩
      · exact ih (List.mem_cons_of_mem first hmem)

/-- What a list setting that is not given as a list comes to. -/
lemma parsed_of_text {dflt : List String} {value : ListSetting}
    (hdflt : ∀ item ∈ dflt, Stripped item ∧ ',' ∉ item.toList)
    (htext : ∀ items, value ≠ .items items) :
    ∀ item ∈ parseList dflt value, Stripped item ∧ ',' ∉ item.toList := by
  intro item hitem
  cases value with
  | other => exact hdflt item hitem
  | items items => exact absurd rfl (htext items)
  | text s =>
    refine ⟨stripped_of_mem hitem, ?_⟩
    obtain ⟨part, hpart, rfl⟩ := List.mem_map.mp (List.mem_filter.mp hitem).1
    obtain ⟨cs, hcs, rfl⟩ := List.mem_map.mp hpart
    rw [strip, String.toList_ofList, String.toList_ofList]
    exact fun hcomma => notMem_of_mem_splitOn hcs (stripChars_subset cs hcomma)

lemma stripped_of_parsed {dflt : List String} (hdflt : ∀ item ∈ dflt, Stripped item)
    (value : ListSetting) : ∀ item ∈ parseList dflt value, Stripped item := by
  cases value with
  | other => exact hdflt
  | items items => exact fun item => stripped_of_mem
  | text s => exact fun item => stripped_of_mem

lemma splitCommas_join {items : List String} (hne : items ≠ [])
    (h : ∀ item ∈ items, ',' ∉ item.toList) : splitCommas (join "," items) = items := by
  have hsplit : (join "," items).toList.splitOn ',' = items.map String.toList := by
    rw [join, String.toList_intercalate]
    apply List.splitOn_intercalate
    · intro cs hcs
      obtain ⟨item, hitem, rfl⟩ := List.mem_map.mp hcs
      exact h item hitem
    · exact List.map_eq_nil_iff.not.mpr hne
  rw [splitCommas, hsplit, List.map_map]
  conv_rhs => rw [← List.map_id items]
  exact List.map_congr_left fun item _ => String.ofList_toList

/-- Items are read back from the text that joins them with commas. -/
lemma parseList_join {dflt items : List String}
    (h : ∀ item ∈ items, Stripped item ∧ ',' ∉ item.toList) :
    parseList dflt (.text (join "," items)) = items := by
  rcases eq_or_ne items [] with rfl | hne
  · simp [parseList, splitCommas, join, stripItems, strip, stripChars]
  · rw [parseList, splitCommas_join hne fun item hitem => (h item hitem).2]
    exact stripItems_eq fun item hitem => (h item hitem).1

/-! ## The database URL -/

/-- A URL of one of the two schemes that are rewritten. -/
def Legacy (url : String) : Prop :=
  startsWith url "postgres://" = true ∨ startsWith url "postgresql://" = true

lemma toList_withAsyncpg (scheme value : String) :
    (withAsyncpg scheme value).toList =
      "postgresql+asyncpg://".toList ++ value.toList.drop scheme.length :=
  (String.toList_append ..).trans (congrArg _ String.toList_ofList)

lemma not_legacy_withAsyncpg (scheme value : String) : ¬Legacy (withAsyncpg scheme value) := by
  rw [Legacy, not_or]
  simp only [startsWith, toList_withAsyncpg]
  constructor
  · simp
  · simp

/-- A URL does not start with both spellings of the scheme. -/
lemma not_startsWith_both {url : String} (hplain : startsWith url "postgresql://" = true)
    (hasync : startsWith url "postgresql+asyncpg://" = true) : False := by
  have hbegins : "postgresql://".toList <+: "postgresql+asyncpg://".toList :=
    List.prefix_of_prefix_length_le (List.isPrefixOf_iff_prefix.mp hplain)
      (List.isPrefixOf_iff_prefix.mp hasync) (by simp)
  simp at hbegins

lemma not_legacy_parseDatabaseUrl (value : String) : ¬Legacy (parseDatabaseUrl value) := by
  unfold parseDatabaseUrl
  split_ifs with hpostgres hpostgresql
  · exact not_legacy_withAsyncpg _ _
  · exact not_legacy_withAsyncpg _ _
  · intro hlegacy
    rcases hlegacy with h | hplain
    · exact hpostgres h
    · apply hpostgresql
      rw [hplain, Bool.true_and, Bool.not_eq_true']
      exact Bool.eq_false_iff.mpr (not_startsWith_both hplain)

lemma parseDatabaseUrl_eq {url : String} (h : ¬Legacy url) : parseDatabaseUrl url = url := by
  rw [Legacy, not_or] at h
  rw [parseDatabaseUrl, if_neg h.1, if_neg]
  rw [Bool.and_eq_true, not_and_or]
  exact .inl h.2

/-! ## Reloading -/

/-- The settings as they are given again, with their lists given as `list` says. -/
def LoadedSettings.again (settings : LoadedSettings) (list : List String → ListSetting) :
    RawSettings :=
  { settings with
    corsAllowedOrigins := list settings.corsAllowedOrigins
    llmProviderOrder := list settings.llmProviderOrder }

lemma load_ok [Runtime] {raw : RawSettings} {settings : LoadedSettings}
    (h : raw.load = .ok settings) : raw.parsed = settings ∧ settings.validate = .ok () := by
  obtain ⟨u, hvalid, hparsed⟩ := bind_eq_ok h
  cases hparsed
  exact ⟨rfl, hvalid⟩

/-- Settings whose lists and URL are in normal form load as they are. -/
lemma load_again [Runtime] {settings : LoadedSettings} {list : List String → ListSetting}
    (hcors : parseCorsAllowedOrigins (list settings.corsAllowedOrigins) =
      settings.corsAllowedOrigins)
    (hurl : ¬Legacy settings.databaseUrl)
    (horder : parseLlmProviderOrder (list settings.llmProviderOrder) = settings.llmProviderOrder)
    (hvalid : settings.validate = .ok ()) : (settings.again list).load = .ok settings := by
  have hparsed : (settings.again list).parsed = settings := by
    rw [RawSettings.parsed]
    simp only [LoadedSettings.again, hcors, horder, parseDatabaseUrl_eq hurl]
  rw [RawSettings.load, hparsed, hvalid]
  rfl

lemma normal_origins :
    ∀ item ∈ ["http://localhost:3000"], Stripped item ∧ ',' ∉ item.toList :=
  List.forall_mem_singleton.mpr ⟨⟨by simp, by simp [strip, stripChars, isSpace]⟩, by simp⟩

lemma normal_providers : ∀ item ∈ ["openai"], Stripped item ∧ ',' ∉ item.toList :=
  List.forall_mem_singleton.mpr ⟨⟨by simp, by simp [strip, stripChars, isSpace]⟩, by simp⟩

/-- Loading is idempotent: settings that were loaded load again as they are, and, where their
lists were not given as lists, also with the items joined with commas. The engine, which rewrites
the URL once more, is made with the URL as it was loaded. -/
theorem settings_reload [Runtime] (raw : RawSettings) (settings : LoadedSettings)
    (h : raw.load = .ok settings) :
    (settings.again .items).load = .ok settings ∧
    ((∀ items, raw.corsAllowedOrigins ≠ .items items ∧ raw.llmProviderOrder ≠ .items items) →
      (settings.again fun items => .text (join "," items)).load = .ok settings) ∧
    parseDatabaseUrl settings.databaseUrl = settings.databaseUrl ∧
    ¬Legacy settings.databaseUrl := by
  obtain ⟨rfl, hvalid⟩ := load_ok h
  have hurl : ¬Legacy raw.parsed.databaseUrl := not_legacy_parseDatabaseUrl raw.databaseUrl
  refine ⟨?_, fun htext => ?_, parseDatabaseUrl_eq hurl, hurl⟩
  · apply load_again _ hurl _ hvalid
    · exact stripItems_eq (stripped_of_parsed (fun item hitem => (normal_origins item hitem).1) _)
    · exact stripItems_eq (stripped_of_parsed (fun item hitem => (normal_providers item hitem).1) _)
  · apply load_again _ hurl _ hvalid
    · exact parseList_join (parsed_of_text normal_origins fun items => (htext items).1)
    · exact parseList_join (parsed_of_text normal_providers fun items => (htext items).2)

/-- Settings with blanks in their lists and a URL of the first scheme. -/
def typedSettings : RawSettings where
  environment := "Production"
  corsAllowedOrigins := .text "http://localhost:3000 , ,http://localhost:8000"
  databaseUrl := "postgres://postgres:5432/inference_cp"
  redisUrl := "redis://redis:6379/0"
  llmMode := .openaiCompatible
  llmProviderOrder := .text " openai"
  llmApiKey := some "dummy-key"
  anthropicApiKey := none
  azureOpenaiBaseUrl := none
  azureOpenaiApiKey := none
  azureOpenaiDeployment := none

theorem settings_reload_sample :
    letI := Runtime.ascii
    ∃ settings, typedSettings.load = .ok settings ∧
      settings.corsAllowedOrigins = ["http://localhost:3000", "http://localhost:8000"] ∧
      settings.databaseUrl = "postgresql+asyncpg://postgres:5432/inference_cp" ∧
      (settings.again fun items => .text (join "," items)).load = .ok settings := by
  let ascii := Runtime.ascii
  have hload : typedSettings.load = .ok typedSettings.parsed := rfl
  refine ⟨typedSettings.parsed, hload, rfl, rfl, ?_⟩
  exact (settings_reload typedSettings _ hload).2.1 fun items => ⟨nofun, nofun⟩

end InferenceControlPlane.Gateway

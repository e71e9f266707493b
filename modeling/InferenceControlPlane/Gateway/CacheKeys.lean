import InferenceControlPlane.Gateway.Router
import InferenceControlPlane.Gateway.Inference

/-!
# When two requests share a cache key

The hashed text joins the model key and the prompt with a colon, the model key joins a
provider and a tier with a colon, and an override takes the place of both. Requests that
ask different things share a key in exactly four ways.
-/
namespace InferenceControlPlane.Gateway
open Python

/-! ## Texts joined by a colon -/

/-- Two texts are cut at different colons of one text. It is the one way in which two joined pairs
can be the same text. -/
def CutLater (left right left' right' : String) : Prop :=
  ∃ between, left' = left ++ ":" ++ between ∧ right = between ++ ":" ++ right'

lemma append_cons_eq_iff {α : Type} (a b a' b' : List α) (c : α) :
    a ++ c :: b = a' ++ c :: b' ↔ (a = a' ∧ b = b') ∨
      (∃ s, a' = a ++ c :: s ∧ b = s ++ c :: b') ∨ ∃ s, a = a' ++ c :: s ∧ b' = s ++ c :: b := by
  constructor
  · intro h
    rcases List.append_eq_append_iff.mp h with ⟨t, rfl, ht⟩ | ⟨t, rfl, ht⟩
    · cases t with
      | nil => exact .inl ⟨by simp, by simpa using ht⟩
      | cons d s =>
        obtain ⟨rfl, rfl⟩ := List.cons.inj ht
        exact .inr (.inl ⟨s, rfl, rfl⟩)
    · cases t with
      | nil => exact .inl ⟨by simp, by simpa using ht.symm⟩
      | cons d s =>
        obtain ⟨rfl, rfl⟩ := List.cons.inj ht
        exact .inr (.inr ⟨s, rfl, rfl⟩)
  · rintro (⟨rfl, rfl⟩ | ⟨s, rfl, rfl⟩ | ⟨s, rfl, rfl⟩) <;> simp

lemma toList_colon (left right : String) :
    (left ++ ":" ++ right).toList = left.toList ++ ':' :: right.toList := by
  simp

/-- Texts joined by a colon are cut at the same colon, or one further than the other. -/
lemma colon_eq_iff (left right left' right' : String) :
    left ++ ":" ++ right = left' ++ ":" ++ right' ↔ (left = left' ∧ right = right') ∨
      CutLater left right left' right' ∨ CutLater left' right' left right := by
  have hcut : ∀ a b a' b' : String, CutLater a b a' b' ↔
      ∃ s : List Char, a'.toList = a.toList ++ ':' :: s ∧ b.toList = s ++ ':' :: b'.toList := by
    intro a b a' b'
    constructor
    · rintro ⟨s, rfl, rfl⟩
      exact ⟨s.toList, toList_colon _ _, toList_colon _ _⟩
    · rintro ⟨s, ha, hb⟩
      refine ⟨String.ofList s, ?_, ?_⟩ <;> rw [← String.toList_inj, toList_colon]
      · rw [ha, String.toList_ofList]
      · rw [hb, String.toList_ofList]
  rw [← String.toList_inj, toList_colon, toList_colon, append_cons_eq_iff, hcut, hcut,
    String.toList_inj, String.toList_inj]

lemma not_cutLater {left right left' right' : String} (h : ':' ∉ right.toList) :
    ¬ CutLater left right left' right' := by
  rintro ⟨between, -, rfl⟩
  exact h (by simp)

/-! ## Questions -/

/-- What a request asks, as the handler sees it when it makes the cache key: the redacted prompt,
the two overrides and the tier. Two requests may share an answer only if they ask the same. -/
structure Question where
  prompt : String
  modelOverride : Option String
  providerOverride : Option String
  modelTier : String
  deriving DecidableEq

def questionOf [Runtime] (settings : Settings) (payload : GenerateRequest) : Question :=
  let route := chooseModel payload settings
  ⟨redactPii payload.prompt, route.modelOverride, route.providerOverride, route.modelTier⟩

namespace Question

def providerText (q : Question) : String := (truthyText q.providerOverride).getD "default"

def modelKey (q : Question) : String :=
  (truthyText q.modelOverride).getD (q.providerText ++ ":" ++ q.modelTier)

/-- The text that is hashed. -/
def text (q : Question) : String := cacheText q.prompt q.modelKey

/-- The ways in which two questions share their text: the provider of an override is not in the
key, a missing provider reads as "default", and no colon is escaped. -/
inductive Confused : Question → Question → Prop
  /-- One override for two providers: the provider is not in the key. -/
  | overridden {q q' : Question} (hprompt : q.prompt = q'.prompt)
      (hoverride : truthyText q.modelOverride ≠ none) (hsame : q.modelOverride = q'.modelOverride)
      (hprovider : q.providerOverride ≠ q'.providerOverride) : Confused q q'
  /-- No provider, a blank one, and one that is called "default". -/
  | defaulted {q q' : Question} (hprompt : q.prompt = q'.prompt)
      (hoverride : truthyText q.modelOverride = none)
      (hoverride' : truthyText q'.modelOverride = none)
      (htier : q.modelTier = q'.modelTier) (htext : q.providerText = q'.providerText)
      (hprovider : q.providerOverride ≠ q'.providerOverride) : Confused q q'
  /-- An override that spells the provider and the tier of another route. -/
  | spelled {q q' : Question} (hprompt : q.prompt = q'.prompt)
      (hoverride : truthyText q.modelOverride = some (q'.providerText ++ ":" ++ q'.modelTier))
      (hoverride' : truthyText q'.modelOverride = none) : Confused q q'
  /-- A colon of the prompt that the other question has in its model key. -/
  | shifted {q q' : Question} (hcut : CutLater q.modelKey q.prompt q'.modelKey q'.prompt) :
      Confused q q'

/-- Routes as the router makes them: the tier tells whether there is an override. -/
def Routed (q : Question) : Prop :=
  (q.modelTier = "override" ∧ ∃ model, q.modelOverride = some model) ∨
    ((q.modelTier = "premium" ∨ q.modelTier = "cheap") ∧ q.modelOverride = none)

lemma colon_not_mem_modelTier {q : Question} (h : q.Routed) : ':' ∉ q.modelTier.toList := by
  rcases h with ⟨htier, -⟩ | ⟨htier | htier, -⟩ <;> rw [htier] <;> decide

/-- One tier for two routes: with overrides, or without. -/
lemma modelOverride_iff {q q' : Question} (h : q.Routed) (h' : q'.Routed)
    (htier : q.modelTier = q'.modelTier) : q.modelOverride = none ↔ q'.modelOverride = none := by
  have hne : ∀ tier, tier = "premium" ∨ tier = "cheap" → tier ≠ "override" := by
    rintro _ (rfl | rfl) <;> decide
  rcases h with ⟨hover, model, hmodel⟩ | ⟨hplain, hnone⟩ <;>
    rcases h' with ⟨hover', model', hmodel'⟩ | ⟨hplain', hnone'⟩
  · simp [hmodel, hmodel']
  · exact absurd (htier ▸ hover) (hne _ hplain')
  · exact absurd (htier ▸ hover') (hne _ hplain)
  · simp [hnone, hnone']

lemma truthyText_eq_some {text : Option String} {value : String}
    (h : truthyText text = some value) : text = some value := by
  unfold truthyText at h
  exact (Option.filter_eq_some_iff.mp h).1

lemma eq_of_truthyText_eq_none {text text' : Option String} (h : truthyText text = none)
    (h' : truthyText text' = none) (hnone : text = none ↔ text' = none) : text = text' := by
  have hempty : ∀ {t : Option String}, truthyText t = none → t = none ∨ t = some "" := by
    intro t ht
    cases t with
    | none => exact .inl rfl
    | some value => simpa [truthyText, Option.filter_some] using ht
  rcases hempty h with rfl | rfl <;> rcases hempty h' with rfl | rfl <;> simp_all

lemma modelTier_of_truthy {q : Question} {model : String} (h : q.Routed)
    (hmodel : truthyText q.modelOverride = some model) : q.modelTier = "override" := by
  rcases h with ⟨htier, -⟩ | ⟨-, hnone⟩
  · exact htier
  · rw [hnone] at hmodel
    cases hmodel

/-- One model key for two routes of one prompt. -/
lemma confused_of_modelKey {q q' : Question} (h : q.Routed) (h' : q'.Routed)
    (hprompt : q.prompt = q'.prompt) (hkey : q.modelKey = q'.modelKey) :
    q = q' ∨ Confused q q' ∨ Confused q' q := by
  cases hover : truthyText q.modelOverride with
  | some model =>
    cases hover' : truthyText q'.modelOverride with
    | some model' =>
      obtain rfl : model = model' := by simpa [modelKey, hover, hover'] using hkey
      have hsame : q.modelOverride = q'.modelOverride :=
        (truthyText_eq_some hover).trans (truthyText_eq_some hover').symm
      have htier := (modelTier_of_truthy h hover).trans (modelTier_of_truthy h' hover').symm
      by_cases hprovider : q.providerOverride = q'.providerOverride
      · left
        cases q
        cases q'
        simp_all
      · exact .inr (.inl (.overridden hprompt (by simp [hover]) hsame hprovider))
    | none =>
      have hspelled : model = q'.providerText ++ ":" ++ q'.modelTier := by
        simpa [modelKey, hover, hover'] using hkey
      exact .inr (.inl (.spelled hprompt (hspelled ▸ hover) hover'))
  | none =>
    cases hover' : truthyText q'.modelOverride with
    | some model' =>
      have hspelled : model' = q.providerText ++ ":" ++ q.modelTier := by
        simpa [modelKey, hover, hover'] using hkey.symm
      exact .inr (.inr (.spelled hprompt.symm (hspelled ▸ hover') hover))
    | none =>
      have hjoined : q.providerText ++ ":" ++ q.modelTier =
          q'.providerText ++ ":" ++ q'.modelTier := by
        simpa [modelKey, hover, hover'] using hkey
      rcases (colon_eq_iff _ _ _ _).mp hjoined with ⟨htext, htier⟩ | hcut | hcut
      · have hsame := eq_of_truthyText_eq_none hover hover' (modelOverride_iff h h' htier)
        by_cases hprovider : q.providerOverride = q'.providerOverride
        · left
          cases q
          cases q'
          simp_all
        · exact .inr (.inl (.defaulted hprompt hover hover' htier htext hprovider))
      · exact absurd hcut (not_cutLater (colon_not_mem_modelTier h))
      · exact absurd hcut (not_cutLater (colon_not_mem_modelTier h'))

lemma Confused.ne {q q' : Question} (h : Confused q q') : q ≠ q' := by
  rintro rfl
  cases h with
  | overridden hprompt hoverride hsame hprovider => exact hprovider rfl
  | defaulted hprompt hoverride hoverride' htier htext hprovider => exact hprovider rfl
  | spelled hprompt hoverride hoverride' => simp [hoverride'] at hoverride
  | shifted hcut =>
    obtain ⟨between, hlonger, -⟩ := hcut
    have hlength := congrArg String.length hlonger
    rw [String.length_append, String.length_append] at hlength
    have hcolon : ":".length = 1 := rfl
    omega

lemma Confused.text_eq {q q' : Question} (h : Confused q q') : q.text = q'.text := by
  unfold text cacheText
  cases h with
  | overridden hprompt hoverride hsame hprovider =>
    obtain ⟨model, hmodel⟩ := Option.ne_none_iff_exists'.mp hoverride
    rw [hprompt, modelKey, modelKey, ← hsame, hmodel]
    rfl
  | defaulted hprompt hoverride hoverride' htier htext hprovider =>
    rw [hprompt, modelKey, modelKey, hoverride, hoverride', htext, htier]
  | spelled hprompt hoverride hoverride' =>
    rw [hprompt, modelKey, modelKey, hoverride, hoverride']
    rfl
  | shifted hcut => exact (colon_eq_iff _ _ _ _).mpr (.inr (.inl hcut))

/-- Different questions of the router share a text exactly when they are confused. -/
theorem text_eq_iff {q q' : Question} (h : q.Routed) (h' : q'.Routed) :
    q.text = q'.text ∧ q ≠ q' ↔ Confused q q' ∨ Confused q' q := by
  constructor
  · rintro ⟨htext, hne⟩
    rcases (colon_eq_iff _ _ _ _).mp htext with ⟨hkey, hprompt⟩ | hcut | hcut
    · exact (confused_of_modelKey h h' hprompt hkey).resolve_left hne
    · exact .inl (.shifted hcut)
    · exact .inr (.shifted hcut)
  · rintro (hconfused | hconfused)
    · exact ⟨hconfused.text_eq, hconfused.ne⟩
    · exact ⟨hconfused.text_eq.symm, hconfused.ne.symm⟩

end Question

theorem questionOf_routed [Runtime] (settings : Settings) (payload : GenerateRequest) :
    (questionOf settings payload).Routed := by
  unfold questionOf chooseModel
  cases truthyText payload.modelOverride with
  | some model => exact .inl ⟨rfl, _, rfl⟩
  | none =>
    right
    dsimp only
    split_ifs
    · exact ⟨.inl rfl, rfl⟩
    · exact ⟨.inr rfl, rfl⟩

end InferenceControlPlane.Gateway

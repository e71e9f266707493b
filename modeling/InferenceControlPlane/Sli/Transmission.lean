import InferenceControlPlane.Sli.Delivery

/-!
# What the collector sees

A call of the OTLP/HTTP exporter posts one document until it is acknowledged, refused for good,
or posted often enough. Over any number of runs the posts that got a status are thus the attempts
of the calls that the runs made, and one was acknowledged for each call that returned.
-/
namespace InferenceControlPlane.Sli
open Python

/-! ## The attempts of a call -/

namespace Post

/-- The transport answered 2xx. That is what the exporter knows of a post: a collector may have
accepted one whose answer was lost (status 599) too, and a post whose transport raised has no
status and is not in the log. -/
def acknowledged (post : Post) : Bool := 200 ≤ post.status && post.status < 300

/-- The post got no answer, or one that asks for another post. -/
def retried (post : Post) : Bool := post.status ∈ retryableStatuses

lemma acknowledged_of_retried {post : Post} (h : post.retried = true) :
    post.acknowledged = false := by
  have hstatus : post.status ∈ retryableStatuses := of_decide_eq_true h
  simp only [retryableStatuses, List.mem_cons, List.not_mem_nil, or_false] at hstatus
  rw [acknowledged, Bool.and_eq_false_iff, decide_eq_false_iff_not, decide_eq_false_iff_not]
  omega

end Post

/-- The posts of one document, with the error of the call that made them: all carry the document,
each but the last got a status worth another one, and the last decides whether the call raised. -/
structure Attempts (url : String) (body : Json) (limit : ℕ) (error : Option PyErr)
    (posts : List Post) : Prop where
  carries : ∀ post ∈ posts, post.url = url ∧ post.body = body
  bounded : posts.length ≤ limit
  retried : ∀ post ∈ posts.dropLast, post.retried = true
  counted : posts.countP Post.acknowledged = if error = none then 1 else 0

/-- A call that raised before it posted. -/
lemma Attempts.unposted (url : String) (body : Json) (limit : ℕ) (e : PyErr) :
    Attempts url body limit (some e) [] where
  carries := by simp
  bounded := Nat.zero_le limit
  retried := by simp
  counted := by simp

lemma Attempts.one {url : String} {body : Json} {limit : ℕ} {status : ℤ} {error : Option PyErr}
    (hlimit : 1 ≤ limit)
    (hacknowledged : (⟨url, body, status⟩ : Post).acknowledged = decide (error = none)) :
    Attempts url body limit error [⟨url, body, status⟩] where
  carries := by simp
  bounded := hlimit
  retried := by simp
  counted := by
    rw [List.countP_singleton, hacknowledged]
    simp only [decide_eq_true_eq]

lemma Attempts.cons {url : String} {body : Json} {limit : ℕ} {status : ℤ} {error : Option PyErr}
    {posts : List Post} (hretried : (⟨url, body, status⟩ : Post).retried = true)
    (h : Attempts url body limit error posts) :
    Attempts url body (limit + 1) error (⟨url, body, status⟩ :: posts) where
  carries := List.forall_mem_cons.mpr ⟨⟨rfl, rfl⟩, h.carries⟩
  bounded := Nat.succ_le_succ h.bounded
  retried := by
    cases posts with
    | nil => simp
    | cons next posts =>
      rw [List.dropLast_cons_cons]
      exact List.forall_mem_cons.mpr ⟨hretried, h.retried⟩
  counted := by
    rw [List.countP_cons_of_neg (by simp [Post.acknowledged_of_retried hretried])]
    exact h.counted

lemma acknowledged_eq {url : String} {body : Json} {status : ℤ} :
    (⟨url, body, status⟩ : Post).acknowledged = true ↔ 200 ≤ status ∧ status < 300 := by
  simp [Post.acknowledged]

/-- The loop posts until an answer is final, and no oftener than it may. -/
lemma postLoop_attempts (transport : Transport) (url : String) (body : Json) (left : ℕ)
    (posts : List Post) :
    ∃ more, (postLoop transport url body left posts).2 = posts ++ more ∧
      Attempts url body (left + 1) (errorOfResult (postLoop transport url body left posts).1)
        more := by
  induction left generalizing posts with
  | zero =>
    unfold postLoop
    cases transport posts url body with
    | error e => exact ⟨[], (List.append_nil posts).symm, .unposted _ _ _ e⟩
    | ok status =>
      simp only
      split_ifs with hacknowledged
      · refine ⟨_, rfl, .one le_rfl ?_⟩
        simpa [errorOfResult] using acknowledged_eq.mpr hacknowledged
      · refine ⟨_, rfl, .one le_rfl ?_⟩
        simpa [errorOfResult] using mt acknowledged_eq.mp hacknowledged
  | succ left ih =>
    unfold postLoop
    cases transport posts url body with
    | error e => exact ⟨[], (List.append_nil posts).symm, .unposted _ _ _ e⟩
    | ok status =>
      simp only
      split_ifs with hacknowledged hretried
      · refine ⟨_, rfl, .one (Nat.succ_le_succ (Nat.zero_le _)) ?_⟩
        simpa [errorOfResult] using acknowledged_eq.mpr hacknowledged
      · obtain ⟨more, hmore, hattempts⟩ := ih (posts ++ [⟨url, body, status⟩])
        refine ⟨⟨url, body, status⟩ :: more, ?_, hattempts.cons (decide_eq_true hretried)⟩
        rw [hmore, List.append_assoc]
        rfl
      · refine ⟨_, rfl, .one (Nat.succ_le_succ (Nat.zero_le _)) ?_⟩
        simpa [errorOfResult] using mt acknowledged_eq.mp hacknowledged

/-- A call of an exporter: its points, and what it raised. -/
structure SendCall where
  points : List MetricPoint
  error : Option PyErr

/-- The posts of a call. -/
def Transmits (settings : OtlpSettings) (call : SendCall) (posts : List Post) : Prop :=
  Attempts settings.metricsUrl (toOtlp settings call.points) (settings.maxRetries + 1) call.error
    posts

lemma otlpExport_transmits (settings : OtlpSettings) (transport : Transport) (posts : List Post)
    (points : List MetricPoint) :
    ∃ more, (otlpExport settings transport posts points).2 = posts ++ more ∧
      Transmits settings
        ⟨points, errorOfResult (otlpExport settings transport posts points).1⟩ more := by
  unfold otlpExport
  cases assertAllowed points with
  | error e => exact ⟨[], (List.append_nil posts).symm, .unposted _ _ _ e⟩
  | ok u =>
    simp only
    split_ifs
    · exact postLoop_attempts transport settings.metricsUrl (toOtlp settings points)
        settings.maxRetries posts
    · exact ⟨[], (List.append_nil posts).symm, .unposted _ _ _ _⟩

/-! ## The calls of a run -/

/-- The call that an effect is of. -/
def Effect.call? : Effect → Option SendCall
  | exported points error => some ⟨points, error⟩
  | heartbeat points error => some ⟨points, error⟩
  | saved _ _ => none

def sendsOf (effects : List Effect) : List SendCall := effects.filterMap Effect.call?

lemma sendsOf_append (effects effects' : List Effect) :
    sendsOf (effects ++ effects') = sendsOf effects ++ sendsOf effects' := List.filterMap_append

section World
variable {σ : Type}

/-- What a run adds to the log of posts and to the effects: one segment of posts for each of its
calls to the exporter, in their order. -/
structure Transmitted (settings : OtlpSettings) (w w' : World (List Post) σ)
    (effects : List Effect) (segments : List (List Post)) : Prop where
  posts : w'.exporter = w.exporter ++ segments.flatten
  effects_eq : w'.effects = w.effects ++ effects
  attempts : List.Forall₂ (Transmits settings) (sendsOf effects) segments

lemma Transmitted.refl (settings : OtlpSettings) (w : World (List Post) σ) :
    Transmitted settings w w [] [] :=
  ⟨by simp, by simp, .nil⟩

/-- One more call of the exporter. -/
lemma Transmitted.sent {settings : OtlpSettings} (transport : Transport)
    {w w₁ w₂ : World (List Post) σ} {effects : List Effect} {segments : List (List Post)}
    (h : Transmitted settings w w₁ effects segments) (points : List MetricPoint) {effect : Effect}
    (hposts : w₂.exporter = (otlpExport settings transport w₁.exporter points).2)
    (heffects : w₂.effects = w₁.effects ++ [effect])
    (hcall : effect.call? = some
      ⟨points, errorOfResult (otlpExport settings transport w₁.exporter points).1⟩) :
    ∃ effects segments, Transmitted settings w w₂ effects segments := by
  obtain ⟨more, hmore, htransmits⟩ := otlpExport_transmits settings transport w₁.exporter points
  refine ⟨effects ++ [effect], segments ++ [more], ?_, ?_, ?_⟩
  · rw [hposts, hmore, h.posts, List.flatten_append, List.flatten_singleton, List.append_assoc]
  · rw [heffects, h.effects_eq, List.append_assoc]
  · rw [sendsOf_append]
    refine List.rel_append h.attempts ?_
    rw [sendsOf, List.filterMap_cons_some hcall]
    exact .cons htransmits .nil

/-- A run of the pipeline that exports to the collector. -/
structure CollectorRun (σ : Type) [Runtime] where
  settings : OtlpSettings
  transport : Transport
  store : Option (CheckpointStore σ)
  args : RunArgs
  source : Source
  env : Env

variable [Runtime]

def CollectorRun.perform (r : CollectorRun σ) (w : World (List Post) σ) : World (List Post) σ :=
  (run (some (otlpHttpExporter r.settings r.transport)) r.store r.args r.source r.env w).2

/-- A call returned. -/
def SendCall.returned (call : SendCall) : Bool := call.error = none

end World
end InferenceControlPlane.Sli

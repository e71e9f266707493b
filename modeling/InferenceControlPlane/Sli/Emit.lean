import InferenceControlPlane.Sli.Quality

/-!
# Exporters

Every exporter first checks its points against the governance registry. The OTLP
exporter serializes them into one document and posts it to the collector, with
retries for transient statuses.
-/
namespace InferenceControlPlane.Sli
open Python

/-- An exporter as a behaviour on its own state. A heartbeat channel is optional; a pipeline
without one sends no health metrics. -/
structure Exporter (ε : Type) where
  exportPoints : ε → List MetricPoint → Except PyErr Unit × ε
  heartbeat : Option (ε → List MetricPoint → Except PyErr Unit × ε)

/-- One round of `assert_allowed`: the name is registered, type and unit are its own, and every
dimension is allowed and has a value of its vocabulary. -/
def assertPoint (p : MetricPoint) : Except PyErr Unit :=
  match metricRegistry.lookup p.name with
  | none => .error .valueError
  | some definition =>
    if p.type ≠ definition.type ∨ p.unit ≠ definition.unit then .error .valueError
    else if p.dims.keys.any (· ∉ definition.allowedDimensions) then .error .valueError
    else if p.dims.keys.any (· ∉ allowedAttributeKeys) then .error .valueError
    else if p.dims.entries.any fun e => e.2 ∉ (vocabularyOf e.1).getD [] then .error .valueError
    else .ok ()

def assertAllowed (points : List MetricPoint) : Except PyErr Unit := points.forM assertPoint

/-! ## The OTLP document -/

def attrs (dims : Dict String String) : Json :=
  .arr ((dims.entries.insertionSort fun a b => a.1 ≤ b.1).map fun e =>
    .obj [("key", .str e.1), ("value", .obj [("stringValue", .str e.2)])])

def numJson : Number → Json
  | .int n => .int n
  | .float q => .float (.finite q)

def natText (n : ℕ) : Json := .str (toString n)

/-- What `OtelJsonExporter` is built with, plus the address of the collector. All documents of an
exporter carry these times and these resource attributes. -/
structure OtlpSettings where
  metricsUrl : String
  startNanos : ℤ
  timeNanos : ℤ
  serviceVersion : String
  deploymentEnvironment : Option String
  maxRetries : ℕ

def resourceAttrs (settings : OtlpSettings) : Json :=
  let entry (key value : String) : Json :=
    .obj [("key", .str key), ("value", .obj [("stringValue", .str value)])]
  .arr ([entry "service.name" "gateway-sli", entry "service.version" settings.serviceVersion] ++
    match settings.deploymentEnvironment with
    | some environment =>
      if environment = "" then [] else [entry "deployment.environment" environment]
    | none => [])

def deltaTemporality : Json := .str "AGGREGATION_TEMPORALITY_DELTA"

def histogramDataPoint (settings : OtlpSettings) (p : MetricPoint) (h : HistogramValue) : Json :=
  .obj ([("attributes", attrs p.dims), ("startTimeUnixNano", .str (toString settings.startNanos)),
      ("timeUnixNano", .str (toString settings.timeNanos)), ("count", natText h.count),
      ("sum", .float (.finite h.sum)), ("explicitBounds", .arr (h.bounds.map Json.float)),
      ("bucketCounts", .arr ((h.bucketCounts ++ [h.overflow]).map natText))] ++
    (match h.min with | some m => [("min", .float (.finite m))] | none => []) ++
    (match h.max with | some m => [("max", .float (.finite m))] | none => []))

def valueJson (p : MetricPoint) : Json := (p.value.map numJson).getD .null

/-- The OTLP metric of one point. -/
def otlpMetric (settings : OtlpSettings) (p : MetricPoint) : Json :=
  match p.type, p.histogram with
  | .histogram, some h =>
    .obj [("name", .str p.name), ("unit", .str p.unit),
      ("histogram", .obj [("aggregationTemporality", deltaTemporality),
        ("dataPoints", .arr [histogramDataPoint settings p h])])]
  | .counter, _ =>
    .obj [("name", .str p.name), ("unit", .str p.unit),
      ("sum", .obj [("isMonotonic", .bool true), ("aggregationTemporality", deltaTemporality),
        ("dataPoints", .arr [.obj [("attributes", attrs p.dims),
          ("startTimeUnixNano", .str (toString settings.startNanos)),
          ("timeUnixNano", .str (toString settings.timeNanos)), ("asDouble", valueJson p)]])])]
  | _, _ =>
    .obj [("name", .str p.name), ("unit", .str p.unit),
      ("gauge", .obj [("dataPoints", .arr [.obj [("attributes", attrs p.dims),
        ("timeUnixNano", .str (toString settings.timeNanos)), ("asDouble", valueJson p)]])])]

/-- `_to_otlp`: one resource with one scope, under which each point is a metric of its own. -/
def toOtlp (settings : OtlpSettings) (points : List MetricPoint) : Json :=
  .obj [("resourceMetrics", .arr [.obj
    [("resource", .obj [("attributes", resourceAttrs settings)]),
     ("scopeMetrics", .arr [.obj
      [("scope", .obj [("name", .str "gateway_sli"), ("version", .str "1.0.14")]),
       ("metrics", .arr (points.map (otlpMetric settings)))]])]])]

mutual
/-- `json.dumps(value, allow_nan=False)` accepts the value. -/
def encodable : Json → Bool
  | .float (.finite q) => decide (|q| < doubleBound)
  | .float _ => false
  | .arr items => encodableItems items
  | .obj fields => encodableFields fields
  | _ => true

def encodableItems : List Json → Bool
  | [] => true
  | v :: vs => encodable v && encodableItems vs

def encodableFields : List (String × Json) → Bool
  | [] => true
  | (_, v) :: vs => encodable v && encodableFields vs
end

/-! ## OTLP over HTTP -/

/-- A post for which the exporter saw a status, with that status. Where the answer was lost, the
status is the 599 that the transport returns for it. -/
structure Post where
  url : String
  body : Json
  status : ℤ

/-- The transport sees every earlier post, and may raise instead of answering. -/
abbrev Transport : Type := List Post → String → Json → Except PyErr ℤ

def retryableStatuses : List ℤ := [429, 500, 502, 503, 504, 599]

def otlpExportError : PyErr := .raised "OtlpExportError"

/-- The retry loop of `export`, with `left` retries to go. The waits between two posts are left
out: they change neither the posts nor, as long as they return, what the loop returns. -/
def postLoop (transport : Transport) (url : String) (body : Json) :
    ℕ → List Post → Except PyErr Unit × List Post
  | left, posts =>
    match transport posts url body with
    | .error e => (.error e, posts)
    | .ok status =>
      let posts := posts ++ [⟨url, body, status⟩]
      if 200 ≤ status ∧ status < 300 then (.ok (), posts)
      else match left with
        | 0 => (.error otlpExportError, posts)
        | left + 1 =>
          if status ∈ retryableStatuses then postLoop transport url body left posts
          else (.error otlpExportError, posts)

/-- `OtlpHttpExporter.export`: the points are checked and serialized, and the document is posted
until a post is answered 2xx, with an error when the attempts run out or a status is not worth
another one. -/
def otlpExport (settings : OtlpSettings) (transport : Transport) (posts : List Post)
    (points : List MetricPoint) : Except PyErr Unit × List Post :=
  match assertAllowed points with
  | .error e => (.error e, posts)
  | .ok () =>
    let payload := toOtlp settings points
    if encodable payload then
      postLoop transport settings.metricsUrl payload settings.maxRetries posts
    else (.error .valueError, posts)

/-- `OtlpHttpExporter`; its heartbeat is a separate post of the same kind. -/
def otlpHttpExporter (settings : OtlpSettings) (transport : Transport) :
    Exporter (List Post) where
  exportPoints := otlpExport settings transport
  heartbeat := some (otlpExport settings transport)

/-- The collector took in a document of the given points. -/
def Post.Accepts (settings : OtlpSettings) (points : List MetricPoint) (post : Post) : Prop :=
  post.url = settings.metricsUrl ∧ post.body = toOtlp settings points ∧
    200 ≤ post.status ∧ post.status < 300

/-- The loop only adds posts; when it returns, one of them was answered 2xx, and carries the
document of the call. -/
theorem postLoop_spec (transport : Transport) (url : String) (body : Json) (left : ℕ)
    (posts : List Post) :
    ∃ more, (postLoop transport url body left posts).2 = posts ++ more ∧
      ((postLoop transport url body left posts).1 = .ok () →
        ∃ status, 200 ≤ status ∧ status < 300 ∧ ⟨url, body, status⟩ ∈ more) := by
  induction left generalizing posts with
  | zero =>
    unfold postLoop
    cases ht : transport posts url body with
    | error e => exact ⟨[], by simp, by simp⟩
    | ok status =>
      simp only
      split_ifs with hs
      · exact ⟨[⟨url, body, status⟩], rfl, fun _ => ⟨status, hs.1, hs.2, by simp⟩⟩
      · exact ⟨[⟨url, body, status⟩], rfl, by simp⟩
  | succ left ih =>
    unfold postLoop
    cases ht : transport posts url body with
    | error e => exact ⟨[], by simp, by simp⟩
    | ok status =>
      simp only
      split_ifs with hs hr
      · exact ⟨[⟨url, body, status⟩], rfl, fun _ => ⟨status, hs.1, hs.2, by simp⟩⟩
      · obtain ⟨more, hmore, hok⟩ := ih (posts ++ [⟨url, body, status⟩])
        refine ⟨⟨url, body, status⟩ :: more, by rw [hmore]; simp, fun h => ?_⟩
        obtain ⟨s, h1, h2, hm⟩ := hok h
        exact ⟨s, h1, h2, List.mem_cons_of_mem _ hm⟩
      · exact ⟨[⟨url, body, status⟩], rfl, by simp⟩

theorem otlpExport_spec (settings : OtlpSettings) (transport : Transport) (posts : List Post)
    (points : List MetricPoint) :
    ∃ more, (otlpExport settings transport posts points).2 = posts ++ more ∧
      ((otlpExport settings transport posts points).1 = .ok () →
        ∃ post ∈ more, post.Accepts settings points) := by
  unfold otlpExport
  cases ha : assertAllowed points with
  | error e => exact ⟨[], by simp, by simp⟩
  | ok u =>
    simp only
    split_ifs
    · obtain ⟨more, hmore, hok⟩ := postLoop_spec transport settings.metricsUrl
        (toOtlp settings points) settings.maxRetries posts
      refine ⟨more, hmore, fun h => ?_⟩
      obtain ⟨status, h1, h2, hm⟩ := hok h
      exact ⟨_, hm, rfl, rfl, h1, h2⟩
    · exact ⟨[], by simp, by simp⟩

end InferenceControlPlane.Sli

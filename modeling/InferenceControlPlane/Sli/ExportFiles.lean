import InferenceControlPlane.Python.JsonBeginnings
import InferenceControlPlane.Python.Overwriting
import InferenceControlPlane.Sli.Document

/-!
# The files of the JSON exporter

`OtelJsonExporter` overwrites its file with every export, and a second one with all the
heartbeats of its process. Writing is not atomic: a call that is stopped leaves a file cut
short. Its documents can be read back from their texts.
-/
namespace InferenceControlPlane.Sli
open Python JsonText

/-- `OtelJsonExporter` with an output path: the directory and the name of the main file, the
settings of its documents, and the heartbeat points that it has been given so far. -/
structure OtelJsonExporter where
  directory : Path
  name : String
  settings : OtlpSettings
  heartbeatPoints : List MetricPoint

/-- The two files that an exporter writes: that of the exports, and one beside it for the
heartbeats. -/
inductive ExportFile where
  | main
  | heartbeat
  deriving DecidableEq

inductive ExporterCall where
  | exportPoints (points : List MetricPoint)
  | heartbeat (points : List MetricPoint)

namespace ExporterCall

def file : ExporterCall → ExportFile
  | .exportPoints _ => .main
  | .heartbeat _ => .heartbeat

def points : ExporterCall → List MetricPoint
  | .exportPoints points => points
  | .heartbeat points => points

end ExporterCall

/-- `json.dumps(payload, indent=2, allow_nan=False)`: the text of a file, which is refused as a
whole when it holds a float that is not finite. -/
def render [Runtime] (payload : Json) : Except PyErr (List Char) := dumps (some 2) payload

/-! ## Documents that are read back -/

/-- The floats that the document of a point can hold. -/
def MetricPoint.floats (p : MetricPoint) : List PyFloat :=
  (match p.value with
    | some (.float q) => [.finite q]
    | _ => []) ++
  (match p.histogram with
    | some h => h.bounds ++ (h.sum :: h.min.toList ++ h.max.toList).map .finite
    | none => [])

/-- The interpreter writes the finite floats of a point as texts that read as the same floats. -/
def MetricPoint.Legible [Runtime] (p : MetricPoint) : Prop := ∀ x ∈ p.floats, JsonText.Legible x

section
variable [Runtime]

lemma faithful_arr {items : List Json} (h : ∀ v ∈ items, Faithful v) : Faithful (.arr items) := by
  rw [Faithful]
  exact faithfulItems_iff.mpr h

lemma faithful_obj {fields : List (String × Json)} (hkeys : (fields.map Prod.fst).Nodup)
    (h : ∀ field ∈ fields, Faithful field.2) : Faithful (.obj fields) := by
  rw [Faithful]
  exact ⟨hkeys, faithfulFields_iff.mpr h⟩

lemma faithful_str (s : String) : Faithful (.str s) := by
  rw [Faithful]
  all_goals simp

lemma faithful_keyValue (key value : String) :
    Faithful (.obj [("key", .str key), ("value", .obj [("stringValue", .str value)])]) := by
  have hvalue : Faithful (.obj [("stringValue", .str value)]) :=
    faithful_obj (by simp) (by simpa using faithful_str value)
  apply faithful_obj (by simp)
  simpa using ⟨faithful_str key, hvalue⟩

lemma faithful_attrs (dims : Dict String String) : Faithful (attrs dims) := by
  apply faithful_arr
  intro v hv
  obtain ⟨e, -, rfl⟩ := List.mem_map.mp hv
  exact faithful_keyValue e.1 e.2

lemma faithful_resourceAttrs (settings : OtlpSettings) : Faithful (resourceAttrs settings) := by
  apply faithful_arr
  intro v hv
  rcases List.mem_append.mp hv with hv | hv
  · simp only [List.mem_cons, List.not_mem_nil, or_false] at hv
    rcases hv with rfl | rfl
    · exact faithful_keyValue _ _
    · exact faithful_keyValue _ _
  · cases henv : settings.deploymentEnvironment with
    | none => simp [henv] at hv
    | some environment =>
      simp only [henv] at hv
      split_ifs at hv with hempty
      · simp at hv
      · rw [List.mem_singleton.mp hv]
        exact faithful_keyValue _ _

lemma faithful_float {x : PyFloat} (h : JsonText.Legible x) : Faithful (.float x) := by
  rw [Faithful]
  exact h

lemma faithful_valueJson {p : MetricPoint} (h : p.Legible) : Faithful (valueJson p) := by
  unfold valueJson
  cases hvalue : p.value with
  | none =>
    rw [Option.map_none, Option.getD_none, Faithful]
    all_goals simp
  | some number =>
    cases number with
    | int n =>
      show Faithful (.int n)
      rw [Faithful]
      all_goals simp
    | float q => exact faithful_float (h _ (by simp [MetricPoint.floats, hvalue]))

/-- The entry of an optional statistic. -/
lemma faithful_statistic {key : String} {stat : Option ℚ}
    (h : ∀ q ∈ stat, JsonText.Legible (.finite q)) :
    ∀ field ∈ (match stat with
      | some m => [(key, Json.float (.finite m))]
      | none => []), Faithful field.2 := by
  cases stat with
  | none => simp
  | some m => simpa using faithful_float (h m rfl)

lemma faithful_histogramDataPoint (settings : OtlpSettings) {p : MetricPoint} {h : HistogramValue}
    (hp : p.Legible) (hhist : p.histogram = some h) :
    Faithful (histogramDataPoint settings p h) := by
  have hfloats : ∀ x ∈ h.bounds ++ (h.sum :: h.min.toList ++ h.max.toList).map .finite,
      JsonText.Legible x := by
    intro x hx
    apply hp x
    rw [MetricPoint.floats, hhist]
    exact List.mem_append_right _ hx
  have hbounds : Faithful (.arr (h.bounds.map Json.float)) := by
    apply faithful_arr
    intro v hv
    obtain ⟨x, hx, rfl⟩ := List.mem_map.mp hv
    exact faithful_float (hfloats x (List.mem_append_left _ hx))
  have hcounts : Faithful (.arr ((h.bucketCounts ++ [h.overflow]).map natText)) := by
    apply faithful_arr
    intro v hv
    obtain ⟨n, -, rfl⟩ := List.mem_map.mp hv
    exact faithful_str _
  have hsum : Faithful (.float (.finite h.sum)) := faithful_float (hfloats _ (by simp))
  have hmin : ∀ q ∈ h.min, JsonText.Legible (.finite q) := by
    intro q hq
    exact hfloats _ (by simp [Option.mem_def.mp hq])
  have hmax : ∀ q ∈ h.max, JsonText.Legible (.finite q) := by
    intro q hq
    exact hfloats _ (by simp [Option.mem_def.mp hq])
  unfold histogramDataPoint
  apply faithful_obj
  · cases h.min <;> cases h.max <;> simp
  · simp only [List.forall_mem_append]
    refine ⟨⟨?_, faithful_statistic hmin⟩, faithful_statistic hmax⟩
    simp only [List.forall_mem_cons, List.not_mem_nil, false_imp_iff, implies_true, and_true]
    exact ⟨faithful_attrs p.dims, faithful_str _, faithful_str _, faithful_str _, hsum, hbounds,
      hcounts⟩

/-- A metric with one data point. -/
lemma faithful_metric (name unit kind : String) {body : Json} (hbody : Faithful body)
    (hname : "name" ≠ kind) (hunit : "unit" ≠ kind) :
    Faithful (.obj [("name", .str name), ("unit", .str unit), (kind, body)]) := by
  apply faithful_obj
  · simp [hname, hunit]
  · simpa using ⟨faithful_str name, faithful_str unit, hbody⟩

lemma faithful_bool (b : Bool) : Faithful (.bool b) := by
  rw [Faithful]
  all_goals simp

lemma faithful_otlpMetric (settings : OtlpSettings) {p : MetricPoint} (hp : p.Legible) :
    Faithful (otlpMetric settings p) := by
  have hvalue := faithful_valueJson hp
  have hattrs := faithful_attrs p.dims
  have hone : ∀ v, Faithful v → Faithful (.arr [v]) := by
    intro v hv
    exact faithful_arr (by simpa using hv)
  have hgauge : Faithful (.obj [("dataPoints", .arr [.obj [("attributes", attrs p.dims),
      ("timeUnixNano", .str (toString settings.timeNanos)), ("asDouble", valueJson p)]])]) := by
    apply faithful_obj (by simp)
    simpa using hone _ (faithful_obj (by simp) (by simpa using ⟨hattrs, faithful_str _, hvalue⟩))
  cases htype : p.type with
  | histogram =>
    cases hhist : p.histogram with
    | none =>
      simp only [otlpMetric, htype, hhist]
      exact faithful_metric _ _ _ hgauge (by decide) (by decide)
    | some h =>
      simp only [otlpMetric, htype, hhist]
      apply faithful_metric _ _ _ _ (by decide) (by decide)
      apply faithful_obj (by simp)
      simpa using ⟨faithful_str _, hone _ (faithful_histogramDataPoint settings hp hhist)⟩
  | counter =>
    simp only [otlpMetric, htype]
    apply faithful_metric _ _ _ _ (by decide) (by decide)
    apply faithful_obj (by simp)
    simpa using ⟨faithful_bool true, faithful_str _, hone _ (faithful_obj (by simp)
      (by simpa using ⟨hattrs, faithful_str _, faithful_str _, hvalue⟩))⟩
  | gauge =>
    simp only [otlpMetric, htype]
    exact faithful_metric _ _ _ hgauge (by decide) (by decide)

/-- The document of legible points can be read back. -/
theorem faithful_toOtlp (settings : OtlpSettings) {points : List MetricPoint}
    (h : ∀ p ∈ points, p.Legible) : Faithful (toOtlp settings points) := by
  have hmetrics : Faithful (.arr (points.map (otlpMetric settings))) := by
    apply faithful_arr
    intro v hv
    obtain ⟨p, hp, rfl⟩ := List.mem_map.mp hv
    exact faithful_otlpMetric settings (h p hp)
  have hscope : Faithful (.obj [("name", .str "gateway_sli"), ("version", .str "1.0.14")]) :=
    faithful_obj (by simp) (by simpa using ⟨faithful_str _, faithful_str _⟩)
  have hscopes : Faithful (.arr [.obj
      [("scope", .obj [("name", .str "gateway_sli"), ("version", .str "1.0.14")]),
       ("metrics", .arr (points.map (otlpMetric settings)))]]) := by
    apply faithful_arr
    rw [List.forall_mem_singleton]
    apply faithful_obj (by simp)
    simpa using And.intro hscope hmetrics
  have hresource : Faithful (.obj [("attributes", resourceAttrs settings)]) :=
    faithful_obj (by simp) (by simpa using faithful_resourceAttrs settings)
  unfold toOtlp
  apply faithful_obj (by simp)
  rw [List.forall_mem_singleton]
  apply faithful_arr
  rw [List.forall_mem_singleton]
  apply faithful_obj (by simp)
  simpa using And.intro hresource hscopes

end

namespace OtelJsonExporter

def fileName (exporter : OtelJsonExporter) : ExportFile → String
  | .main => exporter.name
  | .heartbeat => exporter.name ++ ".heartbeat.json"

def filePath (exporter : OtelJsonExporter) (file : ExportFile) : Path :=
  exporter.directory ++ [exporter.fileName file]

/-- `export`: everything that can fail but the disk comes before the file is opened. -/
def exportPoints [Runtime] (exporter : OtelJsonExporter) (points : List MetricPoint) :
    OutputProgram (Except PyErr Json) :=
  match buildPayload exporter.settings points with
  | .error e => pure (.error e)
  | .ok payload =>
    match render payload with
    | .error e => pure (.error e)
    | .ok text =>
      (writeDocument exporter.directory (exporter.fileName .main) (.ok text)).andThen fun _ =>
        pure (.ok payload)

/-- `heartbeat`, once the exporter has taken in the points. The text is made while the file
is open. -/
def writeHeartbeats [Runtime] (exporter : OtelJsonExporter) : OutputProgram (Except PyErr Json) :=
  match buildPayload exporter.settings exporter.heartbeatPoints with
  | .error e => pure (.error e)
  | .ok payload =>
    (writeDocument exporter.directory (exporter.fileName .heartbeat) (render payload)).andThen
      fun _ => pure (.ok payload)

/-- `self._heartbeat_points.extend(points)`: every heartbeat writes all points that were collected
so far. -/
def extended (exporter : OtelJsonExporter) (points : List MetricPoint) : OtelJsonExporter :=
  { exporter with heartbeatPoints := exporter.heartbeatPoints ++ points }

/-- The exporter after a call. -/
def after (exporter : OtelJsonExporter) : ExporterCall → OtelJsonExporter
  | .exportPoints _ => exporter
  | .heartbeat points => exporter.extended points

def program [Runtime] (exporter : OtelJsonExporter) :
    ExporterCall → OutputProgram (Except PyErr Json)
  | .exportPoints points => exporter.exportPoints points
  | .heartbeat points => (exporter.extended points).writeHeartbeats

/-- The points of the document that a call writes. -/
def documentPoints (exporter : OtelJsonExporter) : ExporterCall → List MetricPoint
  | .exportPoints points => points
  | .heartbeat points => exporter.heartbeatPoints ++ points

def document (exporter : OtelJsonExporter) (call : ExporterCall) : Except PyErr Json :=
  buildPayload exporter.settings (exporter.documentPoints call)

/-- The exporter of a process that starts anew. -/
def restarted (exporter : OtelJsonExporter) (settings : OtlpSettings) : OtelJsonExporter :=
  { exporter with settings := settings, heartbeatPoints := [] }

/-- The text of the document that a call writes. -/
def documentText [Runtime] (exporter : OtelJsonExporter) (call : ExporterCall) :
    Except PyErr (List Char) := exporter.document call >>= render

/-! ## One call -/

/-- A document is written and handed back. -/
lemma guards_handBack (disk : Disk) (directory : Path) (name : String) (payload : Json)
    (text : Except PyErr (List Char)) :
    ((writeDocument directory name text).andThen fun _ =>
      (pure (.ok payload) : OutputProgram (Except PyErr Json))).Guards OutputAnswers
      (Torn disk directory name (written text))
      (fun r t => ∀ v, r = .ok v → v = payload ∧
        ∃ cs, text = .ok cs ∧ t (directory ++ [name]) = some (.file cs)) disk := by
  apply (guards_writeDocument disk directory name text).andThen
  · intro u t hcrash hwritten
    refine ⟨hcrash, fun v hv => ?_⟩
    cases hv
    exact ⟨rfl, hwritten rfl⟩
  · intro e t _ _ v hv
    cases hv

/-- A call that fails before it opens its file. -/
lemma guards_failed (disk : Disk) (directory : Path) (name : String) (text : List Char)
    (e : PyErr) {post : Json → Disk → Prop} :
    (pure (.error e) : OutputProgram (Except PyErr Json)).Guards OutputAnswers
      (Torn disk directory name text) (fun r t => ∀ v, r = .ok v → post v t) disk := by
  refine ⟨.refl disk directory name text, fun v hv => ?_⟩
  cases hv

section
variable [Runtime]

/-- A call whose document is refused does not touch the disk. -/
lemma program_refused {exporter : OtelJsonExporter} {call : ExporterCall} {e : PyErr}
    (h : exporter.document call = .error e) : exporter.program call = pure (.error e) := by
  cases call with
  | exportPoints points =>
    replace h : buildPayload exporter.settings points = .error e := h
    simp only [program, exportPoints, h]
  | heartbeat points =>
    replace h : buildPayload (exporter.extended points).settings
      (exporter.extended points).heartbeatPoints = .error e := h
    simp only [program, writeHeartbeats, h]

/-- What a call does to the disk, wherever it stops, and what it has written when it
returns. -/
theorem guards_program (exporter : OtelJsonExporter) (call : ExporterCall) (disk : Disk) :
    (exporter.program call).Guards OutputAnswers
      (Torn disk exporter.directory (exporter.fileName call.file)
        (written (exporter.documentText call)))
      (fun r t => ∀ payload, r = .ok payload → exporter.document call = .ok payload ∧
        ∃ text, render payload = .ok text ∧ t (exporter.filePath call.file) = some (.file text))
      disk := by
  cases hpayload : exporter.document call with
  | error e =>
    rw [program_refused hpayload]
    exact guards_failed disk _ _ _ e
  | ok payload =>
    have htext : exporter.documentText call = render payload := by
      rw [documentText, hpayload]
      rfl
    rw [htext]
    have hhand := guards_handBack disk exporter.directory (exporter.fileName call.file) payload
      (render payload)
    cases call with
    | exportPoints points =>
      replace hpayload : buildPayload exporter.settings points = .ok payload := hpayload
      cases hrender : render payload with
      | error e =>
        have hfails : exporter.program (.exportPoints points) = pure (.error e) := by
          simp only [program, exportPoints, hpayload, hrender]
        rw [hfails]
        exact guards_failed disk _ _ _ e
      | ok text =>
        have hwrites : exporter.program (.exportPoints points) =
            (writeDocument exporter.directory (exporter.fileName .main) (.ok text)).andThen
              fun _ => pure (.ok payload) := by
          simp only [program, exportPoints, hpayload, hrender]
        rw [hwrites]
        rw [hrender] at hhand
        apply hhand.mono
        intro r t hpost v hv
        obtain ⟨rfl, cs, hcs, hfile⟩ := hpost v hv
        exact ⟨rfl, cs, hrender.trans hcs, hfile⟩
    | heartbeat points =>
      replace hpayload : buildPayload (exporter.extended points).settings
        (exporter.extended points).heartbeatPoints = .ok payload := hpayload
      have hwrites : exporter.program (.heartbeat points) =
          (writeDocument exporter.directory (exporter.fileName .heartbeat)
            (render payload)).andThen fun _ => pure (.ok payload) := by
        simp only [program, writeHeartbeats, hpayload]
        rfl
      rw [hwrites]
      apply hhand.mono
      intro r t hpost v hv
      obtain ⟨rfl, cs, hcs, hfile⟩ := hpost v hv
      exact ⟨rfl, cs, hcs, hfile⟩

end

end OtelJsonExporter

end InferenceControlPlane.Sli

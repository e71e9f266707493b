import InferenceControlPlane.Sli.ExportFiles

/-!
# Export files through crashes

Processes come and go over one disk, and are killed at any point of a call. A file that was
cut short is no JSON, so that whoever can read a file reads a whole document.
-/
namespace InferenceControlPlane.Sli
open Python JsonText

/-- What a call of an exporter meets: the disk, and the exporter of the process that runs, which
loses its heartbeat points with the process. -/
structure ExportState where
  disk : Disk
  exporter : OtelJsonExporter

/-- A call returns or raises, the process is killed during a call and another one starts, or
it ends and another one starts. -/
inductive ExportAct where
  | finished (call : ExporterCall) (result : Except PyErr Json)
  | killed (call : ExporterCall) (settings : OtlpSettings)
  | restarted (settings : OtlpSettings)

namespace ExportAct

def call : ExportAct → Option ExporterCall
  | finished call _ => some call
  | killed call _ => some call
  | restarted _ => none

/-- What the act makes of the exporter. -/
def exporter (act : ExportAct) (exporter : OtelJsonExporter) : OtelJsonExporter :=
  match act with
  | finished call _ => exporter.after call
  | killed _ settings => exporter.restarted settings
  | restarted settings => exporter.restarted settings

/-- The act leaves a file alone. -/
def Spares (file : ExportFile) (act : ExportAct) : Prop :=
  ∀ call, act.call = some call → call.file ≠ file

/-- A call that writes the file has returned. -/
def Returned (file : ExportFile) (act : ExportAct) : Prop :=
  ∃ call payload, act = finished call (.ok payload) ∧ call.file = file

/-- The points of the call can be written and read. -/
def Legible [Runtime] (act : ExportAct) : Prop :=
  ∀ call, act.call = some call → ∀ p ∈ call.points, p.Legible

end ExportAct

section
variable [Runtime]

inductive ExportStep : ExportState → ExportAct → ExportState → Prop
  | finished {s : ExportState} {call : ExporterCall} {result : Except PyErr Json} {disk : Disk}
      (h : Program.Interrupted OutputAnswers (s.exporter.program call) s.disk (.done result) disk) :
      ExportStep s (.finished call result) ⟨disk, s.exporter.after call⟩
  | killed {s : ExportState} {call : ExporterCall} {settings : OtlpSettings} {disk : Disk}
      {rest : OutputProgram (Except PyErr Json)}
      (h : Program.Interrupted OutputAnswers (s.exporter.program call) s.disk rest disk) :
      ExportStep s (.killed call settings) ⟨disk, s.exporter.restarted settings⟩
  | restarted {s : ExportState} {settings : OtlpSettings} :
      ExportStep s (.restarted settings) ⟨s.disk, s.exporter.restarted settings⟩

variable {init s s' : ExportState} {act : ExportAct} {acts : List ExportAct} {file : ExportFile}

lemma ExportStep.exporter_eq (h : ExportStep s act s') : s'.exporter = act.exporter s.exporter := by
  cases h with
  | finished => rfl
  | killed => rfl
  | restarted => rfl

/-- What one act does to the disk. -/
lemma ExportStep.torn (h : ExportStep s act s') :
    s'.disk = s.disk ∨ ∃ call, act.call = some call ∧
      Torn s.disk s.exporter.directory (s.exporter.fileName call.file)
        (written (s.exporter.documentText call)) s'.disk := by
  cases h with
  | finished h =>
    have hguards := Program.guards_iff.mp (s.exporter.guards_program _ s.disk) _ _ h
    exact Or.inr ⟨_, rfl, hguards.1⟩
  | killed h =>
    have hguards := Program.guards_iff.mp (s.exporter.guards_program _ s.disk) _ _ h
    exact Or.inr ⟨_, rfl, hguards.1⟩
  | restarted => exact Or.inl rfl

omit [Runtime] in
lemma filePath_inj {exporter : OtelJsonExporter} {file file' : ExportFile}
    (h : exporter.filePath file = exporter.filePath file') : file = file' := by
  have hname : exporter.fileName file = exporter.fileName file' := by
    have hlast := List.append_inj_right' h rfl
    exact List.head_eq_of_cons_eq hlast
  have hlonger : exporter.name ≠ exporter.name ++ ".heartbeat.json" := by
    intro heq
    have hlength := congrArg String.length heq
    rw [String.length_append] at hlength
    have : ".heartbeat.json".length = 15 := by decide
    omega
  cases file with
  | main =>
    cases file' with
    | main => rfl
    | heartbeat => exact absurd hname hlonger
  | heartbeat =>
    cases file' with
    | main => exact absurd hname.symm hlonger
    | heartbeat => rfl

omit [Runtime] in
/-- A file that is not the one written is as before. -/
lemma torn_other {exporter : OtelJsonExporter} {file file' : ExportFile} {text : List Char}
    {disk disk' : Disk} (h : Torn disk exporter.directory (exporter.fileName file') text disk')
    (hne : file' ≠ file) : disk' (exporter.filePath file) = disk (exporter.filePath file) := by
  have hpath : exporter.filePath file ≠ exporter.filePath file' := fun heq =>
    hne (filePath_inj heq).symm
  rcases h.others _ hpath with heq | ⟨-, -, hdir⟩
  · exact heq
  · have hlength := hdir.length_le
    rw [OtelJsonExporter.filePath, List.length_append, List.length_singleton] at hlength
    omega

/-- An act that spares a file leaves it as it was. -/
lemma ExportStep.spared (h : ExportStep s act s') (hspares : act.Spares file) :
    s'.disk (s.exporter.filePath file) = s.disk (s.exporter.filePath file) := by
  rcases h.torn with hdisk | ⟨call, hcall, htorn⟩
  · rw [hdisk]
  · exact torn_other htorn (hspares call hcall)

/-- The two files stay where they are. -/
lemma ExportStep.filePath_eq (h : ExportStep s act s') (file : ExportFile) :
    s'.exporter.filePath file = s.exporter.filePath file := by
  rw [h.exporter_eq]
  cases act with
  | finished call result =>
    cases call with
    | exportPoints points => rfl
    | heartbeat points => cases file <;> rfl
  | killed call settings => cases file <;> rfl
  | restarted settings => cases file <;> rfl

lemma run_filePath (hrun : Run ExportStep init acts s) (file : ExportFile) :
    s.exporter.filePath file = init.exporter.filePath file := by
  apply hrun.invariant (P := fun _ s => s.exporter.filePath file = init.exporter.filePath file) rfl
  intro labels s a s' ih hstep
  rw [hstep.filePath_eq file, ih]

/-- The exporter is what the acts make of it. -/
lemma run_exporter (hrun : Run ExportStep init acts s) :
    s.exporter = acts.foldl (fun exporter act => act.exporter exporter) init.exporter := by
  induction hrun with
  | nil => rfl
  | snoc _ hstep ih => rw [List.foldl_concat, hstep.exporter_eq, ih]

/-- Acts that spare a file leave it as it was. -/
lemma run_spared (hrun : Run ExportStep init acts s) (hspares : ∀ act ∈ acts, act.Spares file) :
    s.disk (init.exporter.filePath file) = init.disk (init.exporter.filePath file) := by
  induction hrun with
  | nil => rfl
  | @snoc labels s s' act hbefore hstep ih =>
    rw [List.forall_mem_append, List.forall_mem_singleton] at hspares
    have hpath := run_filePath hbefore file
    have hkept := hstep.spared hspares.2
    rw [hpath] at hkept
    rw [hkept]
    exact ih hspares.1

lemma ExportStep.legible (h : ExportStep s act s') (hact : act.Legible)
    (hs : ∀ p ∈ s.exporter.heartbeatPoints, p.Legible) :
    ∀ p ∈ s'.exporter.heartbeatPoints, p.Legible := by
  rw [h.exporter_eq]
  cases act with
  | finished call result =>
    cases call with
    | exportPoints points => exact hs
    | heartbeat points => exact List.forall_mem_append.mpr ⟨hs, hact _ rfl⟩
  | killed call settings => exact List.forall_mem_nil _
  | restarted settings => exact List.forall_mem_nil _

/-- The points that a process has collected are legible. -/
lemma run_legible (hrun : Run ExportStep init acts s) (hacts : ∀ act ∈ acts, act.Legible)
    (hinit : ∀ p ∈ init.exporter.heartbeatPoints, p.Legible) :
    ∀ p ∈ s.exporter.heartbeatPoints, p.Legible := by
  induction hrun with
  | nil => exact hinit
  | snoc _ hstep ih =>
    rw [List.forall_mem_append, List.forall_mem_singleton] at hacts
    exact hstep.legible hacts.2 (ih hacts.1)

lemma legible_documentPoints {exporter : OtelJsonExporter} {call : ExporterCall}
    (hexporter : ∀ p ∈ exporter.heartbeatPoints, p.Legible) (hcall : ∀ p ∈ call.points, p.Legible) :
    ∀ p ∈ exporter.documentPoints call, p.Legible := by
  cases call with
  | exportPoints points => exact hcall
  | heartbeat points => exact List.forall_mem_append.mpr ⟨hexporter, hcall⟩

omit [Runtime] in
/-- The document of a call. -/
lemma document_eq_ok {exporter : OtelJsonExporter} {call : ExporterCall} {payload : Json}
    (h : exporter.document call = .ok payload) :
    assertAllowed (exporter.documentPoints call) = .ok () ∧
      payload = toOtlp exporter.settings (exporter.documentPoints call) := by
  obtain ⟨u, hallowed, hpayload⟩ := bind_eq_ok h
  cases hpayload
  exact ⟨hallowed, rfl⟩

/-- Of the text of a call, only the whole can be read. -/
lemma read_beginning {exporter : OtelJsonExporter} {call : ExporterCall} {part : List Char}
    {v : Json}
    (hpart : part <+: written (exporter.documentText call)) (hread : loads part = .ok v)
    (hlegible : ∀ p ∈ exporter.documentPoints call, p.Legible) :
    exporter.document call = .ok v ∧ render v = .ok part := by
  cases htext : exporter.documentText call with
  | error e =>
    rw [htext] at hpart
    rw [List.prefix_nil.mp hpart] at hread
    cases hread
  | ok text =>
    rw [htext] at hpart
    obtain ⟨payload, hpayload, hrender⟩ := bind_eq_ok htext
    obtain ⟨-, heq⟩ := document_eq_ok hpayload
    have hfaithful : Faithful payload := heq ▸ faithful_toOtlp exporter.settings hlegible
    have hshape : Enclosed payload := by
      rw [heq]
      trivial
    obtain ⟨rfl, rfl⟩ := loads_cut hshape hfaithful hrender hpart hread
    exact ⟨hpayload, hrender⟩

/-- A call that returned has left its document in the file. -/
lemma ExportStep.finished_ok {call : ExporterCall} {payload : Json}
    (h : ExportStep s (.finished call (.ok payload)) s') :
    s.exporter.document call = .ok payload ∧ ∃ text, render payload = .ok text ∧
      s'.disk (s.exporter.filePath call.file) = some (.file text) := by
  cases h with
  | finished h =>
    have hguards := Program.guards_iff.mp (s.exporter.guards_program _ s.disk) _ _ h
    exact hguards.2 _ rfl payload rfl

/-- What can be read from a file after an act was there before, or is the document of the
act. -/
lemma ExportStep.read (h : ExportStep s act s')
    (hs : ∀ p ∈ s.exporter.heartbeatPoints, p.Legible) (hact : act.Legible) {text : List Char}
    {v : Json} (hfile : s'.disk (s.exporter.filePath file) = some (.file text))
    (hread : loads text = .ok v) :
    (∃ call, act.call = some call ∧ call.file = file ∧ s.exporter.document call = .ok v ∧
        render v = .ok text) ∨
      s.disk (s.exporter.filePath file) = some (.file text) ∧ ¬ act.Returned file := by
  by_cases hreturned : act.Returned file
  · obtain ⟨call, payload, rfl, rfl⟩ := hreturned
    obtain ⟨hdocument, cs, hrender, hwritten⟩ := h.finished_ok
    rw [hwritten, Option.some.injEq, Entry.file.injEq] at hfile
    subst hfile
    have hbeginning : cs <+: written (s.exporter.documentText call) := by
      rw [OtelJsonExporter.documentText, hdocument]
      show cs <+: written (render payload)
      rw [hrender]
      exact List.prefix_rfl
    obtain ⟨hdocument', hrender'⟩ := read_beginning hbeginning hread
      (legible_documentPoints hs (hact call rfl))
    exact Or.inl ⟨call, rfl, rfl, hdocument', hrender'⟩
  · rcases h.torn with hdisk | ⟨call, hcall, htorn⟩
    · rw [hdisk] at hfile
      exact Or.inr ⟨hfile, hreturned⟩
    · by_cases hsame : call.file = file
      · subst hsame
        rcases htorn.here with hhere | ⟨part, hpart, hhere⟩
        · exact Or.inr ⟨hhere.symm.trans hfile, hreturned⟩
        · have heq : part = text := by
            have hboth := hhere.symm.trans hfile
            rw [Option.some.injEq, Entry.file.injEq] at hboth
            exact hboth
          subst heq
          have hbeginning := read_beginning hpart hread
            (legible_documentPoints hs (hact call hcall))
          exact Or.inl ⟨call, hcall, rfl, hbeginning⟩
      · rw [torn_other htorn hsame] at hfile
        exact Or.inr ⟨hfile, hreturned⟩

/-- The text is the document of one of the calls, and no call that returned later has replaced
it. -/
def WrittenBy (init : ExportState) (acts : List ExportAct) (file : ExportFile) (text : List Char)
    (v : Json) : Prop :=
  ∃ before act after t call, acts = before ++ act :: after ∧ Run ExportStep init before t ∧
    act.call = some call ∧ call.file = file ∧ t.exporter.document call = .ok v ∧
    render v = .ok text ∧ ∀ later ∈ after, ¬ later.Returned file

/-- Whoever can read one of the files reads the whole document of a call, and of none that a
returned call has replaced; or what was there before all calls. -/
theorem read_export_whole (hrun : Run ExportStep init acts s) (hacts : ∀ act ∈ acts, act.Legible)
    (hinit : ∀ p ∈ init.exporter.heartbeatPoints, p.Legible) {text : List Char} {v : Json}
    (hfile : s.disk (init.exporter.filePath file) = some (.file text))
    (hread : loads text = .ok v) :
    WrittenBy init acts file text v ∨
      init.disk (init.exporter.filePath file) = some (.file text) ∧
        ∀ act ∈ acts, ¬ act.Returned file := by
  induction hrun with
  | nil => exact Or.inr ⟨hfile, List.forall_mem_nil _⟩
  | @snoc labels s s' act hbefore hstep ih =>
    rw [List.forall_mem_append, List.forall_mem_singleton] at hacts
    have hpath := run_filePath hbefore file
    rw [← hpath] at hfile
    rcases hstep.read (run_legible hbefore hacts.1 hinit) hacts.2 hfile hread with
      ⟨call, hcall, hsame, hdocument, hrender⟩ | ⟨hkept, hreturned⟩
    · exact Or.inl ⟨labels, act, [], s, call, rfl, hbefore, hcall, hsame, hdocument, hrender,
        List.forall_mem_nil _⟩
    · rw [hpath] at hkept
      rcases ih hacts.1 hkept with ⟨before, a, after, t, call, rfl, hrun, hcall, hsame, hdocument,
        hrender, hafter⟩ | ⟨hstart, hnone⟩
      · refine Or.inl ⟨before, a, after ++ [act], t, call, by simp, hrun, hcall, hsame, hdocument,
          hrender, ?_⟩
        exact List.forall_mem_append.mpr ⟨hafter, List.forall_mem_singleton.mpr hreturned⟩
      · refine Or.inr ⟨hstart, ?_⟩
        exact List.forall_mem_append.mpr ⟨hnone, List.forall_mem_singleton.mpr hreturned⟩

end

/-! ### On a disk that takes everything -/

/-- An interpreter that knows the text of one float. -/
@[reducible] def Runtime.halving : Runtime :=
  { Runtime.ascii with
    reprText := fun
      | .float (.finite q) => if q = 1 / 2 then .ok "0.5" else .error .typeError
      | _ => .error .typeError
    floatOfText := fun s => if s = "0.5" then some (.finite (1 / 2)) else none }

def sampleExporter : OtelJsonExporter := ⟨["out"], "metrics.json", sampleSettings, []⟩

/-- A point with an integer and one with a float. -/
def sampleBatch : List MetricPoint :=
  [counter "gateway.pipeline.malformed_records" 3 .empty,
    gauge "gateway.pipeline.clock_skew_seconds" (1 / 2) "s"]

def sampleStart : ExportState := ⟨fun _ => none, sampleExporter⟩

def samplePayload : Json := toOtlp sampleSettings sampleBatch

section
variable [Runtime]

/-- A call whose document has a text writes it. -/
lemma program_of_render {exporter : OtelJsonExporter} {call : ExporterCall} {payload : Json}
    {text : List Char} (hdocument : exporter.document call = .ok payload)
    (hrender : render payload = .ok text) :
    exporter.program call = (writeDocument exporter.directory
      (exporter.fileName call.file) (.ok text)).andThen fun _ => pure (.ok payload) := by
  cases call with
  | exportPoints points =>
    replace hdocument : buildPayload exporter.settings points = .ok payload := hdocument
    simp only [OtelJsonExporter.program, OtelJsonExporter.exportPoints, hdocument, hrender]
    rfl
  | heartbeat points =>
    replace hdocument : buildPayload (exporter.extended points).settings
      (exporter.extended points).heartbeatPoints = .ok payload := hdocument
    simp only [OtelJsonExporter.program, OtelJsonExporter.writeHeartbeats, hdocument, hrender]
    rfl

/-- A call whose document has a text returns, and its file can be read. -/
lemma finished_of_render {exporter : OtelJsonExporter} {call : ExporterCall} {payload : Json}
    {text : List Char} {disk : Disk} (hdocument : exporter.document call = .ok payload)
    (hrender : render payload = .ok text) (hpassable : Passable disk exporter.directory)
    (hpath : disk (exporter.filePath call.file) ≠ some .directory) :
    ∃ disk', ExportStep ⟨disk, exporter⟩ (.finished call (.ok payload))
      ⟨disk', exporter.after call⟩ := by
  obtain ⟨t, ht⟩ := outcome_writeDocument text hpassable hpath
  have hrun : Program.Interrupted OutputAnswers (exporter.program call) disk
      (.done ((exporter.program call).result spacious disk))
      ((exporter.program call).final spacious disk) :=
    Program.interrupted_run spacious spacious_answers _ _
  have houtcome : (exporter.program call).outcome spacious disk = (.ok payload, t) := by
    rw [program_of_render hdocument hrender]
    exact Program.outcome_andThen ht _
  obtain ⟨hresult, hfinal⟩ := Prod.ext_iff.mp houtcome
  replace hresult : (exporter.program call).result spacious disk = .ok payload := hresult
  rw [hresult] at hrun
  exact ⟨_, .finished hrun⟩

/-- A process that is killed between making the directory and opening the file. -/
lemma killed_of_render {exporter : OtelJsonExporter} {call : ExporterCall} {payload : Json}
    {text : List Char} (disk : Disk) (settings : OtlpSettings)
    (hdocument : exporter.document call = .ok payload) (hrender : render payload = .ok text) :
    ExportStep ⟨disk, exporter⟩ (.killed call settings)
      ⟨(spacious (.makedirs exporter.directory) disk).2, exporter.restarted settings⟩ := by
  apply ExportStep.killed
  rw [program_of_render hdocument hrender]
  exact .step (spacious_answers (.makedirs exporter.directory) disk) (.refl _ _)

omit [Runtime] in
/-- Making the directory leaves the file in it alone. -/
lemma filePath_makedirs (exporter : OtelJsonExporter) (file : ExportFile) (disk : Disk) :
    (spacious (.makedirs exporter.directory) disk).2 (exporter.filePath file) =
      disk (exporter.filePath file) := by
  have hbelow : ¬ exporter.filePath file <+: exporter.directory := by
    intro h
    have hlength := h.length_le
    rw [OtelJsonExporter.filePath, List.length_append, List.length_singleton] at hlength
    omega
  by_cases hpassable : Passable disk exporter.directory
  · simp only [spacious, if_pos hpassable, if_neg hbelow]
  · simp only [spacious, if_neg hpassable]

end

lemma half_legible :
    letI := Runtime.halving
    JsonText.Legible (.finite (1 / 2)) := by
  let := Runtime.halving
  intro q hq s hs
  cases hq
  have htext : (if (1 / 2 : ℚ) = 1 / 2 then .ok "0.5" else .error .typeError) =
      (.ok s : Except PyErr String) := hs
  rw [if_pos rfl] at htext
  cases htext
  have hhalf : Digits ['5'] := ⟨by simp, by simp⟩
  have hzero : Digits ['0'] := ⟨by simp, by simp⟩
  refine ⟨⟨⟨[], ['0'], ['.', '5'], [], Or.inl rfl, hzero, fun _ => rfl,
    Or.inr ⟨['5'], rfl, hhalf⟩, Or.inl rfl⟩, Or.inl (by simp), by simp [Numeral.text]⟩, if_pos rfl⟩

lemma sampleBatch_legible :
    letI := Runtime.halving
    ∀ p ∈ sampleBatch, p.Legible := by
  let := Runtime.halving
  intro p hp x hx
  rcases List.mem_pair.mp hp with rfl | rfl
  · cases hx
  · rw [show x = .finite (1 / 2) from List.mem_singleton.mp hx]
    exact half_legible

lemma sampleBatch_allowed : buildPayload sampleSettings sampleBatch = .ok samplePayload := by
  have hallowed : assertAllowed sampleBatch = .ok () := by decide +kernel
  exact buildPayload_of_allowed hallowed

lemma sampleCall_document {call : ExporterCall} (hcall : call.points = sampleBatch) :
    sampleExporter.document call = .ok samplePayload := by
  cases call with
  | exportPoints points =>
    cases hcall
    exact sampleBatch_allowed
  | heartbeat points =>
    cases hcall
    exact sampleBatch_allowed

lemma samplePayload_rendered :
    letI := Runtime.halving
    ∃ text, render samplePayload = .ok text := by
  let := Runtime.halving
  have hok : (render samplePayload).isOk = true := by decide +kernel
  cases hrender : render samplePayload with
  | error e =>
    rw [hrender] at hok
    cases hok
  | ok text => exact ⟨text, rfl⟩

/-- An export and a heartbeat of the same points. -/
lemma sampleCall_finished (call : ExporterCall) (hcall : call.points = sampleBatch) :
    letI := Runtime.halving
    ∃ disk, ExportStep sampleStart (.finished call (.ok samplePayload))
      ⟨disk, sampleExporter.after call⟩ := by
  let := Runtime.halving
  obtain ⟨text, hrender⟩ := samplePayload_rendered
  exact finished_of_render (sampleCall_document hcall) hrender (fun path _ => Or.inl rfl)
    (fun h => by cases h)

/-- One export returns, and the next one is killed before it opens the file. -/
def sampleActs : List ExportAct :=
  [.finished (.exportPoints sampleBatch) (.ok samplePayload),
    .killed (.exportPoints sampleBatch) sampleSettings]

theorem read_export_whole_sample :
    letI := Runtime.halving
    ∃ s text v, Run ExportStep sampleStart sampleActs s ∧
      s.disk (sampleExporter.filePath .main) = some (.file text) ∧ loads text = .ok v ∧
      WrittenBy sampleStart sampleActs .main text v := by
  let := Runtime.halving
  obtain ⟨disk, hstep⟩ := sampleCall_finished (.exportPoints sampleBatch) rfl
  obtain ⟨-, text, hrender, hfile⟩ := hstep.finished_ok
  have hdocument : sampleExporter.document (.exportPoints sampleBatch) = .ok samplePayload :=
    sampleCall_document rfl
  have hkill := killed_of_render disk sampleSettings hdocument hrender
  have hkept := filePath_makedirs sampleExporter .main disk
  have hread : loads text = .ok samplePayload :=
    loads_dumps (faithful_toOtlp sampleSettings sampleBatch_legible) hrender
  have hlegible : ∀ act ∈ sampleActs, act.Legible := by
    rw [sampleActs, List.forall_mem_cons, List.forall_mem_singleton]
    constructor
    · intro call hcall
      cases hcall
      exact sampleBatch_legible
    · intro call hcall
      cases hcall
      exact sampleBatch_legible
  have hrun : Run ExportStep sampleStart sampleActs _ := (Run.nil.snoc hstep).snoc hkill
  have hnow := hkept.trans hfile
  refine ⟨_, text, samplePayload, hrun, hnow, hread, ?_⟩
  rcases read_export_whole hrun hlegible (List.forall_mem_nil _) hnow hread with hwritten | hold
  · exact hwritten
  · cases hold.1

section
variable [Runtime]

variable {init s s' : ExportState} {act : ExportAct} {acts : List ExportAct} {file : ExportFile}

/-- What a call has written when it returns stays until the next call that writes the same
file, whatever happens to the processes in between: the points of an export, or those of all
heartbeats of the process. -/
theorem returned_export_kept {before after : List ExportAct} {call : ExporterCall} {payload : Json}
    (hrun : Run ExportStep init (before ++ .finished call (.ok payload) :: after) s)
    (hacts : ∀ act ∈ before ++ [.finished call (.ok payload)], act.Legible)
    (hinit : ∀ p ∈ init.exporter.heartbeatPoints, p.Legible)
    (hafter : ∀ act ∈ after, act.Spares call.file) {points : List MetricPoint}
    (hpoints : points = (before.foldl (fun exporter act => act.exporter exporter)
      init.exporter).documentPoints call) (hshaped : ∀ p ∈ points, Decode.Shaped p) :
    ∃ text, s.disk (init.exporter.filePath call.file) = some (.file text) ∧
      loads text = .ok payload ∧ Decode.document payload =
        some (points.map MetricPoint.decoded) := by
  obtain ⟨t, hbefore, hrest⟩ := hrun.split
  obtain ⟨t', hcall, hlater⟩ : ∃ t', ExportStep t (.finished call (.ok payload)) t' ∧
      Run ExportStep t' after s := by
    rw [← List.singleton_append] at hrest
    obtain ⟨t', hone, hlater⟩ := hrest.split
    exact ⟨t', hone.one, hlater⟩
  rw [List.forall_mem_append, List.forall_mem_singleton] at hacts
  rw [← run_exporter hbefore] at hpoints
  obtain ⟨hdocument, text, hrender, hfile⟩ := hcall.finished_ok
  obtain ⟨-, hpayload⟩ := document_eq_ok hdocument
  rw [← hpoints] at hpayload
  have hlegible : ∀ p ∈ points, p.Legible := by
    rw [hpoints]
    exact legible_documentPoints (run_legible hbefore hacts.1 hinit) (hacts.2 call rfl)
  refine ⟨text, ?_, ?_, ?_⟩
  · have hkept := run_spared hlater hafter
    rw [hcall.filePath_eq, run_filePath hbefore] at hkept
    rw [hkept, ← run_filePath hbefore]
    exact hfile
  · exact loads_dumps (hpayload ▸ faithful_toOtlp t.exporter.settings hlegible) hrender
  · rw [hpayload]
    exact Decode.document_toOtlp t.exporter.settings hshaped

omit [Runtime] in
lemma assertAllowed_append {points more : List MetricPoint}
    (h : assertAllowed (points ++ more) = .ok ()) :
    assertAllowed points = .ok () ∧ assertAllowed more = .ok () := by
  induction points with
  | nil => exact ⟨rfl, h⟩
  | cons p ps ih =>
    obtain ⟨u, hp, hrest⟩ := bind_eq_ok h
    obtain ⟨hps, hmore⟩ := ih hrest
    refine ⟨?_, hmore⟩
    show (assertPoint p >>= fun _ => ps.forM assertPoint) = .ok ()
    rw [hp]
    exact hps

/-- A heartbeat over points that are not allowed raises and leaves the disk alone. -/
lemma ExportStep.refused {points : List MetricPoint} {result : Except PyErr Json}
    (h : ExportStep s (.finished (.heartbeat points) result) s')
    (hpoints : assertAllowed (s.exporter.heartbeatPoints ++ points) ≠ .ok ()) :
    s'.disk = s.disk ∧ ∃ e, result = .error e := by
  cases hdocument : s.exporter.document (.heartbeat points) with
  | ok payload => exact absurd (document_eq_ok hdocument).1 hpoints
  | error e =>
    cases h with
    | finished h =>
      rw [OtelJsonExporter.program_refused hdocument] at h
      cases h with
      | refl => exact ⟨rfl, e, rfl⟩

/-- While a process lives, points that are not allowed stay among its heartbeats. -/
lemma run_refused (hrun : Run ExportStep init acts s)
    (hacts : ∀ act ∈ acts, ∃ call result, act = .finished call result)
    (hinit : assertAllowed init.exporter.heartbeatPoints ≠ .ok ()) :
    assertAllowed s.exporter.heartbeatPoints ≠ .ok () ∧
      s.disk (init.exporter.filePath .heartbeat) = init.disk (init.exporter.filePath .heartbeat) ∧
      ∀ points r, .finished (.heartbeat points) r ∈ acts → ∃ e, r = .error e := by
  induction hrun with
  | nil => exact ⟨hinit, rfl, fun points r h => absurd h List.not_mem_nil⟩
  | @snoc labels s s' act hbefore hstep ih =>
    rw [List.forall_mem_append, List.forall_mem_singleton] at hacts
    obtain ⟨hbad, hkept, herrors⟩ := ih hacts.1
    obtain ⟨call, result, rfl⟩ := hacts.2
    have hexporter := hstep.exporter_eq
    cases call with
    | exportPoints points =>
      have hspares : (ExportAct.finished (.exportPoints points) result).Spares .heartbeat := by
        intro call hcall
        cases hcall
        exact ExportFile.noConfusion
      have hspared := hstep.spared hspares
      rw [run_filePath hbefore] at hspared
      refine ⟨hexporter ▸ hbad, hspared.trans hkept, fun ps r hmem => ?_⟩
      rcases List.mem_append.mp hmem with hmem | hmem
      · exact herrors ps r hmem
      · cases List.mem_singleton.mp hmem
    | heartbeat points =>
      have hmore : assertAllowed (s.exporter.heartbeatPoints ++ points) ≠ .ok () :=
        fun h => hbad (assertAllowed_append h).1
      obtain ⟨hdisk, e, hresult⟩ := hstep.refused hmore
      refine ⟨hexporter ▸ hmore, (congrFun hdisk _).trans hkept, fun ps r hmem => ?_⟩
      rcases List.mem_append.mp hmem with hmem | hmem
      · exact herrors ps r hmem
      · cases List.mem_singleton.mp hmem
        exact ⟨e, hresult⟩

/-- One heartbeat whose points are not allowed silences its process: neither this nor a
later heartbeat of the process is written. -/
theorem heartbeats_silenced {before after : List ExportAct} {bad : List MetricPoint}
    {result : Except PyErr Json}
    (hrun : Run ExportStep init (before ++ .finished (.heartbeat bad) result :: after) s)
    (hbad : assertAllowed bad ≠ .ok ())
    (hafter : ∀ act ∈ after, ∃ call result, act = .finished call result) :
    (∀ points r, .finished (.heartbeat points) r ∈ .finished (.heartbeat bad) result :: after →
      ∃ e, r = .error e) ∧
    ∃ t, Run ExportStep init before t ∧ s.disk (init.exporter.filePath .heartbeat) =
      t.disk (init.exporter.filePath .heartbeat) := by
  obtain ⟨t, hbefore, hrest⟩ := hrun.split
  rw [← List.singleton_append] at hrest
  obtain ⟨t', hcall, hlater⟩ := hrest.split
  have hstep := hcall.one
  have hmore : assertAllowed (t.exporter.heartbeatPoints ++ bad) ≠ .ok () :=
    fun h => hbad (assertAllowed_append h).2
  obtain ⟨hdisk, e, hresult⟩ := hstep.refused hmore
  have hpoints : assertAllowed t'.exporter.heartbeatPoints ≠ .ok () := by
    rw [hstep.exporter_eq]
    exact hmore
  obtain ⟨-, hkept, herrors⟩ := run_refused hlater hafter hpoints
  refine ⟨fun points r hmem => ?_, t, hbefore, ?_⟩
  · rcases List.mem_cons.mp hmem with heq | hmem
    · cases heq
      exact ⟨e, hresult⟩
    · exact herrors points r hmem
  · rw [hstep.filePath_eq, run_filePath hbefore] at hkept
    rw [hkept, hdisk]

end

theorem returned_export_kept_sample :
    letI := Runtime.halving
    ∃ s text, Run ExportStep sampleStart [.finished (.heartbeat sampleBatch) (.ok samplePayload),
        .restarted sampleSettings] s ∧
      s.disk (sampleExporter.filePath .heartbeat) = some (.file text) ∧
      loads text = .ok samplePayload ∧
      Decode.document samplePayload = some (sampleBatch.map MetricPoint.decoded) := by
  let := Runtime.halving
  obtain ⟨disk, hstep⟩ := sampleCall_finished (.heartbeat sampleBatch) rfl
  have hrun : Run ExportStep sampleStart
      ([] ++ .finished (.heartbeat sampleBatch) (.ok samplePayload) :: [.restarted sampleSettings])
      ⟨disk, _⟩ := (Run.nil.snoc hstep).snoc ExportStep.restarted
  have hlegible : ∀ act ∈ [] ++ [ExportAct.finished (.heartbeat sampleBatch) (.ok samplePayload)],
      act.Legible := by
    rw [List.nil_append, List.forall_mem_singleton]
    intro call hcall
    cases hcall
    exact sampleBatch_legible
  have hspares : ∀ act ∈ [ExportAct.restarted sampleSettings], act.Spares .heartbeat := by
    rw [List.forall_mem_singleton]
    intro call hcall
    cases hcall
  have hshaped : ∀ p ∈ sampleBatch, Decode.Shaped p := by
    rw [sampleBatch, List.forall_mem_cons, List.forall_mem_singleton]
    constructor
    · intro h
      cases h
    · intro h
      cases h
  obtain ⟨text, hfile, hread, hdecoded⟩ := returned_export_kept hrun hlegible
    (List.forall_mem_nil _) hspares rfl hshaped
  exact ⟨_, text, hrun, hfile, hread, hdecoded⟩

/-- A counter that no registry knows. -/
def unregistered : List MetricPoint := [counter "gateway.unknown" 1 .empty]

theorem heartbeats_silenced_sample :
    letI := Runtime.ascii
    ∃ s t, Run ExportStep sampleStart [.finished (.heartbeat unregistered) (.error .valueError),
        .finished (.heartbeat sampleBatch) (.error .valueError)] s ∧
      Run ExportStep sampleStart [] t ∧ s.disk (sampleExporter.filePath .heartbeat) =
        t.disk (sampleExporter.filePath .heartbeat) := by
  let := Runtime.ascii
  have hbad : assertAllowed unregistered ≠ .ok () := by decide +kernel
  have hrefused : ∀ exporter : OtelJsonExporter, ∀ points,
      assertAllowed (exporter.heartbeatPoints ++ points) = .error .valueError →
        ExportStep ⟨fun _ => none, exporter⟩ (.finished (.heartbeat points) (.error .valueError))
          ⟨fun _ => none, exporter.extended points⟩ := by
    intro exporter points herror
    have hdocument : exporter.document (.heartbeat points) = .error .valueError := by
      rw [OtelJsonExporter.document, buildPayload, OtelJsonExporter.documentPoints, herror]
      rfl
    apply ExportStep.finished
    rw [OtelJsonExporter.program_refused hdocument]
    exact .refl _ _
  have hfirst := hrefused sampleExporter unregistered (by decide +kernel)
  have hsecond := hrefused (sampleExporter.extended unregistered) sampleBatch (by decide +kernel)
  have hrun := (Run.nil.snoc hfirst).snoc hsecond
  have hafter : ∀ act ∈ [ExportAct.finished (.heartbeat sampleBatch) (.error .valueError)],
      ∃ call result, act = .finished call result := by
    rw [List.forall_mem_singleton]
    exact ⟨_, _, rfl⟩
  obtain ⟨-, t, hbefore, hdisk⟩ := @heartbeats_silenced _ sampleStart _ [] _ _ _ hrun hbad hafter
  exact ⟨_, t, hrun, hbefore, hdisk⟩

end InferenceControlPlane.Sli

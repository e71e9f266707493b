import InferenceControlPlane.Procedures
import InferenceControlPlane.Python.Values
import Mathlib.Logic.Function.Basic

/-!
# The clients of a process

A process holds its engine, its Redis client and its HTTP client in globals. They are made when a
lifespan starts and none is held, and closed when it ends. Whatever fails, what is open is what
the globals hold. The libraries are instrumented one by one, and only when all of them are does
the process take note of it: a configuration that fails halfway is made again by the next
lifespan.
-/
namespace InferenceControlPlane.Gateway
open Python Program Procedure

/-- The three clients of a process, which the globals `_engine`, `_redis_client` and
`_shared_client` hold between start and shutdown. -/
inductive Client where
  | engine
  | redis
  | http
  deriving DecidableEq

/-- What outlives a lifespan in its process: the clients that the globals hold, by handle, and the
flag `_is_instrumented`. -/
structure ProcessState where
  held : Client → Option ℕ
  instrumented : Bool

/-- A process before its first lifespan: no client, no tracing, and nothing instrumented. -/
def ProcessState.initial : ProcessState := ⟨fun _ => none, false⟩

def ProcessState.hold (s : ProcessState) (client : Client) (handle : Option ℕ) : ProcessState :=
  { s with held := Function.update s.held client handle }

lemma held_hold (s : ProcessState) (client c : Client) (handle : Option ℕ) :
    (s.hold client handle).held c = if c = client then handle else s.held c := by
  by_cases h : c = client
  · simp [ProcessState.hold, h]
  · simp [ProcessState.hold, h]

/-- The four libraries that tracing instruments, by one call each, in this order. -/
inductive Library where
  | fastApi
  | httpx
  | redis
  | sqlAlchemy
  deriving DecidableEq

/-- The calls of a lifespan; SQLAlchemy is instrumented for an engine. -/
inductive LifespanOp where
  | create (client : Client)
  | close (client : Client) (handle : ℕ)
  | seed (engine : ℕ)
  | setTracerProvider
  | instrument (library : Library)
  | instrumentEngine (engine : ℕ)
  | serve
  | shutdownTracing

@[reducible] def LifespanOp.Reply : LifespanOp → Type
  | create _ => Except PyErr ℕ
  | _ => Except PyErr Unit

abbrev ProcessCoroutine (α : Type) : Type :=
  Procedure ProcessState LifespanOp LifespanOp.Reply PyErr α

/-! ## Opening and closing -/

/-- `init_engine`, `init_redis` and `init_http_client`: a client of the kind is created, unless
the process has one. -/
def initClient (client : Client) : ProcessCoroutine Unit := fun s =>
  match s.held client with
  | some _ => .done (.ok (), s)
  | none => .call (.create client) fun
    | .ok handle => .done (.ok (), s.hold client (some handle))
    | .error e => .done (.error e, s)

/-- `dispose_engine`, `close_redis` and `close_http_client`: the client of the kind is forgotten
once its close has returned. -/
def closeClient (client : Client) : ProcessCoroutine Unit := fun s =>
  match s.held client with
  | none => .done (.ok (), s)
  | some handle => .call (.close client handle) fun
    | .ok () => .done (.ok (), s.hold client none)
    | .error e => .done (.error e, s)

def initEngine : ProcessCoroutine Unit := initClient .engine
def initRedis : ProcessCoroutine Unit := initClient .redis
def initHttpClient : ProcessCoroutine Unit := initClient .http
def disposeEngine : ProcessCoroutine Unit := closeClient .engine
def closeRedis : ProcessCoroutine Unit := closeClient .redis
def closeHttpClient : ProcessCoroutine Unit := closeClient .http

/-- `get_engine`; `get_session_factory` gives the factory bound to the engine. -/
def getEngine : ProcessCoroutine ℕ := fun s =>
  match s.held .engine with
  | some engine => .done (.ok engine, s)
  | none => .done (.error (.raised "RuntimeError"), s)

/-- `SQLAlchemyInstrumentor().instrument(engine=…)`, after which the tracing is configured. -/
def instrumentEngine (engine : ℕ) : ProcessCoroutine Unit := fun s =>
  .call (.instrumentEngine engine) fun
    | .ok () => .done (.ok (), { s with instrumented := true })
    | .error e => .done (.error e, s)

/-- The body of `configure_tracing`: the provider is made and set, and the libraries are
instrumented one after the other. -/
def traceLibraries (engine : ℕ) : ProcessCoroutine Unit := do
  ask .setTracerProvider id
  ask (.instrument .fastApi) id
  ask (.instrument .httpx) id
  ask (.instrument .redis) id
  instrumentEngine engine

/-- `configure_tracing`: the provider is set and the libraries are instrumented one after another,
and only then the flag is set that keeps the next lifespan from doing it again. -/
def configureTracing (engine : ℕ) : ProcessCoroutine Unit := fun s =>
  if s.instrumented then .done (.ok (), s) else traceLibraries engine s

/-- What a lifespan does before it yields: the clients are created and the tracing is configured,
in the order of the source. -/
def startUp : ProcessCoroutine Unit := do
  initEngine
  ask (.seed (← getEngine)) id
  initRedis
  configureTracing (← getEngine)
  initHttpClient

/-- What a lifespan does at its end: the clients are closed one after another, and the tracing is
shut down last. -/
def shutDown : ProcessCoroutine Unit := do
  closeHttpClient
  closeRedis
  disposeEngine
  ask .shutdownTracing id

/-- `lifespan`: what the application does before it serves and after it, whichever of the calls
raises. -/
def lifespan : ProcessCoroutine Unit := do
  startUp
  tryFinally (ask .serve id) shutDown

/-- A process that goes through lifespans, one after the other, whatever they raise. -/
def lifespans : ℕ → ProcessState →
    Program LifespanOp LifespanOp.Reply (List (Except PyErr Unit) × ProcessState)
  | 0, s => .done ([], s)
  | n + 1, s => do
    let (outcomes, s) ← lifespans n s
    let (outcome, s) ← lifespan s
    return (outcomes ++ [outcome], s)

/-! ## The life of the clients -/

/-- A client is created when none of its kind is held, and only what is held is closed; an engine
is used while it is held, requests are served while all clients are, and tracing is configured
until it has succeeded, and shut down when no client is held. -/
inductive ProcessStep :
    ProcessState → Event LifespanOp LifespanOp.Reply → ProcessState → Prop
  | created {s : ProcessState} {client : Client} (handle : ℕ) (h : s.held client = none) :
      ProcessStep s ⟨.create client, .ok handle⟩ (s.hold client (some handle))
  | notCreated {s : ProcessState} {client : Client} (e : PyErr) (h : s.held client = none) :
      ProcessStep s ⟨.create client, .error e⟩ s
  | closed {s : ProcessState} {client : Client} {handle : ℕ} (h : s.held client = some handle) :
      ProcessStep s ⟨.close client handle, .ok ()⟩ (s.hold client none)
  | notClosed {s : ProcessState} {client : Client} {handle : ℕ} (e : PyErr)
      (h : s.held client = some handle) : ProcessStep s ⟨.close client handle, .error e⟩ s
  | seeded {s : ProcessState} {engine : ℕ} (reply : Except PyErr Unit)
      (h : s.held .engine = some engine) : ProcessStep s ⟨.seed engine, reply⟩ s
  | provided {s : ProcessState} (reply : Except PyErr Unit) (h : s.instrumented = false) :
      ProcessStep s ⟨.setTracerProvider, reply⟩ s
  | instrumented {s : ProcessState} {library : Library} (reply : Except PyErr Unit)
      (h : s.instrumented = false) : ProcessStep s ⟨.instrument library, reply⟩ s
  | traced {s : ProcessState} {engine : ℕ} (h : s.held .engine = some engine)
      (hfirst : s.instrumented = false) :
      ProcessStep s ⟨.instrumentEngine engine, .ok ()⟩ { s with instrumented := true }
  | notTraced {s : ProcessState} {engine : ℕ} (e : PyErr) (h : s.held .engine = some engine)
      (hfirst : s.instrumented = false) : ProcessStep s ⟨.instrumentEngine engine, .error e⟩ s
  | served {s : ProcessState} (reply : Except PyErr Unit) (h : ∀ client, s.held client ≠ none) :
      ProcessStep s ⟨.serve, reply⟩ s
  | shutDown {s : ProcessState} (reply : Except PyErr Unit) (h : ∀ client, s.held client = none) :
      ProcessStep s ⟨.shutdownTracing, reply⟩ s

/-! ## What the procedures do -/

def Holds (clients : List Client) (s : ProcessState) : Prop := ∀ c ∈ clients, s.held c ≠ none

def Lacks (clients : List Client) (s : ProcessState) : Prop := ∀ c ∈ clients, s.held c = none

/-- What is true of what is held stays so when one more client is put in its place. -/
lemma forall_hold (P : Option ℕ → Prop) {clients : List Client} {s : ProcessState}
    (h : ∀ c ∈ clients, P (s.held c)) (client : Client) {handle : Option ℕ} (hhandle : P handle) :
    ∀ c ∈ client :: clients, P ((s.hold client handle).held c) := by
  intro c hc
  rw [held_hold]
  split_ifs with hsame
  · exact hhandle
  · exact h c ((List.mem_cons.mp hc).resolve_left hsame)

lemma Holds.hold {clients : List Client} {s : ProcessState} (h : Holds clients s) (client : Client)
    (handle : ℕ) : Holds (client :: clients) (s.hold client (some handle)) :=
  forall_hold (· ≠ none) h client (Option.some_ne_none handle)

lemma Lacks.hold {clients : List Client} {s : ProcessState} (h : Lacks clients s)
    (client : Client) : Lacks (client :: clients) (s.hold client none) :=
  forall_hold (· = none) h client rfl

/-- A triple of a procedure that may raise in any state. -/
def Does {α : Type} (pre : ProcessState → Prop) (x : ProcessCoroutine α)
    (post : α → ProcessState → Prop) : Prop :=
  Triple ProcessStep pre x post fun _ _ => True

lemma does_initClient (clients : List Client) (client : Client) :
    Does (Holds clients) (initClient client) fun _ => Holds (client :: clients) := by
  intro s hholds
  unfold initClient
  cases hheld : s.held client with
  | some handle =>
    exact ⟨.nil, .returned (List.forall_mem_cons.mpr ⟨by simp [hheld], hholds⟩)⟩
  | none =>
    intro reply
    cases reply with
    | ok handle => exact ⟨Run.nil.snoc (.created handle hheld), .returned (hholds.hold _ _)⟩
    | error e => exact ⟨Run.nil.snoc (.notCreated e hheld), .raised trivial⟩

lemma does_closeClient (clients : List Client) (client : Client) :
    Does (Lacks clients) (closeClient client) fun _ => Lacks (client :: clients) := by
  intro s hlacks
  unfold closeClient
  cases hheld : s.held client with
  | none => exact ⟨.nil, .returned (List.forall_mem_cons.mpr ⟨hheld, hlacks⟩)⟩
  | some handle =>
    intro reply
    cases reply with
    | ok u => exact ⟨Run.nil.snoc (.closed hheld), .returned (hlacks.hold _)⟩
    | error e => exact ⟨Run.nil.snoc (.notClosed e hheld), .raised trivial⟩

lemma does_getEngine (clients : List Client) :
    Does (Holds clients) getEngine
      fun engine s => Holds clients s ∧ s.held .engine = some engine := by
  intro s hholds
  unfold getEngine
  cases hheld : s.held .engine with
  | some engine => exact ⟨.nil, .returned ⟨hholds, hheld⟩⟩
  | none => exact ⟨.nil, .raised trivial⟩

lemma ends_ask {post : Unit → ProcessState → Prop} {raises : PyErr → ProcessState → Prop}
    (reply : Except PyErr Unit) {s : ProcessState} (hpost : post () s) (hraises : ∀ e, raises e s) :
    Ends post raises (id reply, s) := by
  cases reply with
  | ok u => exact .returned hpost
  | error e => exact .raised (hraises e)

/-- While the tracing is not configured and the engine is held. -/
def Configuring (clients : List Client) (engine : ℕ) (s : ProcessState) : Prop :=
  Holds clients s ∧ s.held .engine = some engine ∧ s.instrumented = false

lemma does_instrumentEngine (clients : List Client) (engine : ℕ) :
    Does (Configuring clients engine) (instrumentEngine engine) fun _ => Holds clients := by
  intro s hpre reply
  obtain ⟨hholds, hengine, hfirst⟩ := hpre
  cases reply with
  | ok u => exact ⟨Run.nil.snoc (.traced hengine hfirst), .returned hholds⟩
  | error e => exact ⟨Run.nil.snoc (.notTraced e hengine hfirst), .raised trivial⟩

lemma does_traceLibraries (clients : List Client) (engine : ℕ) :
    Does (Configuring clients engine) (traceLibraries engine) fun _ => Holds clients := by
  have hprovider : Does (Configuring clients engine) (ask .setTracerProvider id)
      fun _ => Configuring clients engine :=
    triple_ask (fun s reply h => .provided reply h.2.2)
      fun s reply h => ends_ask reply h fun _ => trivial
  have hlibrary : ∀ library, Does (Configuring clients engine) (ask (.instrument library) id)
      fun _ => Configuring clients engine :=
    fun library => triple_ask (fun s reply h => .instrumented reply h.2.2)
      fun s reply h => ends_ask reply h fun _ => trivial
  refine hprovider.bind fun _ => (hlibrary .fastApi).bind fun _ => ?_
  refine (hlibrary .httpx).bind fun _ => (hlibrary .redis).bind fun _ => ?_
  exact does_instrumentEngine clients engine

lemma does_configureTracing (clients : List Client) (engine : ℕ) :
    Does (fun s => Holds clients s ∧ s.held .engine = some engine) (configureTracing engine)
      fun _ => Holds clients := by
  intro s hpre
  unfold configureTracing
  cases hfirst : s.instrumented with
  | true => exact ⟨.nil, .returned hpre.1⟩
  | false => exact does_traceLibraries clients engine s ⟨hpre.1, hpre.2, hfirst⟩

lemma does_startUp :
    Does (fun _ => True) startUp fun _ => Holds [.http, .redis, .engine] := by
  have hstart : Does (fun _ => True) initEngine fun _ => Holds [.engine] :=
    (does_initClient [] .engine).mono (fun _ _ c hc => by cases hc) (fun _ _ h => h) fun _ _ h => h
  refine hstart.bind fun _ => (does_getEngine _).bind fun engine => ?_
  have hseed : Does (fun s => Holds [.engine] s ∧ s.held .engine = some engine)
      (ask (.seed engine) id) fun _ => Holds [.engine] :=
    triple_ask (fun s reply h => .seeded reply h.2)
      fun s reply h => ends_ask reply h.1 fun _ => trivial
  refine hseed.bind fun _ => (does_initClient _ .redis).bind fun _ => ?_
  refine (does_getEngine _).bind fun engine => (does_configureTracing _ engine).bind fun _ => ?_
  exact does_initClient _ .http

lemma does_shutDown :
    Does (fun _ => True) shutDown fun _ => Lacks [.engine, .redis, .http] := by
  have hstart : Does (fun _ => True) closeHttpClient fun _ => Lacks [.http] :=
    (does_closeClient [] .http).mono (fun _ _ c hc => by cases hc) (fun _ _ h => h) fun _ _ h => h
  refine hstart.bind fun _ => (does_closeClient _ .redis).bind fun _ => ?_
  refine (does_closeClient _ .engine).bind fun _ => triple_ask (fun s reply h => ?_)
    fun s reply h => ends_ask reply h fun _ => trivial
  exact .shutDown reply fun client => h client (by cases client <;> simp)

/-- A lifespan that returns has closed everything; a lifespan that raises may not have. -/
lemma does_lifespan :
    Does (fun _ => True) lifespan fun _ s => ∀ client, s.held client = none := by
  refine does_startUp.bind fun _ => ?_
  have hserve : Does (Holds [.http, .redis, .engine]) (ask .serve id) fun _ _ => True :=
    triple_ask (fun s reply h => .served reply fun client => h client (by cases client <;> simp))
      fun s reply h => ends_ask reply trivial fun _ => trivial
  refine hserve.finally (fun _ => ?_) fun _ => ?_
  · exact does_shutDown.mono (fun _ h => h)
      (fun _ s h client => h client (by cases client <;> simp)) fun _ _ h => h
  · exact does_shutDown.mono (fun _ h => h) (fun _ _ _ => trivial) fun _ _ h => h

/-! ## What is open -/

/-- The clients of a kind that are open, after one more call: a client is open from the call that
created it to a call that closed it and returned. One whose closing raised counts as open, since
its global still holds it, whatever has become of its connections. -/
def track (client : Client) (handles : List ℕ) :
    Event LifespanOp LifespanOp.Reply → List ℕ
  | ⟨.create c, .ok handle⟩ => if c = client then handle :: handles else handles
  | ⟨.close c handle, .ok ()⟩ => if c = client then handles.erase handle else handles
  | _ => handles

/-- The clients of a kind that the calls have created and not closed. -/
def openAfter (client : Client) (events : List (Event LifespanOp LifespanOp.Reply)) : List ℕ :=
  events.foldl (track client) []

lemma track_step {s s' : ProcessState} {event : Event LifespanOp LifespanOp.Reply}
    (h : ProcessStep s event s') (client : Client) :
    track client (s.held client).toList event = (s'.held client).toList := by
  cases h with
  | @created c handle hnone =>
    rw [held_hold]
    by_cases hc : client = c
    · subst hc
      simp [track, hnone]
    · simp [track, hc, Ne.symm hc]
  | @closed c handle hheld =>
    rw [held_hold]
    by_cases hc : client = c
    · subst hc
      simp [track, hheld]
    · simp [track, hc, Ne.symm hc]
  | notCreated e hnone => rfl
  | notClosed e hheld => rfl
  | seeded reply hengine => rfl
  | provided reply hfirst => rfl
  | instrumented reply hfirst => rfl
  | traced hengine hfirst => rfl
  | notTraced e hengine hfirst => rfl
  | served reply hall => rfl
  | shutDown reply hnone => rfl

section Runs
variable {events : List (Event LifespanOp LifespanOp.Reply)} {s : ProcessState}

/-- What is open is what the globals hold. -/
theorem open_eq_held (hrun : Run ProcessStep .initial events s) (client : Client) :
    openAfter client events = (s.held client).toList := by
  induction hrun with
  | nil => rfl
  | snoc _ hstep ih =>
    rw [openAfter, List.foldl_append]
    show track client (openAfter client _) _ = _
    rw [ih]
    exact track_step hstep client

end Runs

/-- Lifespans in a row are one run of the process; after one that returned, nothing is held. -/
lemma lifespans_ensures (n : ℕ) : (lifespans n .initial).Ensures fun events outcome =>
    Run ProcessStep .initial events outcome.2 ∧
      (outcome.1.getLast? = some (.ok ()) → ∀ client, outcome.2.held client = none) := by
  induction n with
  | zero => exact ⟨.nil, fun h => by cases h⟩
  | succ n ih =>
    refine Ensures.bind ih fun events outcome h => ?_
    obtain ⟨outcomes, s⟩ := outcome
    refine Ensures.bind (does_lifespan s trivial) fun rest result hrest => ?_
    obtain ⟨hrun, hends⟩ := hrest
    obtain ⟨outcome, s'⟩ := result
    simp only [pure_eq, ensures_done, List.append_nil]
    refine ⟨h.1.append hrun, fun hlast => ?_⟩
    rw [List.getLast?_concat] at hlast
    cases hlast
    cases hends with
    | returned hnone => exact hnone

/-! ## What is instrumented -/

/-- The calls that instrumented a library: a library that is instrumented twice reports each span
twice. -/
def instruments (library : Library) : Event LifespanOp LifespanOp.Reply → Bool
  | ⟨.instrument l, .ok ()⟩ => l = library
  | ⟨.instrumentEngine _, .ok ()⟩ => library = .sqlAlchemy
  | _ => false

/-- The calls with which a configuration of the tracing failed, after which the next lifespan
begins it anew. -/
def tracingFails : Event LifespanOp LifespanOp.Reply → Bool
  | ⟨.setTracerProvider, .error _⟩ => true
  | ⟨.instrument _, .error _⟩ => true
  | ⟨.instrumentEngine _, .error _⟩ => true
  | _ => false

/-- Every library is instrumented at most once for each configuration that failed, and once
more when the process takes note of it. -/
def Instruments (s : ProcessState) (events : List (Event LifespanOp LifespanOp.Reply))
    (s' : ProcessState) : Prop :=
  ∀ library, events.countP (instruments library) + s.instrumented.toNat ≤
    events.countP tracingFails + s'.instrumented.toNat

lemma Instruments.trans {s s' s'' : ProcessState}
    {before after : List (Event LifespanOp LifespanOp.Reply)} (hbefore : Instruments s before s')
    (hafter : Instruments s' after s'') : Instruments s (before ++ after) s'' := by
  intro library
  have h := hbefore library
  have h' := hafter library
  rw [List.countP_append, List.countP_append]
  omega

lemma instruments_same {s s' : ProcessState} {events : List (Event LifespanOp LifespanOp.Reply)}
    (hnone : ∀ library, events.countP (instruments library) = 0)
    (hsame : s'.instrumented = s.instrumented) : Instruments s events s' := by
  intro library
  rw [hnone library, hsame]
  omega

/-- A configuration that fails has instrumented a library once at most. -/
lemma instruments_failed {s : ProcessState} {events : List (Event LifespanOp LifespanOp.Reply)}
    (honce : ∀ library, events.countP (instruments library) ≤ 1)
    (hfailed : events.countP tracingFails = 1) : Instruments s events s := by
  intro library
  have h := honce library
  omega

lemma keeps_initClient (client : Client) : Keeps Instruments (initClient client) := by
  intro s
  unfold initClient
  cases s.held client with
  | some handle => exact instruments_same (fun _ => rfl) rfl
  | none =>
    intro reply
    cases reply with
    | ok handle => exact instruments_same (fun _ => rfl) rfl
    | error e => exact instruments_same (fun _ => rfl) rfl

lemma keeps_closeClient (client : Client) : Keeps Instruments (closeClient client) := by
  intro s
  unfold closeClient
  cases s.held client with
  | none => exact instruments_same (fun _ => rfl) rfl
  | some handle =>
    intro reply
    cases reply with
    | ok u => exact instruments_same (fun _ => rfl) rfl
    | error e => exact instruments_same (fun _ => rfl) rfl

lemma keeps_getEngine : Keeps Instruments getEngine := by
  intro s
  unfold getEngine
  cases s.held .engine with
  | some engine => exact instruments_same (fun _ => rfl) rfl
  | none => exact instruments_same (fun _ => rfl) rfl

/-- A configuration fails with one call, wherever it stands, or is noted. -/
lemma keeps_configureTracing (engine : ℕ) : Keeps Instruments (configureTracing engine) := by
  intro s
  unfold configureTracing
  cases hfirst : s.instrumented with
  | true => exact instruments_same (fun _ => rfl) rfl
  | false =>
    intro provided
    cases provided with
    | error e =>
      show Instruments s [⟨.setTracerProvider, .error e⟩] s
      exact instruments_failed (fun library => by simp [instruments]) rfl
    | ok u =>
      intro fastApi
      cases fastApi with
      | error e =>
        show Instruments s [⟨.setTracerProvider, .ok u⟩, ⟨.instrument .fastApi, .error e⟩] s
        exact instruments_failed (fun library => by simp [instruments]) rfl
      | ok u₁ =>
        intro httpx
        cases httpx with
        | error e =>
          show Instruments s [⟨.setTracerProvider, .ok u⟩, ⟨.instrument .fastApi, .ok u₁⟩,
            ⟨.instrument .httpx, .error e⟩] s
          exact instruments_failed (fun library => by cases library <;> simp [instruments]) rfl
        | ok u₂ =>
          intro redis
          cases redis with
          | error e =>
            show Instruments s [⟨.setTracerProvider, .ok u⟩, ⟨.instrument .fastApi, .ok u₁⟩,
              ⟨.instrument .httpx, .ok u₂⟩, ⟨.instrument .redis, .error e⟩] s
            exact instruments_failed (fun library => by cases library <;> simp [instruments]) rfl
          | ok u₃ =>
            intro sqlAlchemy
            cases sqlAlchemy with
            | error e =>
              show Instruments s [⟨.setTracerProvider, .ok u⟩, ⟨.instrument .fastApi, .ok u₁⟩,
                ⟨.instrument .httpx, .ok u₂⟩, ⟨.instrument .redis, .ok u₃⟩,
                ⟨.instrumentEngine engine, .error e⟩] s
              exact instruments_failed (fun library => by cases library <;> simp [instruments]) rfl
            | ok u₄ =>
              intro library
              cases library <;> simp [hfirst, instruments]

lemma keeps_startUp : Keeps Instruments startUp := by
  refine (keeps_initClient .engine).bind Instruments.trans fun _ => ?_
  refine keeps_getEngine.bind Instruments.trans fun engine => ?_
  have hseed : Keeps Instruments (ask (.seed engine) id) :=
    keeps_ask fun s r => instruments_same (fun _ => rfl) rfl
  refine hseed.bind Instruments.trans fun _ => ?_
  refine (keeps_initClient .redis).bind Instruments.trans fun _ => ?_
  refine keeps_getEngine.bind Instruments.trans fun engine => ?_
  refine (keeps_configureTracing engine).bind Instruments.trans fun _ => ?_
  exact keeps_initClient .http

lemma keeps_shutDown : Keeps Instruments shutDown := by
  refine (keeps_closeClient .http).bind Instruments.trans fun _ => ?_
  refine (keeps_closeClient .redis).bind Instruments.trans fun _ => ?_
  refine (keeps_closeClient .engine).bind Instruments.trans fun _ => ?_
  exact keeps_ask fun s r => instruments_same (fun _ => rfl) rfl

lemma keeps_lifespan : Keeps Instruments lifespan := by
  refine keeps_startUp.bind Instruments.trans fun _ => ?_
  have hserve : Keeps Instruments (ask .serve id) :=
    keeps_ask fun s r => instruments_same (fun _ => rfl) rfl
  exact hserve.finally Instruments.trans keeps_shutDown

/-- Lifespans in a row instrument as one would. -/
lemma lifespans_instruments (n : ℕ) : (lifespans n .initial).Ensures fun events outcome =>
    Instruments .initial events outcome.2 := by
  induction n with
  | zero => exact fun _ => le_rfl
  | succ n ih =>
    refine Ensures.bind ih fun events outcome h => ?_
    obtain ⟨outcomes, s⟩ := outcome
    refine Ensures.bind (keeps_lifespan s) fun rest result hrest => ?_
    obtain ⟨outcome, s'⟩ := result
    simp only [pure_eq, ensures_done, List.append_nil]
    exact h.trans hrest

/-- Over any number of lifespans of a process, whatever fails in them: at no moment is more than
one client of a kind open, one of each is while requests are served, and what is open is what
the globals hold. After a lifespan that returned nothing is open. A library is instrumented at
most once, and once more for every configuration of the tracing that failed. -/
theorem clients_accounted (n : ℕ) : (lifespans n .initial).Ensures fun events outcome =>
    (∀ before after, events = before ++ after → ∀ client, (openAfter client before).length ≤ 1) ∧
    (∀ before reply after, events = before ++ ⟨.serve, reply⟩ :: after →
      ∀ client, (openAfter client before).length = 1) ∧
    (∀ client, openAfter client events = (outcome.2.held client).toList) ∧
    (outcome.1.getLast? = some (.ok ()) → ∀ client, openAfter client events = []) ∧
    ∀ library, events.countP (instruments library) ≤ 1 + events.countP tracingFails := by
  refine ((lifespans_ensures n).and (lifespans_instruments n)).mono fun events outcome h => ?_
  obtain ⟨⟨hrun, hlast⟩, htraced⟩ := h
  refine ⟨?_, ?_, open_eq_held hrun, ?_, ?_⟩
  · intro before after hsplit client
    rw [hsplit] at hrun
    obtain ⟨s, hbefore, -⟩ := hrun.split
    rw [open_eq_held hbefore]
    cases s.held client with
    | none => exact Nat.zero_le 1
    | some handle => exact le_rfl
  · intro before reply after hsplit client
    rw [hsplit] at hrun
    obtain ⟨s, s', hbefore, hstep⟩ := hrun.step_of_append
    rw [open_eq_held hbefore]
    cases hstep with
    | served reply hall =>
      obtain ⟨handle, hheld⟩ := Option.ne_none_iff_exists'.mp (hall client)
      rw [hheld]
      rfl
  · intro hreturned client
    rw [open_eq_held hrun, hlast hreturned client]
    rfl
  · intro library
    have hcount := htraced library
    have hnoted : outcome.2.instrumented.toNat ≤ 1 := Bool.toNat_le _
    omega

end InferenceControlPlane.Gateway

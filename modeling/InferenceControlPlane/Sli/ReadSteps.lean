import InferenceControlPlane.Sli.CompleteReads

/-!
# A read, call by call

One step of a read is one call of the transport and what follows it up to the next call.
The steps make up `iter_records`, each consumes a part of a bounded measure, and between
any two of them the counters agree with what the read has done.
-/
namespace InferenceControlPlane.Sli
open Python

/-! ## States between two calls -/

/-- The loop that waits for a page: the first fetch, the cursors with those seen so far, or the
numbers with their total. -/
inductive Loop where
  | first
  | cursors (cursor : String) (seenCursors : List String)
  | numbered (total : Option ℤ) (page : ℕ)

/-- The page that is asked for. -/
def Loop.ref : Loop → PageRef
  | first => .page 1
  | cursors cursor _ => .cursor cursor
  | numbered _ page => .page (page + 1)

/-- Where a read stands: it is about to call the transport, for one of its loops and at one of its
attempts, or it has ended. -/
inductive Control where
  | calling (loop : Loop) (attempt : ℕ)
  | ended (failure : Option SourceErr)

/-- What a read does, in order. -/
inductive ReadEvent where
  | fetch (ref : PageRef)
  | call (reply : Reply)
  | page (p : Page)

def ReadEvent.isFetch : ReadEvent → Bool
  | fetch _ => true
  | _ => false

def ReadEvent.isCall : ReadEvent → Bool
  | call _ => true
  | _ => false

def ReadEvent.isPage : ReadEvent → Bool
  | page _ => true
  | _ => false

/-- Every call of the transport returns a response. -/
def Http.Answers {τ : Type} (http : Http τ) : Prop :=
  ∀ net req, ∃ reply net', http.send net req = (.ok reply, net')

structure Reading (τ : Type) where
  control : Control
  state : ReadState τ
  records : List Fields
  events : List ReadEvent

namespace Reading
variable {τ : Type}

def stop (m : Reading τ) (failure : Option SourceErr) : Reading τ :=
  { m with control := .ended failure }

/-- The call of the transport that has returned. -/
def answered (m : Reading τ) (net : τ) (reply : Reply) : Reading τ :=
  { m with state := m.state.answered net reply, events := m.events ++ [.call reply] }

@[simp] lemma state_answered (m : Reading τ) (net : τ) (reply : Reply) :
    (m.answered net reply).state = m.state.answered net reply := rfl

@[simp] lemma records_answered (m : Reading τ) (net : τ) (reply : Reply) :
    (m.answered net reply).records = m.records := rfl

def yield (m : Reading τ) (data : List Fields) : Reading τ :=
  { m with records := m.records ++ data }

/-- The page fetches that called the transport. -/
def fetches (m : Reading τ) : ℕ := m.events.countP ReadEvent.isFetch

/-- The calls of the transport. -/
def calls (m : Reading τ) : ℕ := m.events.countP ReadEvent.isCall

/-- The pages that passed the checks. -/
def validated (m : Reading τ) : ℕ := m.events.countP ReadEvent.isPage

end Reading

section
variable [Runtime]

namespace LangfuseApiTraceSource
variable {τ : Type}

omit [Runtime] in
/-- The fetch of a page, up to its first call. -/
def enter (src : LangfuseApiTraceSource) (loop : Loop) (m : Reading τ) : Reading τ :=
  if src.maxPages ≤ m.state.stats.pages then m.stop (some src.limitError)
  else { m with control := .calling loop 0, events := m.events ++ [.fetch loop.ref] }

omit [Runtime] in
/-- The condition of the page loop, and the fetch that follows. -/
def enterPages (src : LangfuseApiTraceSource) (total : Option ℤ) (page : ℕ)
    (previous : List Fields) (m : Reading τ) : Reading τ :=
  if src.hasNext total page previous then src.enter (.numbered total page) m else m.stop none

/-- The loop body after a page has been fetched. -/
def turn (src : LangfuseApiTraceSource) (page : Page) (m : Reading τ) : Loop → Reading τ
  | .first =>
    match cursorOf page.metaInfo with
    | .error e => (m.yield page.data).stop (some (.escaped e))
    | .ok (some cursor) => src.enter (.cursors cursor [cursor]) (m.yield page.data)
    | .ok none =>
      match totalPages page.metaInfo with
      | .error e => (m.yield page.data).stop (some e)
      | .ok (some 0) => (m.yield page.data).stop none
      | .ok total => src.enterPages total 1 page.data (m.yield page.data)
  | .cursors _ seenCursors =>
    match cursorOf page.metaInfo with
    | .error e => m.stop (some (.escaped e))
    | .ok none => (m.yield page.data).stop none
    | .ok (some next) =>
      if page.data = [] then
        m.stop (some (.incomplete "empty page supplied a continuation cursor"))
      else if next ∈ seenCursors then
        (m.yield page.data).stop (some (.incomplete "pagination cursor repeated"))
      else src.enter (.cursors next (next :: seenCursors)) (m.yield page.data)
  | .numbered total n =>
    match cursorOf page.metaInfo with
    | .error e => m.stop (some (.escaped e))
    | .ok (some _) =>
      m.stop (some (.incomplete "pagination mode changed from page to cursor"))
    | .ok none =>
      if page.data = [] then m.stop none
      else src.enterPages total (n + 1) page.data (m.yield page.data)

omit [Runtime] in
/-- The counters after a page that passed the checks. -/
def accepted (page : Page) (st : ReadState τ) : ReadState τ :=
  { st with
    stats := { st.stats with pages := st.stats.pages + 1 }
    seenSignatures := if page.data = [] then st.seenSignatures
      else page.signature :: st.seenSignatures }

/-- What a response that is not retried leads to. -/
def settle (src : LangfuseApiTraceSource) (loop : Loop) (reply : Reply) (m : Reading τ) :
    Reading τ :=
  if isSuccess reply.status then
    match decode reply.text with
    | .error e => m.stop (some e)
    | .ok body =>
      match checkPage body m.state.seenSignatures with
      | .error e => m.stop (some e)
      | .ok page =>
        src.turn page { m with
          state := accepted page m.state
          events := m.events ++ [.page page] } loop
  else m.stop (some (.api reply.status reply.text))

/-- The wait before the next attempt. -/
def wait (src : LangfuseApiTraceSource) (http : Http τ) (reply : Reply) (attempt : ℕ)
    (st : ReadState τ) : Except SourceErr Unit × ReadState τ :=
  match src.retryAfter reply.retryAfter attempt with
  | .error e => (.error (.escaped e), st)
  | .ok delay =>
    match http.sleep st.net delay with
    | (.error e, net) => (.error (.escaped e), { st with net })
    | (.ok _, net) => (.ok (), { st with net })

/-- One call of the transport. -/
def step (src : LangfuseApiTraceSource) (http : Http τ) (m : Reading τ) : Reading τ :=
  match m.control with
  | .ended _ => m
  | .calling loop attempt =>
    match http.send m.state.net (src.request loop.ref) with
    | (.error e, net) => { m with state := { m.state with net } }.stop (some (.escaped e))
    | (.ok reply, net) =>
      let m := m.answered net reply
      if isTransient reply.status && (attempt : ℤ) < src.maxRetries then
        match src.wait http reply attempt m.state.retried with
        | (.error e, st) => { m with state := st }.stop (some e)
        | (.ok _, st) => { m with state := st, control := .calling loop (attempt + 1) }
      else src.settle loop reply m

omit [Runtime] in
/-- A read before its first call. -/
def start (src : LangfuseApiTraceSource) (st : ReadState τ) : Reading τ :=
  src.enter .first
    ⟨.ended none,
      { st with seenSignatures := [], stats := { st.stats with pages := 0 } }, [], []⟩

/-! ## The steps make up the read -/

omit [Runtime] in
theorem yieldFrom_append (first second : List Fields) (it : Iteration τ) :
    it.yieldFrom (first ++ second) = (it.yieldFrom second).yieldFrom first := by
  simp only [Iteration.yieldFrom, List.append_assoc]

omit [Runtime] in
@[simp] lemma yieldFrom_nil (it : Iteration τ) : it.yieldFrom [] = it := rfl

/-- The part of `_fetch_page` that follows the request: shape and signature of the page, before it
counts as accepted. -/
def check (result : Except SourceErr Fields × ReadState τ) :
    Except SourceErr Page × ReadState τ :=
  match result with
  | (.error e, st) => (.error e, st)
  | (.ok body, st) =>
    match checkPage body st.seenSignatures with
    | .error e => (.error e, st)
    | .ok page => (.ok page, accepted page st)

/-- The rest of an iteration, from a page that has been fetched. -/
def afterPage (src : LangfuseApiTraceSource) (http : Http τ) (page : Page) (st : ReadState τ) :
    Loop → Iteration τ
  | .first => .yieldFrom page.data <|
    match cursorOf page.metaInfo with
    | .error e => ⟨[], some (.escaped e), st⟩
    | .ok (some cursor) => src.iterCursorPages http (src.budget st) cursor [cursor] st
    | .ok none => src.iterNumberedPages http page.data page.metaInfo st
  | .cursors _ seenCursors =>
    match cursorOf page.metaInfo with
    | .error e => ⟨[], some (.escaped e), st⟩
    | .ok none => ⟨page.data, none, st⟩
    | .ok (some next) =>
      if page.data = [] then
        ⟨[], some (.incomplete "empty page supplied a continuation cursor"), st⟩
      else if next ∈ seenCursors then
        ⟨page.data, some (.incomplete "pagination cursor repeated"), st⟩
      else .yieldFrom page.data
        (src.iterCursorPages http (src.budget st) next (next :: seenCursors) st)
  | .numbered total n =>
    match cursorOf page.metaInfo with
    | .error e => ⟨[], some (.escaped e), st⟩
    | .ok (some _) =>
      ⟨[], some (.incomplete "pagination mode changed from page to cursor"), st⟩
    | .ok none =>
      if page.data = [] then ⟨[], none, st⟩
      else .yieldFrom page.data
        (src.pageLoop http total (src.budget st) (n + 1) page.data st)

/-- The rest of an iteration, from the end of a fetch. -/
def resume (src : LangfuseApiTraceSource) (http : Http τ) (loop : Loop)
    (result : Except SourceErr Page × ReadState τ) : Iteration τ :=
  match result with
  | (.error e, st) => ⟨[], some e, st⟩
  | (.ok page, st) => src.afterPage http page st loop

/-- What the code does from a state between two calls. -/
def finish (src : LangfuseApiTraceSource) (http : Http τ) (m : Reading τ) : Iteration τ :=
  match m.control with
  | .ended failure => ⟨m.records, failure, m.state⟩
  | .calling loop attempt => .yieldFrom m.records <| src.resume http loop <|
      check (src.get http (src.request loop.ref) (src.maxRetries + 1 - attempt).toNat attempt
        m.state)

variable {src : LangfuseApiTraceSource} {http : Http τ}

/-- A request leaves the page count alone. -/
lemma get_pages (src : LangfuseApiTraceSource) (http : Http τ) (req : Request)
    (attempts attempt : ℕ) (st : ReadState τ) :
    (src.get http req attempts attempt st).2.stats.pages = st.stats.pages := by
  induction attempts generalizing attempt st with
  | zero => rfl
  | succ attempts ih =>
    rw [get]
    split
    · rfl
    · dsimp only
      split_ifs
      · split
        · rfl
        · split
          · rfl
          · exact ih _ _
      · rfl
      · rfl

/-- A fetch within the page limit is the request and the checks. -/
lemma fetchPage_eq (ref : PageRef) (st : ReadState τ) (h : st.stats.pages < src.maxPages) :
    src.fetchPage http ref st =
      ((check (src.get http (src.request ref) (src.maxRetries + 1).toNat 0 st)).1.map
        (fun page => (page.data, page.metaInfo)),
      (check (src.get http (src.request ref) (src.maxRetries + 1).toNat 0 st)).2) := by
  rw [fetchPage, if_neg (not_le.mpr h)]
  obtain ⟨result, st'⟩ := src.get http (src.request ref) (src.maxRetries + 1).toNat 0 st
  cases result with
  | error e => rfl
  | ok body =>
    simp only [check]
    cases checkPage body st'.seenSignatures with
    | error e => rfl
    | ok page => rfl

lemma check_pages {result : Except SourceErr Fields × ReadState τ} {page : Page}
    {st : ReadState τ} (h : check result = (.ok page, st)) :
    st.stats.pages = result.2.stats.pages + 1 := by
  obtain ⟨body, st'⟩ := result
  unfold check at h
  cases body with
  | error e => cases h
  | ok body =>
    dsimp only at h
    split at h
    · cases h
    · cases h
      rfl

omit [Runtime] in
/-- Each page uses up one unit of the budget. -/
lemma budget_succ {st st' : ReadState τ} (h : st.stats.pages < src.maxPages)
    (hpages : st'.stats.pages = st.stats.pages + 1) : src.budget st = src.budget st' + 1 := by
  simp only [budget, hpages]
  omega

lemma budget_of_fetch {req : Request} {attempts : ℕ} {st st' : ReadState τ} {page : Page}
    (h : st.stats.pages < src.maxPages)
    (hcheck : check (src.get http req attempts 0 st) = (.ok page, st')) :
    src.budget st = src.budget st' + 1 := by
  refine budget_succ h ((check_pages hcheck).trans ?_)
  rw [get_pages]

omit [Runtime] in
lemma budget_eq_zero {st : ReadState τ} (h : src.maxPages ≤ st.stats.pages) :
    src.budget st = 0 := by
  simp only [budget]
  omega

omit [Runtime] in
lemma exists_budget {st : ReadState τ} (h : st.stats.pages < src.maxPages) :
    ∃ n, src.budget st = n + 1 :=
  ⟨src.budget st - 1, by simp only [budget]; omega⟩

/-- A fetch beyond the page limit ends the read. -/
lemma finish_enter_of_le {m : Reading τ} (loop : Loop) (h : src.maxPages ≤ m.state.stats.pages) :
    src.finish http (src.enter loop m) =
      ⟨m.records, some src.limitError, m.state⟩ := by
  rw [enter, if_pos h]
  rfl

/-- Any other one is the request, the checks and what follows them. -/
lemma finish_enter_of_lt {m : Reading τ} (loop : Loop) (h : m.state.stats.pages < src.maxPages) :
    src.finish http (src.enter loop m) = .yieldFrom m.records (src.resume http loop
      (check (src.get http (src.request loop.ref) (src.maxRetries + 1).toNat 0 m.state))) := by
  rw [enter, if_neg (not_le.mpr h)]
  simp only [finish, Nat.cast_zero, sub_zero]

theorem finish_enter_cursors (cursor : String) (seenCursors : List String) (m : Reading τ) :
    src.finish http (src.enter (.cursors cursor seenCursors) m) =
      .yieldFrom m.records
        (src.iterCursorPages http (src.budget m.state) cursor seenCursors m.state) := by
  rcases le_or_gt src.maxPages m.state.stats.pages with hle | hlt
  · rw [finish_enter_of_le _ hle, budget_eq_zero hle, iterCursorPages]
    simp only [Iteration.yieldFrom, List.append_nil]
  · obtain ⟨n, hn⟩ := exists_budget hlt
    rw [finish_enter_of_lt _ hlt, hn, iterCursorPages, fetchPage_eq _ _ hlt]
    congr 1
    cases hcheck : check (src.get http (src.request (.cursor cursor)) (src.maxRetries + 1).toNat 0
      m.state) with
    | mk page st =>
      simp only [Loop.ref, hcheck]
      cases page with
      | error e => rfl
      | ok page =>
        have hbudget := budget_of_fetch hlt hcheck
        obtain rfl : n = src.budget st := by omega
        rfl

theorem finish_enterPages (total : Option ℤ) (page : ℕ) (previous : List Fields)
    (m : Reading τ) :
    src.finish http (src.enterPages total page previous m) =
      .yieldFrom m.records
        (src.pageLoop http total (src.budget m.state) page previous m.state) := by
  rw [enterPages, pageLoop.eq_def]
  dsimp only
  by_cases hnext : src.hasNext total page previous = true
  · rw [if_pos hnext, if_pos hnext]
    rcases le_or_gt src.maxPages m.state.stats.pages with hle | hlt
    · rw [finish_enter_of_le _ hle, budget_eq_zero hle]
      simp only [Iteration.yieldFrom, List.append_nil]
    · obtain ⟨n, hn⟩ := exists_budget hlt
      rw [finish_enter_of_lt _ hlt, hn]
      dsimp only
      rw [fetchPage_eq _ _ hlt]
      congr 1
      cases hcheck : check (src.get http (src.request (.page (page + 1)))
        (src.maxRetries + 1).toNat 0 m.state) with
      | mk fetched st =>
        simp only [Loop.ref, hcheck]
        cases fetched with
        | error e => rfl
        | ok fetched =>
          have hbudget := budget_of_fetch hlt hcheck
          obtain rfl : n = src.budget st := by omega
          rfl
  · rw [if_neg hnext, if_neg hnext]
    simp only [finish, Reading.stop, Iteration.yieldFrom, List.append_nil]

@[simp] lemma finish_stop (m : Reading τ) (failure : Option SourceErr) :
    src.finish http (m.stop failure) = ⟨m.records, failure, m.state⟩ := rfl

theorem finish_turn (page : Page) (m : Reading τ) (loop : Loop) :
    src.finish http (src.turn page m loop) =
      .yieldFrom m.records (src.afterPage http page m.state loop) := by
  cases loop with
  | first =>
    rw [turn, afterPage, ← yieldFrom_append]
    cases cursorOf page.metaInfo with
    | error e => simp [Reading.yield, Iteration.yieldFrom]
    | ok cursor =>
      cases cursor with
      | some cursor => exact finish_enter_cursors _ _ _
      | none =>
        dsimp only
        cases htotal : totalPages page.metaInfo with
        | error e => simp [iterNumberedPages, htotal, Reading.yield, Iteration.yieldFrom]
        | ok total =>
          by_cases hzero : total = some 0
          · simp [iterNumberedPages, htotal, hzero, Reading.yield, Iteration.yieldFrom]
          · simp only [iterNumberedPages_eq htotal hzero]
            exact finish_enterPages _ _ _ _
  | cursors cursor seenCursors =>
    rw [turn, afterPage]
    cases cursorOf page.metaInfo with
    | error e => simp [Iteration.yieldFrom]
    | ok next =>
      cases next with
      | none => simp [Reading.yield, Iteration.yieldFrom]
      | some next =>
        dsimp only
        split_ifs
        · simp [Iteration.yieldFrom]
        · simp [Reading.yield, Iteration.yieldFrom]
        · rw [finish_enter_cursors, ← yieldFrom_append]
          rfl
  | numbered total n =>
    rw [turn, afterPage]
    cases cursorOf page.metaInfo with
    | error e => simp [Iteration.yieldFrom]
    | ok next =>
      cases next with
      | some next => simp [Iteration.yieldFrom]
      | none =>
        dsimp only
        split_ifs
        · simp [Iteration.yieldFrom]
        · rw [finish_enterPages, ← yieldFrom_append]
          rfl

theorem finish_settle (loop : Loop) (reply : Reply) (m : Reading τ) :
    src.finish http (src.settle loop reply m) =
      .yieldFrom m.records (src.resume http loop (check
        (if isSuccess reply.status then (decode reply.text, m.state)
          else (.error (.api reply.status reply.text), m.state)))) := by
  rw [settle]
  split_ifs
  · cases decode reply.text with
    | error e => simp [check, resume, Iteration.yieldFrom]
    | ok body =>
      simp only [check]
      cases checkPage body m.state.seenSignatures with
      | error e => simp [resume, Iteration.yieldFrom]
      | ok page => exact finish_turn _ _ _
  · simp [check, resume, Iteration.yieldFrom]

/-- A pending attempt is one that the retry limit allows. -/
def Allowed (src : LangfuseApiTraceSource) (m : Reading τ) : Prop :=
  ∀ loop attempt, m.control = .calling loop attempt → (attempt : ℤ) ≤ src.maxRetries

/-- A step leaves the rest of the read as it is. -/
theorem finish_step (m : Reading τ) (hallowed : src.Allowed m) :
    src.finish http (src.step http m) = src.finish http m := by
  rw [step]
  cases hcontrol : m.control with
  | ended failure => rfl
  | calling loop attempt =>
    have hattempt := hallowed loop attempt hcontrol
    obtain ⟨n, hn⟩ : ∃ n : ℕ, (src.maxRetries + 1 - attempt).toNat = n + 1 :=
      ⟨(src.maxRetries - attempt).toNat, by omega⟩
    have hnext : (src.maxRetries + 1 - (attempt + 1 : ℕ)).toNat = n := by omega
    rw [finish.eq_def (m := m), hcontrol]
    dsimp only
    rw [hn, get]
    cases http.send m.state.net (src.request loop.ref) with
    | mk result net =>
      cases result with
      | error e => simp [check, resume, Iteration.yieldFrom]
      | ok reply =>
        dsimp only
        rw [Reading.state_answered]
        split_ifs with hretry
        · rw [wait]
          cases src.retryAfter reply.retryAfter attempt with
          | error e => simp [check, resume, Iteration.yieldFrom]
          | ok delay =>
            dsimp only
            cases http.sleep (m.state.answered net reply).retried.net delay with
            | mk slept net =>
              cases slept with
              | error e => simp [check, resume, Iteration.yieldFrom]
              | ok u =>
                simp only [finish, hnext, Reading.records_answered]
        · next hsuccess =>
          rw [finish_settle, if_pos hsuccess]
          rfl
        · next hsuccess =>
          rw [finish_settle, if_neg hsuccess]
          rfl

theorem finish_start (st : ReadState τ) :
    src.finish http (src.start st) = src.iterRecords http st := by
  rw [start, enter, iterRecords]
  dsimp only
  split_ifs with hlimit
  · rw [fetchPage, if_pos hlimit]
    rfl
  · rw [fetchPage_eq _ _ (not_le.mp hlimit)]
    simp only [finish, Loop.ref, Nat.cast_zero, sub_zero, yieldFrom_nil]
    generalize check _ = result
    obtain ⟨page, st'⟩ := result
    cases page with
    | error e => rfl
    | ok page => rfl

/-! ## What a step counts -/

/-- The counters that the source keeps beside what the read has really done, which they must agree
with. -/
structure Tally where
  requests : ℤ
  retries : ℤ
  pages : ℤ
  calls : ℕ
  fetches : ℕ
  validated : ℕ

omit [Runtime] in
def tally (m : Reading τ) : Tally :=
  ⟨m.state.stats.requests, m.state.stats.retries, m.state.stats.pages, m.calls, m.fetches,
    m.validated⟩

def Tally.called (t : Tally) : Tally := { t with requests := t.requests + 1, calls := t.calls + 1 }

def Tally.retried (t : Tally) : Tally := { t with retries := t.retries + 1 }

def Tally.paged (t : Tally) : Tally :=
  { t with pages := t.pages + 1, validated := t.validated + 1 }

def Tally.fetched (t : Tally) : Tally := { t with fetches := t.fetches + 1 }

/-- The next wait, if there is one, is computed and the sleep returns. -/
def WaitReturns (src : LangfuseApiTraceSource) (http : Http τ) (m : Reading τ) : Prop :=
  ∀ loop attempt reply net, m.control = .calling loop attempt →
    http.send m.state.net (src.request loop.ref) = (.ok reply, net) →
    isTransient reply.status = true → (attempt : ℤ) < src.maxRetries →
    ∃ delay net', src.retryAfter reply.retryAfter attempt = .ok delay ∧
      http.sleep net delay = (.ok (), net')

/-- How a fetch is entered, or the read ended, from a state that has no pending call. -/
def Entered (src : LangfuseApiTraceSource) (m m' : Reading τ) : Prop :=
  (∃ failure, m'.control = .ended failure ∧ tally m' = tally m) ∨
    ∃ loop, m'.control = .calling loop 0 ∧ m.state.stats.pages < src.maxPages ∧
      tally m' = (tally m).fetched

omit [Runtime] in
lemma entered_stop (m : Reading τ) (failure : Option SourceErr) :
    src.Entered m (m.stop failure) := Or.inl ⟨failure, rfl, rfl⟩

omit [Runtime] in
lemma entered_enter (loop : Loop) (m : Reading τ) : src.Entered m (src.enter loop m) := by
  rw [enter]
  split_ifs with hlimit
  · exact entered_stop _ _
  · refine Or.inr ⟨loop, rfl, not_le.mp hlimit, ?_⟩
    simp [tally, Tally.fetched, Reading.calls, Reading.fetches, Reading.validated,
      ReadEvent.isFetch, ReadEvent.isCall, ReadEvent.isPage]

omit [Runtime] in
lemma entered_enterPages (total : Option ℤ) (page : ℕ) (previous : List Fields)
    (m : Reading τ) : src.Entered m (src.enterPages total page previous m) := by
  rw [enterPages]
  split_ifs
  · exact entered_enter _ _
  · exact entered_stop _ _

lemma entered_turn (page : Page) (m : Reading τ) (loop : Loop) :
    src.Entered m (src.turn page m loop) := by
  have hyield : ∀ m', src.Entered (m.yield page.data) m' → src.Entered m m' := fun _ h => h
  cases loop with
  | first =>
    rw [turn]
    split
    · exact hyield _ (entered_stop _ _)
    · exact hyield _ (entered_enter _ _)
    · split
      · exact hyield _ (entered_stop _ _)
      · exact hyield _ (entered_stop _ _)
      · exact hyield _ (entered_enterPages _ _ _ _)
  | cursors cursor seenCursors =>
    rw [turn]
    split
    · exact entered_stop _ _
    · exact hyield _ (entered_stop _ _)
    · split_ifs
      · exact entered_stop _ _
      · exact hyield _ (entered_stop _ _)
      · exact hyield _ (entered_enter _ _)
  | numbered total n =>
    rw [turn]
    split
    · exact entered_stop _ _
    · exact entered_stop _ _
    · split_ifs
      · exact entered_stop _ _
      · exact hyield _ (entered_enterPages _ _ _ _)

/-- A response that is not retried ends the read, or is a page after which a fetch is
entered or the read ended. -/
lemma settle_cases (src : LangfuseApiTraceSource) (loop : Loop) (reply : Reply) (m : Reading τ) :
    (∃ failure, (src.settle loop reply m).control = .ended failure ∧
      tally (src.settle loop reply m) = tally m) ∨
    ∃ mid, tally mid = (tally m).paged ∧ src.Entered mid (src.settle loop reply m) := by
  rw [settle]
  split_ifs
  · split
    · exact Or.inl ⟨_, rfl, rfl⟩
    · split
      · exact Or.inl ⟨_, rfl, rfl⟩
      · refine Or.inr ⟨_, ?_, entered_turn _ _ _⟩
        simp [tally, Tally.paged, accepted, Reading.calls, Reading.fetches, Reading.validated,
          ReadEvent.isFetch, ReadEvent.isCall, ReadEvent.isPage]
  · exact Or.inl ⟨_, rfl, rfl⟩

/-- A wait leaves the counters alone, and returns if the sleep does. -/
lemma wait_cases (src : LangfuseApiTraceSource) (http : Http τ) (reply : Reply) (attempt : ℕ)
    (st : ReadState τ) :
    (∃ delay net, src.retryAfter reply.retryAfter attempt = .ok delay ∧
      http.sleep st.net delay = (.ok (), net) ∧
      src.wait http reply attempt st = (.ok (), { st with net })) ∨
    (¬∃ delay net, src.retryAfter reply.retryAfter attempt = .ok delay ∧
      http.sleep st.net delay = (.ok (), net)) ∧
      ∃ e net, src.wait http reply attempt st = (.error e, { st with net }) := by
  cases hdelay : src.retryAfter reply.retryAfter attempt with
  | error e =>
    refine Or.inr ⟨?_, .escaped e, st.net, ?_⟩
    · simp
    · simp only [wait, hdelay]
  | ok delay =>
    cases hsleep : http.sleep st.net delay with
    | mk slept net =>
      cases slept with
      | error e =>
        refine Or.inr ⟨?_, .escaped e, net, ?_⟩
        · rintro ⟨_, _, h, h'⟩
          cases h
          simp [hsleep] at h'
        · simp only [wait, hdelay, hsleep]
      | ok u =>
        refine Or.inl ⟨delay, net, rfl, hsleep, ?_⟩
        simp only [wait, hdelay, hsleep]

omit [Runtime] in
@[simp] lemma tally_answered (m : Reading τ) (net : τ) (reply : Reply) :
    tally (m.answered net reply) = (tally m).called := by
  simp [tally, Tally.called, Reading.answered, ReadState.answered, Reading.calls,
    Reading.fetches, Reading.validated, ReadEvent.isFetch, ReadEvent.isCall, ReadEvent.isPage]

/-- What a step from a pending call can do: retry, fail to wait, end the read, or accept
a page and then end the read or enter the next fetch. -/
theorem step_cases (src : LangfuseApiTraceSource) (hanswers : http.Answers) {m : Reading τ}
    {loop : Loop} {attempt : ℕ} (hcontrol : m.control = .calling loop attempt) :
    (src.WaitReturns http m ∧ (attempt : ℤ) < src.maxRetries ∧
      (src.step http m).control = .calling loop (attempt + 1) ∧
      tally (src.step http m) = (tally m).called.retried) ∨
    (¬src.WaitReturns http m ∧ (∃ failure, (src.step http m).control = .ended failure) ∧
      tally (src.step http m) = (tally m).called.retried) ∨
    (src.WaitReturns http m ∧ (∃ failure, (src.step http m).control = .ended failure) ∧
      (tally (src.step http m) = (tally m).called ∨
        tally (src.step http m) = (tally m).called.paged)) ∨
    (src.WaitReturns http m ∧ (∃ next, (src.step http m).control = .calling next 0) ∧
      m.state.stats.pages + 1 < src.maxPages ∧
      tally (src.step http m) = (tally m).called.paged.fetched) := by
  obtain ⟨reply, net, hsend⟩ := hanswers m.state.net (src.request loop.ref)
  have hreturns : src.WaitReturns http m ↔ (isTransient reply.status = true →
      (attempt : ℤ) < src.maxRetries → ∃ delay net', src.retryAfter reply.retryAfter attempt =
        .ok delay ∧ http.sleep net delay = (.ok (), net')) := by
    constructor
    · intro h
      exact h loop attempt reply net hcontrol hsend
    · intro h loop' attempt' reply' net' hcontrol' hsend'
      rw [hcontrol] at hcontrol'
      cases hcontrol'
      rw [hsend] at hsend'
      cases hsend'
      exact h
  have hcalled := tally_answered m net reply
  rw [step, hcontrol]
  dsimp only
  rw [hsend]
  dsimp only
  by_cases hretry : (isTransient reply.status && decide ((attempt : ℤ) < src.maxRetries)) = true
  · obtain ⟨htransient, hattempt⟩ := Bool.and_eq_true_iff.mp hretry
    have hattempt' := of_decide_eq_true hattempt
    rw [if_pos hretry]
    rcases wait_cases src http reply attempt (m.answered net reply).state.retried with
      ⟨delay, net', hdelay, hsleep, hwait⟩ | ⟨hnone, e, net', hwait⟩
    · rw [hwait]
      exact Or.inl ⟨hreturns.mpr fun _ _ => ⟨delay, net', hdelay, hsleep⟩, hattempt', rfl,
        congrArg Tally.retried hcalled⟩
    · rw [hwait]
      refine Or.inr (Or.inl ⟨?_, ⟨_, rfl⟩, congrArg Tally.retried hcalled⟩)
      intro hwaits
      exact hnone (hreturns.mp hwaits htransient hattempt')
  · have hwaits : src.WaitReturns http m := by
      refine hreturns.mpr fun htransient hattempt => absurd ?_ hretry
      exact Bool.and_eq_true_iff.mpr ⟨htransient, decide_eq_true hattempt⟩
    rw [if_neg hretry]
    right
    right
    rcases settle_cases src loop reply (m.answered net reply) with
      ⟨failure, hended, htally⟩ | ⟨mid, hmid, ⟨failure, hended, htally⟩ |
        ⟨next, hnext, hpages, htally⟩⟩
    · exact Or.inl ⟨hwaits, ⟨failure, hended⟩, Or.inl (htally.trans hcalled)⟩
    · rw [hcalled] at hmid
      exact Or.inl ⟨hwaits, ⟨failure, hended⟩, Or.inr (htally.trans hmid)⟩
    · rw [hcalled] at hmid
      refine Or.inr ⟨hwaits, ⟨next, hnext⟩, ?_, htally.trans (congrArg _ hmid)⟩
      have hcount : mid.state.stats.pages = m.state.stats.pages + 1 :=
        congrArg Tally.pages hmid
      rwa [hcount] at hpages

/-! ## Runs -/

/-- A read that has the counters of a new source. -/
def fresh (net : τ) : ReadState τ := ⟨net, ⟨0, 0, 0, 0⟩, []⟩

/-- A read on a new source, after some of its calls. -/
def after (src : LangfuseApiTraceSource) (http : Http τ) (net : τ) (k : ℕ) : Reading τ :=
  (src.step http)^[k] (src.start (fresh net))

/-- The invariant of a read between two calls: the counters are those of the calls and pages so
far, and no more pages were fetched than the limit allows. -/
structure Counted (src : LangfuseApiTraceSource) (m : Reading τ) : Prop where
  requests : m.state.stats.requests = m.calls
  pages : m.state.stats.pages = m.validated
  limit : m.state.stats.pages ≤ src.maxPages
  bounded : (m.calls : ℤ) ≤ src.maxPages * (src.maxRetries + 1)
  pending : ∀ loop attempt, m.control = .calling loop attempt →
    (attempt : ℤ) ≤ src.maxRetries ∧ m.state.stats.pages < src.maxPages ∧
      (m.calls : ℤ) ≤ m.state.stats.pages * (src.maxRetries + 1) + attempt ∧
      m.state.stats.requests + 1 = m.state.stats.retries + m.fetches

lemma after_succ (net : τ) (k : ℕ) :
    src.after http net (k + 1) = src.step http (src.after http net k) :=
  Function.iterate_succ_apply' _ _ _

omit [Runtime] in
lemma counted_start (hpages : 0 ≤ src.maxPages) (hretries : 0 ≤ src.maxRetries) (net : τ) :
    src.Counted (src.start (fresh net)) := by
  have hbound : 0 ≤ src.maxPages * (src.maxRetries + 1) := mul_nonneg hpages (by omega)
  rw [start, enter]
  split_ifs with hlimit
  · refine ⟨rfl, rfl, hpages, hbound, ?_⟩
    intro loop attempt h
    cases h
  · refine ⟨rfl, rfl, hpages, hbound, ?_⟩
    intro loop attempt h
    cases h
    refine ⟨hretries, not_le.mp hlimit, ?_, rfl⟩
    simp [Reading.calls, ReadEvent.isCall]

omit [Runtime] in
lemma tally_eq_iff {m : Reading τ} {t : Tally} : tally m = t ↔
    m.state.stats.requests = t.requests ∧ m.state.stats.retries = t.retries ∧
      m.state.stats.pages = t.pages ∧ m.calls = t.calls ∧ m.fetches = t.fetches ∧
      m.validated = t.validated := by
  obtain ⟨requests, retries, pages, calls, fetches, validated⟩ := t
  simp only [tally, Tally.mk.injEq]

lemma step_ended {m : Reading τ} {failure : Option SourceErr}
    (hcontrol : m.control = .ended failure) : src.step http m = m := by
  rw [step, hcontrol]

theorem counted_step (hanswers : http.Answers) (hretries : 0 ≤ src.maxRetries) {m : Reading τ}
    (h : src.Counted m) : src.Counted (src.step http m) := by
  cases hcontrol : m.control with
  | ended failure => rwa [step_ended hcontrol]
  | calling loop attempt =>
    obtain ⟨hattempt, hlt, hcalls, hdue⟩ := h.pending loop attempt hcontrol
    obtain ⟨hrequests, hpages, hlimit, hbounded, -⟩ := h
    have hnext : (m.state.stats.pages + 1) * (src.maxRetries + 1) =
        m.state.stats.pages * (src.maxRetries + 1) + (src.maxRetries + 1) :=
      add_one_mul _ _
    have hwithin : (m.state.stats.pages + 1) * (src.maxRetries + 1) ≤
        src.maxPages * (src.maxRetries + 1) :=
      mul_le_mul_of_nonneg_right (by omega) (by omega)
    have hended : ∀ {m' : Reading τ} {failure : Option SourceErr},
        m'.control = .ended failure → ∀ loop attempt, m'.control ≠ .calling loop attempt := by
      intro m' failure hf loop attempt hc
      rw [hf] at hc
      cases hc
    rcases step_cases src hanswers hcontrol with ⟨-, hretry, hcontrol', htally⟩ |
      ⟨-, ⟨failure, hcontrol'⟩, htally⟩ | ⟨-, ⟨failure, hcontrol'⟩, htally | htally⟩ |
      ⟨-, ⟨next, hcontrol'⟩, hpages', htally⟩ <;>
    obtain ⟨h1, h2, h3, h4, h5, h6⟩ := tally_eq_iff.mp htally <;>
    simp only [tally, Tally.called, Tally.retried, Tally.paged, Tally.fetched] at h1 h2 h3 h4 h5 h6
    · refine ⟨by omega, by omega, by omega, by omega, ?_⟩
      intro loop' attempt' hc
      rw [hcontrol'] at hc
      cases hc
      rw [h3]
      push_cast
      refine ⟨by omega, by omega, by omega, by omega⟩
    · exact ⟨by omega, by omega, by omega, by omega,
        fun _ _ hc => absurd hc (hended hcontrol' _ _)⟩
    · exact ⟨by omega, by omega, by omega, by omega,
        fun _ _ hc => absurd hc (hended hcontrol' _ _)⟩
    · exact ⟨by omega, by omega, by omega, by omega,
        fun _ _ hc => absurd hc (hended hcontrol' _ _)⟩
    · refine ⟨by omega, by omega, by omega, by omega, ?_⟩
      intro loop' attempt' hc
      rw [hcontrol'] at hc
      cases hc
      rw [h3]
      refine ⟨by omega, by omega, by omega, by omega⟩

theorem counted_after (hanswers : http.Answers) (hpages : 0 ≤ src.maxPages)
    (hretries : 0 ≤ src.maxRetries) (net : τ) (k : ℕ) : src.Counted (src.after http net k) := by
  induction k with
  | zero => exact counted_start hpages hretries net
  | succ k ih =>
    rw [after_succ]
    exact counted_step hanswers hretries ih

/-- A read that has not ended after some steps has called the transport in each. -/
lemma calls_after (hanswers : http.Answers) (net : τ) (k : ℕ) {loop : Loop} {attempt : ℕ}
    (hcontrol : (src.after http net k).control = .calling loop attempt) :
    (src.after http net k).calls = k := by
  induction k generalizing loop attempt with
  | zero =>
    change (src.start (fresh net)).calls = 0
    rw [start, enter]
    split_ifs <;> rfl
  | succ k ih =>
    rw [after_succ] at hcontrol ⊢
    cases hbefore : (src.after http net k).control with
    | ended failure =>
      rw [step_ended hbefore, hbefore] at hcontrol
      cases hcontrol
    | calling loop' attempt' =>
      have hcalls := ih hbefore
      rcases step_cases src hanswers hbefore with ⟨-, -, -, htally⟩ | ⟨-, -, htally⟩ |
        ⟨-, -, htally | htally⟩ | ⟨-, -, -, htally⟩ <;>
      · rw [(tally_eq_iff.mp htally).2.2.2.1]
        exact congrArg (· + 1) hcalls

/-- Every read ends within the calls that the limits allow, which are as many as there may be
pages with all their attempts. -/
theorem ended_after (hanswers : http.Answers) (hpages : 0 ≤ src.maxPages)
    (hretries : 0 ≤ src.maxRetries) (net : τ) :
    ∃ failure, (src.after http net (src.maxPages * (src.maxRetries + 1)).toNat).control =
      .ended failure := by
  generalize hn : (src.maxPages * (src.maxRetries + 1)).toNat = n
  cases hcontrol : (src.after http net n).control with
  | ended failure => exact ⟨failure, rfl⟩
  | calling loop attempt =>
    have hcalls := calls_after hanswers net n hcontrol
    obtain ⟨hattempt, hlt, hbound, -⟩ :=
      (counted_after hanswers hpages hretries net n).pending loop attempt hcontrol
    have hnext : ((src.after http net n).state.stats.pages + 1) * (src.maxRetries + 1) =
        (src.after http net n).state.stats.pages * (src.maxRetries + 1) +
          (src.maxRetries + 1) :=
      add_one_mul _ _
    have hwithin : ((src.after http net n).state.stats.pages + 1) * (src.maxRetries + 1) ≤
        src.maxPages * (src.maxRetries + 1) :=
      mul_le_mul_of_nonneg_right (by omega) (by omega)
    omega

/-- The steps lead to the read of the code: running on from any moment of it gives the same
result. -/
theorem finish_after (hanswers : http.Answers) (hpages : 0 ≤ src.maxPages)
    (hretries : 0 ≤ src.maxRetries) (net : τ) (k : ℕ) :
    src.finish http (src.after http net k) = src.iterRecords http (fresh net) := by
  induction k with
  | zero => exact finish_start _
  | succ k ih =>
    have hcounted := counted_after hanswers hpages hretries net k
    rw [after_succ, finish_step _ fun loop attempt h => (hcounted.pending loop attempt h).1, ih]

/-! ## The balance at the end -/

/-- Each request is a retry or the first of a page fetch. -/
def Balanced (m : Reading τ) : Prop :=
  m.state.stats.requests = m.state.stats.retries + m.fetches

lemma waitReturns_ended {m : Reading τ} {failure : Option SourceErr}
    (hcontrol : m.control = .ended failure) : src.WaitReturns http m := by
  intro loop attempt reply net h
  rw [hcontrol] at h
  cases h

/-- A wait is computed from a numeric header, or from an attempt within the floats. -/
theorem retryAfter_ok_iff (src : LangfuseApiTraceSource) (header : Option String) (attempt : ℕ) :
    (∃ delay, src.retryAfter header attempt = .ok delay) ↔
      ((header.filter (· != "")).bind Runtime.floatOfText).isSome ∨ 2 ^ attempt < doubleBound := by
  rw [retryAfter]
  cases (header.filter (· != "")).bind Runtime.floatOfText with
  | some seconds => simp
  | none =>
    dsimp only
    split_ifs with hbound
    · simp [hbound]
    · simp [not_le.mp hbound]

/-- The balance of an ended read tells whether every wait returned. -/
theorem balance_after (hanswers : http.Answers) (hpages : 0 ≤ src.maxPages)
    (hretries : 0 ≤ src.maxRetries) (net : τ) (k : ℕ) :
    (∀ loop attempt, (src.after http net k).control = .calling loop attempt →
      ∀ j < k, src.WaitReturns http (src.after http net j)) ∧
    (∀ failure, (src.after http net k).control = .ended failure →
      (Balanced (src.after http net k) ↔
        ∀ j < k, src.WaitReturns http (src.after http net j))) := by
  induction k with
  | zero =>
    refine ⟨fun _ _ _ j hj => absurd hj (Nat.not_lt_zero j), fun failure h => ?_⟩
    have hbalanced : Balanced (src.after http net 0) := by
      change (src.start (fresh net)).control = _ at h
      change Balanced (src.start (fresh net))
      rw [start, enter] at h ⊢
      split_ifs at h ⊢
      rfl
    exact ⟨fun _ j hj => absurd hj (Nat.not_lt_zero j), fun _ => hbalanced⟩
  | succ k ih =>
    have hlast : (∀ j < k + 1, src.WaitReturns http (src.after http net j)) ↔
        (∀ j < k, src.WaitReturns http (src.after http net j)) ∧
          src.WaitReturns http (src.after http net k) := Nat.forall_lt_succ_right
    rw [after_succ, hlast]
    cases hcontrol : (src.after http net k).control with
    | ended failure =>
      have hreturns : src.WaitReturns http (src.after http net k) := waitReturns_ended hcontrol
      rw [step_ended hcontrol]
      simp only [hreturns, and_true]
      exact ih
    | calling loop attempt =>
      have hbefore := ih.1 loop attempt hcontrol
      obtain ⟨-, -, -, hdue⟩ :=
        (counted_after hanswers hpages hretries net k).pending loop attempt hcontrol
      rcases step_cases src hanswers hcontrol with ⟨hreturns, -, hcontrol', -⟩ |
        ⟨hfails, ⟨failure, hcontrol'⟩, htally⟩ | ⟨hreturns, -, htally | htally⟩ |
        ⟨hreturns, ⟨next, hcontrol'⟩, -, -⟩
      · refine ⟨fun _ _ _ => ⟨hbefore, hreturns⟩, fun failure h => ?_⟩
        rw [hcontrol'] at h
        cases h
      · -- the retry is counted, its request is never made
        have hodd : ¬Balanced (src.step http (src.after http net k)) := by
          obtain ⟨h1, h2, -, -, h5, -⟩ := tally_eq_iff.mp htally
          simp only [tally, Tally.called, Tally.retried] at h1 h2 h5
          rw [Balanced]
          omega
        refine ⟨fun loop attempt h => ?_, fun _ _ => iff_of_false hodd fun h => hfails h.2⟩
        rw [hcontrol'] at h
        cases h
      · have heven : Balanced (src.step http (src.after http net k)) := by
          obtain ⟨h1, h2, -, -, h5, -⟩ := tally_eq_iff.mp htally
          simp only [tally, Tally.called] at h1 h2 h5
          rw [Balanced]
          omega
        exact ⟨fun _ _ _ => ⟨hbefore, hreturns⟩,
          fun _ _ => iff_of_true heven ⟨hbefore, hreturns⟩⟩
      · have heven : Balanced (src.step http (src.after http net k)) := by
          obtain ⟨h1, h2, -, -, h5, -⟩ := tally_eq_iff.mp htally
          simp only [tally, Tally.called, Tally.paged] at h1 h2 h5
          rw [Balanced]
          omega
        exact ⟨fun _ _ _ => ⟨hbefore, hreturns⟩,
          fun _ _ => iff_of_true heven ⟨hbefore, hreturns⟩⟩
      · refine ⟨fun _ _ _ => ⟨hbefore, hreturns⟩, fun failure h => ?_⟩
        rw [hcontrol'] at h
        cases h

lemma after_of_ended {net : τ} {n : ℕ} {failure : Option SourceErr}
    (hended : (src.after http net n).control = .ended failure) {k : ℕ} (h : n ≤ k) :
    src.after http net k = src.after http net n := by
  induction k, h using Nat.le_induction with
  | base => rfl
  | succ k hk ih => rw [after_succ, ih, step_ended hended]

/-- A read ends, within the calls that the limits allow, as the code does; between its
calls the counters are those of what it has done; and at the end they balance. -/
structure ReadAccounted (src : LangfuseApiTraceSource) (http : Http τ) (net : τ) : Prop where
  ends : ∃ n failure, (src.after http net n).control = .ended failure ∧
    ((src.after http net n).calls : ℤ) ≤ src.maxPages * (src.maxRetries + 1) ∧
    src.iterRecords http (fresh net) =
      ⟨(src.after http net n).records, failure, (src.after http net n).state⟩
  counters : ∀ k, (src.after http net k).state.stats.requests = (src.after http net k).calls ∧
    (src.after http net k).state.stats.pages = (src.after http net k).validated ∧
    (src.after http net k).state.stats.pages ≤ src.maxPages
  balanced : ∀ k failure, (src.after http net k).control = .ended failure →
    Balanced (src.after http net k)

/-- A read is accounted for exactly if none of its waits raises: each is computed, from a
numeric `Retry-After` or within the range of the floats, and the sleep returns. -/
theorem read_accounted_iff (src : LangfuseApiTraceSource) (http : Http τ)
    (hanswers : http.Answers) (hpages : 0 ≤ src.maxPages) (hretries : 0 ≤ src.maxRetries)
    (net : τ) :
    src.ReadAccounted http net ↔ ∀ k, src.WaitReturns http (src.after http net k) := by
  obtain ⟨failure, hended⟩ := ended_after hanswers hpages hretries net
  generalize (src.maxPages * (src.maxRetries + 1)).toNat = n at hended
  constructor
  · intro h k
    by_cases hk : k < n
    · exact ((balance_after hanswers hpages hretries net n).2 failure hended).mp
        (h.balanced n failure hended) k hk
    · rw [after_of_ended hended (not_lt.mp hk)]
      exact waitReturns_ended hended
  · intro h
    have hcounted := counted_after hanswers hpages hretries net
    refine ⟨⟨n, failure, hended, (hcounted n).bounded, ?_⟩, fun k => ?_, fun k failure' hk => ?_⟩
    · rw [← finish_after hanswers hpages hretries net n, finish, hended]
    · exact ⟨(hcounted k).requests, (hcounted k).pages, (hcounted k).limit⟩
    · exact ((balance_after hanswers hpages hretries net k).2 failure' hk).mpr fun j _ => h j

/-- With at most 1024 retries every wait is computed; the power of two of a later one is beyond
the doubles. -/
theorem waitReturns_of_le (hretries : src.maxRetries ≤ 1024)
    (hsleeps : ∀ net delay, ∃ net', http.sleep net delay = (.ok (), net')) (m : Reading τ) :
    src.WaitReturns http m := by
  intro loop attempt reply net _ _ _ hattempt
  obtain ⟨delay, hdelay⟩ := (src.retryAfter_ok_iff reply.retryAfter attempt).mpr
    (Or.inr (two_pow_lt_doubleBound (by omega)))
  obtain ⟨net', hsleep⟩ := hsleeps net delay
  exact ⟨delay, net', hdelay, hsleep⟩

end LangfuseApiTraceSource
end

/-! ## A server that never recovers -/

/-- Every call is answered by a 503 without a `Retry-After`. -/
def unavailableHttp : Http Unit where
  send _ _ := (.ok unavailable, ())
  sleep _ _ := (.ok (), ())

lemma unavailableHttp_answers : unavailableHttp.Answers := fun _ _ => ⟨unavailable, (), rfl⟩

/-- The read of an unavailable server is accounted for under the default limits. -/
theorem read_accounted_sample :
    letI := Runtime.ascii
    sampleSource.ReadAccounted unavailableHttp () := by
  let := Runtime.ascii
  have hiff := sampleSource.read_accounted_iff unavailableHttp unavailableHttp_answers
    (by decide) (by decide) ()
  exact hiff.mpr fun k =>
    LangfuseApiTraceSource.waitReturns_of_le (by decide) (fun _ _ => ⟨(), rfl⟩) _

/-- A source that may retry more often than the floats allow. -/
def patientSource : LangfuseApiTraceSource := { sampleSource with maxRetries := 1025 }

lemma step_unavailable [Runtime] {src : LangfuseApiTraceSource} {m : Reading Unit} {loop : Loop}
    {attempt : ℕ} (hcontrol : m.control = .calling loop attempt)
    (hretry : (attempt : ℤ) < src.maxRetries) (hfloat : attempt < 1024) :
    (src.step unavailableHttp m).control = .calling loop (attempt + 1) := by
  have hdelay : src.retryAfter unavailable.retryAfter attempt =
      .ok (src.backoffBase.scale (2 ^ attempt)) :=
    if_neg (not_le.mpr (two_pow_lt_doubleBound hfloat))
  have htransient : isTransient unavailable.status = true := rfl
  simp only [LangfuseApiTraceSource.step, hcontrol, unavailableHttp, htransient, hretry,
    decide_true, Bool.and_self, if_true, LangfuseApiTraceSource.wait, hdelay]

/-- After 1024 transient answers, the wait of 2^1024 seconds overflows. The retry has been counted
by then, and its request is never made. -/
theorem patient_read_unaccounted :
    letI := Runtime.ascii
    ¬patientSource.ReadAccounted unavailableHttp () := by
  let := Runtime.ascii
  have hcalling : ∀ k ≤ 1024,
      (patientSource.after unavailableHttp () k).control = .calling .first k := by
    intro k
    induction k with
    | zero => exact fun _ => rfl
    | succ k ih =>
      intro hk
      rw [LangfuseApiTraceSource.after_succ]
      refine step_unavailable (ih (by omega)) ?_ (by omega)
      change (k : ℤ) < 1025
      omega
  have hfails : ¬patientSource.WaitReturns unavailableHttp
      (patientSource.after unavailableHttp () 1024) := by
    intro hwaits
    obtain ⟨delay, -, hdelay, -⟩ :=
      hwaits .first 1024 unavailable () (hcalling 1024 le_rfl) rfl rfl (by decide)
    rcases (patientSource.retryAfter_ok_iff _ 1024).mp ⟨delay, hdelay⟩ with hnone | hlt
    · cases hnone
    · unfold doubleBound at hlt
      exact absurd hlt (not_lt.mpr (Nat.sub_le _ _))
  have hended : ∃ failure,
      (patientSource.after unavailableHttp () 1025).control = .ended failure := by
    rw [LangfuseApiTraceSource.after_succ]
    rcases LangfuseApiTraceSource.step_cases patientSource unavailableHttp_answers
      (hcalling 1024 le_rfl) with ⟨hwaits, -⟩ | ⟨-, hended, -⟩ | ⟨hwaits, -⟩ | ⟨hwaits, -⟩
    · exact absurd hwaits hfails
    · exact hended
    · exact absurd hwaits hfails
    · exact absurd hwaits hfails
  obtain ⟨failure, hended⟩ := hended
  intro h
  have hbalance := (LangfuseApiTraceSource.balance_after unavailableHttp_answers (by decide)
    (by decide) () 1025).2 failure hended
  exact hfails (hbalance.mp (h.balanced 1025 failure hended) 1024 (by omega))

end InferenceControlPlane.Sli

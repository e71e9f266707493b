import InferenceControlPlane.Sli.Pipeline

/-!
# Reading the Langfuse API

`LangfuseApiTraceSource` reads one bounded window page by page. The first response
selects cursor mode or numbered-page mode. The transport and the sleep are injected,
so every server is a state machine that the read calls.
-/
namespace InferenceControlPlane.Sli
open Python

/-! ## The transport -/

/-- The fields of a decoded JSON object. -/
abbrev Fields : Type := List (String × Json)

/-- A response: its status, the `Retry-After` header, its text, and the seconds it took. -/
structure Reply where
  status : ℤ
  retryAfter : Option String
  text : Text
  seconds : ℚ

/-- What a request asks for: a page by its number, or the page behind a cursor. -/
inductive PageRef where
  | page (n : ℕ)
  | cursor (token : String)
  deriving DecidableEq

/-- The query of one request: the window, the page limit and the page. Its type is always
`GENERATION`. -/
structure Request where
  limit : ℤ
  fromStartTime : Option String
  toStartTime : Option String
  ref : PageRef

structure Http (τ : Type) where
  send : τ → Request → Except PyErr Reply × τ
  sleep : τ → PyFloat → Except PyErr Unit × τ

/-- What a read raises: `LangfuseApiError`, `LangfuseSourceIncomplete`, or what it
does not catch. -/
inductive SourceErr where
  | api (status : ℤ) (body : Text)
  | incomplete (message : String)
  | escaped (e : PyErr)

def SourceErr.toPyErr : SourceErr → PyErr
  | api _ _ => .raised "LangfuseApiError"
  | incomplete _ => .raised "LangfuseSourceIncomplete"
  | escaped e => e

structure LangfuseApiTraceSource where
  fromTimestamp : Option String
  toTimestamp : Option String
  pageLimit : ℤ
  maxPages : ℤ
  maxRetries : ℤ
  backoffBase : PyFloat

/-- The state of one read: the server, the counters, and the signatures of the pages
so far. -/
structure ReadState (τ : Type) where
  net : τ
  stats : SourceStats
  seenSignatures : List (List String)

namespace ReadState
variable {τ : Type}

def answered (st : ReadState τ) (net : τ) (reply : Reply) : ReadState τ where
  net := net
  stats := { st.stats with
    requests := st.stats.requests + 1
    latencySeconds := st.stats.latencySeconds + max 0 reply.seconds }
  seenSignatures := st.seenSignatures

def retried (st : ReadState τ) : ReadState τ :=
  { st with stats := { st.stats with retries := st.stats.retries + 1 } }

end ReadState

/-- What a generator yields until it ends or raises, and the state of the read then. -/
structure Iteration (τ : Type) where
  records : List Fields
  failure : Option SourceErr
  state : ReadState τ

/-- `yield from data`. -/
def Iteration.yieldFrom {τ : Type} (data : List Fields) (it : Iteration τ) : Iteration τ :=
  { it with records := data ++ it.records }

/-! ## Responses -/

/-- Statuses that are worth another attempt. -/
def isTransient (status : ℤ) : Bool := status ∈ [429, 500, 502, 503, 504, 599]

def isSuccess (status : ℤ) : Bool := 200 ≤ status && status < 300

/-- `json.loads(text) if text else {}`, which has to be an object. An empty body reads as an empty
one. -/
def decode : Text → Except SourceErr Fields
  | .empty => .ok []
  | .json (.obj fields) => .ok fields
  | .json _ => .error (.incomplete "response JSON is not an object")
  | .malformed _ => .error (.incomplete "response is not valid JSON")
  | .failing e => .error (.escaped e)

/-- A page that has passed the shape checks: its records, its metadata and the signature by which
it would be known again. -/
structure Page where
  data : List Fields
  metaInfo : Fields
  signature : List String

def asObject : Json → Option Fields
  | .obj fields => some fields
  | _ => none

section
variable [Runtime]

/-- `tuple(str(item.get("id") or "") for item in data)`: the ids of a page, by which a page that
comes a second time is recognized. -/
def signatureOf (data : List Fields) : Except PyErr (List String) :=
  data.mapM fun item => toStr (orElse (field item "id") (.str ""))

/-- The shape checks of `_fetch_page`. A falsy `data` counts as the empty list. -/
def checkPage (body : Fields) (seenSignatures : List (List String)) : Except SourceErr Page :=
  match orElse (field body "data") (.arr []), orElse (field body "meta") (.obj []) with
  | .arr items, .obj metaInfo =>
    match items.mapM asObject with
    | none => .error (.incomplete "response data contains a non-object")
    | some data =>
      match signatureOf data with
      | .error e => .error (.escaped e)
      | .ok signature =>
        if data ≠ [] ∧ signature ∈ seenSignatures then
          .error (.incomplete "pagination page repeated")
        else .ok ⟨data, metaInfo, signature⟩
  | .arr _, _ => .error (.incomplete "response meta is not an object")
  | _, _ => .error (.incomplete "response data is not a list")

/-- `_cursor`: the cursor of the next page, if the metadata names one that is not empty. -/
def cursorOf (metaInfo : Fields) : Except PyErr (Option String) :=
  match field metaInfo "cursor" with
  | .null => .ok none
  | .str "" => .ok none
  | value => (toStr value).map some

/-- `totalPages` of the first page. -/
def totalPages (metaInfo : Fields) : Except SourceErr (Option ℤ) :=
  match field metaInfo "totalPages" with
  | .null => .ok none
  | raw =>
    match toInt raw with
    | .ok total =>
      if total < 0 then .error (.incomplete "invalid totalPages") else .ok (some total)
    | .error .typeError => .error (.incomplete "invalid totalPages")
    | .error .valueError => .error (.incomplete "invalid totalPages")
    | .error e => .error (.escaped e)

/-! ## The read -/

namespace LangfuseApiTraceSource
variable {τ : Type}

omit [Runtime] in
/-- `_base_params` with the page or the cursor. -/
def request (src : LangfuseApiTraceSource) (ref : PageRef) : Request where
  limit := src.pageLimit
  fromStartTime := src.fromTimestamp.filter (· != "")
  toStartTime := src.toTimestamp.filter (· != "")
  ref := ref

/-- `_retry_after`: the wait that the server's header names, within bounds, or one that doubles
with each attempt. -/
def retryAfter (src : LangfuseApiTraceSource) (header : Option String) (attempt : ℕ) :
    Except PyErr PyFloat :=
  match (header.filter (· != "")).bind Runtime.floatOfText with
  | some seconds => .ok ((PyFloat.finite 60).min ((PyFloat.finite 0).max seconds))
  | none =>
    if doubleBound ≤ 2 ^ attempt then .error .overflowError
    else .ok (src.backoffBase.scale (2 ^ attempt))

/-- `_get`, with the attempts that are left: a transient status is waited out and asked again, a
success is decoded, and everything else raises. -/
def get (src : LangfuseApiTraceSource) (http : Http τ) (req : Request) :
    (attempts attempt : ℕ) → ReadState τ → Except SourceErr Fields × ReadState τ
  | 0, _, st => (.error (.api 429 (.malformed "exhausted retries after repeated 429s")), st)
  | attempts + 1, attempt, st =>
    match http.send st.net req with
    | (.error e, net) => (.error (.escaped e), { st with net })
    | (.ok reply, net) =>
      let st := st.answered net reply
      if isTransient reply.status && (attempt : ℤ) < src.maxRetries then
        let st := st.retried
        match src.retryAfter reply.retryAfter attempt with
        | .error e => (.error (.escaped e), st)
        | .ok delay =>
          match http.sleep st.net delay with
          | (.error e, net) => (.error (.escaped e), { st with net })
          | (.ok _, net) => src.get http req attempts (attempt + 1) { st with net }
      else if isSuccess reply.status then (decode reply.text, st)
      else (.error (.api reply.status reply.text), st)

omit [Runtime] in
def limitError (src : LangfuseApiTraceSource) : SourceErr :=
  .incomplete ("pagination exceeded safety limit of " ++ toString src.maxPages ++ " pages")

/-- `_fetch_page`: one page within the page budget. It is counted when its shape is right and it
has not been seen before. -/
def fetchPage (src : LangfuseApiTraceSource) (http : Http τ) (ref : PageRef) (st : ReadState τ) :
    Except SourceErr (List Fields × Fields) × ReadState τ :=
  if src.maxPages ≤ st.stats.pages then (.error src.limitError, st)
  else
    match src.get http (src.request ref) (src.maxRetries + 1).toNat 0 st with
    | (.error e, st) => (.error e, st)
    | (.ok body, st) =>
      match checkPage body st.seenSignatures with
      | .error e => (.error e, st)
      | .ok page =>
        (.ok (page.data, page.metaInfo),
          { st with
            stats := { st.stats with pages := st.stats.pages + 1 }
            seenSignatures := if page.data = [] then st.seenSignatures
              else page.signature :: st.seenSignatures })

omit [Runtime] in
/-- The pages that may still be fetched. Both loops run on this budget: the read that
exhausts it is the one that `_fetch_page` refuses. -/
def budget (src : LangfuseApiTraceSource) (st : ReadState τ) : ℕ :=
  (src.maxPages - st.stats.pages).toNat

/-- `_iter_cursor_pages`: page after page behind each cursor, until one names no next cursor; a
cursor that comes again is an error. -/
def iterCursorPages (src : LangfuseApiTraceSource) (http : Http τ) :
    (budget : ℕ) → (cursor : String) → (seenCursors : List String) → ReadState τ → Iteration τ
  | 0, _, _, st => ⟨[], some src.limitError, st⟩
  | budget + 1, cursor, seenCursors, st =>
    match src.fetchPage http (.cursor cursor) st with
    | (.error e, st) => ⟨[], some e, st⟩
    | (.ok (data, metaInfo), st) =>
      match cursorOf metaInfo with
      | .error e => ⟨[], some (.escaped e), st⟩
      | .ok none => ⟨data, none, st⟩
      | .ok (some next) =>
        if data = [] then
          ⟨[], some (.incomplete "empty page supplied a continuation cursor"), st⟩
        else if next ∈ seenCursors then
          ⟨data, some (.incomplete "pagination cursor repeated"), st⟩
        else .yieldFrom data (src.iterCursorPages http budget next (next :: seenCursors) st)

omit [Runtime] in
/-- The condition of the page loop. -/
def hasNext (src : LangfuseApiTraceSource) (total : Option ℤ) (page : ℕ) (previous : List Fields) :
    Bool :=
  match total with
  | some total => page < total
  | none => src.pageLimit ≤ previous.length

/-- The loop of `_iter_numbered_pages`: pages are asked for while there are more to come, up to
the limit of pages. -/
def pageLoop (src : LangfuseApiTraceSource) (http : Http τ) (total : Option ℤ) :
    (budget page : ℕ) → (previous : List Fields) → ReadState τ → Iteration τ
  | budget, page, previous, st =>
    if src.hasNext total page previous then
      match budget with
      | 0 => ⟨[], some src.limitError, st⟩
      | budget + 1 =>
        match src.fetchPage http (.page (page + 1)) st with
        | (.error e, st) => ⟨[], some e, st⟩
        | (.ok (data, metaInfo), st) =>
          match cursorOf metaInfo with
          | .error e => ⟨[], some (.escaped e), st⟩
          | .ok (some _) =>
            ⟨[], some (.incomplete "pagination mode changed from page to cursor"), st⟩
          | .ok none =>
            -- an empty page ends the read before `totalPages`
            if data = [] then ⟨[], none, st⟩
            else .yieldFrom data (src.pageLoop http total budget (page + 1) data st)
    else ⟨[], none, st⟩

/-- `_iter_numbered_pages`: the pages after the first by their numbers, up to the announced total,
or while the last page was full. -/
def iterNumberedPages (src : LangfuseApiTraceSource) (http : Http τ) (previous : List Fields)
    (firstMeta : Fields) (st : ReadState τ) : Iteration τ :=
  match totalPages firstMeta with
  | .error e => ⟨[], some e, st⟩
  | .ok (some 0) => ⟨[], none, st⟩
  | .ok total => src.pageLoop http total (src.budget st) 1 previous st

/-- `iter_records`: the first page decides whether the read goes on by cursors or by numbers. What
was fetched before an error has been yielded. -/
def iterRecords (src : LangfuseApiTraceSource) (http : Http τ) (st : ReadState τ) : Iteration τ :=
  let st := { st with seenSignatures := [], stats := { st.stats with pages := 0 } }
  match src.fetchPage http (.page 1) st with
  | (.error e, st) => ⟨[], some e, st⟩
  | (.ok (data, metaInfo), st) =>
    .yieldFrom data <|
      match cursorOf metaInfo with
      | .error e => ⟨[], some (.escaped e), st⟩
      | .ok (some cursor) => src.iterCursorPages http (src.budget st) cursor [cursor] st
      | .ok none => src.iterNumberedPages http data metaInfo st

/-- `read`: the records of all pages as a list, or the error that ended the iteration. -/
def read (src : LangfuseApiTraceSource) (http : Http τ) (st : ReadState τ) :
    Except SourceErr (List Fields) × ReadState τ :=
  let it := src.iterRecords http st
  (match it.failure with
    | some e => .error e
    | none => .ok it.records, it.state)

/-- The source as a pipeline sees it that reads it to its end: the records, the exception after
the last of them, and the counters then. -/
def toSource (src : LangfuseApiTraceSource) (http : Http τ) (st : ReadState τ) : Source :=
  let it := src.iterRecords http st
  ⟨it.records.map .obj, it.failure.map SourceErr.toPyErr, some it.state.stats⟩

end LangfuseApiTraceSource
end
end InferenceControlPlane.Sli

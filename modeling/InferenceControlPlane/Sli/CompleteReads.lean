import InferenceControlPlane.Sli.Pagination
import Mathlib.Data.List.GetD

/-!
# Complete reads from an honest server

A server hands out the pages of a window by a chain of cursors, or by number, with or
without their total. Before each answer it may send transient statuses, as many as the
read retries. A read returns the pages in order, each of them once.
-/
namespace InferenceControlPlane.Sli
open Python

/-! ## The pages of a window -/

/-- How a server hands out its pages. A chain has a cursor at least: it is the cursor of
the first response that selects the mode. -/
inductive Served where
  | cursors (chain : CursorChain) (more : chain.rest ≠ [])
  | numbered (pages : List (List Fields)) (announced : Bool)

namespace Served

def pages : Served → List (List Fields)
  | cursors chain _ => chain.first :: chain.rest.map Prod.snd
  | numbered pages _ => pages

/-- The page that a request asks for, and the cursor behind it. A number past the end
asks for an empty page. -/
inductive Holds : Served → PageRef → List Fields → Option String → Prop
  | first {chain : CursorChain} {more : chain.rest ≠ []} :
      Holds (cursors chain more) (.page 1) chain.first (chain.rest.head?.map Prod.fst)
  | next {chain : CursorChain} {more : chain.rest ≠ []} {before after : List (String × List Fields)}
      {token : String} {data : List Fields} (h : chain.rest = before ++ (token, data) :: after) :
      Holds (cursors chain more) (.cursor token) data (after.head?.map Prod.fst)
  | numbered {pages : List (List Fields)} {announced : Bool} (n : ℕ) :
      Holds (numbered pages announced) (.page (n + 1)) (pages.getD n []) none

/-- The `totalPages` of numbered pages. -/
def total (pages : List (List Fields)) (announced : Bool) : Option ℤ :=
  if announced then some pages.length else none

/-- Without a total, every page but the last is as long as the limit. -/
def Full (src : LangfuseApiTraceSource) : Served → Prop
  | numbered pages false => ∀ p ∈ pages.dropLast, src.pageLimit ≤ p.length
  | _ => True

/-- The last page does not show that it is the last: no total was announced, it is as
long as the limit, and no empty page ends the loop. -/
def asksBeyond (src : LangfuseApiTraceSource) (pages : List (List Fields)) : Bool :=
  src.pageLimit ≤ (pages.getLastD []).length && (pages.length ≤ 1 || pages.getLastD [] ≠ [])

/-- The fetches that a complete read takes. -/
def fetches (src : LangfuseApiTraceSource) : Served → ℕ
  | cursors chain _ => chain.rest.length + 1
  | numbered pages true => max 1 pages.length
  | numbered pages false => max 1 pages.length + if asksBeyond src pages then 1 else 0

/-- No empty page stands between the first and the last. -/
def NoGap (served : Served) : Prop := ∀ p ∈ served.pages.tail.dropLast, p ≠ []

end Served

section
variable [Runtime]

/-- The pages have id tuples, those of non-empty pages are distinct, and none of them is
in `seen`. -/
structure DistinctIds (pages : List (List Fields)) (seen : List (List String)) : Prop where
  ids : ∀ p ∈ pages, ∃ t, signatureOf p = .ok t ∧ (p ≠ [] → t ∉ seen)
  pairwise : pages.Pairwise fun p q => p ≠ [] → q ≠ [] → signatureOf p ≠ signatureOf q

lemma DistinctIds.tail {p : List Fields} {ps : List (List Fields)} {seen : List (List String)}
    {t : List String} (h : DistinctIds (p :: ps) seen) (ht : signatureOf p = .ok t) :
    DistinctIds ps (if p = [] then seen else t :: seen) := by
  obtain ⟨hhead, htail⟩ := List.pairwise_cons.mp h.pairwise
  refine ⟨fun q hq => ?_, htail⟩
  obtain ⟨u, hu, hnew⟩ := h.ids q (List.mem_cons_of_mem p hq)
  refine ⟨u, hu, fun hne => ?_⟩
  split_ifs with hempty
  · exact hnew hne
  · intro hmem
    rcases List.mem_cons.mp hmem with rfl | hseen
    · exact hhead q hq hempty hne (ht.trans hu.symm)
    · exact hnew hne hseen

/-! ## Honest servers -/

/-- A response that carries a page and its metadata. -/
structure Carries (reply : Reply) (data : List Fields) (metaInfo : Fields) : Prop where
  success : isSuccess reply.status = true
  decoded : ∃ body, decode reply.text = .ok body ∧
    orElse (field body "data") (.arr []) = .arr (data.map .obj) ∧
    orElse (field body "meta") (.obj []) = .obj metaInfo

/-- The response has a `Retry-After` header that is a number, which the client waits for instead
of its own backoff. -/
def Reply.namesWait (reply : Reply) : Bool :=
  ((reply.retryAfter.filter (· != "")).bind Runtime.floatOfText).isSome

/-- From the state of its first argument on, `reply` answers the request at one of the
attempts up to `limit`; those before have transient statuses, and from the 1025th
attempt on they name the wait. -/
inductive Answers {τ : Type} (http : Http τ) (req : Request) (limit : ℤ) (reply : Reply)
    (final : τ) : τ → (attempt : ℕ) → Prop
  | now {net : τ} {attempt : ℕ} (hlimit : attempt ≤ limit)
      (hsend : http.send net req = (.ok reply, final)) :
      Answers http req limit reply final net attempt
  | later {net mid : τ} {attempt : ℕ} {fault : Reply}
      (hsend : http.send net req = (.ok fault, mid)) (hfault : isTransient fault.status = true)
      (hwait : attempt < 1024 ∨ fault.namesWait = true)
      (h : Answers http req limit reply final mid (attempt + 1)) :
      Answers http req limit reply final net attempt

/-- A server that answers every request for what it holds, and a sleep that returns. -/
structure Honest {τ : Type} (src : LangfuseApiTraceSource) (http : Http τ) (served : Served) :
    Prop where
  sleeps : ∀ (header : Option String) (attempt : ℕ) (delay : PyFloat) (net : τ),
    attempt < src.maxRetries → src.retryAfter header attempt = .ok delay →
      http.sleep net delay = (.ok (), net)
  answers : ∀ {ref : PageRef} {data : List Fields} {next : Option String},
    served.Holds ref data next → ∀ net, ∃ reply metaInfo final,
      Answers http (src.request ref) src.maxRetries reply final net 0 ∧
      Carries reply data metaInfo ∧ cursorOf metaInfo = .ok next ∧
      ∀ pages announced, served = .numbered pages announced → ref = .page 1 →
        totalPages metaInfo = .ok (Served.total pages announced)

omit [Runtime] in
lemma isTransient_of_isSuccess {status : ℤ} (h : isSuccess status = true) :
    isTransient status = false := by
  simp only [isSuccess, Bool.and_eq_true, decide_eq_true_eq] at h
  simp only [isTransient, decide_eq_false_iff_not, List.mem_cons, List.not_mem_nil, or_false]
  omega

/-- A page that was not seen passes the checks. -/
lemma checkPage_fresh {body : Fields} {data : List Fields} {metaInfo : Fields}
    {seen : List (List String)} {t : List String}
    (hdata : orElse (field body "data") (.arr []) = .arr (data.map .obj))
    (hmeta : orElse (field body "meta") (.obj []) = .obj metaInfo)
    (ht : signatureOf data = .ok t) (hnew : data ≠ [] → t ∉ seen) :
    checkPage body seen = .ok ⟨data, metaInfo, t⟩ := by
  have hitems : (data.map Json.obj).mapM asObject = some data := by
    rw [List.mapM_map]
    exact List.mapM_pure.trans (congrArg some (List.map_id' data))
  have hrepeat : ¬(data ≠ [] ∧ t ∈ seen) := fun h => hnew h.1 h.2
  simp only [checkPage, hdata, hmeta, hitems, ht, if_neg hrepeat]

namespace LangfuseApiTraceSource
variable {τ : Type} {src : LangfuseApiTraceSource} {http : Http τ} {served : Served}

/-! ## One fetch -/

/-- The exponential wait is a double up to the 1024th attempt. -/
lemma retryAfter_ok (src : LangfuseApiTraceSource) {fault : Reply} {attempt : ℕ}
    (h : attempt < 1024 ∨ fault.namesWait = true) :
    ∃ delay, src.retryAfter fault.retryAfter attempt = .ok delay := by
  unfold retryAfter
  unfold Reply.namesWait at h
  cases hseconds : (fault.retryAfter.filter (· != "")).bind Runtime.floatOfText with
  | some seconds => exact ⟨_, rfl⟩
  | none =>
    rw [hseconds] at h
    have hattempt : attempt < 1024 := h.resolve_right Bool.false_ne_true
    exact ⟨_, if_neg (not_le.mpr (two_pow_lt_doubleBound hattempt))⟩

end LangfuseApiTraceSource

lemma Answers.le_limit {τ : Type} {http : Http τ} {req : Request} {limit : ℤ} {reply : Reply}
    {final net : τ} {attempt : ℕ} (h : Answers http req limit reply final net attempt) :
    attempt ≤ limit := by
  induction h with
  | now hlimit hsend => exact hlimit
  | later hsend hfault hwait h ih => omega

namespace LangfuseApiTraceSource
variable {τ : Type} {src : LangfuseApiTraceSource} {http : Http τ} {served : Served}

/-- The retry loop gets the answer. -/
lemma get_answers (hhonest : Honest src http served) {req : Request} {reply : Reply}
    {final net : τ} {attempt : ℕ} (hsuccess : isSuccess reply.status = true)
    (h : Answers http req src.maxRetries reply final net attempt) (attempts : ℕ)
    (hattempts : (attempt : ℤ) + attempts = src.maxRetries + 1) (st : ReadState τ)
    (hnet : st.net = net) :
    ∃ st', src.get http req attempts attempt st = (decode reply.text, st') ∧
      st'.stats.pages = st.stats.pages ∧ st'.seenSignatures = st.seenSignatures := by
  induction h generalizing attempts st with
  | now hlimit hsend =>
    obtain ⟨attempts, rfl⟩ : ∃ n, attempts = n + 1 := ⟨attempts - 1, by omega⟩
    subst hnet
    refine ⟨st.answered final reply, ?_, rfl, rfl⟩
    simp [get, hsend, isTransient_of_isSuccess hsuccess, hsuccess]
  | @later net mid attempt fault hsend hfault hwait h ih =>
    obtain ⟨attempts, rfl⟩ : ∃ n, attempts = n + 1 := ⟨attempts - 1, by have := h.le_limit; omega⟩
    subst hnet
    have hlimit : (attempt : ℤ) < src.maxRetries := by
      have := h.le_limit
      omega
    obtain ⟨delay, hdelay⟩ := src.retryAfter_ok hwait
    obtain ⟨st', hget, hpages, hseen⟩ := ih attempts (by omega) (st.answered mid fault).retried rfl
    refine ⟨st', ?_, hpages, hseen⟩
    rw [← hget]
    have hsleep := hhonest.sleeps _ _ _ mid hlimit hdelay
    simp [get, hsend, hfault, hlimit, hdelay, ReadState.retried, ReadState.answered, hsleep]

/-- A fetch within the limit gets the page that the server holds. -/
lemma fetchPage_honest (hhonest : Honest src http served) {ref : PageRef} {data : List Fields}
    {next : Option String} (hholds : served.Holds ref data next) {t : List String}
    (ht : signatureOf data = .ok t) (st : ReadState τ) (hnew : data ≠ [] → t ∉ st.seenSignatures)
    (hlimit : st.stats.pages < src.maxPages) :
    ∃ metaInfo st', src.fetchPage http ref st = (.ok (data, metaInfo), st') ∧
      st'.stats.pages = st.stats.pages + 1 ∧
      st'.seenSignatures = (if data = [] then st.seenSignatures else t :: st.seenSignatures) ∧
      cursorOf metaInfo = .ok next ∧
      ∀ pages announced, served = .numbered pages announced → ref = .page 1 →
        totalPages metaInfo = .ok (Served.total pages announced) := by
  obtain ⟨reply, metaInfo, final, hanswers, hcarries, hcursor, htotal⟩ :=
    hhonest.answers hholds st.net
  obtain ⟨body, hbody, hdata, hmeta⟩ := hcarries.decoded
  have hretries : (0 : ℤ) ≤ src.maxRetries := hanswers.le_limit
  obtain ⟨mid, hget, hpages, hseen⟩ := get_answers hhonest hcarries.success hanswers
    (src.maxRetries + 1).toNat (by omega) st rfl
  rw [← hseen] at hnew
  have hfetch : src.fetchPage http ref st = (.ok (data, metaInfo),
      { mid with
        stats := { mid.stats with pages := mid.stats.pages + 1 }
        seenSignatures := if data = [] then mid.seenSignatures else t :: mid.seenSignatures }) := by
    unfold fetchPage
    rw [if_neg (not_le.mpr hlimit), hget, hbody]
    simp only [checkPage_fresh hdata hmeta ht hnew]
  refine ⟨metaInfo, _, hfetch, ?_, ?_, hcursor, htotal⟩
  · simp only [hpages]
  · simp only [hseen]

/-! ## Cursor mode -/

/-- From a cursor on, the read has the rest of the chain, by induction on the pages that are
left. -/
theorem iterCursorPages_honest {chain : CursorChain} {more : chain.rest ≠ []}
    (hhonest : Honest src http (.cursors chain more)) (budget : ℕ)
    {before after : List (String × List Fields)} {token : String} {data : List Fields}
    (hrest : chain.rest = before ++ (token, data) :: after)
    (hgap : ∀ p ∈ (data :: after.map Prod.snd).dropLast, p ≠ []) (seen : List String)
    (hseen : ∀ link ∈ after, link.1 ∉ seen) (st : ReadState τ)
    (hids : DistinctIds (data :: after.map Prod.snd) st.seenSignatures)
    (hbudget : after.length < budget) (hpages : st.stats.pages + budget = src.maxPages) :
    (src.iterCursorPages http budget token seen st).failure = none ∧
      (src.iterCursorPages http budget token seen st).records =
        data ++ (after.map Prod.snd).flatten := by
  induction after generalizing budget before token data seen st with
  | nil =>
    obtain ⟨budget, rfl⟩ : ∃ n, budget = n + 1 := ⟨budget - 1, by omega⟩
    obtain ⟨t, ht, hnew⟩ := hids.ids data List.mem_cons_self
    obtain ⟨metaInfo, st', hfetch, -, -, hcursor, -⟩ :=
      fetchPage_honest hhonest (.next hrest) ht st hnew (by omega)
    have hlast : cursorOf metaInfo = .ok none := hcursor
    simp [iterCursorPages, hfetch, hlast]
  | cons link after ih =>
    obtain ⟨budget, rfl⟩ : ∃ n, budget = n + 1 := ⟨budget - 1, by omega⟩
    obtain ⟨t, ht, hnew⟩ := hids.ids data List.mem_cons_self
    obtain ⟨metaInfo, st', hfetch, hcount, hsigs, hcursor, -⟩ :=
      fetchPage_honest hhonest (.next hrest) ht st hnew (by omega)
    have hnext : cursorOf metaInfo = .ok (some link.1) := hcursor
    have hne : data ≠ [] := hgap data (by simp)
    have hfresh : link.1 ∉ seen := hseen link List.mem_cons_self
    have hrest' : chain.rest = (before ++ [(token, data)]) ++ (link.1, link.2) :: after := by
      rw [hrest, List.append_assoc, List.singleton_append]
    have hids' : DistinctIds (link.2 :: after.map Prod.snd) st'.seenSignatures := by
      rw [hsigs]
      exact hids.tail ht
    have hseen' : ∀ later ∈ after, later.1 ∉ link.1 :: seen := by
      intro later hlater hmem
      rcases List.mem_cons.mp hmem with heq | hold
      · have hnodup := chain.nodup
        rw [hrest', List.map_append, List.map_cons] at hnodup
        have htail := (List.nodup_cons.mp (List.nodup_append.mp hnodup).2.1).1
        exact htail (List.mem_map.mpr ⟨later, hlater, heq⟩)
      · exact hseen later (List.mem_cons_of_mem link hlater) hold
    have hgap' : ∀ p ∈ (link.2 :: after.map Prod.snd).dropLast, p ≠ [] := by
      intro p hp
      apply hgap p
      rw [List.map_cons, List.dropLast_cons_cons]
      exact List.mem_cons_of_mem data hp
    obtain ⟨hfailure, hrecords⟩ := ih budget hrest' hgap' (link.1 :: seen) hseen' st' hids'
      (by simpa using hbudget) (by push_cast at hpages; omega)
    simp [iterCursorPages, hfetch, hnext, hne, hfresh, Iteration.yieldFrom, hfailure, hrecords]

/-! ## Numbered mode -/

omit [Runtime] in
lemma getD_mem_dropLast {pages : List (List Fields)} {n : ℕ} (h : n + 1 < pages.length) :
    pages.getD n [] ∈ pages.dropLast := by
  have hn : n < pages.dropLast.length := by
    rw [List.length_dropLast]
    omega
  have hget : pages.getD n [] = pages.dropLast[n] := by
    rw [List.getElem_dropLast, List.getD_eq_getElem _ _ (by omega)]
  rw [hget]
  exact List.getElem_mem hn

omit [Runtime] in
/-- The loop goes on while there are pages. -/
lemma hasNext_of_lt {pages : List (List Fields)} {announced : Bool}
    (hfull : (Served.numbered pages announced).Full src) {page : ℕ} (hpage : 1 ≤ page)
    (h : page < pages.length) :
    src.hasNext (Served.total pages announced) page (pages.getD (page - 1) []) = true := by
  cases announced with
  | true => simpa [hasNext, Served.total] using h
  | false =>
    have hmem : pages.getD (page - 1) [] ∈ pages.dropLast := getD_mem_dropLast (by omega)
    simpa [hasNext, Served.total] using hfull _ hmem

omit [Runtime] in
/-- The loop asks for no more pages than a complete read takes. -/
lemma lt_fetches {pages : List (List Fields)} {announced : Bool} {page : ℕ} (hpage : 1 ≤ page)
    (hlast : page ≤ max 1 pages.length) (hprevious : page = 1 ∨ pages.getD (page - 1) [] ≠ [])
    (h : src.hasNext (Served.total pages announced) page (pages.getD (page - 1) []) = true) :
    page < (Served.numbered pages announced).fetches src := by
  cases announced with
  | true =>
    have hlt : page < pages.length := by simpa [hasNext, Served.total] using h
    simp only [Served.fetches]
    omega
  | false =>
    simp only [Served.fetches]
    by_cases hlt : page < max 1 pages.length
    · omega
    · have hend : page - 1 = pages.length - 1 := by omega
      have hgetLast : pages.getD (page - 1) [] = pages.getLastD [] := by
        rw [hend, List.getLastD_eq_getLast?, List.getLast?_eq_getElem?, List.getD_eq_getElem?_getD]
      rw [hgetLast] at h hprevious
      have hasks : Served.asksBeyond src pages = true := by
        have hlong : src.pageLimit ≤ (pages.getLastD []).length := by
          simpa [hasNext, Served.total] using h
        simp only [Served.asksBeyond, hlong, decide_true, Bool.true_and, Bool.or_eq_true,
          decide_eq_true_eq]
        rcases hprevious with hone | hne
        · left
          omega
        · exact Or.inr hne
      rw [if_pos hasks]
      omega

/-- From a page number on, the read has the remaining pages, by induction on their number. -/
theorem pageLoop_honest {pages : List (List Fields)} {announced : Bool}
    (hhonest : Honest src http (.numbered pages announced))
    (hfull : (Served.numbered pages announced).Full src)
    (hgap : (Served.numbered pages announced).NoGap)
    (hfetches : (Served.numbered pages announced).fetches src ≤ src.maxPages) (budget : ℕ)
    {page : ℕ} (hpage : 1 ≤ page) (hlast : page ≤ max 1 pages.length)
    (hprevious : page = 1 ∨ pages.getD (page - 1) [] ≠ []) (st : ReadState τ)
    (hids : DistinctIds (pages.drop page) st.seenSignatures) (hcount : st.stats.pages = page)
    (hbudget : (page : ℤ) + budget = src.maxPages) :
    (src.pageLoop http (Served.total pages announced) budget page
        (pages.getD (page - 1) []) st).failure = none ∧
      (src.pageLoop http (Served.total pages announced) budget page
        (pages.getD (page - 1) []) st).records = (pages.drop page).flatten := by
  induction budget generalizing page st with
  | zero =>
    by_cases hnext :
        src.hasNext (Served.total pages announced) page (pages.getD (page - 1) []) = true
    · have := lt_fetches hpage hlast hprevious hnext
      omega
    · have hend : pages.length ≤ page := not_lt.mp fun h => hnext (hasNext_of_lt hfull hpage h)
      rw [pageLoop, if_neg hnext, List.drop_eq_nil_of_le hend]
      exact ⟨rfl, rfl⟩
  | succ budget ih =>
    by_cases hnext :
        src.hasNext (Served.total pages announced) page (pages.getD (page - 1) []) = true
    · have hlimit := lt_fetches hpage hlast hprevious hnext
      have hsig : ∃ t, signatureOf (pages.getD page []) = .ok t ∧
          (pages.getD page [] ≠ [] → t ∉ st.seenSignatures) := by
        by_cases hlt : page < pages.length
        · apply hids.ids
          rw [List.getD_eq_getElem _ _ hlt, List.drop_eq_getElem_cons hlt]
          exact List.mem_cons_self
        · rw [List.getD_eq_default _ _ (not_lt.mp hlt)]
          exact ⟨[], rfl, fun h => absurd rfl h⟩
      obtain ⟨t, ht, hnew⟩ := hsig
      obtain ⟨metaInfo, st', hfetch, hpages, hsigs, hcursor, -⟩ :=
        fetchPage_honest hhonest (.numbered page) ht st hnew (by omega)
      by_cases hempty : pages.getD page [] = []
      · -- an empty page is the last one, or stands past it
        have hrest : (pages.drop page).flatten = [] := by
          by_cases hlt : page < pages.length
          · have hone : page + 1 = pages.length := by
              by_contra hne
              have htail : pages.tail.getD (page - 1) [] = pages.getD page [] := by
                obtain ⟨k, rfl⟩ : ∃ k, page = k + 1 := ⟨page - 1, by omega⟩
                cases pages <;> rfl
              have hlen : pages.tail.length = pages.length - 1 := List.length_tail
              have hmem : pages.tail.getD (page - 1) [] ∈ pages.tail.dropLast :=
                getD_mem_dropLast (by omega)
              exact hgap _ hmem (htail.trans hempty)
            rw [List.drop_eq_getElem_cons hlt, hone, List.drop_length, List.flatten_cons,
              ← List.getD_eq_getElem _ [] hlt, hempty]
            rfl
          · rw [List.drop_eq_nil_of_le (not_lt.mp hlt), List.flatten_nil]
        simp only [pageLoop, hnext, if_true, hfetch, hcursor, hempty, hrest, and_self]
      · have hlt : page < pages.length := by
          by_contra hge
          exact hempty (List.getD_eq_default _ _ (not_lt.mp hge))
        have hdrop : pages.drop page = pages.getD page [] :: pages.drop (page + 1) := by
          rw [List.getD_eq_getElem _ _ hlt, List.drop_eq_getElem_cons hlt]
        have hids' : DistinctIds (pages.drop (page + 1)) st'.seenSignatures := by
          rw [hdrop] at hids
          rw [hsigs]
          exact hids.tail ht
        have hpage' : 1 ≤ page + 1 := by omega
        obtain ⟨hfailure, hrecords⟩ := ih hpage' (by omega) (Or.inr hempty) st' hids'
          (by rw [hpages, hcount]; rfl) (by push_cast at hbudget ⊢; omega)
        rw [Nat.add_sub_cancel] at hfailure hrecords
        simp only [pageLoop, hnext, if_true, hfetch, hcursor, if_neg hempty, Iteration.yieldFrom,
          hfailure, hrecords, hdrop, List.flatten_cons, and_self]
    · have hend : pages.length ≤ page := not_lt.mp fun h => hnext (hasNext_of_lt hfull hpage h)
      rw [pageLoop, if_neg hnext, List.drop_eq_nil_of_le hend]
      exact ⟨rfl, rfl⟩

/-! ## The whole read -/

/-- From an honest server a read within the page limit returns the pages in order, when
no empty page stands between the first and the last. -/
theorem read_honest (src : LangfuseApiTraceSource) (http : Http τ) (served : Served)
    (hhonest : Honest src http served) (hfull : served.Full src) (hgap : served.NoGap)
    (hids : DistinctIds served.pages []) (hfetches : served.fetches src ≤ src.maxPages)
    (st : ReadState τ) : (src.read http st).1 = .ok served.pages.flatten := by
  suffices h : (src.iterRecords http st).failure = none ∧
      (src.iterRecords http st).records = served.pages.flatten by
    simp only [read, h.1, h.2]
  let start : ReadState τ := { st with seenSignatures := [], stats := { st.stats with pages := 0 } }
  cases served with
  | cursors chain more =>
    obtain ⟨⟨token, data⟩, after, hrest⟩ := List.exists_cons_of_ne_nil more
    simp only [Served.fetches, hrest, List.length_cons] at hfetches
    simp only [Served.NoGap, Served.pages, hrest, List.map_cons, List.tail_cons] at hgap hids ⊢
    obtain ⟨t, ht, -⟩ := hids.ids chain.first List.mem_cons_self
    obtain ⟨metaInfo, st', hfetch, hpages, hsigs, hcursor, -⟩ :=
      fetchPage_honest hhonest .first ht start (fun _ => List.not_mem_nil) (by
        change (0 : ℤ) < src.maxPages
        omega)
    rw [hrest] at hcursor
    have hnext : cursorOf metaInfo = .ok (some token) := hcursor
    have hcount : st'.stats.pages = 1 := hpages
    have hids' : DistinctIds (data :: after.map Prod.snd) st'.seenSignatures := by
      rw [hsigs]
      exact hids.tail ht
    have hfresh : ∀ link ∈ after, link.1 ∉ [token] := by
      intro link hlink hmem
      have hnodup := chain.nodup
      rw [hrest, List.map_cons] at hnodup
      exact (List.nodup_cons.mp hnodup).1
        (List.mem_map.mpr ⟨link, hlink, List.mem_singleton.mp hmem⟩)
    have hsplit : chain.rest = [] ++ (token, data) :: after := hrest
    obtain ⟨hfailure, hrecords⟩ := iterCursorPages_honest hhonest (src.budget st')
      hsplit hgap [token] hfresh st' hids' (by rw [budget, hcount]; omega)
      (by rw [budget, hcount]; omega)
    simp only [iterRecords, start, hfetch, hnext, Iteration.yieldFrom, hfailure, hrecords,
      List.flatten_cons, and_self]
  | numbered pages announced =>
    have hpos : 0 < (Served.numbered pages announced).fetches src := by
      cases announced <;> simp only [Served.fetches] <;> omega
    have hsig : ∃ t, signatureOf (pages.getD 0 []) = .ok t := by
      cases pages with
      | nil => exact ⟨[], rfl⟩
      | cons p ps =>
        obtain ⟨t, ht, -⟩ := hids.ids p List.mem_cons_self
        exact ⟨t, ht⟩
    obtain ⟨t, ht⟩ := hsig
    obtain ⟨metaInfo, st', hfetch, hpages, hsigs, hcursor, htotal⟩ :=
      fetchPage_honest hhonest (.numbered 0) ht start (fun _ => List.not_mem_nil) (by
        change (0 : ℤ) < src.maxPages
        omega)
    have hcount : st'.stats.pages = 1 := hpages
    have hids' : DistinctIds (pages.drop 1) st'.seenSignatures := by
      cases pages with
      | nil => exact ⟨fun p hp => absurd hp List.not_mem_nil, List.Pairwise.nil⟩
      | cons p ps =>
        rw [hsigs]
        exact hids.tail ht
    have hflatten : pages.getD 0 [] ++ (pages.drop 1).flatten = pages.flatten := by
      cases pages <;> rfl
    obtain ⟨hfailure, hrecords⟩ := pageLoop_honest hhonest hfull hgap hfetches (src.budget st')
      le_rfl (le_max_left 1 pages.length) (Or.inl rfl) st' hids' hcount
      (by rw [budget, hcount]; push_cast; omega)
    have hloop : (src.iterNumberedPages http (pages.getD 0 []) metaInfo st').failure = none ∧
        (src.iterNumberedPages http (pages.getD 0 []) metaInfo st').records =
          (pages.drop 1).flatten := by
      by_cases hzero : Served.total pages announced = some 0
      · have hnil : pages = [] := by
          cases announced with
          | true => simpa [Served.total] using hzero
          | false => cases hzero
        have hzero' := (htotal _ _ rfl rfl).trans (congrArg Except.ok hzero)
        simp only [iterNumberedPages, hzero', hnil, List.drop_nil, List.flatten_nil, and_self]
      · rw [iterNumberedPages_eq (htotal _ _ rfl rfl) hzero]
        exact ⟨hfailure, hrecords⟩
    simp only [iterRecords, start, hfetch, hcursor, Iteration.yieldFrom, hloop.1, hloop.2,
      hflatten, Served.pages, and_self]

end LangfuseApiTraceSource

/-! ## A server that is unavailable before every answer -/

omit [Runtime] in
lemma numberedReply_carries (data : List Fields) (total : ℕ) :
    Carries (numberedReply data total) data [("totalPages", .int total)] where
  success := rfl
  decoded := ⟨_, rfl, by cases data <;> rfl, rfl⟩

lemma signatureOf_single {id : String} (h : id ≠ "") :
    signatureOf [[("id", .str id)]] = .ok [id] := by
  have htruthy : (id != "") = true := by simpa using h
  simp [signatureOf, field, orElse, Json.truthy, htruthy, toStr]

end

def unavailable : Reply := ⟨503, none, .empty, 1⟩

/-- Numbered pages with their total; every other call is answered by a 503. -/
def pagesHttp (pages : List (List Fields)) : Http ℕ where
  send calls req :=
    (if calls % 2 = 0 then .ok unavailable
      else match req.ref with
        | .page (n + 1) => .ok (numberedReply (pages.getD n []) pages.length)
        | _ => .error (.raised "HTTPError"), calls + 1)
  sleep calls _ := (.ok (), calls)

lemma pagesHttp_honest [Runtime] (pages : List (List Fields)) :
    Honest sampleSource (pagesHttp pages) (.numbered pages true) where
  sleeps _ _ _ _ _ _ := rfl
  answers := by
    intro ref data next hholds calls
    cases hholds with
    | numbered n =>
      have hanswer : ∀ calls : ℕ, calls % 2 = 1 →
          (pagesHttp pages).send calls (sampleSource.request (.page (n + 1))) =
            (.ok (numberedReply (pages.getD n []) pages.length), calls + 1) := by
        intro calls hodd
        have hne : ¬calls % 2 = 0 := by omega
        simp only [pagesHttp, LangfuseApiTraceSource.request, if_neg hne]
      rcases Nat.mod_two_eq_zero_or_one calls with heven | hodd
      · have hfault : (pagesHttp pages).send calls (sampleSource.request (.page (n + 1))) =
            (.ok unavailable, calls + 1) := by
          simp only [pagesHttp, if_pos heven]
        refine ⟨_, _, _, .later hfault rfl (Or.inl (by omega)) (.now (by decide) (hanswer _ ?_)),
          numberedReply_carries _ _, rfl, ?_⟩
        · omega
        · intro pages' announced hserved _
          cases hserved
          exact totalPages_int pages.length
      · refine ⟨_, _, _, .now (by decide) (hanswer _ hodd), numberedReply_carries _ _, rfl, ?_⟩
        intro pages' announced hserved _
        cases hserved
        exact totalPages_int pages.length

/-- Both pages are read, each after a retry. -/
theorem read_honest_sample :
    letI := Runtime.ascii
    (sampleSource.read (pagesHttp [[[("id", .str "a")]], [[("id", .str "b")]]])
        ⟨0, ⟨0, 0, 0, 0⟩, []⟩).1 =
      .ok [[("id", .str "a")], [("id", .str "b")]] := by
  let := Runtime.ascii
  refine sampleSource.read_honest (pagesHttp [[[("id", .str "a")]], [[("id", .str "b")]]])
    (.numbered _ true) (pagesHttp_honest _) trivial ?_ ⟨?_, ?_⟩ (by decide) _
  · simp [Served.NoGap, Served.pages]
  · intro p hp
    rcases List.mem_pair.mp hp with rfl | rfl <;> exact ⟨_, rfl, fun _ => List.not_mem_nil⟩
  · apply List.pairwise_pair.mpr
    intro _ _
    rw [signatureOf_single (by decide), signatureOf_single (by decide)]
    decide

/-- An empty page between two others ends the read normally, and the records of the last page are
lost, though the server answers every request honestly. -/
theorem read_stops_at_gap :
    letI := Runtime.ascii
    let served := Served.numbered [[[("id", .str "a")]], [], [[("id", .str "b")]]] true
    Honest sampleSource (pagesHttp served.pages) served ∧ served.Full sampleSource ∧
      DistinctIds served.pages [] ∧ served.fetches sampleSource ≤ sampleSource.maxPages ∧
      (sampleSource.read (pagesHttp served.pages) ⟨0, ⟨0, 0, 0, 0⟩, []⟩).1 ≠
        .ok served.pages.flatten := by
  let := Runtime.ascii
  have hlength : ∀ records, (sampleSource.read
      (pagesHttp [[[("id", .str "a")]], [], [[("id", .str "b")]]]) ⟨0, ⟨0, 0, 0, 0⟩, []⟩).1 =
        .ok records → records.length = 1 := by decide +kernel
  refine ⟨pagesHttp_honest _, trivial, ⟨?_, ?_⟩, by decide, ?_⟩
  · intro p hp
    rcases hp with _ | ⟨_, _ | ⟨_, _ | ⟨_, ⟨⟩⟩⟩⟩ <;> exact ⟨_, rfl, fun _ => List.not_mem_nil⟩
  · have hne : signatureOf [[("id", .str "a")]] ≠ signatureOf [[("id", .str "b")]] := by
      rw [signatureOf_single (by decide), signatureOf_single (by decide)]
      decide
    simpa [Served.pages] using hne
  · intro h
    cases hlength _ h

end InferenceControlPlane.Sli

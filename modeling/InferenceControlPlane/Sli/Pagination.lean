import InferenceControlPlane.Sli.LangfuseApi

/-!
# Paginated reads fail closed

A server holds the pages of a window and announces them by a chain of cursors or by
their total. Between the server and the read stands an adversary that may replace any
response. A read that returns has every page, except that an empty later numbered page
ends it early by design.
-/
namespace InferenceControlPlane.Sli
open Python

section
variable [Runtime]

/-! ## What a call of the transport tells the read -/

/-- A response that carries a page: its records, the cursor it announces, and the
total it announces. -/
structure PageReply (reply : Reply) (data : List Fields) (next : Option String)
    (total : Option ℤ) : Prop where
  success : isSuccess reply.status = true
  page : ∃ body metaInfo, reply.text = .json (.obj body) ∧
    orElse (field body "data") (.arr []) = .arr (data.map .obj) ∧
    orElse (field body "meta") (.obj []) = .obj metaInfo ∧
    cursorOf metaInfo = .ok next ∧ totalPages metaInfo = .ok total

/-- The response that a fetch accepted, and what it took from it: the records and the metadata of
its page. -/
structure Accepted {τ : Type} (http : Http τ) (req : Request) (data : List Fields)
    (metaInfo : Fields) (final : τ) (reply : Reply) : Prop where
  sent : ∃ net, http.send net req = (.ok reply, final)
  success : isSuccess reply.status = true
  decoded : ∃ body, decode reply.text = .ok body ∧
    orElse (field body "data") (.arr []) = .arr (data.map .obj) ∧
    orElse (field body "meta") (.obj []) = .obj metaInfo

omit [Runtime] in
lemma mapM_asObject {items : List Json} {data : List Fields}
    (h : items.mapM asObject = some data) : items = data.map .obj := by
  induction items generalizing data with
  | nil =>
    cases h
    rfl
  | cons item items ih =>
    rw [List.mapM_cons] at h
    cases hi : asObject item with
    | none => simp [hi] at h
    | some fields =>
      cases hrest : items.mapM asObject with
      | none => simp [hi, hrest] at h
      | some rest =>
        simp only [hi, hrest, Option.pure_def, Option.bind_eq_bind, Option.bind_some,
          Option.some.injEq] at h
        subst h
        cases item with
        | obj fs =>
          cases hi
          rw [List.map_cons, ← ih hrest]
        | _ => cases hi

/-- A page that passes the checks has the records and the metadata of the body. -/
lemma checkPage_ok {body : Fields} {seen : List (List String)} {page : Page}
    (h : checkPage body seen = .ok page) :
    orElse (field body "data") (.arr []) = .arr (page.data.map .obj) ∧
      orElse (field body "meta") (.obj []) = .obj page.metaInfo := by
  unfold checkPage at h
  split at h
  · next items metaInfo hdata hmeta =>
    split at h
    · cases h
    · next data hitems =>
      split at h
      · cases h
      · split_ifs at h
        cases h
        exact ⟨mapM_asObject hitems ▸ hdata, hmeta⟩
  · cases h
  · cases h

namespace LangfuseApiTraceSource
variable {τ : Type} {src : LangfuseApiTraceSource} {http : Http τ}

/-- A request that returns a body got it from its last call, whose status was a success. -/
theorem get_ok {req : Request} {attempts attempt : ℕ} {st st' : ReadState τ} {body : Fields}
    (h : src.get http req attempts attempt st = (.ok body, st')) :
    ∃ net reply, http.send net req = (.ok reply, st'.net) ∧ isSuccess reply.status = true ∧
      decode reply.text = .ok body := by
  induction attempts generalizing attempt st with
  | zero => cases h
  | succ attempts ih =>
    unfold get at h
    split at h
    · cases h
    · next reply net hsend =>
      dsimp only at h
      split_ifs at h with htransient hsuccess
      · split at h
        · cases h
        · split at h
          · cases h
          · exact ih h
      · obtain ⟨hbody, rfl⟩ := Prod.mk.inj h
        exact ⟨st.net, reply, hsend, hsuccess, hbody⟩
      · cases h

/-- A page that is fetched was carried by the response to its request, whatever was retried
before. -/
theorem fetchPage_ok {ref : PageRef} {st st' : ReadState τ} {data : List Fields}
    {metaInfo : Fields} (h : src.fetchPage http ref st = (.ok (data, metaInfo), st')) :
    ∃ reply, Accepted http (src.request ref) data metaInfo st'.net reply := by
  unfold fetchPage at h
  split_ifs at h with hlimit
  · cases h
  · split at h
    · cases h
    · next body mid hget =>
      split at h
      · cases h
      · next page hpage =>
        obtain ⟨net, reply, hsend, hsuccess, hbody⟩ := get_ok hget
        obtain ⟨hdata, hmeta⟩ := checkPage_ok hpage
        cases h
        exact ⟨reply, ⟨net, hsend⟩, hsuccess, body, hbody, hdata, hmeta⟩

end LangfuseApiTraceSource

omit [Runtime] in
lemma map_obj_injective {data data' : List Fields} (h : data.map Json.obj = data'.map Json.obj) :
    data = data' :=
  List.map_injective_iff.mpr (fun _ _ h => Json.obj.inj h) h

/-- What is accepted from a response that carries a page is that page, with its metadata. -/
theorem Accepted.of_pageReply {τ : Type} {http : Http τ} {req : Request}
    {data data' : List Fields} {metaInfo : Fields} {final : τ} {reply : Reply}
    {next : Option String} {total : Option ℤ} (h : Accepted http req data metaInfo final reply)
    (hreply : PageReply reply data' next total) :
    data = data' ∧ cursorOf metaInfo = .ok next ∧ totalPages metaInfo = .ok total := by
  obtain ⟨body, hbody, hdata, hmeta⟩ := h.decoded
  obtain ⟨body', metaInfo', htext, hdata', hmeta', hcursor, htotal⟩ := hreply.page
  rw [htext] at hbody
  cases hbody
  rw [hdata'] at hdata
  rw [hmeta'] at hmeta
  cases hmeta
  exact ⟨(map_obj_injective (Json.arr.inj hdata)).symm, hcursor, htotal⟩

/-! ## Servers and the adversary -/

/-- Pages that are announced by a chain of distinct cursors, each page naming the cursor of the
next one and the last naming none. -/
structure CursorChain where
  first : List Fields
  rest : List (String × List Fields)
  nodup : (rest.map Prod.fst).Nodup

/-- What a server holds for a window, as it hands it out: a chain of cursors, or numbered pages,
none of them empty. -/
inductive Catalog where
  | chain (c : CursorChain)
  | numbered (pages : List (List Fields)) (full : ∀ p ∈ pages, p ≠ [])

namespace Catalog

def pages : Catalog → List (List Fields)
  | chain c => c.first :: c.rest.map Prod.snd
  | numbered pages _ => pages

/-- The truthful responses. A chain need not announce a total; asked for a later page
number it has none to give. -/
inductive Serves : Catalog → PageRef → Reply → Prop
  | first {c : CursorChain} {reply : Reply} {total : Option ℤ}
      (hreply : PageReply reply c.first (c.rest.head?.map Prod.fst) total)
      (htotal : total = none ∨ total = some ((chain c).pages.length : ℤ)) :
      Serves (chain c) (.page 1) reply
  | next {c : CursorChain} {before after : List (String × List Fields)} {token : String}
      {data : List Fields} {reply : Reply} {total : Option ℤ}
      (hrest : c.rest = before ++ (token, data) :: after)
      (hreply : PageReply reply data (after.head?.map Prod.fst) total) :
      Serves (chain c) (.cursor token) reply
  | beyond {c : CursorChain} {n : ℕ} {reply : Reply} {total : Option ℤ} (hn : 2 ≤ n)
      (hreply : PageReply reply [] none total) : Serves (chain c) (.page n) reply
  | numbered {pages : List (List Fields)} {full : ∀ p ∈ pages, p ≠ []} {n : ℕ}
      {data : List Fields} {reply : Reply} (hpage : pages[n]? = some data)
      (hreply : PageReply reply data none (some pages.length)) :
      Serves (numbered pages full) (.page (n + 1)) reply

end Catalog

/-- What the adversary puts in the place of a response: a failure status, a text that
is not JSON, an object whose `data` is something else than a list, or an empty later
page. -/
inductive Tampered : PageRef → Reply → Prop
  | failure {ref : PageRef} {reply : Reply} (h : isSuccess reply.status = false) :
      Tampered ref reply
  | notJson {ref : PageRef} {reply : Reply} (text : String) (h : reply.text = .malformed text) :
      Tampered ref reply
  | notList {ref : PageRef} {reply : Reply} (body : Fields) (h : reply.text = .json (.obj body))
      (hdata : (field body "data").truthy = true)
      (hlist : ∀ items, field body "data" ≠ .arr items) : Tampered ref reply
  | emptyPage {n : ℕ} {reply : Reply} {next : Option String} {total : Option ℤ} (hn : 2 ≤ n)
      (h : PageReply reply [] next total) : Tampered (.page n) reply

/-- Every response is truthful or tampered with. -/
def Faces {τ : Type} (http : Http τ) (catalog : Catalog) : Prop :=
  ∀ net req reply net', http.send net req = (.ok reply, net') →
    catalog.Serves req.ref reply ∨ Tampered req.ref reply

/-- The read's last call was answered by an empty page. -/
def EndedBy {τ : Type} (http : Http τ) (req : Request) (final : τ) : Prop :=
  ∃ net reply next total, http.send net req = (.ok reply, final) ∧ PageReply reply [] next total

/-- Of the tampered responses only the empty page is accepted: every other one makes the read
raise. -/
theorem Accepted.of_tampered {τ : Type} {http : Http τ} {req : Request} {data : List Fields}
    {metaInfo : Fields} {final : τ} {reply : Reply}
    (h : Accepted http req data metaInfo final reply) (ht : Tampered req.ref reply) :
    ∃ n, req.ref = .page n ∧ 2 ≤ n ∧ data = [] ∧ EndedBy http req final := by
  obtain ⟨body, hbody, hdata, -⟩ := h.decoded
  obtain ⟨net, hsend⟩ := h.sent
  generalize href : req.ref = ref at ht
  cases ht with
  | failure hfail =>
    rw [h.success] at hfail
    cases hfail
  | notJson text htext =>
    rw [htext] at hbody
    cases hbody
  | notList body' htext htruthy hlist =>
    rw [htext] at hbody
    cases hbody
    rw [orElse, if_pos htruthy] at hdata
    exact absurd hdata (hlist _)
  | @emptyPage n _ next total hn hempty =>
    exact ⟨n, rfl, hn, (h.of_pageReply hempty).1, net, reply, next, total, hsend, hempty⟩

/-! ## Cursor mode -/

omit [Runtime] in
/-- Distinct cursors split a chain in one way. -/
lemma split_unique {rest before before' after after' : List (String × List Fields)}
    {token : String} {data data' : List Fields} (hnodup : (rest.map Prod.fst).Nodup)
    (h : rest = before ++ (token, data) :: after)
    (h' : rest = before' ++ (token, data') :: after') : data = data' ∧ after = after' := by
  subst h
  induction before generalizing before' with
  | nil =>
    cases before' with
    | nil => simpa using h'
    | cons e before' =>
      simp only [List.nil_append, List.cons_append, List.cons.injEq] at h'
      obtain ⟨rfl, rfl⟩ := h'
      simp at hnodup
  | cons e before ih =>
    simp only [List.cons_append, List.map_cons, List.nodup_cons] at hnodup
    cases before' with
    | nil =>
      simp only [List.nil_append, List.cons_append, List.cons.injEq] at h'
      obtain ⟨rfl, rfl⟩ := h'
      simp at hnodup
    | cons e' before' =>
      simp only [List.cons_append, List.cons.injEq] at h'
      exact ih hnodup.2 h'.2

namespace LangfuseApiTraceSource
variable {τ : Type} {src : LangfuseApiTraceSource} {http : Http τ}

/-- From the cursor of a page on, a read that returns has the rest of the chain. -/
theorem iterCursorPages_complete {c : CursorChain} (hfaces : Faces http (.chain c))
    (budget : ℕ) {before after : List (String × List Fields)} {token : String}
    {data : List Fields} (hrest : c.rest = before ++ (token, data) :: after)
    (seen : List String) (st : ReadState τ)
    (hend : (src.iterCursorPages http budget token seen st).failure = none) :
    (src.iterCursorPages http budget token seen st).records =
      data ++ (after.map Prod.snd).flatten := by
  induction budget generalizing before token data after seen st with
  | zero => cases hend
  | succ budget ih =>
    unfold iterCursorPages at hend ⊢
    cases hfetch : src.fetchPage http (.cursor token) st with
    | mk result st' =>
      cases result with
      | error e => simp [hfetch] at hend
      | ok page =>
        obtain ⟨got, metaInfo⟩ := page
        obtain ⟨reply, hacc⟩ := fetchPage_ok hfetch
        obtain ⟨net, hsend⟩ := hacc.sent
        have hserved : got = data ∧ cursorOf metaInfo = .ok (after.head?.map Prod.fst) := by
          rcases hfaces _ _ _ _ hsend with hs | ht
          · generalize href : (src.request (.cursor token)).ref = ref at hs
            cases hs with
            | @next _ before' after' token' data' _ _ hrest' hreply =>
              cases href
              obtain ⟨rfl, rfl⟩ := split_unique c.nodup hrest hrest'
              exact ⟨(hacc.of_pageReply hreply).1, (hacc.of_pageReply hreply).2.1⟩
            | first => cases href
            | beyond => cases href
          · obtain ⟨n, href, -⟩ := hacc.of_tampered ht
            cases href
        obtain ⟨rfl, hcursor⟩ := hserved
        simp only [hfetch, hcursor] at hend ⊢
        cases after with
        | nil => simp
        | cons link after =>
          simp only [List.head?_cons, Option.map_some] at hend ⊢
          split_ifs at hend ⊢ with hempty hseen
          have hrest' : c.rest = (before ++ [(token, got)]) ++ (link.1, link.2) :: after := by
            simpa using hrest
          simp only [Iteration.yieldFrom] at hend ⊢
          rw [ih hrest' _ _ hend, List.map_cons, List.flatten_cons]

/-! ## Numbered mode -/

/-- From a page number on, a read that returns has the remaining pages, or those before
the empty page that ended it. -/
theorem pageLoop_complete {pages : List (List Fields)} {full : ∀ p ∈ pages, p ≠ []}
    (hfaces : Faces http (.numbered pages full)) (budget : ℕ) {page : ℕ} (hpage : 1 ≤ page)
    (previous : List Fields) (st : ReadState τ)
    (hend : (src.pageLoop http (some pages.length) budget page previous st).failure = none) :
    (src.pageLoop http (some pages.length) budget page previous st).records =
        (pages.drop page).flatten ∨
      ∃ n, page ≤ n ∧ n < pages.length ∧
        (src.pageLoop http (some pages.length) budget page previous st).records =
          ((pages.drop page).take (n - page)).flatten ∧
        EndedBy http (src.request (.page (n + 1)))
          (src.pageLoop http (some pages.length) budget page previous st).state.net := by
  induction budget generalizing page previous st with
  | zero =>
    unfold pageLoop at hend ⊢
    split_ifs at hend ⊢ with hnext
    left
    have hle : pages.length ≤ page := by simpa [hasNext] using hnext
    rw [List.drop_eq_nil_of_le hle, List.flatten_nil]
  | succ budget ih =>
    unfold pageLoop at hend ⊢
    by_cases hnext : src.hasNext (some pages.length) page previous = true
    · rw [if_pos hnext] at hend ⊢
      have hlt : page < pages.length := by simpa [hasNext] using hnext
      dsimp only at hend ⊢
      cases hfetch : src.fetchPage http (.page (page + 1)) st with
      | mk result st' =>
        cases result with
        | error e => simp [hfetch] at hend
        | ok fetched =>
          obtain ⟨got, metaInfo⟩ := fetched
          simp only [hfetch] at hend ⊢
          obtain ⟨reply, hacc⟩ := fetchPage_ok hfetch
          obtain ⟨net, hsend⟩ := hacc.sent
          cases hcursor : cursorOf metaInfo with
          | error e => simp [hcursor] at hend
          | ok next =>
            cases next with
            | some token => simp [hcursor] at hend
            | none =>
              simp only [hcursor] at hend ⊢
              rcases hfaces _ _ _ _ hsend with hs | ht
              · have hserved : pages[page]? = some got := by
                  generalize href : (src.request (.page (page + 1))).ref = ref at hs
                  cases hs with
                  | numbered hget hreply =>
                    cases href
                    rw [(hacc.of_pageReply hreply).1]
                    exact hget
                have hne : got ≠ [] := full got (List.mem_of_getElem? hserved)
                have hdrop : pages.drop page = got :: pages.drop (page + 1) := by
                  rw [List.drop_eq_getElem_cons hlt]
                  rw [List.getElem?_eq_getElem hlt] at hserved
                  rw [Option.some.inj hserved]
                rw [if_neg hne] at hend ⊢
                simp only [Iteration.yieldFrom] at hend ⊢
                rcases ih (Nat.le_succ_of_le hpage) got st' hend with hall |
                  ⟨n, hn, hlen, hrec, hby⟩
                · left
                  rw [hall, hdrop, List.flatten_cons]
                · right
                  refine ⟨n, by omega, hlen, ?_, hby⟩
                  have hsub : n - page = (n - (page + 1)) + 1 := by omega
                  rw [hrec, hdrop, hsub, List.take_succ_cons, List.flatten_cons]
              · obtain ⟨n, href, -, rfl, hby⟩ := hacc.of_tampered ht
                rw [if_pos rfl] at hend ⊢
                right
                exact ⟨page, le_rfl, hlt, by simp, hby⟩
    · rw [if_neg hnext] at hend ⊢
      left
      have hle : pages.length ≤ page := by simpa [hasNext] using hnext
      rw [List.drop_eq_nil_of_le hle, List.flatten_nil]

/-- A chain without a cursor is one page: the numbered loop asks at most for a page
that does not exist, and adds nothing. -/
theorem pageLoop_beyond {c : CursorChain} (hfaces : Faces http (.chain c)) (total : Option ℤ)
    (budget : ℕ) {page : ℕ} (hpage : 1 ≤ page) (previous : List Fields) (st : ReadState τ)
    (hend : (src.pageLoop http total budget page previous st).failure = none) :
    (src.pageLoop http total budget page previous st).records = [] := by
  unfold pageLoop at hend ⊢
  split_ifs at hend ⊢ with hnext
  · cases budget with
    | zero => rfl
    | succ budget =>
      cases hfetch : src.fetchPage http (.page (page + 1)) st with
      | mk result st' =>
        cases result with
        | error e => simp
        | ok fetched =>
          obtain ⟨got, metaInfo⟩ := fetched
          obtain ⟨reply, hacc⟩ := fetchPage_ok hfetch
          obtain ⟨net, hsend⟩ := hacc.sent
          have hempty : got = [] := by
            rcases hfaces _ _ _ _ hsend with hs | ht
            · generalize href : (src.request (.page (page + 1))).ref = ref at hs
              cases hs with
              | first =>
                injection href with hone
                omega
              | next => cases href
              | beyond hn hreply => exact (hacc.of_pageReply hreply).1
            · obtain ⟨_, _, _, h, _⟩ := hacc.of_tampered ht
              exact h
          subst hempty
          cases hcursor : cursorOf metaInfo with
          | error e => simp [hcursor]
          | ok next => cases next <;> simp [hcursor]
  · rfl

/-! ## The whole read -/

/-- A total that is not zero enters the loop. -/
lemma iterNumberedPages_eq {metaInfo : Fields} {total : Option ℤ}
    (htotal : totalPages metaInfo = .ok total) (hne : total ≠ some 0) (previous : List Fields)
    (st : ReadState τ) : src.iterNumberedPages http previous metaInfo st =
      src.pageLoop http total (src.budget st) 1 previous st := by
  unfold iterNumberedPages
  rw [htotal]
  split
  · next h => cases h
  · next h => exact absurd (Except.ok.inj h) hne
  · next h => rw [Except.ok.inj h]

/-- A read that returns, from a server whose responses an adversary may replace by
failures, texts that are not JSON, objects without a list, and empty later pages, has
every page; only in numbered mode may it have the pages before the empty page that
answered its last call. -/
theorem read_complete (src : LangfuseApiTraceSource) (http : Http τ) (catalog : Catalog)
    (hfaces : Faces http catalog) (st : ReadState τ) (records : List Fields)
    (h : (src.read http st).1 = .ok records) :
    records = catalog.pages.flatten ∨
      ∃ pages full n, catalog = .numbered pages full ∧ 1 ≤ n ∧ n < pages.length ∧
        records = (pages.take n).flatten ∧
        EndedBy http (src.request (.page (n + 1))) (src.read http st).2.net := by
  have hread : (src.iterRecords http st).failure = none ∧
      records = (src.iterRecords http st).records := by
    simp only [read] at h
    split at h
    · cases h
    · next hnone => exact ⟨hnone, (Except.ok.inj h).symm⟩
  obtain ⟨hend, rfl⟩ := hread
  simp only [read]
  unfold iterRecords at hend ⊢
  dsimp only at hend ⊢
  generalize ({ st with
    seenSignatures := [], stats := { st.stats with pages := 0 } } : ReadState τ) = start at hend ⊢
  cases hfetch : src.fetchPage http (.page 1) start with
  | mk result st' =>
    cases result with
    | error e => simp [hfetch] at hend
    | ok fetched =>
      obtain ⟨got, metaInfo⟩ := fetched
      obtain ⟨reply, hacc⟩ := fetchPage_ok hfetch
      obtain ⟨net, hsend⟩ := hacc.sent
      simp only [hfetch, Iteration.yieldFrom] at hend ⊢
      rcases hfaces _ _ _ _ hsend with hs | ht
      · generalize href : (src.request (.page 1)).ref = ref at hs
        cases hs with
        | @first c _ total hreply htotal =>
          left
          obtain ⟨rfl, hcursor, hpages⟩ := hacc.of_pageReply hreply
          simp only [Catalog.pages, List.flatten_cons, List.append_cancel_left_eq]
          simp only [hcursor] at hend ⊢
          cases hrest : c.rest with
          | nil =>
            have hne : total ≠ some 0 := by
              rcases htotal with rfl | rfl
              · simp
              · simp [Catalog.pages]
                omega
            simp only [hrest, List.head?_nil, Option.map_none] at hend ⊢
            rw [iterNumberedPages_eq hpages hne] at hend ⊢
            exact pageLoop_beyond hfaces _ _ le_rfl _ _ hend
          | cons link after =>
            simp only [hrest, List.head?_cons, Option.map_some] at hend ⊢
            have hsplit : c.rest = [] ++ (link.1, link.2) :: after := hrest
            rw [List.map_cons, List.flatten_cons]
            exact iterCursorPages_complete hfaces _ hsplit _ _ hend
        | next => cases href
        | beyond hn =>
          injection href with hone
          omega
        | @numbered pages full n data _ hpage hreply =>
          injection href with hone
          have hzero : n = 0 := by omega
          subst hzero
          obtain ⟨rfl, hcursor, hpages⟩ := hacc.of_pageReply hreply
          have hlen : 0 < pages.length := (List.getElem?_eq_some_iff.mp hpage).1
          have hne : (some (pages.length : ℤ)) ≠ some 0 := by
            simp only [ne_eq, Option.some.injEq]
            omega
          have hdrop : pages = got :: pages.drop 1 := by
            cases pages with
            | nil => cases hpage
            | cons p ps =>
              simp only [List.getElem?_cons_zero, Option.some.injEq] at hpage
              rw [hpage, List.drop_one, List.tail_cons]
          simp only [hcursor] at hend ⊢
          rw [iterNumberedPages_eq hpages hne] at hend ⊢
          rcases pageLoop_complete hfaces _ le_rfl _ _ hend with hall | ⟨n, hn, hlt, hrec, hby⟩
          · left
            rw [hall]
            simp only [Catalog.pages]
            conv_rhs => rw [hdrop]
            rw [List.flatten_cons]
          · right
            refine ⟨pages, full, n, rfl, hn, hlt, ?_, hby⟩
            obtain ⟨m, rfl⟩ : ∃ m, n = m + 1 := ⟨n - 1, by omega⟩
            rw [hrec]
            conv_rhs => rw [hdrop]
            rw [List.take_succ_cons, List.flatten_cons, Nat.add_sub_cancel]
      · obtain ⟨n, href, hn, -⟩ := hacc.of_tampered ht
        injection href with hone
        omega

end LangfuseApiTraceSource

/-! ## Two numbered pages -/

/-- A response of a server with numbered pages. -/
def numberedReply (data : List Fields) (total : ℕ) : Reply :=
  ⟨200, none, .json (.obj [("data", .arr (data.map .obj)),
    ("meta", .obj [("totalPages", .int total)])]), 1⟩

lemma totalPages_int (total : ℕ) :
    totalPages [("totalPages", .int total)] = .ok (some (total : ℤ)) := by
  have hnot : ¬ (total : ℤ) < 0 := by omega
  change (if (total : ℤ) < 0 then Except.error (SourceErr.incomplete "invalid totalPages")
    else .ok (some (total : ℤ))) = _
  rw [if_neg hnot]

lemma numberedReply_page (data : List Fields) (total : ℕ) :
    PageReply (numberedReply data total) data none (some total) where
  success := rfl
  page := by
    refine ⟨_, [("totalPages", .int total)], rfl, ?_, rfl, rfl, totalPages_int total⟩
    cases data <;> rfl

end

/-- Two pages of one record each. -/
def twoPages : Catalog :=
  .numbered [[[("id", .str "a")]], [[("id", .str "b")]]] (by simp)

def overloaded : Reply := ⟨429, some "0", .empty, 1⟩

/-- A server that is overloaded once, and then answers page 2 with `second`. -/
def twoPagesHttp (second : List Fields) : Http ℕ where
  send calls req :=
    (if calls = 0 then .ok overloaded
      else match req.ref with
        | .page 1 => .ok (numberedReply [[("id", .str "a")]] 2)
        | .page 2 => .ok (numberedReply second 2)
        | _ => .error (.raised "HTTPError"), calls + 1)
  sleep calls _ := (.ok (), calls)

lemma twoPagesHttp_faces [Runtime] (second : List Fields)
    (hsecond : second = [] ∨ second = [[("id", .str "b")]]) :
    Faces (twoPagesHttp second) twoPages := by
  rintro calls ⟨limit, start, stop, ref⟩ reply net h
  obtain ⟨hreply, -⟩ := Prod.mk.inj h
  dsimp only at hreply ⊢
  split_ifs at hreply with hcalls
  · cases hreply
    exact Or.inr (.failure rfl)
  · split at hreply
    · cases hreply
      exact Or.inl (.numbered rfl (numberedReply_page _ 2))
    · cases hreply
      rcases hsecond with rfl | rfl
      · exact Or.inr (.emptyPage le_rfl (numberedReply_page _ 2))
      · exact Or.inl (.numbered rfl (numberedReply_page _ 2))
    · cases hreply

def sampleSource : LangfuseApiTraceSource := ⟨none, none, 50, 10000, 5, .finite (1 / 2)⟩

/-- Both pages are read. -/
theorem read_complete_sample :
    letI := Runtime.ascii
    ∃ records, (sampleSource.read (twoPagesHttp [[("id", .str "b")]]) ⟨0, ⟨0, 0, 0, 0⟩, []⟩).1 =
        .ok records ∧
      (records = twoPages.pages.flatten ∨
        ∃ pages full n, twoPages = .numbered pages full ∧ 1 ≤ n ∧ n < pages.length ∧
          records = (pages.take n).flatten ∧
          EndedBy (twoPagesHttp [[("id", .str "b")]]) (sampleSource.request (.page (n + 1)))
            (sampleSource.read (twoPagesHttp [[("id", .str "b")]]) ⟨0, ⟨0, 0, 0, 0⟩,
              []⟩).2.net) := by
  let := Runtime.ascii
  obtain ⟨records, h⟩ : ∃ records, (sampleSource.read (twoPagesHttp [[("id", .str "b")]])
      ⟨0, ⟨0, 0, 0, 0⟩, []⟩).1 = .ok records := exists_ok_of_isOk (by decide +kernel)
  exact ⟨records, h, sampleSource.read_complete _ _ (twoPagesHttp_faces _ (Or.inr rfl)) _ _ h⟩

/-- An empty second page of three ends the read with the records of the first, without an error,
though the total announces three pages. -/
theorem read_stops_at_empty_page :
    letI := Runtime.ascii
    Faces (twoPagesHttp []) twoPages ∧
      ∃ records, (sampleSource.read (twoPagesHttp []) ⟨0, ⟨0, 0, 0, 0⟩, []⟩).1 = .ok records ∧
        records ≠ twoPages.pages.flatten := by
  let := Runtime.ascii
  obtain ⟨records, h⟩ : ∃ records, (sampleSource.read (twoPagesHttp [])
      ⟨0, ⟨0, 0, 0, 0⟩, []⟩).1 = .ok records := exists_ok_of_isOk (by decide +kernel)
  have hlength : ∀ records, (sampleSource.read (twoPagesHttp [])
      ⟨0, ⟨0, 0, 0, 0⟩, []⟩).1 = .ok records → records.length = 1 := by decide +kernel
  refine ⟨twoPagesHttp_faces _ (Or.inl rfl), records, h, ?_⟩
  rintro rfl
  cases hlength _ h

end InferenceControlPlane.Sli

import ServiceFramework.Net.HttpSyncFetch

/-!
# Requests of the two kinds of calls

`HttpClientGet` and `HttpClientPost` (`net/server/http_client.cc`) take a callback;
`HttpClientSyncGet` and `HttpClientSyncPost` suspend a fiber instead. Both come to the same `Fetch`,
whose last arguments are two strings, the headers and the data to post.

The two kinds of posts start the same requests. `HttpClientGet` with headers calls the `Fetch`
without headers and gives them as its data, which a get does not send. So the two gets start the
same request only where the header string has no header (`same_requests_iff`).
-/

namespace ServiceFramework.Net

open Transition

/-! ## The calls on a fiber -/

section Calls

variable {M : Type} (env : HttpEnv) (pool : SlotPool)
  (cb : Option (HttpClientReplyData M → HttpClientReplyData M)) (during : List (HttpEvent M))

/-- `HttpClientSyncFetch` on a thread with the given slots, until `Fetch` returns: the client that
was made, `none` where there is no slot. `during` is the events reported inside `Fetch`. -/
def httpClientSyncFetch (method : HttpMethod) (url headers postData : Str) :
    Option (HttpClient M) :=
  if !pool.manager.inited then
    none
  else
    match pool.alloc with
    | some (some _) =>
      HttpClient.fetch env (HttpClient.addRef { cb }) method url headers postData during
    | _ => none

/-- `HttpClientSyncGet(evb, url)`. -/
def httpClientSyncGet (url : Str) : Option (HttpClient M) :=
  httpClientSyncFetch env pool cb during .get url [] []

/-- `HttpClientSyncGet(evb, url, headers)`. -/
def httpClientSyncGetWithHeaders (url headers : Str) : Option (HttpClient M) :=
  httpClientSyncFetch env pool cb during .get url headers []

/-- `HttpClientSyncPost(evb, url, post_data)`. -/
def httpClientSyncPost (url postData : Str) : Option (HttpClient M) :=
  httpClientSyncFetch env pool cb during .post url [] postData

/-- `HttpClientSyncPost(evb, url, headers, post_data)`. -/
def httpClientSyncPostWithHeaders (url headers postData : Str) : Option (HttpClient M) :=
  httpClientSyncFetch env pool cb during .post url headers postData

end Calls

/-! ## The request of a call -/

namespace HttpClient

variable {M : Type}

theorem httpClient_invokeCb (c : HttpClient M) : c.invokeCb.httpClient = c.httpClient := by
  unfold invokeCb
  split <;> rfl

theorem httpClient_releaseRef (c : HttpClient M) : c.releaseRef.httpClient = c.httpClient := by
  unfold releaseRef
  split <;> rfl

theorem httpClient_onBodyComplete (c : HttpClient M) (body : Option (List UInt8)) :
    (c.onBodyComplete body).httpClient = c.httpClient := by
  unfold onBodyComplete
  dsimp only
  rw [httpClient_releaseRef, httpClient_invokeCb]
  split <;> rfl

/-- The events of a client leave its request as it is. -/
theorem httpClient_handle {c c' : HttpClient M} {e : HttpEvent M} (h : c.handle e = some c') :
    c'.httpClient = c.httpClient := by
  unfold handle at h
  split at h
  · cases h
  · cases e with
    | connectError =>
      cases h
      exact (httpClient_releaseRef _).trans (httpClient_invokeCb _)
    | connectSuccess =>
      cases h
      rfl
    | onHeadersComplete msg =>
      cases h
      rfl
    | onBody chain =>
      cases hbody : c.body <;> simp only [hbody] at h <;> cases h <;> rfl
    | onError =>
      cases h
      rfl
    | detachTransaction =>
      cases h
      exact httpClient_onBodyComplete _ _

/-- `Fetch` starts the request of its arguments, unless it refuses the URL. -/
theorem httpClient_fetch {env : HttpEnv} {c c' : HttpClient M} {method : HttpMethod}
    {url headers postData : Str} {during : List (HttpEvent M)}
    (h : fetch env c method url headers postData during = some c') :
    c'.httpClient =
      if env.accepts url then some (.make method url headers postData) else c.httpClient := by
  unfold fetch at h
  split at h
  · next hv =>
    have hrefused : env.accepts url = false := by
      simp only [Bool.not_eq_true'] at hv
      simp [HttpEnv.accepts, hv]
    cases h
    rw [hrefused, httpClient_invokeCb]
    rfl
  · split at h
    · next hh =>
      have hrefused : env.accepts url = false := by simp [HttpEnv.accepts, hh]
      cases h
      rw [hrefused, httpClient_invokeCb]
      rfl
    · next hv hh =>
      have haccepts : env.accepts url = true := by
        simpa [HttpEnv.accepts] using And.intro hv hh
      rw [haccepts, if_pos rfl]
      exact run_invariant
        (P := fun d : HttpClient M => d.httpClient = some (.make method url headers postData))
        (fun d e d' hd he => (httpClient_handle he).trans hd) rfl h

theorem httpClient_call {env : HttpEnv}
    {cb : Option (HttpClientReplyData M → HttpClientReplyData M)} {c : HttpClient M}
    {method : HttpMethod} {url headers postData : Str} {during : List (HttpEvent M)}
    (h : call env cb method url headers postData during = some c) :
    c.httpClient =
      if env.accepts url then some (.make method url headers postData) else none := by
  obtain ⟨d, hd, hr⟩ := Option.bind_eq_some_iff.1 h
  split at hr
  · cases hr
  · cases hr
    rw [httpClient_releaseRef, httpClient_fetch hd]
    rfl

/-- A call returns if its connector has nothing to report yet. -/
theorem exists_call (env : HttpEnv)
    (cb : Option (HttpClientReplyData M → HttpClientReplyData M)) (method : HttpMethod)
    (url headers postData : Str) : ∃ c, call env cb method url headers postData [] = some c := by
  unfold call fetch invokeCb
  split
  · cases cb <;> exact ⟨_, rfl⟩
  · split
    · cases cb <;> exact ⟨_, rfl⟩
    · exact ⟨_, rfl⟩

theorem exists_fetch (env : HttpEnv) (c : HttpClient M) (method : HttpMethod)
    (url headers postData : Str) : ∃ c', fetch env c method url headers postData [] = some c' := by
  unfold fetch
  split
  · exact ⟨_, rfl⟩
  · split <;> exact ⟨_, rfl⟩

end HttpClient

theorem httpClient_httpClientSyncFetch {M : Type} {env : HttpEnv} {pool : SlotPool}
    {cb : Option (HttpClientReplyData M → HttpClientReplyData M)} {during : List (HttpEvent M)}
    {method : HttpMethod} {url headers postData : Str} {c : HttpClient M}
    (h : httpClientSyncFetch env pool cb during method url headers postData = some c) :
    c.httpClient =
      if env.accepts url then some (.make method url headers postData) else none := by
  unfold httpClientSyncFetch at h
  split at h
  · cases h
  · split at h
    · exact HttpClient.httpClient_fetch h
    · cases h

theorem exists_httpClientSyncFetch {M : Type} (env : HttpEnv) {pool : SlotPool}
    (hinited : pool.manager.inited = true) (hroom : pool.manager.datas.size < fiberMaxQueueSize)
    (cb : Option (HttpClientReplyData M → HttpClientReplyData M)) (method : HttpMethod)
    (url headers postData : Str) :
    ∃ c, httpClientSyncFetch env pool cb [] method url headers postData = some c := by
  obtain ⟨q, hq⟩ := FiberThread.alloc_of_room hinited hroom
  unfold httpClientSyncFetch
  rw [if_neg (by simp [hinited]), hq]
  exact HttpClient.exists_fetch env _ method url headers postData

/-! ## Header strings without headers -/

/-- What is in front of the first separator. -/
theorem splitOn_eq_takeWhile_cons (a : Char) (s : Str) :
    ∃ rest, s.splitOn a = s.takeWhile (· ≠ a) :: rest := by
  induction s with
  | nil => exact ⟨[], rfl⟩
  | cons c s ih =>
    obtain ⟨rest, hrest⟩ := ih
    rw [List.splitOn_eq_splitOnP] at hrest ⊢
    rw [List.splitOnP_cons_eq_if_modifyHead, hrest]
    by_cases hc : c = a
    · subst hc
      exact ⟨s.takeWhile (· ≠ c) :: rest, by simp⟩
    · exact ⟨rest, by simp [hc]⟩

/-- A header string has no header exactly if each of its pieces is empty or starts with `:`. -/
theorem parseHeaders_eq_nil_iff (headers : Str) :
    parseHeaders headers = [] ↔
      ∀ headerPair ∈ headers.splitOn ';', headerPair = [] ∨ headerPair.head? = some ':' := by
  have hpair (headerPair : Str) : headerPair.takeWhile (· ≠ ':') = [] ↔
      headerPair = [] ∨ headerPair.head? = some ':' := by
    cases headerPair with
    | nil => simp
    | cons c headerPair => by_cases hc : c = ':' <;> simp [hc]
  unfold parseHeaders
  split
  · next hempty =>
    rw [List.isEmpty_iff] at hempty
    subst hempty
    simp
  · rw [List.filterMap_eq_nil_iff]
    refine forall₂_congr ?_
    intro headerPair _
    obtain ⟨rest, hrest⟩ := splitOn_eq_takeWhile_cons ':' headerPair
    rw [← hpair, hrest]
    cases rest with
    | nil => simp
    | cons value rest => simp

/-! ## The same requests -/

/-- The two calls with the same arguments start the same request, or both start none. -/
structure SameRequests (M : Type) (env : HttpEnv) (pool : SlotPool) (url headers postData : Str) :
    Prop where
  get : ∀ cb cb' during during' (c c' : HttpClient M),
    httpClientGetWithHeaders env cb during url headers = some c →
      httpClientSyncGetWithHeaders env pool cb' during' url headers = some c' →
        c.httpClient = c'.httpClient
  post : ∀ cb cb' during during' (c c' : HttpClient M),
    httpClientPost env cb during url postData = some c →
      httpClientSyncPost env pool cb' during' url postData = some c' →
        c.httpClient = c'.httpClient
  postWithHeaders : ∀ cb cb' during during' (c c' : HttpClient M),
    httpClientPostWithHeaders env cb during url headers postData = some c →
      httpClientSyncPostWithHeaders env pool cb' during' url headers postData = some c' →
        c.httpClient = c'.httpClient

/-- A get without headers is the get with a header string exactly if the string has no header. -/
theorem make_get_eq_iff (url headers : Str) :
    HttpRequest.make .get url [] headers = HttpRequest.make .get url headers [] ↔
      parseHeaders headers = [] := by
  simp only [HttpRequest.make, reduceCtorEq, false_and, if_false, HttpRequest.mk.injEq, true_and,
    and_true]
  exact eq_comm

/-- **The same requests.** On a thread with a free slot for a fiber, the calls that take a callback
and those that suspend the fiber start the same requests exactly if the URL is refused, or every
piece of the header string is empty or starts with `:`, so that it has no header. -/
theorem same_requests_iff (M : Type) (env : HttpEnv) (pool : SlotPool)
    (hinited : pool.manager.inited = true) (hroom : pool.manager.datas.size < fiberMaxQueueSize)
    (url headers postData : Str) :
    SameRequests M env pool url headers postData ↔ env.accepts url = false ∨
      ∀ headerPair ∈ headers.splitOn ';', headerPair = [] ∨ headerPair.head? = some ':' := by
  rw [← parseHeaders_eq_nil_iff]
  constructor
  · intro h
    cases haccepts : env.accepts url with
    | false => exact .inl rfl
    | true =>
      obtain ⟨c, hc⟩ := HttpClient.exists_call (M := M) env none .get url [] headers
      obtain ⟨c', hc'⟩ :=
        exists_httpClientSyncFetch (M := M) env hinited hroom none .get url headers []
      have hsame := h.get none none [] [] c c' hc hc'
      rw [HttpClient.httpClient_call hc, httpClient_httpClientSyncFetch hc', haccepts, if_pos rfl,
        if_pos rfl] at hsame
      exact .inr ((make_get_eq_iff url headers).1 (Option.some.inj hsame))
  · intro h
    constructor
    · intro cb cb' during during' c c' hc hc'
      rw [HttpClient.httpClient_call hc, httpClient_httpClientSyncFetch hc']
      rcases h with hrefused | hnone
      · simp [hrefused]
      · rw [(make_get_eq_iff url headers).2 hnone]
    · intro cb cb' during during' c c' hc hc'
      rw [HttpClient.httpClient_call hc, httpClient_httpClientSyncFetch hc']
    · intro cb cb' during during' c c' hc hc'
      rw [HttpClient.httpClient_call hc, httpClient_httpClientSyncFetch hc']

/-- The URLs that a test accepts: all of them, with the one host. -/
def anyUrl : HttpEnv where
  isValid _ := true
  getHost := id
  getHostByName _ := ['1']

/-- The slots of a thread that has just been initialised. -/
def newSlots : SlotPool where
  manager := (FiberDataManager.initializeWith {} 1).2

/-- The header string ";:x" has two parts, neither of which is a header. -/
theorem same_requests_iff_no_names : SameRequests ℕ anyUrl newSlots ['h'] [';', ':', 'x'] ['d'] :=
  (same_requests_iff ℕ anyUrl newSlots rfl (by decide) ['h'] [';', ':', 'x'] ['d']).2
    (.inr (by decide))

/-- A get with the header string "a:b" has the header only if it suspends a fiber. -/
theorem get_loses_headers : ¬ SameRequests ℕ anyUrl newSlots ['h'] ['a', ':', 'b'] [] := by
  intro h
  have hsame := h.get none none [] [] _ _ rfl rfl
  exact absurd hsame (by decide)

end ServiceFramework.Net

import ServiceFramework.Lib.Transition
import Mathlib.Data.Int.Notation
import Mathlib.Tactic.Common

/-!
# The HTTP client

`HttpClient` (`net/server/http_client.cc`) makes one request with a `RabbitHttpClient`
(`net/rabbit_http_client.cc`) and deletes itself when its reference count reaches zero. The count
is taken in `HttpClientGet` and `HttpClientPost` around `Fetch` and once more by a `Fetch` that
connects; it is given back by the callers and by the event that ends the request.

A call followed by the events of its connector, whichever of them arrive while `connect` is still
running, calls back exactly once and deletes the client exactly once (`answered_once`). The events
between connection and the end change the reply and the body only (`handle_quiet`), so the count
and the callback depend on the one ending event.
-/

namespace ServiceFramework.Net

open Transition

/-! ## Replies and requests -/

/-- `std::string`. -/
abbrev Str := List Char

/-- The two methods used of `proxygen::HTTPMethod`. -/
inductive HttpMethod where
  | get
  | post
  deriving DecidableEq

/-- `HttpReplyCode`. -/
inductive HttpReplyCode where
  | ok
  | invalid
  | connectError
  | httpError
  | none
  deriving DecidableEq

/-- `HttpClientReplyData` over the type `M` of header messages, null pointers being `none`. -/
structure HttpClientReplyData (M : Type) where
  result : HttpReplyCode := .none
  headers : Option M := none
  body : Option (List UInt8) := none
  deriving DecidableEq

/-- What `Fetch` hands to `RabbitHttpClient`. -/
structure HttpRequest where
  method : HttpMethod
  url : Str
  headers : List (Str × Str)
  postData : Option Str
  deriving DecidableEq

/-- The URL parser and the name lookup. `getHostByName` is empty when the lookup fails. -/
structure HttpEnv where
  isValid : Str → Bool
  getHost : Str → Str
  getHostByName : Str → Str

/-- The first two checks of `Fetch`. -/
def HttpEnv.accepts (env : HttpEnv) (url : Str) : Bool :=
  env.isValid url && !(env.getHostByName (env.getHost url)).isEmpty

/-- The loop over the header string in `Fetch`: a pair without a name is dropped, a pair without
`:` has an empty value, and what follows a second `:` is not used. -/
def parseHeaders (headers : Str) : List (Str × Str) :=
  if headers.isEmpty then
    []
  else
    (headers.splitOn ';').filterMap fun headerPair =>
      match headerPair.splitOn ':' with
      | [] => none
      | [name] => if name.isEmpty then none else some (name, [])
      | name :: value :: _ => if name.isEmpty then none else some (name, value)

/-- The arguments of `RabbitHttpClient` in `Fetch`. A get has no data, and neither has a post of
an empty string. -/
def HttpRequest.make (method : HttpMethod) (url headers postData : Str) : HttpRequest :=
  { method
    url
    headers := parseHeaders headers
    postData := if method = .post ∧ !postData.isEmpty then some postData else none }

/-! ## The client -/

/-- The members of `HttpClient`, with the body its `RabbitHttpClient` has gathered. `cb` is what
the callback leaves in the reply it is given. The last three members are not in the source: whether
the object is deleted, the replies the callback was called with, and the values the count has
taken. -/
structure HttpClient (M : Type) where
  cb : Option (HttpClientReplyData M → HttpClientReplyData M)
  reply : HttpClientReplyData M := {}
  httpClient : Option HttpRequest := none
  body : Option (List UInt8) := none
  refCount : ℤ := 0
  deleted : Bool := false
  replies : List (HttpClientReplyData M) := []
  refCounts : List ℤ := []

/-- What the connector and the transaction report to `RabbitHttpClient`. -/
inductive HttpEvent (M : Type) where
  | connectError
  | connectSuccess
  | onHeadersComplete (msg : M)
  | onBody (chain : List UInt8)
  | onError
  | detachTransaction
  deriving DecidableEq

namespace HttpClient

variable {M : Type}

def addRef (c : HttpClient M) : HttpClient M :=
  { c with refCount := c.refCount + 1, refCounts := c.refCounts ++ [c.refCount + 1] }

/-- `ReleaseRef`, with `delete this`. -/
def releaseRef (c : HttpClient M) : HttpClient M :=
  if c.refCount ≤ 0 then
    c
  else
    { c with
      refCount := c.refCount - 1
      refCounts := c.refCounts ++ [c.refCount - 1]
      deleted := c.deleted || c.refCount - 1 == 0 }

/-- `if (cb_) cb_(reply_)`. -/
def invokeCb (c : HttpClient M) : HttpClient M :=
  match c.cb with
  | none => c
  | some f => { c with replies := c.replies ++ [c.reply], reply := f c.reply }

/-- `OnHeadersComplete`. -/
def onHeadersComplete (c : HttpClient M) (msg : M) : HttpClient M :=
  { c with reply := { c.reply with headers := some msg } }

/-- `OnBodyComplete`. -/
def onBodyComplete (c : HttpClient M) (body : Option (List UInt8)) : HttpClient M :=
  let c :=
    if c.reply.result = .none then { c with reply := { c.reply with result := .ok, body } } else c
  c.invokeCb.releaseRef

/-- `OnConnectError`. -/
def onConnectError (c : HttpClient M) : HttpClient M :=
  { c with reply := { c.reply with result := .connectError } }.invokeCb.releaseRef

/-- `OnError`, which leaves the callback to the end of the transaction. -/
def onError (c : HttpClient M) : HttpClient M :=
  { c with reply := { c.reply with result := .httpError } }

/-- An event, through `RabbitHttpClient`. There is no answer from a deleted object. -/
def handle (c : HttpClient M) (e : HttpEvent M) : Option (HttpClient M) :=
  if c.deleted then
    none
  else
    match e with
    | .connectError => some c.onConnectError
    | .connectSuccess => some c
    | .onHeadersComplete msg => some (c.onHeadersComplete msg)
    | .onBody chain =>
      match c.body with
      | none => some { c with body := some chain }
      | some body => some { c with body := some (body ++ chain) }
    | .onError => some c.onError
    | .detachTransaction => some ({ c with body := none }.onBodyComplete c.body)

/-- `Fetch`. `during` is the events reported before `connect` returns. -/
def fetch (env : HttpEnv) (c : HttpClient M) (method : HttpMethod) (url headers postData : Str)
    (during : List (HttpEvent M)) : Option (HttpClient M) :=
  if !env.isValid url then
    some { c with reply := { c.reply with result := .invalid } }.invokeCb
  else if (env.getHostByName (env.getHost url)).isEmpty then
    some { c with reply := { c.reply with result := .invalid } }.invokeCb
  else
    let httpClient := HttpRequest.make method url headers postData
    run handle { c.addRef with httpClient := some httpClient } during

/-- What the four calls do with a new client. The last `ReleaseRef` needs it alive. -/
def call (env : HttpEnv) (cb : Option (HttpClientReplyData M → HttpClientReplyData M))
    (method : HttpMethod) (url headers postData : Str) (during : List (HttpEvent M)) :
    Option (HttpClient M) := do
  let c ← fetch env (HttpClient.addRef { cb }) method url headers postData during
  if c.deleted then none else some c.releaseRef

end HttpClient

section Calls

variable {M : Type} (env : HttpEnv)
  (cb : Option (HttpClientReplyData M → HttpClientReplyData M)) (during : List (HttpEvent M))

/-- `HttpClientGet(evb, url, cb)`. -/
def httpClientGet (url : Str) : Option (HttpClient M) :=
  HttpClient.call env cb .get url [] [] during

/-- `HttpClientGet(evb, url, headers, cb)`. The three-argument `Fetch` it calls takes the headers
for the data to post. -/
def httpClientGetWithHeaders (url headers : Str) : Option (HttpClient M) :=
  HttpClient.call env cb .get url [] headers during

/-- `HttpClientPost(evb, url, post_data, cb)`. -/
def httpClientPost (url postData : Str) : Option (HttpClient M) :=
  HttpClient.call env cb .post url [] postData during

/-- `HttpClientPost(evb, url, headers, post_data, cb)`. -/
def httpClientPostWithHeaders (url headers postData : Str) : Option (HttpClient M) :=
  HttpClient.call env cb .post url headers postData during

end Calls

/-- The four calls. -/
inductive HttpCall where
  | get (url : Str)
  | getWithHeaders (url headers : Str)
  | post (url postData : Str)
  | postWithHeaders (url headers postData : Str)

namespace HttpCall

def url : HttpCall → Str
  | get url => url
  | getWithHeaders url _ => url
  | post url _ => url
  | postWithHeaders url _ _ => url

def start {M : Type} (env : HttpEnv) (cb : Option (HttpClientReplyData M → HttpClientReplyData M))
    (during : List (HttpEvent M)) : HttpCall → Option (HttpClient M)
  | get url => httpClientGet env cb during url
  | getWithHeaders url headers => httpClientGetWithHeaders env cb during url headers
  | post url postData => httpClientPost env cb during url postData
  | postWithHeaders url headers postData =>
    httpClientPostWithHeaders env cb during url headers postData

end HttpCall

namespace HttpEvent

variable {M : Type}

/-- An event between connection and end. -/
def isQuiet : HttpEvent M → Bool
  | .connectError => false
  | .detachTransaction => false
  | _ => true

def headers? : HttpEvent M → Option M
  | .onHeadersComplete msg => some msg
  | _ => none

def chunk? : HttpEvent M → Option (List UInt8)
  | .onBody chain => some chain
  | _ => none

def isError : HttpEvent M → Bool
  | .onError => true
  | _ => false

/-- The events of one connector: none if `connect` is not called, a failed connection alone, or a
connection, any messages, chunks and errors, and the end of the transaction. -/
def Protocol (connects : Bool) (es : List (HttpEvent M)) : Prop :=
  if connects then
    es = [.connectError] ∨ ∃ messages : List (HttpEvent M),
      (∀ e ∈ messages, e.isQuiet = true ∧ e ≠ .connectSuccess) ∧
        es = .connectSuccess :: messages ++ [.detachTransaction]
  else
    es = []

end HttpEvent

namespace HttpClient

open HttpEvent

variable {M : Type}

/-- The gathered body after some chunks. -/
def gathered (body : Option (List UInt8)) (chunks : List (List UInt8)) : Option (List UInt8) :=
  if chunks = [] then body else some (body.getD [] ++ chunks.flatten)

/-- The reply `r` is the one the events `es` ask for. -/
structure Reports (connects : Bool) (es : List (HttpEvent M)) (r : HttpClientReplyData M) :
    Prop where
  invalid : r.result = .invalid ↔ connects = false
  connectError : r.result = .connectError ↔ .connectError ∈ es
  httpError : r.result = .httpError ↔ .onError ∈ es
  ok : r.result = .ok ↔ connects = true ∧ .connectError ∉ es ∧ .onError ∉ es
  headers : r.result = .ok → r.headers = (es.filterMap headers?).getLast?
  body : r.result = .ok → r.body = gathered none (es.filterMap chunk?)

/-- The client has called back once, with the reply `r` to the events `es`, its count has been
zero once and never below, and it is deleted. -/
structure Answered (connects : Bool) (es : List (HttpEvent M)) (c : HttpClient M)
    (r : HttpClientReplyData M) : Prop where
  replies : c.replies = [r]
  reports : Reports connects es r
  nonneg : ∀ n ∈ c.refCounts, 0 ≤ n
  zero_once : c.refCounts.count 0 = 1
  deleted : c.deleted = true

/-! ## The events between connection and end -/

/-- What such an event changes. -/
def absorb (c : HttpClient M) : HttpEvent M → HttpClient M
  | .onHeadersComplete msg => c.onHeadersComplete msg
  | .onBody chain => { c with body := some (c.body.getD [] ++ chain) }
  | .onError => c.onError
  | _ => c

theorem handle_quiet {c : HttpClient M} (hc : c.deleted = false) {e : HttpEvent M}
    (he : e.isQuiet = true) : c.handle e = some (c.absorb e) := by
  cases e with
  | connectError => cases he
  | detachTransaction => cases he
  | onBody chain => cases hb : c.body <;> simp [handle, hc, absorb, hb]
  | _ => simp [handle, hc, absorb]

/-- The count, its history, the replies and the callback are not touched. -/
structure SameBooks (c c' : HttpClient M) : Prop where
  cb : c'.cb = c.cb
  refCount : c'.refCount = c.refCount
  refCounts : c'.refCounts = c.refCounts
  replies : c'.replies = c.replies
  deleted : c'.deleted = c.deleted

theorem absorb_books (c : HttpClient M) (e : HttpEvent M) : SameBooks c (c.absorb e) := by
  cases e <;> exact ⟨rfl, rfl, rfl, rfl, rfl⟩

theorem foldl_absorb_books (c : HttpClient M) (es : List (HttpEvent M)) :
    SameBooks c (es.foldl absorb c) := by
  induction es generalizing c with
  | nil => exact ⟨rfl, rfl, rfl, rfl, rfl⟩
  | cons e es ih =>
    have h₁ := absorb_books c e
    have h₂ := ih (c.absorb e)
    exact ⟨h₂.cb.trans h₁.cb, h₂.refCount.trans h₁.refCount, h₂.refCounts.trans h₁.refCounts,
      h₂.replies.trans h₁.replies, h₂.deleted.trans h₁.deleted⟩

theorem run_quiet {c : HttpClient M} (hc : c.deleted = false) {es : List (HttpEvent M)}
    (hes : ∀ e ∈ es, e.isQuiet = true) : run handle c es = some (es.foldl absorb c) := by
  induction es generalizing c with
  | nil => rfl
  | cons e es ih =>
    rw [run_cons, handle_quiet hc (hes e List.mem_cons_self)]
    have hc' : (c.absorb e).deleted = false := (absorb_books c e).deleted.trans hc
    exact ih hc' fun e' he' => hes e' (List.mem_cons_of_mem e he')

theorem foldl_absorb_result (c : HttpClient M) (es : List (HttpEvent M)) :
    (es.foldl absorb c).reply.result =
      if es.any isError then .httpError else c.reply.result := by
  induction es generalizing c with
  | nil => rfl
  | cons e es ih =>
    rw [List.foldl_cons, ih]
    cases e with
    | onError =>
      have h : (c.absorb .onError).reply.result = .httpError := rfl
      rw [h, List.any_cons, ite_self]
      rfl
    | _ => rfl

theorem getLast?_headers_cons (e : HttpEvent M) (es : List (HttpEvent M)) :
    ((e :: es).filterMap headers?).getLast? =
      ((es.filterMap headers?).getLast?).or e.headers? := by
  cases he : e.headers? with
  | none => rw [List.filterMap_cons_none he, Option.or_none]
  | some msg =>
    rw [List.filterMap_cons_some he, List.getLast?_cons]
    cases (es.filterMap headers?).getLast? <;> rfl

theorem foldl_absorb_headers (c : HttpClient M) (es : List (HttpEvent M)) :
    (es.foldl absorb c).reply.headers =
      ((es.filterMap headers?).getLast?).or c.reply.headers := by
  induction es generalizing c with
  | nil => rfl
  | cons e es ih =>
    have h : (c.absorb e).reply.headers = e.headers?.or c.reply.headers := by cases e <;> rfl
    rw [List.foldl_cons, ih, getLast?_headers_cons, h, Option.or_assoc]

theorem gathered_cons (body : Option (List UInt8)) (chunk : List UInt8)
    (chunks : List (List UInt8)) :
    gathered body (chunk :: chunks) = gathered (some (body.getD [] ++ chunk)) chunks := by
  unfold gathered
  split <;> simp_all

theorem foldl_absorb_body (c : HttpClient M) (es : List (HttpEvent M)) :
    (es.foldl absorb c).body = gathered c.body (es.filterMap chunk?) := by
  induction es generalizing c with
  | nil => rfl
  | cons e es ih =>
    rw [List.foldl_cons, ih]
    cases e with
    | onBody chain =>
      have h : (HttpEvent.onBody chain : HttpEvent M).chunk? = some chain := rfl
      rw [List.filterMap_cons_some h, gathered_cons]
      rfl
    | _ => rfl

theorem absorb_releaseRef (c : HttpClient M) (e : HttpEvent M) :
    c.releaseRef.absorb e = (c.absorb e).releaseRef := by
  have hn : (c.absorb e).refCount = c.refCount := (absorb_books c e).refCount
  unfold releaseRef
  rw [hn]
  split <;> cases e <;> rfl

/-- The callers' `ReleaseRef` may come before or after such events. -/
theorem foldl_absorb_releaseRef (c : HttpClient M) (es : List (HttpEvent M)) :
    es.foldl absorb c.releaseRef = (es.foldl absorb c).releaseRef := by
  induction es generalizing c with
  | nil => rfl
  | cons e es ih => rw [List.foldl_cons, absorb_releaseRef, ih, List.foldl_cons]

/-! ## The event that ends a request -/

/-- The reply the callback is given by a last event. -/
def lastReply (c : HttpClient M) : HttpEvent M → HttpClientReplyData M
  | .connectError => { c.reply with result := .connectError }
  | _ => if c.reply.result = .none then { c.reply with result := .ok, body := c.body } else c.reply

theorem releaseRef_of_pos {c : HttpClient M} (hn : 0 < c.refCount) :
    c.releaseRef = { c with
      refCount := c.refCount - 1
      refCounts := c.refCounts ++ [c.refCount - 1]
      deleted := c.deleted || c.refCount - 1 == 0 } :=
  if_neg (by omega)

@[simp] theorem lastReply_releaseRef (c : HttpClient M) (e : HttpEvent M) :
    c.releaseRef.lastReply e = c.lastReply e := by
  unfold releaseRef
  split <;> rfl

/-- One more reply, and one reference less. -/
structure Ends (c c' : HttpClient M) (r : HttpClientReplyData M) : Prop where
  replies : c'.replies = c.replies ++ [r]
  refCount : c'.refCount = c.refCount - 1
  refCounts : c'.refCounts = c.refCounts ++ [c.refCount - 1]
  deleted : c'.deleted = (c.refCount - 1 == 0)

/-- The callback, then `ReleaseRef`, at a client that differs from `c` in its reply and body. -/
theorem ends_invokeCb {c d : HttpClient M}
    {f : HttpClientReplyData M → HttpClientReplyData M} (hd : SameBooks c d)
    (hc : c.deleted = false) (hf : c.cb = some f) (hn : 0 < c.refCount) :
    Ends c d.invokeCb.releaseRef d.reply := by
  have hf' : d.cb = some f := hd.cb.trans hf
  have hn' : ¬ d.refCount ≤ 0 := by
    rw [hd.refCount]
    omega
  simp only [invokeCb, hf', releaseRef, hn', if_false]
  constructor
  · rw [hd.replies]
  · rw [hd.refCount]
  · rw [hd.refCounts, hd.refCount]
  · rw [hd.deleted, hd.refCount, hc, Bool.false_or]

theorem handle_last {c : HttpClient M} {f : HttpClientReplyData M → HttpClientReplyData M}
    (hc : c.deleted = false) (hf : c.cb = some f) (hn : 0 < c.refCount) {e : HttpEvent M}
    (he : e.isQuiet = false) : ∃ c', c.handle e = some c' ∧ Ends c c' (c.lastReply e) := by
  cases e with
  | connectError =>
    refine ⟨c.onConnectError, by simp [handle, hc], ?_⟩
    exact ends_invokeCb ⟨rfl, rfl, rfl, rfl, rfl⟩ hc hf hn
  | detachTransaction =>
    refine ⟨{ c with body := none }.onBodyComplete c.body, by simp [handle, hc], ?_⟩
    unfold onBodyComplete lastReply
    by_cases hr : c.reply.result = .none
    · simp only [hr, if_true]
      exact ends_invokeCb ⟨rfl, rfl, rfl, rfl, rfl⟩ hc hf hn
    · simp only [hr, if_false]
      exact ends_invokeCb (d := { c with body := none }) ⟨rfl, rfl, rfl, rfl, rfl⟩ hc hf hn
  | _ => cases he

/-! ## One request -/

/-- The client while `connect` runs: referenced by the caller and by `Fetch`. -/
def connecting (f : HttpClientReplyData M → HttpClientReplyData M) (request : HttpRequest) :
    HttpClient M :=
  { cb := some f, httpClient := some request, refCount := 2, refCounts := [1, 2] }

theorem call_of_accepts {env : HttpEnv} {url : Str} (h : env.accepts url = true)
    (f : HttpClientReplyData M → HttpClientReplyData M) (method : HttpMethod)
    (headers postData : Str) (during : List (HttpEvent M)) :
    call env (some f) method url headers postData during =
      (run handle (connecting f (.make method url headers postData)) during).bind fun c =>
        if c.deleted then none else some c.releaseRef := by
  simp only [HttpEnv.accepts, Bool.and_eq_true, Bool.not_eq_true'] at h
  obtain ⟨hv, hh⟩ := h
  simp only [call, fetch, hv, hh, Bool.not_true, Bool.false_eq_true, if_false]
  rfl

/-- The client of a refused URL when its call returns. -/
def refused (f : HttpClientReplyData M → HttpClientReplyData M) : HttpClient M :=
  ({ cb := some f, refCount := 1, refCounts := [1], reply := { result := .invalid } } :
    HttpClient M).invokeCb.releaseRef

theorem call_of_not_accepts {env : HttpEnv} {url : Str} (h : env.accepts url = false)
    (f : HttpClientReplyData M → HttpClientReplyData M) (method : HttpMethod)
    (headers postData : Str) (during : List (HttpEvent M)) :
    call env (some f) method url headers postData during = some (refused f) := by
  unfold call fetch
  cases hv : env.isValid url with
  | false => rfl
  | true =>
    have hh : (env.getHostByName (env.getHost url)).isEmpty = true := by
      simpa [HttpEnv.accepts, hv] using h
    rw [if_neg (by simp), if_pos hh]
    rfl

theorem any_isError (es : List (HttpEvent M)) : es.any isError = true ↔ .onError ∈ es := by
  rw [List.any_eq_true]
  constructor
  · intro h
    obtain ⟨e, he, hi⟩ := h
    cases e <;> first | exact he | cases hi
  · intro h
    exact ⟨.onError, h, rfl⟩

theorem reports_connectError (f : HttpClientReplyData M → HttpClientReplyData M)
    (request : HttpRequest) :
    Reports true [.connectError] ((connecting f request).lastReply .connectError) := by
  constructor <;> simp [lastReply]

theorem reports_detachTransaction (f : HttpClientReplyData M → HttpClientReplyData M)
    (request : HttpRequest) {quiet : List (HttpEvent M)} (hq : ∀ q ∈ quiet, q.isQuiet = true) :
    Reports true (quiet ++ [.detachTransaction])
      ((quiet.foldl absorb (connecting f request)).lastReply .detachTransaction) := by
  have hconnect : .connectError ∉ quiet ++ [HttpEvent.detachTransaction] := by
    intro h
    simp only [List.mem_append, List.mem_singleton, reduceCtorEq, or_false] at h
    cases hq _ h
  have herror : .onError ∈ quiet ++ [HttpEvent.detachTransaction] ↔ quiet.any isError = true := by
    rw [any_isError]
    simp
  have hresult := foldl_absorb_result (connecting f request) quiet
  have hheaders := foldl_absorb_headers (connecting f request) quiet
  have hbody := foldl_absorb_body (connecting f request) quiet
  by_cases h : quiet.any isError = true
  · rw [if_pos h] at hresult
    constructor <;> simp [lastReply, hresult, hconnect, herror, h]
  · rw [if_neg h] at hresult
    have hlast : (quiet.foldl absorb (connecting f request)).lastReply .detachTransaction =
        { (quiet.foldl absorb (connecting f request)).reply with
          result := .ok, body := (quiet.foldl absorb (connecting f request)).body } :=
      if_pos hresult
    rw [hlast]
    constructor
    · simp
    · simp [hconnect]
    · simp [herror, h]
    · simp [hconnect, herror, h]
    · intro _
      rw [List.filterMap_append, List.filterMap_cons_none rfl, List.filterMap_nil,
        List.append_nil]
      exact hheaders.trans (Option.or_none ..)
    · intro _
      rw [List.filterMap_append, List.filterMap_cons_none rfl, List.filterMap_nil,
        List.append_nil]
      exact hbody

/-- The events of a connector are some that change the reply only and one that ends it. -/
theorem protocol_concat (f : HttpClientReplyData M → HttpClientReplyData M)
    (request : HttpRequest) {es : List (HttpEvent M)} (h : Protocol true es) :
    ∃ quiet e, es = quiet ++ [e] ∧ (∀ q ∈ quiet, q.isQuiet = true) ∧ e.isQuiet = false ∧
      Reports true es ((quiet.foldl absorb (connecting f request)).lastReply e) := by
  rcases h with h | ⟨messages, hm, h⟩
  · exact ⟨[], .connectError, h, by simp, rfl, h ▸ reports_connectError f request⟩
  · have hq : ∀ q ∈ .connectSuccess :: messages, q.isQuiet = true := by
      intro q hq
      rcases List.mem_cons.1 hq with rfl | hq
      · rfl
      · exact (hm q hq).1
    exact ⟨.connectSuccess :: messages, .detachTransaction, h, hq, rfl,
      h ▸ reports_detachTransaction f request hq⟩

/-- The history of a request's count, whichever of the last event and the caller's `ReleaseRef`
comes first. -/
theorem Answered.of_refCounts {es : List (HttpEvent M)} {c : HttpClient M}
    {r : HttpClientReplyData M} (hreplies : c.replies = [r]) (hr : Reports true es r)
    (hcounts : c.refCounts = [1, 2, 1, 0]) (hdeleted : c.deleted = true) :
    Answered true es c r :=
  ⟨hreplies, hr, by simp [hcounts], by simp [hcounts], hdeleted⟩

/-- The request is over when `connect` returns: the caller's `ReleaseRef` deletes the client. -/
theorem answered_during {f : HttpClientReplyData M → HttpClientReplyData M}
    {request : HttpRequest} {quiet : List (HttpEvent M)} {e : HttpEvent M}
    (hq : ∀ q ∈ quiet, q.isQuiet = true) (he : e.isQuiet = false)
    (hr : Reports true (quiet ++ [e]) ((quiet.foldl absorb (connecting f request)).lastReply e)) :
    ∃ c, run handle (connecting f request) (quiet ++ [e]) = some c ∧ c.deleted = false ∧
      Answered true (quiet ++ [e]) c.releaseRef
        ((quiet.foldl absorb (connecting f request)).lastReply e) := by
  have hbooks := foldl_absorb_books (connecting f request) quiet
  have hrun := run_quiet (c := connecting f request) rfl hq
  generalize quiet.foldl absorb (connecting f request) = d at hr hbooks hrun
  have hcount : d.refCount = 2 := hbooks.refCount
  have hcounts : d.refCounts = [1, 2] := hbooks.refCounts
  obtain ⟨c, hc, h₁, h₂, h₃, h₄⟩ := handle_last hbooks.deleted hbooks.cb (by omega) he
  rw [hbooks.replies] at h₁
  rw [hcount] at h₂ h₃ h₄
  rw [hcounts] at h₃
  refine ⟨c, run_concat_of_eq_some hrun hc, h₄, ?_⟩
  have hrelease := releaseRef_of_pos (c := c) (by omega)
  rw [h₂, h₃] at hrelease
  rw [hrelease]
  exact .of_refCounts h₁ hr rfl (Bool.or_true _)

/-- The request outlives `connect`: its last event deletes the client. -/
theorem answered_later {f : HttpClientReplyData M → HttpClientReplyData M}
    {request : HttpRequest} {during later : List (HttpEvent M)} {e : HttpEvent M}
    (hq : ∀ q ∈ during ++ later, q.isQuiet = true) (he : e.isQuiet = false)
    (hr : Reports true (during ++ later ++ [e])
      (((during ++ later).foldl absorb (connecting f request)).lastReply e)) :
    ∃ c c', run handle (connecting f request) during = some c ∧ c.deleted = false ∧
      run handle c.releaseRef (later ++ [e]) = some c' ∧
      Answered true (during ++ later ++ [e]) c'
        (((during ++ later).foldl absorb (connecting f request)).lastReply e) := by
  have hduring : ∀ q ∈ during, q.isQuiet = true := fun q hm => hq q (List.mem_append_left _ hm)
  have hlater : ∀ q ∈ later, q.isQuiet = true := fun q hm => hq q (List.mem_append_right _ hm)
  have hbooks₁ := foldl_absorb_books (connecting f request) during
  have hbooks := foldl_absorb_books (connecting f request) (during ++ later)
  have hrun : run handle (during.foldl absorb (connecting f request)).releaseRef later =
      some ((during ++ later).foldl absorb (connecting f request)).releaseRef := by
    have hcount₁ : (during.foldl absorb (connecting f request)).refCount = 2 := hbooks₁.refCount
    rw [run_quiet _ hlater, foldl_absorb_releaseRef, ← List.foldl_append]
    rw [releaseRef_of_pos (by omega), hcount₁, hbooks₁.deleted]
    rfl
  generalize (during ++ later).foldl absorb (connecting f request) = d at hr hbooks hrun
  have hcount : d.refCount = 2 := hbooks.refCount
  have hcounts : d.refCounts = [1, 2] := hbooks.refCounts
  have hlive : d.deleted = false := hbooks.deleted
  have hrelease := releaseRef_of_pos (c := d) (by omega)
  rw [hcount, hcounts, hlive] at hrelease
  have hcount' : d.releaseRef.refCount = 1 := by
    rw [hrelease]
    rfl
  obtain ⟨c, hc, h₁, -, h₃, h₄⟩ := handle_last (c := d.releaseRef) (f := f) (e := e)
    (by rw [hrelease]; rfl) (by rw [hrelease]; exact hbooks.cb) (by omega) he
  rw [lastReply_releaseRef] at h₁
  rw [hrelease] at h₁ h₃ h₄
  refine ⟨_, c, run_quiet rfl hduring, hbooks₁.deleted, run_concat_of_eq_some hrun hc, ?_⟩
  exact .of_refCounts (h₁.trans (by rw [hbooks.replies]; rfl)) hr h₃ h₄

/-- Every call and every order of events in which a connector reports, those of `during` while
`connect` runs and those of `later` afterwards: the callback runs once, with the reply that the
events ask for, no event reaches the client after its deletion, and its count is never negative
and zero once. -/
theorem answered_once (env : HttpEnv) (f : HttpClientReplyData M → HttpClientReplyData M)
    (k : HttpCall) (during later : List (HttpEvent M))
    (h : Protocol (env.accepts k.url) (during ++ later)) :
    ∃ c c' r, k.start env (some f) during = some c ∧ run handle c later = some c' ∧
      Answered (env.accepts k.url) (during ++ later) c' r := by
  obtain ⟨method, headers, postData, hk⟩ : ∃ method headers postData,
      k.start env (some f) during = call env (some f) method k.url headers postData during := by
    cases k <;> exact ⟨_, _, _, rfl⟩
  rw [hk]
  cases ha : env.accepts k.url with
  | false =>
    rw [ha] at h
    obtain ⟨rfl, rfl⟩ := List.append_eq_nil_iff.1 h
    refine ⟨refused f, refused f, { result := .invalid },
      call_of_not_accepts ha f method headers postData [], rfl, rfl, ?_, ?_, rfl, rfl⟩
    · constructor <;> simp
    · simp [refused, releaseRef, invokeCb]
  | true =>
    rw [ha] at h
    obtain ⟨quiet, e, hes, hq, he, hr⟩ :=
      protocol_concat f (.make method k.url headers postData) h
    rw [call_of_accepts ha]
    rcases List.eq_nil_or_concat' later with hl | ⟨later', last, hl⟩
    · rw [hl, List.append_nil] at hes hr ⊢
      subst hes
      obtain ⟨c, hrun, hlive, hanswered⟩ := answered_during hq he hr
      exact ⟨c.releaseRef, c.releaseRef, _, by simp [hrun, hlive], rfl, hanswered⟩
    · rw [hl, ← List.append_assoc] at hes hr
      obtain ⟨rfl, hlast⟩ := List.append_inj' hes rfl
      cases hlast
      obtain ⟨c, c', hrun, hlive, hrun', hanswered⟩ := answered_later hq he hr
      rw [hl, ← List.append_assoc]
      exact ⟨c.releaseRef, c', _, by simp [hrun, hlive], hrun', hanswered⟩

theorem answered_once_two_chunks :
    let env : HttpEnv :=
      { isValid := fun _ => true, getHost := id, getHostByName := fun _ => ['1'] }
    let later : List (HttpEvent Nat) :=
      [.onHeadersComplete 200, .onBody [1, 2], .onBody [3], .detachTransaction]
    ∃ c c' r, (HttpCall.get ['h']).start env (some id) [.connectSuccess] = some c ∧
      run handle c later = some c' ∧ Answered true ([.connectSuccess] ++ later) c' r := by
  refine answered_once
    { isValid := fun _ => true, getHost := id, getHostByName := fun _ => ['1'] } id (.get ['h'])
    [.connectSuccess] [.onHeadersComplete 200, .onBody [1, 2], .onBody [3], .detachTransaction] ?_
  exact .inr ⟨[.onHeadersComplete 200, .onBody [1, 2], .onBody [3]], by simp [isQuiet], rfl⟩

end HttpClient

end ServiceFramework.Net

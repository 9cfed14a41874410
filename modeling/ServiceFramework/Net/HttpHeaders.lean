import Mathlib.Data.List.TakeWhile
import ServiceFramework.Net.HttpRequests

/-!
# Header strings

A caller of `HttpClient::Fetch` (`net/server/http_client.cc`) writes the headers of a request as
one string, each as its name, a `:` and its value, with a `;` between two of them. `Fetch` adds them
in their order, the value of each only up to its first `:` (`fetch_headers`), so in full exactly if
no value has a `:` (`parseHeaders_headerText_iff`).
-/

namespace ServiceFramework.Net

/-- A header that can be written in a header string. -/
structure Header where
  name : Str
  value : Str
  name_ne_nil : name ≠ []
  colon_notMem_name : ':' ∉ name
  semicolon_notMem_name : ';' ∉ name
  semicolon_notMem_value : ';' ∉ value

namespace Header

/-- `name:value`. -/
def text (header : Header) : Str := header.name ++ ':' :: header.value

def pair (header : Header) : Str × Str := (header.name, header.value)

/-- The header with its value up to the first `:`. -/
def trimmed (header : Header) : Str × Str := (header.name, header.value.takeWhile (· ≠ ':'))

theorem semicolon_notMem_text (header : Header) : ';' ∉ header.text := by
  intro h
  rcases List.mem_append.1 h with hname | hrest
  · exact header.semicolon_notMem_name hname
  · rcases List.mem_cons.1 hrest with hcolon | hvalue
    · exact absurd hcolon (by decide)
    · exact header.semicolon_notMem_value hvalue

theorem trimmed_eq_pair_iff (header : Header) :
    header.trimmed = header.pair ↔ ':' ∉ header.value := by
  rw [trimmed, pair, Prod.mk.injEq, List.takeWhile_eq_self_iff]
  constructor
  · rintro ⟨-, h⟩ hmem
    simpa using h ':' hmem
  · intro h
    refine ⟨rfl, ?_⟩
    rintro c hc
    rw [decide_eq_true_eq]
    rintro rfl
    exact h hc

end Header

/-- The headers written one after the other. -/
def headerText (headers : List Header) : Str := [';'].intercalate (headers.map Header.text)

/-- A header is found again by its first `:`. -/
theorem splitOn_text (header : Header) : ∃ rest,
    header.text.splitOn ':' = header.name :: header.value.takeWhile (· ≠ ':') :: rest := by
  obtain ⟨rest, hrest⟩ := splitOn_eq_takeWhile_cons ':' header.value
  refine ⟨rest, ?_⟩
  rw [Header.text, List.splitOn_append_cons_self_of_not_mem header.colon_notMem_name, hrest]

/-- `Fetch` finds the headers again, their values trimmed. -/
theorem parseHeaders_headerText (headers : List Header) :
    parseHeaders (headerText headers) = headers.map Header.trimmed := by
  cases headers with
  | nil => rfl
  | cons header headers =>
    have hsplit : (headerText (header :: headers)).splitOn ';' =
        (header :: headers).map Header.text := by
      refine List.splitOn_intercalate ';' ?_ (List.cons_ne_nil _ _)
      intro text htext
      obtain ⟨h, -, rfl⟩ := List.mem_map.1 htext
      exact h.semicolon_notMem_text
    have hne : (headerText (header :: headers)).isEmpty = false := by
      rw [Bool.eq_false_iff]
      intro hempty
      rw [List.isEmpty_iff.1 hempty, List.splitOn_nil] at hsplit
      have hhead := (List.cons.inj hsplit).1
      exact List.append_ne_nil_of_left_ne_nil header.name_ne_nil _ hhead.symm
    rw [parseHeaders, hne, hsplit, List.filterMap_map]
    rw [← congrFun (List.filterMap_eq_map (f := Header.trimmed)) (header :: headers)]
    refine List.filterMap_congr ?_
    intro h _
    obtain ⟨rest, hrest⟩ := splitOn_text h
    simp [hrest, h.name_ne_nil, Header.trimmed]

/-- The headers come back in full exactly if no value has a `:`. -/
theorem parseHeaders_headerText_iff (headers : List Header) :
    parseHeaders (headerText headers) = headers.map Header.pair ↔
      ∀ header ∈ headers, ':' ∉ header.value := by
  rw [parseHeaders_headerText, List.map_inj_left]
  exact forall₂_congr fun header _ => header.trimmed_eq_pair_iff

/-- **Header strings.** A request that `Fetch` starts has the headers of its header string, in their
order, each value up to its first `:`. -/
theorem fetch_headers {M : Type} (env : HttpEnv) (c c' : HttpClient M) (method : HttpMethod)
    (url : Str) (headers : List Header) (postData : Str) (during : List (HttpEvent M))
    (haccepts : env.accepts url = true)
    (h : HttpClient.fetch env c method url (headerText headers) postData during = some c') :
    c'.httpClient.map HttpRequest.headers = some (headers.map Header.trimmed) := by
  rw [HttpClient.httpClient_fetch h, haccepts, if_pos rfl, Option.map_some, HttpRequest.make,
    parseHeaders_headerText]

/-- "Accept" with the value "a", and "Host" with the value "h:80". -/
def acceptAndHost : List Header :=
  [⟨"Accept".toList, "a".toList, by decide, by decide, by decide, by decide⟩,
    ⟨"Host".toList, "h:80".toList, by decide, by decide, by decide, by decide⟩]

theorem fetch_headers_acceptAndHost :
    ∃ c' : HttpClient ℕ,
      HttpClient.fetch anyUrl { cb := none } .get ['h'] (headerText acceptAndHost) [] [] = some c' ∧
        c'.httpClient.map HttpRequest.headers = some (acceptAndHost.map Header.trimmed) := by
  obtain ⟨c', h⟩ := HttpClient.exists_fetch (M := ℕ) anyUrl { cb := none } .get ['h']
    (headerText acceptAndHost) []
  exact ⟨c', h, fetch_headers anyUrl _ c' .get ['h'] acceptAndHost [] [] rfl h⟩

/-- The header "Host:h:80" is sent without its port. -/
theorem fetch_trims_port :
    ¬ ∀ (c c' : HttpClient ℕ) (headers : List Header), headers ≠ [] →
      HttpClient.fetch anyUrl c .get ['h'] (headerText headers) [] [] = some c' →
        c'.httpClient.map HttpRequest.headers = some (headers.map Header.pair) := by
  intro h
  have hhost := h { cb := none } _ acceptAndHost (List.cons_ne_nil _ _) rfl
  exact absurd hhost (by decide)

end ServiceFramework.Net

import ServiceFramework.Net.IOThreadPoolConnManager

/-!
# The ids of a thread pool's connections

The id that `IOThreadPoolConnManager::OnNewConnection` returns holds the index of the thread above
the id on the thread, and `OnConnectionClosed` and `DispatchIOBufByConnID` take it apart again. For
a pipeline whose event base is not one of the pool's the id is `2^64 - 1`, and they do not check for
it: they read `thread_conn_managers_` at the index `2^32 - 1`. So an id can be passed on safely
exactly if its pipeline is on one of the first `2^32` threads of the pool (`id_usable_iff`).
-/

namespace ServiceFramework.Net

open BitField Transition

namespace IOThreadPoolConnManager

variable {E P D : Type}

/-! ## What an id does -/

/-- With the id, `OnConnectionClosed` and `DispatchIOBufByConnID` are in range and act on the
manager `i` and its connection `lo`. -/
structure ActsOn [DecidableEq P] (m : IOThreadPoolConnManager E P) (id : UInt64) (data : D) (i : ℕ)
    (lo : UInt32) : Prop where
  close : ∀ pipeline serviceName, ∃ conn rv conn', m.threadConnManagers[i]? = some conn ∧
    conn.onConnectionClosed lo pipeline serviceName = some (rv, conn') ∧
    m.onConnectionClosed id pipeline serviceName =
      some (rv, { threadConnManagers := m.threadConnManagers.set i conn' })
  dispatch : ∃ evb,
    m.dispatchIOBufByConnID id data = some (true, { evb, conn := i, connId := lo, data })

/-- With the id, they are in range and change no manager. -/
structure ChangesNone [DecidableEq P] (m : IOThreadPoolConnManager E P) (id : UInt64) (data : D) :
    Prop where
  close : ∀ pipeline serviceName, ∃ rv,
    m.onConnectionClosed id pipeline serviceName = some (rv, m)
  dispatch : (m.dispatchIOBufByConnID id data).isSome = true

variable {m : IOThreadPoolConnManager E P} {evbs : List E}

/-- An id acts on the manager of its high half and the connection of its low half. -/
theorem Of.actsOn [DecidableEq P] (hm : m.Of evbs) (id : UInt64) (data : D)
    (h : (high id).toNat < evbs.length) : m.ActsOn id data (high id).toNat (low id) := by
  rw [← hm.length_eq] at h
  obtain ⟨conn, hconn⟩ : ∃ conn, m.threadConnManagers[(high id).toNat]? = some conn :=
    ⟨_, List.getElem?_eq_getElem h⟩
  obtain ⟨evb, hevb⟩ := hm.eventBase hconn
  constructor
  · intro pipeline serviceName
    refine ⟨conn, _, _, hconn, conn.onConnectionClosed_eq (low id) pipeline serviceName, ?_⟩
    rw [IOThreadPoolConnManager.onConnectionClosed, hconn, Option.bind_eq_bind, Option.bind_some,
      conn.onConnectionClosed_eq (low id) pipeline serviceName]
    rfl
  · refine ⟨evb, ?_⟩
    rw [dispatchIOBufByConnID, hconn, Option.bind_eq_bind, Option.bind_some, hevb]
    rfl

/-- A task that was queued keeps the manager of the high half. -/
theorem dispatchIOBufByConnID_eq_some {id : UInt64} {data : D}
    {r : Bool × ConnDispatchTask E D} (h : m.dispatchIOBufByConnID id data = some r) :
    (high id).toNat < m.threadConnManagers.length ∧ r.2.conn = (high id).toNat := by
  obtain ⟨conn, hconn, h⟩ := Option.bind_eq_some_iff.1 h
  obtain ⟨evb, -, hr⟩ := Option.bind_eq_some_iff.1 h
  cases hr
  exact ⟨(List.getElem?_eq_some_iff.1 hconn).1, rfl⟩

section Pipelines

variable [DecidableEq E]

/-- The position of a pipeline's manager is that of its event base. -/
theorem Of.findIdx?_eq (hm : m.Of evbs) (eventBase : E) :
    (m.threadConnManagers.findIdx? fun conn => conn.eventBase = some eventBase) =
      evbs.findIdx? fun evb => evb = eventBase := by
  have hmap := congrArg (List.findIdx? fun evb => decide (evb = some eventBase)) hm
  rw [List.findIdx?_map, List.findIdx?_map] at hmap
  simpa [Function.comp_def] using hmap

theorem Of.findThread_eq_some (hm : m.Of evbs) (hnodup : evbs.Nodup) {i : ℕ} {eventBase : E}
    (hi : evbs[i]? = some eventBase) :
    ∃ conn, m.threadConnManagers[i]? = some conn ∧ m.findThread eventBase = some (i, conn) := by
  obtain ⟨hlt, rfl⟩ := List.getElem?_eq_some_iff.1 hi
  have hidx : (evbs.findIdx? fun evb => evb = evbs[i]) = some i := by
    rw [List.findIdx?_eq_some_iff_getElem]
    refine ⟨hlt, by simp, ?_⟩
    intro j hj he
    have hji := hnodup.getElem_inj_iff.1
      (of_decide_eq_true he)
    omega
  rw [← hm.length_eq] at hlt
  obtain ⟨conn, hconn⟩ : ∃ conn, m.threadConnManagers[i]? = some conn :=
    ⟨_, List.getElem?_eq_getElem hlt⟩
  refine ⟨conn, hconn, ?_⟩
  rw [findThread, hm.findIdx?_eq, hidx, Option.bind_eq_bind, Option.bind_some, hconn]
  rfl

theorem Of.findThread_eq_none (hm : m.Of evbs) {eventBase : E} (h : eventBase ∉ evbs) :
    m.findThread eventBase = none := by
  have hidx : (evbs.findIdx? fun evb => evb = eventBase) = none := by
    rw [List.findIdx?_eq_none_iff]
    intro evb hevb
    exact decide_eq_false fun he => h (he ▸ hevb)
  rw [findThread, hm.findIdx?_eq, hidx]
  rfl

end Pipelines

end IOThreadPoolConnManager

/-! ## The ids of a run -/

namespace Dispatching

variable {E P D : Type}

/-- With the id returned for a pipeline on `eventBase` in the state `w`, the operations on the
managers `m` are in range. On a thread of the pool they act on the manager and the id on the thread
that the connection was registered under; elsewhere they change no manager. -/
structure IdUsable [DecidableEq P] (evbs : List E) (w : Dispatching E P D) (pipeline : P)
    (eventBase : E) (serviceName : String) (id : UInt64) (data : D)
    (m : IOThreadPoolConnManager E P) : Prop where
  in_pool : ∀ i, evbs[i]? = some eventBase → ∃ conn lo conn',
    w.pool.threadConnManagers[i]? = some conn ∧
      conn.onNewConnection pipeline serviceName = some (lo, conn') ∧ m.ActsOn id data i lo
  not_in_pool : eventBase ∉ evbs → m.ChangesNone id data

variable [DecidableEq E] {evbs : List E} {w : Dispatching E P D} {pipeline : P} {eventBase : E}
  {serviceName : String} {id : UInt64} {pool : IOThreadPoolConnManager E P}

/-- The id of a pipeline on the thread `i` holds `i` and the id on the thread. -/
theorem Chained.id_in_pool (hw : w.Chained evbs) (hnodup : evbs.Nodup) {i : ℕ}
    (hi : evbs[i]? = some eventBase)
    (hnew : w.pool.onNewConnection pipeline eventBase serviceName = some (id, pool)) :
    ∃ conn lo conn', w.pool.threadConnManagers[i]? = some conn ∧
      conn.onNewConnection pipeline serviceName = some (lo, conn') ∧
      id = pair (UInt64.ofNat i) lo := by
  obtain ⟨conn, hconn, hfind⟩ := hw.pool.findThread_eq_some hnodup hi
  rw [IOThreadPoolConnManager.onNewConnection, hfind] at hnew
  obtain ⟨⟨lo, conn'⟩, hnew', hr⟩ := Option.bind_eq_some_iff.1 hnew
  cases hr
  exact ⟨conn, lo, conn', hconn, hnew', rfl⟩

theorem Chained.id_not_in_pool (hw : w.Chained evbs) (h : eventBase ∉ evbs)
    (hnew : w.pool.onNewConnection pipeline eventBase serviceName = some (id, pool)) :
    id = 0xffffffffffffffff ∧ pool = w.pool := by
  rw [IOThreadPoolConnManager.onNewConnection, hw.pool.findThread_eq_none h] at hnew
  cases hnew
  exact ⟨rfl, rfl⟩

/-- The connection is registered, whatever the id is good for. -/
theorem Chained.registered (hw : w.Chained evbs)
    (hnew : w.pool.onNewConnection pipeline eventBase serviceName = some (id, pool)) :
    Chained evbs { w with pool } where
  pool := hw.pool.onNewConnection hnew
  chain := hw.chain
  fresh := hw.fresh

variable [DecidableEq P]

/-- The id of a pipeline on one of the first `2^32` threads can be used at any time. -/
theorem Chained.idUsable (hw : w.Chained evbs) (hnodup : evbs.Nodup) {i : ℕ} (hlt : i < 2 ^ 32)
    (hi : evbs[i]? = some eventBase)
    (hnew : w.pool.onNewConnection pipeline eventBase serviceName = some (id, pool))
    (data : D) {m : IOThreadPoolConnManager E P} (hm : m.Of evbs) :
    IdUsable evbs w pipeline eventBase serviceName id data m := by
  have hin : i < evbs.length := (List.getElem?_eq_some_iff.1 hi).1
  constructor
  · intro j hj
    have hij : i = j := (List.getElem?_inj hin hnodup).1 (hi.trans hj.symm)
    subst hij
    obtain ⟨conn, lo, conn', hconn, hlo, rfl⟩ := hw.id_in_pool hnodup hi hnew
    have hhigh := high_pair_ofNat_of_lt hlt lo
    have hacts := hm.actsOn (pair (UInt64.ofNat i) lo) data (by rw [hhigh]; exact hin)
    rw [hhigh, low_pair] at hacts
    exact ⟨conn, lo, conn', hconn, hlo, hacts⟩
  · intro h
    exact absurd (List.mem_of_getElem? hi) h

/-- On a pool of more than `2^32 - 1` threads, the id of a pipeline of no thread closes connections
of the thread `2^32 - 1`: the pipeline loses its registration there. -/
theorem Chained.not_changesNone (hw : w.Chained evbs) (hnodup : evbs.Nodup)
    (hlt : 2 ^ 32 - 1 < evbs.length) (pipeline : P) (data : D) :
    ¬ (w.pool.onServerRegister pipeline evbs[2 ^ 32 - 1] "" 0).ChangesNone
      0xffffffffffffffff data := by
  obtain ⟨conn, hconn, hfind⟩ := hw.pool.findThread_eq_some hnodup (List.getElem?_eq_getElem hlt)
  have hlen : 2 ^ 32 - 1 < w.pool.threadConnManagers.length := by
    rw [hw.pool.length_eq]
    exact hlt
  rw [IOThreadPoolConnManager.onServerRegister, hfind]
  rintro ⟨hclose, -⟩
  obtain ⟨rv, hclose⟩ := hclose pipeline ""
  have hhigh : (high 0xffffffffffffffff).toNat = 2 ^ 32 - 1 := by decide
  rw [IOThreadPoolConnManager.onConnectionClosed, hhigh] at hclose
  simp only [List.getElem?_set_self hlen, Option.bind_eq_bind, Option.bind_some,
    IOThreadConnManager.onConnectionClosed_eq, List.set_set] at hclose
  -- the manager after the close is the one before, though a registration is gone
  have hsame := congrArg (fun r => r.2.threadConnManagers[2 ^ 32 - 1]?) (Option.some.inj hclose)
  simp only [List.getElem?_set_self hlen] at hsame
  have hconns := congrArg IOThreadConnManager.serverConns (Option.some.inj hsame)
  have hall := List.filter_eq_self.1 hconns
  have hgone := hall { serverName := "", serverNumber := 0, pipeline := some pipeline }
    (List.mem_append_right _ List.mem_cons_self)
  simp [ServerConnInfo.equalsPipeline] at hgone

/-- **Open, then close or send.** On a pool whose threads have different event bases, in every run
and for every pipeline, the id returned by `OnNewConnection` can be passed on at any later time
(within bounds, to the manager and the id on the thread the connection was registered under, or with
no effect for a pipeline of no thread) exactly if the pipeline is on one of the first `2^32` threads
of the pool. -/
theorem id_usable_iff {evbs : List E} (hnodup : evbs.Nodup) (es : List (DispatchEvent E P D))
    (w : Dispatching E P D) (h : run step (init evbs) es = some w) (pipeline : P) (eventBase : E)
    (serviceName : String) (id : UInt64) (pool : IOThreadPoolConnManager E P)
    (hnew : w.pool.onNewConnection pipeline eventBase serviceName = some (id, pool)) (data : D) :
    (∀ (es' : List (DispatchEvent E P D)) (w' : Dispatching E P D),
      run step { w with pool } es' = some w' →
        IdUsable evbs w pipeline eventBase serviceName id data w'.pool) ↔
      ∃ i < 2 ^ 32, evbs[i]? = some eventBase := by
  have hw : w.Chained evbs := run_invariant (fun _ _ _ hw h => hw.step h) (chained_init evbs) h
  have hreg := hw.registered hnew
  constructor
  · intro hall
    have hnow := hall [] _ rfl
    by_cases hmem : eventBase ∈ evbs
    · obtain ⟨i, hi⟩ := List.mem_iff_getElem?.1 hmem
      refine ⟨i, ?_, hi⟩
      obtain ⟨_, _, _, -, -, hacts⟩ := hnow.in_pool i hi
      obtain ⟨-, lo, -, -, -, rfl⟩ := hw.id_in_pool hnodup hi hnew
      obtain ⟨evb, hdispatch⟩ := hacts.dispatch
      have hhigh := (IOThreadPoolConnManager.dispatchIOBufByConnID_eq_some hdispatch).2
      rw [high_pair_ofNat] at hhigh
      change i = i % 2 ^ 32 at hhigh
      rw [hhigh]
      exact Nat.mod_lt i (Nat.two_pow_pos 32)
    · obtain ⟨rfl, rfl⟩ := hw.id_not_in_pool hmem hnew
      obtain ⟨r, hdispatch⟩ := Option.isSome_iff_exists.1 (hnow.not_in_pool hmem).dispatch
      have hlt := (IOThreadPoolConnManager.dispatchIOBufByConnID_eq_some hdispatch).1
      rw [show (high 0xffffffffffffffff).toNat = 2 ^ 32 - 1 by decide, hw.pool.length_eq] at hlt
      -- the index is in range, and a thread has it
      have hlater := hall [.onServerRegister pipeline evbs[2 ^ 32 - 1] "" 0] _ rfl
      exact absurd (hlater.not_in_pool hmem) (hw.not_changesNone hnodup hlt pipeline data)
  · rintro ⟨i, hlt, hi⟩ es' w' h'
    have hw' : w'.Chained evbs := run_invariant (fun _ _ _ hw h => hw.step h) hreg h'
    exact hw.idUsable hnodup hlt hi hnew data hw'.pool

theorem id_usable_iff_first_thread :
    ∃ id pool, (init [0, 1] : Dispatching ℕ ℕ ℕ).pool.onNewConnection 7 0 "gate" = some (id, pool) ∧
      ∀ (es : List (DispatchEvent ℕ ℕ ℕ)) (w : Dispatching ℕ ℕ ℕ),
        run step { init [0, 1] with pool } es = some w →
          IdUsable [0, 1] (init [0, 1] : Dispatching ℕ ℕ ℕ) 7 0 "gate" id 5 w.pool := by
  have hnodup : [0, 1].Nodup := by simp
  refine ⟨_, _, rfl, ?_⟩
  exact (id_usable_iff hnodup [] (init [0, 1]) rfl 7 0 "gate" _ _ rfl 5).2 ⟨0, by decide, rfl⟩

/-- With the id of a pipeline that is on none of the two threads both operations read outside
`thread_conn_managers_`. -/
theorem id_read_outside :
    ∃ id pool, (init [0, 1] : Dispatching ℕ ℕ ℕ).pool.onNewConnection 7 5 "gate" = some (id, pool) ∧
      pool.onConnectionClosed id 7 "gate" = none ∧ pool.dispatchIOBufByConnID id 5 = none ∧
        ¬ IdUsable [0, 1] (init [0, 1] : Dispatching ℕ ℕ ℕ) 7 5 "gate" id 5 pool := by
  refine ⟨_, _, rfl, rfl, rfl, ?_⟩
  intro h
  have hsome := (h.not_in_pool (by decide)).dispatch
  exact absurd hsome (by decide)

end Dispatching

end ServiceFramework.Net

import ServiceFramework.Net.FiberDataManager
import ServiceFramework.Net.HttpClient

/-!
# Fetching on a fiber

`HttpClientSyncFetch` (`net/server/http_client.cc`) makes a request from a fiber and suspends it
until the reply or a timeout. `FiberThread` is one thread with its slots, any number of such
fetches in progress, other users of the slots, and other code that sets the thread's call chain.

While no slot is kept for `2^32 - 1` further ones, each fetch gives back exactly the slot it was
given, whenever its callback runs, and a callback that runs late changes nothing (`fetch_sound`).
A slot kept longer is lost when the counter of ids comes round (`slot_lost`).
-/

namespace ServiceFramework.Net

open Transition Window

/-! ## The slots of a thread -/

/-- The manager of a thread with the slots it has handed out, by the number of their allocation,
which is also their address. The last three members are not in the source: how many slots were
handed out, which of them their owners have not given back, and which ones the table has lost. -/
structure SlotPool where
  manager : FiberDataManager ℕ
  slots : ℕ → FiberDataInfo := fun _ => {}
  allocs : ℕ := 0
  live : List ℕ := []
  deleted : List ℕ := []

namespace SlotPool

/-- `AllocFiberData`. The inner `none` is the empty pointer. -/
def alloc (p : SlotPool) : Option (Option SlotPool) :=
  match p.manager.allocFiberData p.allocs with
  | none => none
  | some (none, _) => some none
  | some (some fiberId, manager) =>
    some (some { p with
      manager
      slots := Function.update p.slots p.allocs { fiberId }
      allocs := p.allocs + 1
      live := p.allocs :: p.live })

/-- `DeleteFiberData` by the owner of slot `n`. -/
def delete (p : SlotPool) (n : ℕ) : SlotPool :=
  { p with
    manager := (p.manager.deleteFiberData (p.slots n).fiberId).2
    live := p.live.filter fun m => m ≠ n
    deleted := p.deleted ++ (p.manager.findFiberData (p.slots n).fiberId).toList }

/-- A change of slot `n` itself. -/
def modify (p : SlotPool) (n : ℕ) (f : FiberDataInfo → FiberDataInfo) : SlotPool :=
  { p with slots := Function.update p.slots n (f (p.slots n)) }

/-- Whether the table refers to slot `n`: it is only ever stored under its own id. -/
def stored (p : SlotPool) (n : ℕ) : Bool :=
  p.manager.findFiberData (p.slots n).fiberId = some n

/-- If there is room for another slot, no live one is `2^32 - 1` allocations old. -/
def Young (p : SlotPool) : Prop :=
  p.manager.datas.size < fiberMaxQueueSize → ∀ n ∈ p.live, p.allocs < n + FiberDataManager.keySpan

instance (p : SlotPool) : Decidable p.Young := inferInstanceAs (Decidable (_ → _))

/-- Every slot but `n` is the same, and found under the same ids. -/
def Others (n : ℕ) (p q : SlotPool) : Prop :=
  ∀ m ≠ n, (m ∈ q.live ↔ m ∈ p.live) ∧ q.slots m = p.slots m ∧
    ∀ id, q.manager.findFiberData id = some m ↔ p.manager.findFiberData id = some m

end SlotPool

/-! ## Fetches -/

/-- The locals of `HttpClientSyncFetch` and the object `reply_data` points to. `held` is whether
the caller still has the pointer it was returned. The last four members are not in the source:
whether the callback was called, the reply it was called with before the return, and the call
chain before the call and after the return. -/
structure SyncFetch (M χ : Type) where
  replyData : HttpClientReplyData M := {}
  chainBack : χ
  returned : Bool := false
  held : Bool := true
  called : Bool := false
  carried : Option (HttpClientReplyData M) := none
  before : χ
  after : Option χ := none

/-- A thread with its call chain and its fetches, by their slots. -/
structure FiberThread (M χ : Type) where
  pool : SlotPool
  callChain : χ
  fetches : ℕ → Option (SyncFetch M χ) := fun _ => none

/-- What happens on the thread. `sync` is the reply of a callback that runs inside `Fetch`. -/
inductive FiberThreadEvent (M χ : Type) where
  | fetch (sync : Option (HttpClientReplyData M))
  | callback (n : ℕ) (reply : HttpClientReplyData M)
  | timer (n : ℕ)
  | resume (n : ℕ)
  | drop (n : ℕ)
  | allocOther
  | deleteOther (n : ℕ)
  | setCallChain (callChain : χ)

namespace FiberThread

variable {M χ : Type}

def setFetch (t : FiberThread M χ) (n : ℕ) (f : SyncFetch M χ) : FiberThread M χ :=
  { t with fetches := Function.update t.fetches n (some f) }

/-- The callback that `HttpClientSyncFetch` passes. Its two pointers are weak: until the return
the locals keep both objects, afterwards the caller keeps the one and the table may keep the
other. -/
def onReply (t : FiberThread M χ) (n : ℕ) (f : SyncFetch M χ) (reply : HttpClientReplyData M) :
    FiberThread M χ :=
  let called :=
    { f with called := true, carried := if f.returned then f.carried else some reply }
  if (!f.returned || f.held) && (!f.returned || t.pool.stored n) then
    let t := t.setFetch n { called with replyData := reply }
    if reply.result ≠ .invalid then
      { t with pool := t.pool.modify n fun d => d.post true }
    else
      t
  else
    t.setFetch n called

/-- The end of `HttpClientSyncFetch`. -/
def finish (t : FiberThread M χ) (n : ℕ) (f : SyncFetch M χ) : FiberThread M χ :=
  ({ t with pool := t.pool.delete n, callChain := f.chainBack }).setFetch n
    { f with returned := true, after := some f.chainBack }

/-- `Fetch`, with the callback if it runs inside. -/
def callFetch (t : FiberThread M χ) (n : ℕ) (f : SyncFetch M χ) :
    Option (HttpClientReplyData M) → FiberThread M χ
  | none => t
  | some reply => t.onReply n f reply

/-- `HttpClientSyncFetch` until the fiber is suspended or it returns. A thread without a free slot
is left as it is. -/
def fetch (t : FiberThread M χ) (sync : Option (HttpClientReplyData M)) :
    Option (FiberThread M χ) :=
  match t.pool.alloc with
  | none => none
  | some none => some t
  | some (some pool) =>
    let n := t.pool.allocs
    let f : SyncFetch M χ := { chainBack := t.callChain, before := t.callChain }
    let t := (({ t with pool }).setFetch n f).callFetch n f sync
    let f := (t.fetches n).getD f
    if f.replyData.result ≠ .invalid then
      some { t with pool := t.pool.modify n FiberDataInfo.wait }
    else
      some (t.finish n f)

def step (t : FiberThread M χ) : FiberThreadEvent M χ → Option (FiberThread M χ)
  | .fetch sync => t.fetch sync
  | .callback n reply =>
    match t.fetches n with
    | none => none
    | some f => if f.called then none else some (t.onReply n f reply)
  | .timer n =>
    match t.fetches n with
    | none => none
    | some f =>
      if f.returned then
        none
      else
        some { t with pool := t.pool.modify n fun d => { d with baton := d.baton.expire } }
  | .resume n =>
    match t.fetches n with
    | none => none
    | some f =>
      if f.returned || !(t.pool.slots n).baton.ready then
        none
      else
        some (({ t with pool := t.pool.modify n FiberDataInfo.resume }).finish n f)
  | .drop n =>
    match t.fetches n with
    | none => none
    | some f => if f.returned then some (t.setFetch n { f with held := false }) else none
  | .allocOther =>
    match t.pool.alloc with
    | none => none
    | some none => some t
    | some (some pool) => some { t with pool }
  | .deleteOther n =>
    if n ∈ t.pool.live ∧ (t.fetches n).isNone then
      some { t with pool := t.pool.delete n }
    else
      none
  | .setCallChain callChain => some { t with callChain }

/-- A thread whose manager has been initialised. -/
def init (threadId : UInt32) (callChain : χ) : FiberThread M χ where
  pool := { manager := (FiberDataManager.initializeWith {} threadId).2 }
  callChain

/-! ## What a fetch promises -/

/-- Each fetch has its slot until it returns and has given it back once afterwards, its reply is
the one of a callback before the return, and it leaves the call chain as it was. -/
structure Sound (t : FiberThread M χ) : Prop where
  live : ∀ n f, t.fetches n = some f → (n ∈ t.pool.live ↔ f.returned = false)
  found : ∀ n ∈ t.pool.live, t.pool.manager.findFiberData (t.pool.slots n).fiberId = some n
  deleted_once : ∀ n f, t.fetches n = some f →
    t.pool.deleted.count n = if f.returned then 1 else 0
  replyData : ∀ n f, t.fetches n = some f → f.replyData = f.carried.getD {}
  callChain : ∀ n f, t.fetches n = some f → f.returned = true → f.after = some f.before

/-- The fetch that an event belongs to. -/
def owner (t : FiberThread M χ) : FiberThreadEvent M χ → Option ℕ
  | .fetch _ => some t.pool.allocs
  | .callback n _ => some n
  | .timer n => some n
  | .resume n => some n
  | .drop n => some n
  | _ => none

/-- A fetch leaves the slots of the others as they are, and its callback leaves all of them and
every reply as they are once it has returned. -/
structure StepSound (t : FiberThread M χ) (e : FiberThreadEvent M χ) (t' : FiberThread M χ) :
    Prop where
  others : ∀ n, t.owner e = some n → SlotPool.Others n t.pool t'.pool
  late : ∀ n reply f, e = .callback n reply → t.fetches n = some f → f.returned = true →
    t'.pool = t.pool ∧ ∀ m, (t'.fetches m).map (·.replyData) = (t.fetches m).map (·.replyData)

/-- A slot is handed out only while there is none that is `2^32 - 1` allocations old. -/
def Young (t : FiberThread M χ) (e : FiberThreadEvent M χ) (_ : FiberThread M χ) : Prop :=
  match e with
  | .fetch _ => t.pool.Young
  | .allocOther => t.pool.Young
  | _ => True

instance (t : FiberThread M χ) (e : FiberThreadEvent M χ) (t' : FiberThread M χ) :
    Decidable (Young t e t') := by
  unfold Young
  split <;> infer_instance

end FiberThread

/-! ## The slots are a window -/

namespace SlotPool

open FiberDataManager

/-- The manager tracks the live slots, each slot has the id of its number, and the table has lost
those that were given back. -/
structure Tracked (p : SlotPool) : Prop where
  tracks : p.manager.Tracks p.manager.threadId p.allocs (p.live.map fun n => (n, n))
  key : ∀ n < p.allocs, (p.slots n).fiberId &&& 0xffffffff = fiberKey n
  deleted : ∀ n, p.deleted.count n = if n < p.allocs ∧ n ∉ p.live then 1 else 0

variable {p q : SlotPool}

theorem Tracked.lt_allocs (hp : p.Tracked) {n : ℕ} (hn : n ∈ p.live) : n < p.allocs :=
  hp.tracks.holds.lt_count (n, n) (List.mem_map.2 ⟨n, hn, rfl⟩)

theorem Tracked.findFiberData_iff (hp : p.Tracked) {id : UInt64} {n : ℕ} :
    p.manager.findFiberData id = some n ↔ n ∈ p.live ∧ fiberKey n = id &&& 0xffffffff := by
  rw [hp.tracks.findFiberData_iff]
  constructor
  · intro h
    obtain ⟨m, hm, hkey⟩ := h
    obtain ⟨m', hm', he⟩ := List.mem_map.1 hm
    cases he
    exact ⟨hm', hkey⟩
  · intro h
    exact ⟨n, List.mem_map.2 ⟨n, h.1, rfl⟩, h.2⟩

/-- A live slot is found under its id. -/
theorem Tracked.find_live (hp : p.Tracked) {n : ℕ} (hn : n ∈ p.live) :
    p.manager.findFiberData (p.slots n).fiberId = some n :=
  hp.findFiberData_iff.2 ⟨hn, (hp.key n (hp.lt_allocs hn)).symm⟩

/-- Live slots have different keys. -/
theorem Tracked.key_inj (hp : p.Tracked) {m n : ℕ} (hm : m ∈ p.live) (hn : n ∈ p.live)
    (he : fiberKey m = fiberKey n) : m = n :=
  hp.tracks.holds.number_inj spaced_fiberKey (List.mem_map.2 ⟨m, hm, rfl⟩)
    (List.mem_map.2 ⟨n, hn, rfl⟩) he

theorem alloc_eq_some (h : p.alloc = some (some q)) :
    ∃ fiberId manager, p.manager.allocFiberData p.allocs = some (some fiberId, manager) ∧
      q = { p with
        manager
        slots := Function.update p.slots p.allocs { fiberId }
        allocs := p.allocs + 1
        live := p.allocs :: p.live } := by
  unfold alloc at h
  split at h
  · cases h
  · cases h
  · next fiberId manager ha =>
    cases h
    exact ⟨fiberId, manager, ha, rfl⟩

/-- The next slot was handed out and no other one was touched. -/
structure Allocated (p q : SlotPool) : Prop where
  inited : q.manager.inited = p.manager.inited
  size : q.manager.datas.size = p.manager.datas.size + 1
  allocs : q.allocs = p.allocs + 1
  live : q.live = p.allocs :: p.live
  slots : ∀ n ≠ p.allocs, q.slots n = p.slots n

theorem Tracked.alloc (hp : p.Tracked) (hyoung : p.Young) (h : p.alloc = some (some q)) :
    q.Tracked ∧ Allocated p q := by
  obtain ⟨fiberId, manager, ha, rfl⟩ := alloc_eq_some h
  have hage : p.manager.datas.size < fiberMaxQueueSize →
      ∀ x ∈ p.live.map fun n => (n, n), p.allocs < x.1 + keySpan := by
    intro hroom x hx
    obtain ⟨n, hn, rfl⟩ := List.mem_map.1 hx
    exact hyoung hroom n hn
  obtain ⟨hid, hm, hinited, hsize⟩ := hp.tracks.alloc hage ha
  have hthread : manager.threadId = p.manager.threadId :=
    hm.threadId (hinited.trans (allocFiberData_cases ha).1)
  refine ⟨⟨hthread ▸ hm, ?_, ?_⟩, hinited, hsize, rfl, rfl,
    fun n hn => Function.update_of_ne hn _ _⟩
  · intro n hn
    by_cases hne : n = p.allocs
    · subst hne
      simp only [Function.update_self]
      rw [hid, ← low_toUInt64, BitField.low_pair, counterAfter_toUInt64]
    · simp only [Function.update_of_ne hne]
      exact hp.key n (Nat.lt_of_le_of_ne (Nat.le_of_lt_succ hn) hne)
  · intro n
    rw [hp.deleted]
    have hlt : p.allocs ∉ p.live := fun hmem => Nat.lt_irrefl _ (hp.lt_allocs hmem)
    by_cases hne : n = p.allocs
    · subst hne
      simp
    · have hiff : n < p.allocs + 1 ↔ n < p.allocs := by omega
      simp only [List.mem_cons, hne, false_or, hiff]

theorem Tracked.delete (hp : p.Tracked) {n : ℕ} (hn : n ∈ p.live) : (p.delete n).Tracked := by
  have hkey := hp.key n (hp.lt_allocs hn)
  have hlive : (p.delete n).live.map (fun m => (m, m)) =
      (p.live.map fun m => (m, m)).filter fun x => fiberKey x.1 ≠ fiberKey n := by
    simp only [SlotPool.delete, List.filter_map, Function.comp_def]
    congr 1
    apply List.filter_congr
    intro m hm
    by_cases hmn : m = n
    · simp [hmn]
    · have hne : fiberKey m ≠ fiberKey n := fun he => hmn (hp.key_inj hm hn he)
      simp [hmn, hne]
  have hthread : (p.delete n).manager.threadId = p.manager.threadId := by
    simp only [SlotPool.delete, deleteFiberData_eq]
  refine ⟨?_, hp.key, ?_⟩
  · rw [hlive, hthread, ← hkey]
    exact hp.tracks.delete _
  · intro m
    simp only [SlotPool.delete, hp.find_live hn, Option.toList_some, List.count_append,
      hp.deleted, List.count_singleton, List.mem_filter, decide_eq_true_eq]
    have hlt := hp.lt_allocs hn
    by_cases hmn : m = n
    · subst hmn
      simp [hn, hlt]
    · have hne : ¬ n = m := fun h => hmn h.symm
      simp [hmn, hne]

theorem Tracked.modify (hp : p.Tracked) (n : ℕ) {f : FiberDataInfo → FiberDataInfo}
    (hf : ∀ d, (f d).fiberId = d.fiberId) : (p.modify n f).Tracked := by
  refine ⟨hp.tracks, ?_, hp.deleted⟩
  intro m hm
  by_cases hmn : m = n
  · subst hmn
    simp only [SlotPool.modify, Function.update_self, hf]
    exact hp.key m hm
  · simp only [SlotPool.modify, Function.update_of_ne hmn]
    exact hp.key m hm

theorem Others.refl (n : ℕ) (p : SlotPool) : Others n p p :=
  fun _ _ => ⟨Iff.rfl, rfl, fun _ => Iff.rfl⟩

theorem Others.trans {n : ℕ} {r : SlotPool} (h₁ : Others n p q) (h₂ : Others n q r) :
    Others n p r := by
  intro m hm
  obtain ⟨hlive₁, hslot₁, hfind₁⟩ := h₁ m hm
  obtain ⟨hlive₂, hslot₂, hfind₂⟩ := h₂ m hm
  exact ⟨hlive₂.trans hlive₁, hslot₂.trans hslot₁, fun id => (hfind₂ id).trans (hfind₁ id)⟩

/-- The ids follow from the live slots. -/
theorem Tracked.others (hp : p.Tracked) (hq : q.Tracked) {n : ℕ}
    (h : ∀ m ≠ n, (m ∈ q.live ↔ m ∈ p.live) ∧ q.slots m = p.slots m) : Others n p q := by
  intro m hm
  obtain ⟨hlive, hslot⟩ := h m hm
  refine ⟨hlive, hslot, ?_⟩
  intro id
  rw [hp.findFiberData_iff, hq.findFiberData_iff, hlive]

theorem others_modify (p : SlotPool) (n : ℕ) (f : FiberDataInfo → FiberDataInfo) :
    Others n p (p.modify n f) :=
  fun _ hm => ⟨Iff.rfl, Function.update_of_ne hm _ _, fun _ => Iff.rfl⟩

theorem Tracked.others_delete (hp : p.Tracked) {n : ℕ} (hn : n ∈ p.live) :
    Others n p (p.delete n) := by
  refine hp.others (hp.delete hn) fun m hm => ⟨?_, rfl⟩
  simp [SlotPool.delete, hm]

end SlotPool

/-! ## The fetches -/

/-- The reply is the one of a callback before the return, and the call chain is given back. -/
structure SyncFetch.Kept {M χ : Type} (f : SyncFetch M χ) : Prop where
  replyData : f.replyData = f.carried.getD {}
  chainBack : f.chainBack = f.before
  after : f.returned = true → f.after = some f.before

namespace FiberThread

variable {M χ : Type} {t t' : FiberThread M χ}

/-- Each fetch that has not returned has its slot. -/
structure Tracked (t : FiberThread M χ) : Prop where
  pool : t.pool.Tracked
  owned : ∀ n f, t.fetches n = some f →
    n < t.pool.allocs ∧ (n ∈ t.pool.live ↔ f.returned = false)
  kept : ∀ n f, t.fetches n = some f → f.Kept

/-- A fetch whose locals change, and whose slot may change without being given back. -/
theorem Tracked.setFetch (ht : t.Tracked) {n : ℕ} {f f' : SyncFetch M χ}
    (hf : t.fetches n = some f) (hret : f'.returned = f.returned) (hk : f'.Kept) :
    (t.setFetch n f').Tracked := by
  have hcase : ∀ m g, (t.setFetch n f').fetches m = some g →
      m = n ∧ g = f' ∨ t.fetches m = some g := by
    intro m g hg
    simp only [FiberThread.setFetch] at hg
    by_cases hm : m = n
    · subst hm
      rw [Function.update_self] at hg
      exact Or.inl ⟨rfl, (Option.some.inj hg).symm⟩
    · rw [Function.update_of_ne hm] at hg
      exact Or.inr hg
  refine ⟨ht.pool, ?_, ?_⟩
  · intro m g hg
    rcases hcase m g hg with ⟨rfl, rfl⟩ | hg
    · rw [hret]
      exact ht.owned m f hf
    · exact ht.owned m g hg
  · intro m g hg
    rcases hcase m g hg with ⟨rfl, rfl⟩ | hg
    · exact hk
    · exact ht.kept m g hg

theorem Tracked.modify (ht : t.Tracked) (n : ℕ) {g : FiberDataInfo → FiberDataInfo}
    (hg : ∀ d, (g d).fiberId = d.fiberId) :
    Tracked { t with pool := t.pool.modify n g } :=
  ⟨ht.pool.modify n hg, ht.owned, ht.kept⟩

theorem Tracked.finish (ht : t.Tracked) {n : ℕ} {f : SyncFetch M χ} (hf : t.fetches n = some f)
    (hret : f.returned = false) : (t.finish n f).Tracked := by
  have hk := ht.kept n f hf
  have hn : n ∈ t.pool.live := (ht.owned n f hf).2.2 hret
  refine ⟨ht.pool.delete hn, ?_, ?_⟩
  · intro m g hg
    have hlive : m ∈ (t.finish n f).pool.live ↔ m ∈ t.pool.live ∧ m ≠ n := by
      simp [FiberThread.finish, FiberThread.setFetch, SlotPool.delete]
    simp only [FiberThread.finish, FiberThread.setFetch] at hg
    rw [hlive]
    by_cases hm : m = n
    · subst hm
      rw [Function.update_self] at hg
      cases hg
      exact ⟨(ht.owned m f hf).1, by simp⟩
    · rw [Function.update_of_ne hm] at hg
      have hown := ht.owned m g hg
      exact ⟨hown.1, by rw [← hown.2]; simp [hm]⟩
  · intro m g hg
    simp only [FiberThread.finish, FiberThread.setFetch] at hg
    by_cases hm : m = n
    · subst hm
      rw [Function.update_self] at hg
      cases hg
      exact ⟨hk.replyData, hk.chainBack, fun _ => congrArg some hk.chainBack⟩
    · rw [Function.update_of_ne hm] at hg
      exact ht.kept m g hg

/-! ## The callback -/

/-- The callback while the fetch has not returned. -/
theorem onReply_running (t : FiberThread M χ) (n : ℕ) {f : SyncFetch M χ}
    (hret : f.returned = false) (reply : HttpClientReplyData M) :
    t.onReply n f reply =
      let t' := t.setFetch n { f with called := true, carried := some reply, replyData := reply }
      if reply.result ≠ .invalid then
        { t' with pool := t'.pool.modify n fun d => d.post true }
      else
        t' := by
  unfold onReply
  simp [hret]

/-- The slot of a fetch that has returned is not in the table. -/
theorem Tracked.not_stored (ht : t.Tracked) {n : ℕ} {f : SyncFetch M χ}
    (hf : t.fetches n = some f) (hret : f.returned = true) : t.pool.stored n = false := by
  unfold SlotPool.stored
  rw [decide_eq_false_iff_not, ht.pool.findFiberData_iff]
  intro h
  have hlive := (ht.owned n f hf).2.1 h.1
  rw [hret] at hlive
  cases hlive

/-- The callback after the return. -/
theorem Tracked.onReply_returned (ht : t.Tracked) {n : ℕ} {f : SyncFetch M χ}
    (hf : t.fetches n = some f) (hret : f.returned = true) (reply : HttpClientReplyData M) :
    t.onReply n f reply = t.setFetch n { f with called := true } := by
  unfold onReply
  simp [hret, ht.not_stored hf hret]

theorem Tracked.onReply (ht : t.Tracked) {n : ℕ} {f : SyncFetch M χ} (hf : t.fetches n = some f)
    (reply : HttpClientReplyData M) :
    (t.onReply n f reply).Tracked ∧ SlotPool.Others n t.pool (t.onReply n f reply).pool := by
  have hk := ht.kept n f hf
  cases hret : f.returned with
  | true =>
    rw [ht.onReply_returned hf hret]
    exact ⟨ht.setFetch hf rfl ⟨hk.replyData, hk.chainBack, hk.after⟩, SlotPool.Others.refl n _⟩
  | false =>
    have hset : (t.setFetch n
        { f with called := true, carried := some reply, replyData := reply }).Tracked :=
      ht.setFetch hf rfl ⟨rfl, hk.chainBack, hk.after⟩
    rw [onReply_running t n hret]
    dsimp only
    split
    · exact ⟨hset.modify n fun _ => rfl, SlotPool.others_modify _ _ _⟩
    · exact ⟨hset, SlotPool.Others.refl n _⟩

/-! ## One step -/

/-- A new fetch with its slot, before `Fetch`. -/
theorem Tracked.started (ht : t.Tracked) {q : SlotPool} (hyoung : t.pool.Young)
    (h : t.pool.alloc = some (some q)) :
    (({ t with pool := q }).setFetch t.pool.allocs
      { chainBack := t.callChain, before := t.callChain } : FiberThread M χ).Tracked ∧
    SlotPool.Others t.pool.allocs t.pool q := by
  obtain ⟨hq, hnew⟩ := ht.pool.alloc hyoung h
  have hcase : ∀ n, n ≠ t.pool.allocs → (n ∈ q.live ↔ n ∈ t.pool.live) := by
    intro n hn
    rw [hnew.live, List.mem_cons, or_iff_right hn]
  refine ⟨⟨hq, ?_, ?_⟩, ht.pool.others hq fun n hn => ⟨hcase n hn, hnew.slots n hn⟩⟩
  · intro n f hf
    simp only [FiberThread.setFetch] at hf ⊢
    rw [hnew.allocs]
    by_cases hn : n = t.pool.allocs
    · subst hn
      rw [Function.update_self] at hf
      cases hf
      exact ⟨Nat.lt_succ_self _, by simp [hnew.live]⟩
    · rw [Function.update_of_ne hn] at hf
      have hown := ht.owned n f hf
      exact ⟨Nat.lt_succ_of_lt hown.1, (hcase n hn).trans hown.2⟩
  · intro n f hf
    simp only [FiberThread.setFetch] at hf
    by_cases hn : n = t.pool.allocs
    · subst hn
      rw [Function.update_self] at hf
      cases hf
      exact ⟨rfl, rfl, nofun⟩
    · rw [Function.update_of_ne hn] at hf
      exact ht.kept n f hf

theorem Tracked.callFetch (ht : t.Tracked) {n : ℕ} {f : SyncFetch M χ}
    (hf : t.fetches n = some f) (hret : f.returned = false)
    (sync : Option (HttpClientReplyData M)) :
    (t.callFetch n f sync).Tracked ∧ SlotPool.Others n t.pool (t.callFetch n f sync).pool ∧
      ∃ f', (t.callFetch n f sync).fetches n = some f' ∧ f'.returned = false := by
  cases sync with
  | none => exact ⟨ht, SlotPool.Others.refl n _, f, hf, hret⟩
  | some reply =>
    obtain ⟨ht', hothers⟩ := ht.onReply hf reply
    refine ⟨ht', hothers,
      { f with called := true, carried := some reply, replyData := reply }, ?_, hret⟩
    change (t.onReply n f reply).fetches n = _
    rw [onReply_running t n hret]
    dsimp only
    split <;> exact Function.update_self ..

theorem Tracked.fetch (ht : t.Tracked) (hyoung : t.pool.Young)
    {sync : Option (HttpClientReplyData M)} (h : t.fetch sync = some t') :
    t'.Tracked ∧ SlotPool.Others t.pool.allocs t.pool t'.pool := by
  unfold FiberThread.fetch at h
  rcases ha : t.pool.alloc with _ | _ | q
  · simp only [ha] at h
    cases h
  · simp only [ha] at h
    cases h
    exact ⟨ht, SlotPool.Others.refl _ _⟩
  · simp only [ha] at h
    obtain ⟨hstarted, hothers₁⟩ := ht.started hyoung ha
    obtain ⟨hcalled, hothers₂, f, hf, hret⟩ :=
      hstarted.callFetch (Function.update_self ..) rfl sync
    have hothers := hothers₁.trans hothers₂
    rw [hf, Option.getD_some] at h
    split at h
    · cases h
      exact ⟨hcalled.modify _ fun _ => rfl, hothers.trans (SlotPool.others_modify _ _ _)⟩
    · cases h
      have hlive := (hcalled.owned _ f hf).2.2 hret
      exact ⟨hcalled.finish hf hret, hothers.trans (hcalled.pool.others_delete hlive)⟩

theorem Tracked.sound (ht : t.Tracked) : t.Sound where
  live n f hf := (ht.owned n f hf).2
  found n hn := ht.pool.find_live hn
  deleted_once n f hf := by
    obtain ⟨hlt, hlive⟩ := ht.owned n f hf
    rw [ht.pool.deleted]
    cases hret : f.returned <;> simp [hlt, hlive, hret]
  replyData n f hf := (ht.kept n f hf).replyData
  callChain n f hf := (ht.kept n f hf).after

theorem StepSound.of_others {e : FiberThreadEvent M χ} {n : ℕ} (hn : t.owner e = some n)
    (he : ∀ m reply, e ≠ .callback m reply) (h : SlotPool.Others n t.pool t'.pool) :
    StepSound t e t' where
  others m hm := by
    rw [hn] at hm
    cases hm
    exact h
  late m reply _ hm := absurd hm (he m reply)

theorem StepSound.of_owner_none {e : FiberThreadEvent M χ} (he : t.owner e = none) :
    StepSound t e t' where
  others n hn := by
    rw [he] at hn
    cases hn
  late n reply f hn := by
    rw [hn] at he
    cases he

/-- All that a step can do. -/
theorem step_cases {e : FiberThreadEvent M χ} (h : step t e = some t') :
    match e with
    | .fetch sync => t.fetch sync = some t'
    | .callback n reply => ∃ f, t.fetches n = some f ∧ f.called = false ∧
        t' = t.onReply n f reply
    | .timer n => ∃ f, t.fetches n = some f ∧ f.returned = false ∧
        t' = { t with pool := t.pool.modify n fun d => { d with baton := d.baton.expire } }
    | .resume n => ∃ f, t.fetches n = some f ∧ f.returned = false ∧
        (t.pool.slots n).baton.ready = true ∧
        t' = { t with pool := t.pool.modify n FiberDataInfo.resume }.finish n f
    | .drop n => ∃ f, t.fetches n = some f ∧ f.returned = true ∧
        t' = t.setFetch n { f with held := false }
    | .allocOther => t' = t ∨ ∃ q, t.pool.alloc = some (some q) ∧ t' = { t with pool := q }
    | .deleteOther n => n ∈ t.pool.live ∧ t.fetches n = none ∧
        t' = { t with pool := t.pool.delete n }
    | .setCallChain callChain => t' = { t with callChain } := by
  unfold step at h
  cases e with
  | fetch sync => exact h
  | callback n reply =>
    dsimp only at h
    split at h
    · cases h
    · next f hf =>
      split at h
      · cases h
      · next hcalled =>
        cases h
        exact ⟨f, hf, by simpa using hcalled, rfl⟩
  | timer n =>
    dsimp only at h
    split at h
    · cases h
    · next f hf =>
      split at h
      · cases h
      · next hret =>
        cases h
        exact ⟨f, hf, by simpa using hret, rfl⟩
  | resume n =>
    dsimp only at h
    split at h
    · cases h
    · next f hf =>
      split at h
      · cases h
      · next hcond =>
        cases h
        simp only [Bool.or_eq_true, not_or, Bool.not_eq_true, Bool.not_eq_false'] at hcond
        exact ⟨f, hf, hcond.1, hcond.2, rfl⟩
  | drop n =>
    dsimp only at h
    split at h
    · cases h
    · next f hf =>
      split at h
      · next hret =>
        cases h
        exact ⟨f, hf, hret, rfl⟩
      · cases h
  | allocOther =>
    dsimp only at h
    split at h
    · cases h
    · cases h
      exact Or.inl rfl
    · next q hq =>
      cases h
      exact Or.inr ⟨q, hq, rfl⟩
  | deleteOther n =>
    dsimp only at h
    split at h
    · next hn =>
      cases h
      exact ⟨hn.1, by simpa using hn.2, rfl⟩
    · cases h
  | setCallChain callChain =>
    cases h
    rfl

/-- A callback after the return leaves every reply as it is. -/
theorem map_replyData_setFetch {n : ℕ} {f f' : SyncFetch M χ} (hf : t.fetches n = some f)
    (hreply : f'.replyData = f.replyData) (m : ℕ) :
    ((t.setFetch n f').fetches m).map (·.replyData) = (t.fetches m).map (·.replyData) := by
  by_cases hm : m = n
  · subst hm
    simp [FiberThread.setFetch, hf, hreply]
  · simp [FiberThread.setFetch, hm]

theorem Tracked.callback (ht : t.Tracked) {n : ℕ} {f : SyncFetch M χ} (hf : t.fetches n = some f)
    (reply : HttpClientReplyData M) :
    (t.onReply n f reply).Tracked ∧ StepSound t (.callback n reply) (t.onReply n f reply) := by
  obtain ⟨ht', hothers⟩ := ht.onReply hf reply
  refine ⟨ht', ?_, ?_⟩
  · intro m hm
    cases hm
    exact hothers
  · intro m r g he hg hret
    cases he
    rw [hf] at hg
    cases hg
    rw [ht.onReply_returned hf hret]
    exact ⟨rfl, map_replyData_setFetch hf rfl⟩

theorem Tracked.resume (ht : t.Tracked) {n : ℕ} {f : SyncFetch M χ} (hf : t.fetches n = some f)
    (hret : f.returned = false) :
    ({ t with pool := t.pool.modify n FiberDataInfo.resume }.finish n f).Tracked ∧
      SlotPool.Others n t.pool
        ({ t with pool := t.pool.modify n FiberDataInfo.resume }.finish n f).pool := by
  have hresume : ∀ d : FiberDataInfo, d.resume.fiberId = d.fiberId := by
    intro d
    unfold FiberDataInfo.resume
    split <;> rfl
  have hmod := ht.modify n hresume
  have hlive := (hmod.owned n f hf).2.2 hret
  exact ⟨hmod.finish hf hret,
    (SlotPool.others_modify t.pool n FiberDataInfo.resume).trans (hmod.pool.others_delete hlive)⟩

theorem Tracked.allocOther (ht : t.Tracked) (hyoung : t.pool.Young) {q : SlotPool}
    (h : t.pool.alloc = some (some q)) : Tracked { t with pool := q } := by
  obtain ⟨hq, hnew⟩ := ht.pool.alloc hyoung h
  refine ⟨hq, ?_, ht.kept⟩
  intro n f hf
  obtain ⟨hlt, hown⟩ := ht.owned n f hf
  have hne : n ≠ t.pool.allocs := Nat.ne_of_lt hlt
  exact ⟨hnew.allocs ▸ Nat.lt_succ_of_lt hlt,
    by rw [← hown, hnew.live, List.mem_cons, or_iff_right hne]⟩

theorem Tracked.deleteOther (ht : t.Tracked) {n : ℕ} (hn : n ∈ t.pool.live)
    (hother : t.fetches n = none) : Tracked { t with pool := t.pool.delete n } := by
  refine ⟨ht.pool.delete hn, ?_, ht.kept⟩
  intro m f hf
  obtain ⟨hlt, hown⟩ := ht.owned m f hf
  have hne : m ≠ n := by
    intro he
    rw [he, hother] at hf
    cases hf
  exact ⟨hlt, by rw [← hown]; simp [SlotPool.delete, hne]⟩

theorem Tracked.step (ht : t.Tracked) {e : FiberThreadEvent M χ} (hyoung : Young t e t')
    (h : step t e = some t') : t'.Tracked ∧ StepSound t e t' := by
  have hcase := step_cases h
  cases e with
  | fetch sync =>
    obtain ⟨ht', hothers⟩ := ht.fetch hyoung hcase
    exact ⟨ht', .of_others rfl nofun hothers⟩
  | callback n reply =>
    obtain ⟨f, hf, -, rfl⟩ := hcase
    exact ht.callback hf reply
  | timer n =>
    obtain ⟨f, -, -, rfl⟩ := hcase
    exact ⟨ht.modify n fun _ => rfl, .of_others rfl nofun (SlotPool.others_modify _ _ _)⟩
  | resume n =>
    obtain ⟨f, hf, hret, -, rfl⟩ := hcase
    obtain ⟨ht', hothers⟩ := ht.resume hf hret
    exact ⟨ht', .of_others rfl nofun hothers⟩
  | drop n =>
    obtain ⟨f, hf, -, rfl⟩ := hcase
    have hk := ht.kept n f hf
    exact ⟨ht.setFetch hf rfl ⟨hk.replyData, hk.chainBack, hk.after⟩,
      .of_others rfl nofun (SlotPool.Others.refl n _)⟩
  | allocOther =>
    rcases hcase with rfl | ⟨q, hq, rfl⟩
    · exact ⟨ht, .of_owner_none rfl⟩
    · exact ⟨ht.allocOther hyoung hq, .of_owner_none rfl⟩
  | deleteOther n =>
    obtain ⟨hn, hother, rfl⟩ := hcase
    exact ⟨ht.deleteOther hn hother, .of_owner_none rfl⟩
  | setCallChain c =>
    cases hcase
    exact ⟨⟨ht.pool, ht.owned, ht.kept⟩, .of_owner_none rfl⟩

theorem tracked_init (threadId : UInt32) (callChain : χ) :
    Tracked (init threadId callChain : FiberThread M χ) where
  pool := {
    tracks := (FiberDataManager.tracks_new threadId).initializeWith
    key := fun _ h => absurd h (Nat.not_lt_zero _)
    deleted := fun _ => rfl }
  owned n f h := by
    cases h
  kept n f h := by
    cases h

/-- **Fetching on a fiber.** In every run in which a slot is handed out only while there is none
that is `2^32 - 1` allocations old, with the callbacks, timers and other users of the slots in any
order: each fetch has its own slot until it returns and gives it back once, its reply is the one
of a callback before the return or empty, the call chain after it is the one before it, its steps
leave the other slots as they are, and a callback after the return changes no slot and no reply. -/
theorem fetch_sound (threadId : UInt32) (callChain : χ) (es : List (FiberThreadEvent M χ))
    (h : run step (init threadId callChain) es = some t)
    (hage : Along step Young (init threadId callChain) es) :
    Sound t ∧ Along step StepSound (init threadId callChain) es := by
  have hinit : Tracked (init threadId callChain : FiberThread M χ) := tracked_init threadId callChain
  constructor
  · have ht : Tracked t := hage.invariant (fun _ _ _ hq hp hs => (hp.step hq hs).1) hinit h
    exact ht.sound
  · exact hage.imp (fun _ _ _ hq hp hs => hp.step hq hs) hinit

/-- Four fetches: a reply during the wait, a connect error inside `Fetch`, a reply between the
timer and the return, and one after the return. -/
def fourFetches : List (FiberThreadEvent Bool Bool) :=
  [.fetch none, .fetch (some { result := .connectError }), .fetch none, .fetch none,
    .setCallChain false, .callback 0 { result := .ok, headers := some true }, .resume 0, .resume 1,
    .timer 2, .timer 3, .callback 2 { result := .ok }, .resume 2, .resume 3,
    .callback 3 { result := .ok }]

theorem fetch_sound_four_fetches : ∃ t, run step (init 5 true) fourFetches = some t ∧
    Sound t ∧ Along step StepSound (init 5 true) fourFetches :=
  ⟨_, rfl, fetch_sound 5 true fourFetches rfl (by decide)⟩

/-! ## A slot that is kept too long -/

open FiberDataManager

/-- The reply to an invalid URL. -/
def invalidReply : HttpClientReplyData M := { result := .invalid }

theorem alloc_of_room {p : SlotPool} (hinited : p.manager.inited = true)
    (hroom : p.manager.datas.size < fiberMaxQueueSize) : ∃ q, p.alloc = some (some q) := by
  obtain ⟨fiberId, manager, ha, -, -⟩ := allocFiberData_of_room hinited hroom p.allocs
  unfold SlotPool.alloc
  rw [ha]
  exact ⟨_, rfl⟩

/-- A fetch of an invalid URL gives its slot back before any other event. -/
theorem fetch_invalid {q : SlotPool} (h : t.pool.alloc = some (some q)) :
    ∃ t', t.fetch (some invalidReply) = some t' ∧ t'.pool = q.delete t.pool.allocs ∧
      ∀ n ≠ t.pool.allocs, t'.fetches n = t.fetches n := by
  unfold FiberThread.fetch FiberThread.callFetch
  simp only [h]
  rw [onReply_running _ _ rfl]
  simp only [invalidReply, ne_eq, not_true_eq_false, if_false, FiberThread.setFetch,
    Function.update_self, Option.getD_some]
  refine ⟨_, rfl, rfl, ?_⟩
  intro n hn
  simp only [FiberThread.finish, FiberThread.setFetch, Function.update_of_ne hn]

/-- The first fetch waits and the next slot is `n`. -/
structure Waiting (t : FiberThread M χ) (n : ℕ) : Prop where
  tracked : t.Tracked
  inited : t.pool.manager.inited = true
  size : t.pool.manager.datas.size = 1
  allocs : t.pool.allocs = n
  live : t.pool.live = [0]

/-- One live slot leaves room for another. -/
theorem Waiting.alloc {n : ℕ} (h : Waiting t n) : ∃ q, t.pool.alloc = some (some q) := by
  apply alloc_of_room h.inited
  rw [h.size]
  decide

theorem Waiting.young {n : ℕ} (h : Waiting t n) (hn : n < keySpan) :
    t.pool.Young := by
  intro _ m hm
  rw [h.live, List.mem_singleton] at hm
  rw [h.allocs, hm]
  omega

/-- Another fetch, of an invalid URL, while the counter has not come round. -/
theorem Waiting.fetch_invalid {n : ℕ} (h : Waiting t n) (hpos : 0 < n)
    (hn : n < keySpan) :
    ∃ t', step t (.fetch (some invalidReply)) = some t' ∧ Waiting t' (n + 1) := by
  obtain ⟨q, hq⟩ := h.alloc
  obtain ⟨hqt, hnew⟩ := h.tracked.pool.alloc (h.young hn) hq
  obtain ⟨t', ht', hpool, -⟩ := FiberThread.fetch_invalid hq
  rw [h.allocs] at hpool
  have hlive : n ∈ q.live := by simp [hnew.live, h.allocs]
  have hmem : (q.slots n).fiberId &&& 0xffffffff ∈ q.manager.datas :=
    Table.mem_iff.2 ⟨n, hqt.find_live hlive⟩
  have hsize := Table.size_erase_of_mem hmem
  refine ⟨t', ht', (h.tracked.fetch (h.young hn) ht').1, ?_, ?_, ?_, ?_⟩ <;>
    simp only [hpool, SlotPool.delete, deleteFiberData_eq]
  · exact hnew.inited.trans h.inited
  · rw [hnew.size, h.size] at hsize
    omega
  · rw [hnew.allocs, h.allocs]
  · simp [hnew.live, h.allocs, h.live, hpos.ne]

/-- The first fetch waits while `k` fetches of an invalid URL come and go. -/
theorem exists_waiting (k : ℕ) (hk : k < keySpan) :
    ∃ t : FiberThread M Unit, run step (init 0 ())
      (.fetch none :: List.replicate k (.fetch (some invalidReply))) = some t ∧
      Waiting t (k + 1) := by
  induction k with
  | zero =>
    have hyoung : (init 0 () : FiberThread M Unit).pool.Young :=
      fun _ _ hn => absurd hn List.not_mem_nil
    refine ⟨_, rfl, ?_, rfl, rfl, rfl, rfl⟩
    exact ((tracked_init 0 ()).step (e := .fetch none) hyoung rfl).1
  | succ k ih =>
    obtain ⟨t, ht, hw⟩ := ih (by omega)
    obtain ⟨t', ht', hw'⟩ := hw.fetch_invalid (Nat.succ_pos k) hk
    rw [List.replicate_succ', ← List.cons_append]
    exact ⟨t', run_concat_of_eq_some ht ht', hw'⟩

theorem fiberKey_keySpan :
    fiberKey keySpan = fiberKey 0 := by
  unfold fiberKey ringKey
  rw [Nat.mod_self, Nat.zero_mod]

/-- A slot that comes round to the id of the first one is not stored, and giving it back takes
the first one out of the table. -/
theorem Waiting.delete_next (h : Waiting t keySpan) {q : SlotPool}
    (hq : t.pool.alloc = some (some q)) :
    0 ∈ (q.delete keySpan).live ∧
      (q.delete keySpan).manager.findFiberData
        ((q.delete keySpan).slots 0).fiberId = none := by
  have hlive : 0 ∈ t.pool.live := by simp [h.live]
  have hkey := h.tracked.pool.key 0 (h.tracked.pool.lt_allocs hlive)
  have hne := keySpan_pos.ne
  obtain ⟨fiberId, manager, ha, rfl⟩ := SlotPool.alloc_eq_some hq
  have hid : fiberId &&& 0xffffffff = fiberKey 0 := by
    obtain ⟨-, hr | ⟨-, hr⟩⟩ := allocFiberData_cases ha
    · cases hr
    · cases hr
      rw [← low_toUInt64, BitField.low_pair, h.tracked.pool.tracks.counter,
        h.allocs, nextFiberId_counterAfter,
        counterAfter_toUInt64, fiberKey_keySpan]
  refine ⟨by simp [SlotPool.delete, h.live, h.allocs, hne], ?_⟩
  simp only [SlotPool.delete, h.allocs, Function.update_self, Function.update_of_ne hne]
  rw [deleteFiberData_eq, findFiberData, hid, hkey,
    Table.find_erase, if_pos rfl]

/-- A fetch that waits while `2^32 - 1` fetches of an invalid URL come and go has lost its slot. -/
theorem slot_lost :
    ¬ ∀ (es : List (FiberThreadEvent Unit Unit)) (t : FiberThread Unit Unit),
      run step (init 0 ()) es = some t → Sound t ∧ Along step StepSound (init 0 ()) es := by
  intro hall
  obtain ⟨t, ht, hw⟩ := exists_waiting (M := Unit) (keySpan - 1) (Nat.pred_lt keySpan_pos.ne')
  rw [Nat.sub_add_cancel keySpan_pos] at hw
  obtain ⟨q, hq⟩ := hw.alloc
  obtain ⟨t', ht', hpool, -⟩ := FiberThread.fetch_invalid hq
  rw [hw.allocs] at hpool
  obtain ⟨hlive, hnone⟩ := hw.delete_next hq
  have hstep : step t (.fetch (some invalidReply)) = some t' := ht'
  have hsound := (hall _ t' (run_concat_of_eq_some ht hstep)).1
  rw [← hpool] at hlive hnone
  have hfound := hsound.found 0 hlive
  rw [hnone] at hfound
  cases hfound

end FiberThread

end ServiceFramework.Net

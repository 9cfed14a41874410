import ServiceFramework.Base.Snowflake
import ServiceFramework.Lib.Table
import ServiceFramework.Lib.Transition

/-!
# The snowflake generators of one process

`GetNextIDBySnowflake` gives each thread its own `IdWorker`, numbered by a 16-bit counter, and
`GetNextIDBySnowflakeUnSafe` has one more (`base/snowflake_id_util.cc`). The thread number stands
where the data center id of the constructor is, and five bits of it reach the id. So the
generators are told apart while there are at most 32 threads and none of their numbers is the data
center id of the unsafe generator modulo 32, and not beyond (`no_collision_iff`). For the same
reason the configured data center id keeps no two processes apart, but the worker id does
(`processes_disjoint_iff`).
-/

namespace ServiceFramework.Base

open Transition

/-- The generators of a process. -/
inductive Generator where
  | thread (t : ℕ)
  | unSafe
  deriving DecidableEq

/-- The globals of the module, the generators made so far and the ids returned, the last first. -/
structure SnowflakeProcess where
  gWorkerId : UInt16 := 1
  gDataCenterId : UInt16 := 1
  gThreadId : UInt16 := 0
  cache : Table ℕ IdWorker := ∅
  gIdWorker : Option IdWorker := none
  returned : List (Generator × UInt64) := []

namespace SnowflakeProcess

/-! ## The functions of the module -/

/-- `InitSnowflakeWorkerID`. -/
def initSnowflakeWorkerID (s : SnowflakeProcess) (workerId dataCenterId : UInt16) :
    SnowflakeProcess :=
  { s with gWorkerId := workerId, gDataCenterId := dataCenterId }

/-- `GetIdWorkerByThreadLocal` on thread `t`. A new generator takes the next thread number for its
data center id; `lastTimestamp` is what its memory held. -/
def getIdWorkerByThreadLocal (s : SnowflakeProcess) (t : ℕ) (lastTimestamp : UInt64) :
    IdWorker × SnowflakeProcess :=
  match s.cache.find t with
  | some w => (w, s)
  | none =>
    let nextId := s.gThreadId
    let w : IdWorker := { workerId := s.gWorkerId, dataCenterId := nextId, lastTimestamp }
    (w, { s with gThreadId := s.gThreadId + 1, cache := s.cache.insert t w })

/-- The static generator of `GetNextIDBySnowflakeUnSafe`, made by the first call. -/
def staticIdWorker (s : SnowflakeProcess) (lastTimestamp : UInt64) : IdWorker × SnowflakeProcess :=
  match s.gIdWorker with
  | some w => (w, s)
  | none =>
    let w : IdWorker :=
      { workerId := s.gWorkerId, dataCenterId := s.gDataCenterId, lastTimestamp }
    (w, { s with gIdWorker := some w })

/-- `GetNextIDBySnowflake` on thread `t`. A call that does not return within its readings leaves
its generator behind and nothing else. -/
def getNextIDBySnowflake (s : SnowflakeProcess) (t : ℕ) (lastTimestamp : UInt64)
    (clock : List UInt64) : SnowflakeProcess :=
  let (w, s) := s.getIdWorkerByThreadLocal t lastTimestamp
  match w.getNextID clock with
  | none => s
  | some (id, w, _) =>
    { s with cache := s.cache.insert t w, returned := (.thread t, id) :: s.returned }

/-- `GetNextIDBySnowflakeUnSafe`. -/
def getNextIDBySnowflakeUnSafe (s : SnowflakeProcess) (lastTimestamp : UInt64)
    (clock : List UInt64) : SnowflakeProcess :=
  let (w, s) := s.staticIdWorker lastTimestamp
  match w.getNextID clock with
  | none => s
  | some (id, w, _) =>
    { s with gIdWorker := some w, returned := (.unSafe, id) :: s.returned }

/-- A call with the readings it takes. -/
inductive Call where
  | getNextIDBySnowflake (t : ℕ) (lastTimestamp : UInt64) (clock : List UInt64)
  | getNextIDBySnowflakeUnSafe (lastTimestamp : UInt64) (clock : List UInt64)

def step (s : SnowflakeProcess) : Call → Option SnowflakeProcess
  | .getNextIDBySnowflake t lastTimestamp clock =>
    some (s.getNextIDBySnowflake t lastTimestamp clock)
  | .getNextIDBySnowflakeUnSafe lastTimestamp clock =>
    some (s.getNextIDBySnowflakeUnSafe lastTimestamp clock)

/-- No two generators have returned one id. -/
def NoCollision (s : SnowflakeProcess) : Prop :=
  ∀ x ∈ s.returned, ∀ y ∈ s.returned, x.1 ≠ y.1 → x.2 ≠ y.2

/-! ## What a call does -/

/-- The generator behind a name. -/
def worker (s : SnowflakeProcess) : Generator → Option IdWorker
  | .thread t => s.cache.find t
  | .unSafe => s.gIdWorker

/-- The data center field of an id. -/
def dataCenterField (id : UInt64) : ℕ := id.toNat / 2 ^ 17 % 32

theorem dataCenterField_pack (w : IdWorker) (t : UInt64) :
    dataCenterField (w.pack t) = w.dataCenterId.toNat % 32 := by
  rw [dataCenterField, w.pack_toNat t, IdWorker.layout]
  omega

/-- All that a call of thread `t` can do after it has acquired its generator. -/
theorem getNextIDBySnowflake_cases (s : SnowflakeProcess) (t : ℕ) (lastTimestamp : UInt64)
    (clock : List UInt64) :
    s.getNextIDBySnowflake t lastTimestamp clock =
        (s.getIdWorkerByThreadLocal t lastTimestamp).2 ∨
      ∃ id w' rest,
        (s.getIdWorkerByThreadLocal t lastTimestamp).1.getNextID clock = some (id, w', rest) ∧
        s.getNextIDBySnowflake t lastTimestamp clock =
          { (s.getIdWorkerByThreadLocal t lastTimestamp).2 with
            cache := (s.getIdWorkerByThreadLocal t lastTimestamp).2.cache.insert t w'
            returned :=
              (.thread t, id) :: (s.getIdWorkerByThreadLocal t lastTimestamp).2.returned } := by
  unfold getNextIDBySnowflake
  rcases s.getIdWorkerByThreadLocal t lastTimestamp with ⟨w, s₁⟩
  rcases hid : w.getNextID clock with _ | ⟨id, w', rest⟩
  · exact Or.inl (by simp only [hid])
  · exact Or.inr ⟨id, w', rest, rfl, by simp only [hid]⟩

theorem getNextIDBySnowflakeUnSafe_cases (s : SnowflakeProcess) (lastTimestamp : UInt64)
    (clock : List UInt64) :
    s.getNextIDBySnowflakeUnSafe lastTimestamp clock = (s.staticIdWorker lastTimestamp).2 ∨
      ∃ id w' rest, (s.staticIdWorker lastTimestamp).1.getNextID clock = some (id, w', rest) ∧
        s.getNextIDBySnowflakeUnSafe lastTimestamp clock =
          { (s.staticIdWorker lastTimestamp).2 with
            gIdWorker := some w'
            returned := (.unSafe, id) :: (s.staticIdWorker lastTimestamp).2.returned } := by
  unfold getNextIDBySnowflakeUnSafe
  rcases s.staticIdWorker lastTimestamp with ⟨w, s₁⟩
  rcases hid : w.getNextID clock with _ | ⟨id, w', rest⟩
  · exact Or.inl (by simp only [hid])
  · exact Or.inr ⟨id, w', rest, rfl, by simp only [hid]⟩

/-! ## Few threads -/

/-- At most 32 thread generators, each with a number of its own below their count; a returned id
carries the data center id of its generator. -/
structure Separated (dataCenterId : UInt16) (s : SnowflakeProcess) : Prop where
  dataCenter : s.gDataCenterId = dataCenterId
  counter : s.gThreadId.toNat = s.cache.size
  number_lt : ∀ t w, s.cache.find t = some w → w.dataCenterId.toNat < s.cache.size
  number_inj : ∀ t t' w w', s.cache.find t = some w → s.cache.find t' = some w' →
    w.dataCenterId = w'.dataCenterId → t = t'
  unSafe : ∀ w, s.gIdWorker = some w → w.dataCenterId = dataCenterId
  field : ∀ x ∈ s.returned, ∃ w, s.worker x.1 = some w ∧
    dataCenterField x.2 = w.dataCenterId.toNat % 32

variable {dataCenterId : UInt16} {s : SnowflakeProcess}

theorem separated_init (workerId dataCenterId : UInt16) :
    Separated dataCenterId (({} : SnowflakeProcess).initSnowflakeWorkerID workerId dataCenterId) where
  dataCenter := rfl
  counter := rfl
  number_lt := by
    intro t w h
    cases h
  number_inj := by
    intro t t' w w' h
    cases h
  unSafe := by
    intro w h
    cases h
  field := by
    intro x h
    cases h

/-- Every generator is there and has the data center id it had. -/
def Retains (s s' : SnowflakeProcess) : Prop :=
  ∀ g w, s.worker g = some w → ∃ w', s'.worker g = some w' ∧ w'.dataCenterId = w.dataCenterId

theorem Separated.field_retains (h : Separated dataCenterId s) {s' : SnowflakeProcess}
    (hs : s.Retains s') : ∀ x ∈ s.returned, ∃ w, s'.worker x.1 = some w ∧
      dataCenterField x.2 = w.dataCenterId.toNat % 32 := by
  intro x hx
  obtain ⟨w, hw, hfield⟩ := h.field x hx
  obtain ⟨w', hw', hdc⟩ := hs x.1 w hw
  exact ⟨w', hw', by rw [hfield, hdc]⟩

/-- A change of the thread generators that leaves each of them its data center id. -/
theorem retains_cache {cache : Table ℕ IdWorker} {returned : List (Generator × UInt64)}
    {gThreadId : UInt16} (hcache : ∀ t w, s.cache.find t = some w →
      ∃ w', cache.find t = some w' ∧ w'.dataCenterId = w.dataCenterId) :
    s.Retains { s with cache, returned, gThreadId } := by
  intro g w hw
  cases g with
  | thread t => exact hcache t w hw
  | unSafe => exact ⟨w, hw, rfl⟩

theorem retains_gIdWorker {w' : IdWorker} {returned : List (Generator × UInt64)}
    (hw' : ∀ w, s.gIdWorker = some w → w'.dataCenterId = w.dataCenterId) :
    s.Retains { s with gIdWorker := some w', returned } := by
  intro g w hw
  cases g with
  | thread t => exact ⟨w, hw, rfl⟩
  | unSafe => exact ⟨w', rfl, hw' w hw⟩

/-- Acquiring a thread generator keeps the others and what has been returned. -/
theorem Separated.acquire (h : Separated dataCenterId s) (t : ℕ) (lastTimestamp : UInt64)
    (hsize : (s.getIdWorkerByThreadLocal t lastTimestamp).2.cache.size ≤ 32) :
    Separated dataCenterId (s.getIdWorkerByThreadLocal t lastTimestamp).2 ∧
      (s.getIdWorkerByThreadLocal t lastTimestamp).2.cache.find t =
        some (s.getIdWorkerByThreadLocal t lastTimestamp).1 := by
  unfold getIdWorkerByThreadLocal at *
  cases hfind : s.cache.find t with
  | some w => exact ⟨h, hfind⟩
  | none =>
    simp only [hfind] at hsize ⊢
    have hnew : t ∉ s.cache := Table.find_eq_none.1 hfind
    rw [Table.size_insert_of_notMem hnew] at hsize
    have hcount : (s.gThreadId + 1).toNat = s.cache.size + 1 := by
      rw [UInt16.toNat_add, h.counter]
      change (s.cache.size + 1) % 2 ^ 16 = _
      omega
    have hold : ∀ t' w', s.cache.find t' = some w' → w'.dataCenterId ≠ s.gThreadId := by
      intro t' w' hw' he
      have hlt := h.number_lt t' w' hw'
      rw [he, h.counter] at hlt
      exact Nat.lt_irrefl _ hlt
    refine ⟨⟨h.dataCenter, ?_, ?_, ?_, h.unSafe, h.field_retains (retains_cache ?_)⟩, ?_⟩
    · change (s.gThreadId + 1).toNat = _
      rw [hcount, Table.size_insert_of_notMem hnew]
    · intro t' w' hw'
      rw [Table.size_insert_of_notMem hnew]
      rw [Table.find_insert] at hw'
      split at hw'
      · cases hw'
        change s.gThreadId.toNat < _
        rw [h.counter]
        omega
      · exact Nat.lt_succ_of_lt (h.number_lt t' w' hw')
    · intro t₁ t₂ w₁ w₂ h₁ h₂ he
      rw [Table.find_insert] at h₁ h₂
      split at h₁ <;> split at h₂
      · next h₁' h₂' => rw [h₁', h₂']
      · cases h₁
        exact absurd he.symm (hold t₂ w₂ h₂)
      · cases h₂
        exact absurd he (hold t₁ w₁ h₁)
      · exact h.number_inj t₁ t₂ w₁ w₂ h₁ h₂ he
    · intro t' w' hw'
      refine ⟨w', ?_, rfl⟩
      rw [Table.find_insert, if_neg]
      · exact hw'
      · intro ht
        rw [ht, hfind] at hw'
        cases hw'
    · rw [Table.find_insert, if_pos rfl]

theorem Separated.acquireStatic (h : Separated dataCenterId s) (lastTimestamp : UInt64) :
    Separated dataCenterId (s.staticIdWorker lastTimestamp).2 ∧
      (s.staticIdWorker lastTimestamp).2.gIdWorker = some (s.staticIdWorker lastTimestamp).1 := by
  unfold staticIdWorker
  cases hw : s.gIdWorker with
  | some w => exact ⟨h, hw⟩
  | none =>
    refine ⟨⟨h.dataCenter, h.counter, h.number_lt, h.number_inj, ?_,
      h.field_retains (retains_gIdWorker ?_)⟩, rfl⟩
    · intro w' hw'
      cases hw'
      exact h.dataCenter
    · intro w' hw'
      rw [hw] at hw'
      cases hw'

/-- A returned id carries the data center id of the generator, which keeps it. -/
theorem getNextID_field {w w' : IdWorker} {clock rest : List UInt64} {id : UInt64}
    (h : w.getNextID clock = some (id, w', rest)) :
    w'.dataCenterId = w.dataCenterId ∧ dataCenterField id = w.dataCenterId.toNat % 32 := by
  obtain ⟨-, hdc, t, rfl⟩ := IdWorker.getNextID_packs h
  exact ⟨hdc, by rw [dataCenterField_pack, hdc]⟩

theorem Separated.commit (h : Separated dataCenterId s) {t : ℕ} {w w' : IdWorker} {id : UInt64}
    {clock rest : List UInt64} (hw : s.cache.find t = some w)
    (hid : w.getNextID clock = some (id, w', rest)) :
    Separated dataCenterId
      { s with cache := s.cache.insert t w', returned := (.thread t, id) :: s.returned } := by
  obtain ⟨hdc, hfield⟩ := getNextID_field hid
  have hsize : Table.size (s.cache.insert t w') = s.cache.size :=
    Table.size_insert_of_mem (Table.mem_iff.2 ⟨w, hw⟩) w'
  -- the entry of each thread keeps its data center id
  have hback : ∀ t₁ w₁, Table.find (s.cache.insert t w') t₁ = some w₁ →
      ∃ w₀, s.cache.find t₁ = some w₀ ∧ w₀.dataCenterId = w₁.dataCenterId := by
    intro t₁ w₁ h₁
    rw [Table.find_insert] at h₁
    split at h₁
    · next ht =>
      cases h₁
      exact ⟨w, by rw [ht, hw], hdc.symm⟩
    · exact ⟨w₁, h₁, rfl⟩
  have hforth : ∀ t₀ w₀, s.cache.find t₀ = some w₀ →
      ∃ w₁, Table.find (s.cache.insert t w') t₀ = some w₁ ∧ w₁.dataCenterId = w₀.dataCenterId := by
    intro t₀ w₀ h₀
    rw [Table.find_insert]
    split
    · next ht =>
      rw [ht, hw] at h₀
      cases h₀
      exact ⟨w', rfl, hdc⟩
    · exact ⟨w₀, h₀, rfl⟩
  refine ⟨h.dataCenter, h.counter.trans hsize.symm, ?_, ?_, h.unSafe, ?_⟩
  · intro t₁ w₁ h₁
    obtain ⟨w₀, h₀, he⟩ := hback t₁ w₁ h₁
    rw [← he, hsize]
    exact h.number_lt t₁ w₀ h₀
  · intro t₁ t₂ w₁ w₂ h₁ h₂ he
    obtain ⟨v₁, hv₁, he₁⟩ := hback t₁ w₁ h₁
    obtain ⟨v₂, hv₂, he₂⟩ := hback t₂ w₂ h₂
    exact h.number_inj t₁ t₂ v₁ v₂ hv₁ hv₂ (by rw [he₁, he, he₂])
  · intro x hx
    rcases List.mem_cons.1 hx with rfl | hx
    · refine ⟨w', ?_, by rw [hfield, hdc]⟩
      change Table.find _ t = some w'
      rw [Table.find_insert, if_pos rfl]
    · exact h.field_retains (retains_cache hforth) x hx

theorem Separated.commitStatic (h : Separated dataCenterId s) {w w' : IdWorker} {id : UInt64}
    {clock rest : List UInt64} (hw : s.gIdWorker = some w)
    (hid : w.getNextID clock = some (id, w', rest)) :
    Separated dataCenterId
      { s with gIdWorker := some w', returned := (.unSafe, id) :: s.returned } := by
  obtain ⟨hdc, hfield⟩ := getNextID_field hid
  refine ⟨h.dataCenter, h.counter, h.number_lt, h.number_inj, ?_, ?_⟩
  · intro w₁ h₁
    cases h₁
    exact hdc.trans (h.unSafe w hw)
  · intro x hx
    rcases List.mem_cons.1 hx with rfl | hx
    · exact ⟨w', rfl, by rw [hfield, hdc]⟩
    · refine h.field_retains (retains_gIdWorker ?_) x hx
      intro w₀ hw₀
      rw [hw] at hw₀
      cases hw₀
      exact hdc

/-- The thread generators after a call of thread `t`: those of the acquisition. -/
theorem size_getNextIDBySnowflake (s : SnowflakeProcess) (t : ℕ) (lastTimestamp : UInt64)
    (clock : List UInt64) :
    (s.getNextIDBySnowflake t lastTimestamp clock).cache.size =
        (s.getIdWorkerByThreadLocal t lastTimestamp).2.cache.size ∧
      s.cache.size ≤ (s.getIdWorkerByThreadLocal t lastTimestamp).2.cache.size := by
  have hmem : t ∈ (s.getIdWorkerByThreadLocal t lastTimestamp).2.cache := by
    unfold getIdWorkerByThreadLocal
    cases hfind : s.cache.find t with
    | some w => exact Table.mem_iff.2 ⟨w, hfind⟩
    | none => exact AList.mem_insert _ |>.2 (Or.inl rfl)
  constructor
  · rcases s.getNextIDBySnowflake_cases t lastTimestamp clock with he | ⟨id, w', rest, -, he⟩
    · rw [he]
    · rw [he]
      exact Table.size_insert_of_mem hmem w'
  · unfold getIdWorkerByThreadLocal
    cases hfind : s.cache.find t with
    | some w => exact Nat.le_refl _
    | none =>
      simp only [Table.size_insert_of_notMem (Table.find_eq_none.1 hfind)]
      omega

theorem separated_step {s' : SnowflakeProcess} {c : Call} (h : Separated dataCenterId s)
    (hs : step s c = some s') (hsize : s'.cache.size ≤ 32) : Separated dataCenterId s' := by
  cases c with
  | getNextIDBySnowflake t lastTimestamp clock =>
    cases hs
    rw [(s.size_getNextIDBySnowflake t lastTimestamp clock).1] at hsize
    obtain ⟨hacq, hw⟩ := h.acquire t lastTimestamp hsize
    rcases s.getNextIDBySnowflake_cases t lastTimestamp clock with he | ⟨id, w', rest, hid, he⟩
    · rwa [he]
    · rw [he]
      exact hacq.commit hw hid
  | getNextIDBySnowflakeUnSafe lastTimestamp clock =>
    cases hs
    obtain ⟨hacq, hw⟩ := h.acquireStatic lastTimestamp
    rcases s.getNextIDBySnowflakeUnSafe_cases lastTimestamp clock with
      he | ⟨id, w', rest, hid, he⟩
    · rwa [he]
    · rw [he]
      exact hacq.commitStatic hw hid

theorem size_step {s' : SnowflakeProcess} {c : Call} (hs : step s c = some s') :
    s.cache.size ≤ s'.cache.size := by
  cases c with
  | getNextIDBySnowflake t lastTimestamp clock =>
    cases hs
    obtain ⟨he, hle⟩ := s.size_getNextIDBySnowflake t lastTimestamp clock
    rwa [he]
  | getNextIDBySnowflakeUnSafe lastTimestamp clock =>
    cases hs
    have hstatic : (s.staticIdWorker lastTimestamp).2.cache = s.cache := by
      unfold staticIdWorker
      split <;> rfl
    rcases s.getNextIDBySnowflakeUnSafe_cases lastTimestamp clock with
      he | ⟨id, w', rest, -, he⟩ <;> rw [he] <;> exact Nat.le_of_eq (by rw [hstatic])

theorem separated_run {calls : List Call} {s' : SnowflakeProcess} (h : Separated dataCenterId s)
    (hr : run step s calls = some s') (hsize : s'.cache.size ≤ 32) : Separated dataCenterId s' := by
  refine run_invariant (P := fun s => s.cache.size ≤ 32 → Separated dataCenterId s)
    ?_ (fun _ => h) hr hsize
  intro s c s' hP hs hle
  exact separated_step (hP (Nat.le_trans (size_step hs) hle)) hs hle

/-- Generators whose numbers differ modulo 32 return different ids. -/
theorem Separated.noCollision (h : Separated dataCenterId s) (hsize : s.cache.size ≤ 32)
    (hunSafe : s.gIdWorker.isSome → s.cache.size ≤ dataCenterId.toNat % 32) : s.NoCollision := by
  intro x hx y hy hne he
  obtain ⟨w, hw, hwf⟩ := h.field x hx
  obtain ⟨v, hv, hvf⟩ := h.field y hy
  have hfield : w.dataCenterId.toNat % 32 = v.dataCenterId.toNat % 32 := by
    rw [← hwf, he, hvf]
  -- a thread generator and the unsafe one
  have hmixed : ∀ t w v, s.cache.find t = some w → s.gIdWorker = some v →
      w.dataCenterId.toNat % 32 ≠ v.dataCenterId.toNat % 32 := by
    intro t w v hw hv hwv
    have hlt := h.number_lt t w hw
    have hle := hunSafe (by rw [hv]; rfl)
    rw [h.unSafe v hv] at hwv
    omega
  cases hxg : x.1 with
  | thread t =>
    rw [hxg] at hw hne
    cases hyg : y.1 with
    | thread t' =>
      rw [hyg] at hv hne
      have hwlt := h.number_lt t w hw
      have hvlt := h.number_lt t' v hv
      have hnum : w.dataCenterId = v.dataCenterId := by
        apply UInt16.toNat_inj.1
        omega
      exact hne (by rw [h.number_inj t t' w v hw hv hnum])
    | unSafe =>
      rw [hyg] at hv
      exact hmixed t w v hw hv hfield
  | unSafe =>
    rw [hxg] at hw hne
    cases hyg : y.1 with
    | thread t' =>
      rw [hyg] at hv
      exact hmixed t' v w hv hw hfield.symm
    | unSafe =>
      rw [hyg] at hne
      exact hne rfl

/-! ## Many threads -/

/-- The id a new generator returns when its first reading is `T`, not what its memory held. -/
def firstId (workerId dataCenterId : UInt16) (T : UInt64) : UInt64 :=
  IdWorker.pack { workerId, dataCenterId, lastTimestamp := T } T

theorem getNextID_new (workerId dataCenterId : UInt16) {last T : UInt64} (h : last ≠ T) :
    IdWorker.getNextID { workerId, dataCenterId, lastTimestamp := last } [T] =
      some (firstId workerId dataCenterId T, { workerId, dataCenterId, lastTimestamp := T }, []) := by
  simp [IdWorker.getNextID, IdWorker.nowInMsec, h, firstId]

/-- Data center ids that agree modulo 32 give one id. -/
theorem firstId_eq (workerId : UInt16) {d d' : UInt16} (T : UInt64)
    (h : d.toNat % 32 = d'.toNat % 32) : firstId workerId d T = firstId workerId d' T := by
  apply UInt64.toNat_inj.1
  simp only [firstId, IdWorker.pack_toNat]
  exact IdWorker.layout_inj.2 ⟨rfl, h, rfl, rfl⟩

/-- A first call on a new thread. -/
theorem getNextIDBySnowflake_new {t : ℕ} (hnew : t ∉ s.cache) :
    ∃ w w', s.getNextIDBySnowflake t 0 [1] =
      { s with
        gThreadId := s.gThreadId + 1
        cache := (s.cache.insert t w).insert t w'
        returned := (.thread t, firstId s.gWorkerId s.gThreadId 1) :: s.returned } := by
  have hid := getNextID_new s.gWorkerId s.gThreadId (by decide : (0 : UInt64) ≠ 1)
  refine ⟨{ workerId := s.gWorkerId, dataCenterId := s.gThreadId, lastTimestamp := 0 },
    { workerId := s.gWorkerId, dataCenterId := s.gThreadId, lastTimestamp := 1 }, ?_⟩
  simp only [getNextIDBySnowflake, getIdWorkerByThreadLocal, Table.find_eq_none.2 hnew, hid]

/-- One call on each of the threads `0` to `n - 1`, all in the same millisecond. -/
def oneCallEach (n : ℕ) : List Call := (List.range n).map fun t => .getNextIDBySnowflake t 0 [1]

/-- These calls make `n` thread generators, and thread `t` returns the first id of number `t`. -/
theorem run_oneCallEach (workerId dataCenterId : UInt16) (n : ℕ) :
    ∃ s, run step (({} : SnowflakeProcess).initSnowflakeWorkerID workerId dataCenterId)
        (oneCallEach n) = some s ∧
      s.gWorkerId = workerId ∧ s.gDataCenterId = dataCenterId ∧ s.gIdWorker = none ∧
      s.gThreadId = UInt16.ofNat n ∧ s.cache.size = n ∧ (∀ t, n ≤ t → t ∉ s.cache) ∧
      ∀ t, t < n → (.thread t, firstId workerId (UInt16.ofNat t) 1) ∈ s.returned := by
  induction n with
  | zero =>
    refine ⟨_, rfl, rfl, rfl, rfl, rfl, rfl, ?_, fun t ht => absurd ht (Nat.not_lt_zero t)⟩
    intro t _
    exact AList.notMem_empty t
  | succ n ih =>
    obtain ⟨s, hrun, hwk, hdc, hstatic, hthread, hsize, hfree, hret⟩ := ih
    have hnew : n ∉ s.cache := hfree n (Nat.le_refl n)
    obtain ⟨w, w', hcall⟩ := getNextIDBySnowflake_new hnew
    have hcalls : oneCallEach (n + 1) = oneCallEach n ++ [.getNextIDBySnowflake n 0 [1]] := by
      simp [oneCallEach, List.range_succ]
    refine ⟨s.getNextIDBySnowflake n 0 [1], ?_, ?_⟩
    · rw [hcalls]
      exact run_concat_of_eq_some hrun rfl
    · rw [hcall]
      refine ⟨hwk, hdc, hstatic, ?_, ?_, ?_, ?_⟩
      · change s.gThreadId + 1 = _
        rw [hthread, UInt16.ofNat_add]
        rfl
      · change Table.size ((s.cache.insert n w).insert n w') = _
        have hmem : n ∈ s.cache.insert n w := (AList.mem_insert _).2 (Or.inl rfl)
        rw [Table.size_insert_of_mem hmem, Table.size_insert_of_notMem hnew, hsize]
      · intro t ht hmem
        have hmem' : t = n ∨ t = n ∨ t ∈ s.cache := by
          simpa only [AList.mem_insert] using hmem
        have hne : t ≠ n := by omega
        exact hfree t (by omega) ((hmem'.resolve_left hne).resolve_left hne)
      · intro t ht
        rcases Nat.lt_or_eq_of_le (Nat.le_of_lt_succ ht) with hlt | rfl
        · exact List.mem_cons_of_mem _ (hret t hlt)
        · rw [← hthread, ← hwk]
          exact List.mem_cons_self

/-- **The generators of a process.** No run that makes at most `n` thread generators, and the
unsafe generator only if `unSafe` says so, makes two generators return one id, exactly when the
data center fields of all these generators differ. -/
theorem no_collision_iff (workerId dataCenterId : UInt16) (n : ℕ) (unSafe : Bool) :
    (∀ calls s,
      run step (({} : SnowflakeProcess).initSnowflakeWorkerID workerId dataCenterId) calls = some s →
      s.cache.size ≤ n → (s.gIdWorker.isSome → unSafe = true) → s.NoCollision) ↔
      n ≤ 32 ∧ (unSafe = true → n ≤ dataCenterId.toNat % 32) := by
  constructor
  · intro h
    constructor
    · by_contra hn
      obtain ⟨s, hrun, -, -, hstatic, -, hsize, -, hret⟩ := run_oneCallEach workerId dataCenterId 33
      have hfree := h _ s hrun (by omega) (by simp [hstatic]) _ (hret 0 (by omega)) _
        (hret 32 (by omega)) (by simp)
      exact hfree (firstId_eq workerId 1 (by decide))
    · intro hu
      by_contra hn
      obtain ⟨s, hrun, hwk, hdc, hstatic, -, hsize, -, hret⟩ :=
        run_oneCallEach workerId dataCenterId (dataCenterId.toNat % 32 + 1)
      have hid := getNextID_new workerId dataCenterId (by decide : (0 : UInt64) ≠ 1)
      have hcall : s.getNextIDBySnowflakeUnSafe 0 [1] =
          { s with
            gIdWorker := some { workerId, dataCenterId, lastTimestamp := 1 }
            returned := (.unSafe, firstId workerId dataCenterId 1) :: s.returned } := by
        simp only [getNextIDBySnowflakeUnSafe, staticIdWorker, hstatic, hwk, hdc, hid]
      have hrun' : run step _ (_ ++ [.getNextIDBySnowflakeUnSafe 0 [1]]) = some _ :=
        run_concat_of_eq_some hrun (congrArg some hcall)
      have hfree := h _ _ hrun' (by change s.cache.size ≤ n; omega) (fun _ => hu) _
        (List.mem_cons_of_mem _ (hret (dataCenterId.toNat % 32) (by omega))) _ List.mem_cons_self
        (by simp)
      refine hfree (firstId_eq workerId 1 ?_)
      rw [UInt16.toNat_ofNat']
      omega
  · rintro ⟨hn, hu⟩ calls s hrun hsize hstatic
    have hsep := separated_run (separated_init workerId dataCenterId) hrun (by omega)
    exact hsep.noCollision (by omega) fun h => Nat.le_trans hsize (hu (hstatic h))

/-- Thread number 1 and the unsafe generator of data center 1. -/
theorem thread_and_unsafe_collide :
    ¬ ∀ calls s, run step (({} : SnowflakeProcess).initSnowflakeWorkerID 1 1) calls = some s →
      s.NoCollision := by
  intro h
  have hfree := h [.getNextIDBySnowflake 0 0 [1700000000000],
    .getNextIDBySnowflake 1 0 [1700000000000],
    .getNextIDBySnowflakeUnSafe 0 [1700000000000]] _ rfl
  exact hfree (.thread 1, firstId 1 1 1700000000000) (by decide)
    (.unSafe, firstId 1 1 1700000000000) (by decide) (by decide) rfl

/-! ## Two processes -/

/-- The worker field of an id. -/
def workerField (id : UInt64) : ℕ := id.toNat / 2 ^ 12 % 32

theorem workerField_pack (w : IdWorker) (t : UInt64) :
    workerField (w.pack t) = w.workerId.toNat % 32 := by
  rw [workerField, w.pack_toNat t, IdWorker.layout]
  omega

/-- Every generator has the worker id of the process, and every id returned has its field. -/
structure OfWorker (workerId : UInt16) (s : SnowflakeProcess) : Prop where
  global : s.gWorkerId = workerId
  worker : ∀ g w, s.worker g = some w → w.workerId = workerId
  field : ∀ x ∈ s.returned, workerField x.2 = workerId.toNat % 32

variable {workerId : UInt16}

theorem ofWorker_init (workerId dataCenterId : UInt16) :
    OfWorker workerId (({} : SnowflakeProcess).initSnowflakeWorkerID workerId dataCenterId) where
  global := rfl
  worker := by
    intro g w h
    cases g <;> cases h
  field := by
    intro x h
    cases h

/-- A thread generator is made or replaced by one with the worker id of the process. -/
theorem OfWorker.insert (h : OfWorker workerId s) (t : ℕ) {w : IdWorker} (hw : w.workerId = workerId)
    (gThreadId : UInt16) :
    OfWorker workerId { s with gThreadId, cache := s.cache.insert t w } := by
  refine ⟨h.global, ?_, h.field⟩
  intro g w' hw'
  cases g with
  | thread t' =>
    change Table.find (s.cache.insert t w) t' = some w' at hw'
    rw [Table.find_insert] at hw'
    split at hw'
    · cases hw'
      exact hw
    · exact h.worker (.thread t') w' hw'
  | unSafe => exact h.worker .unSafe w' hw'

theorem OfWorker.setStatic (h : OfWorker workerId s) {w : IdWorker} (hw : w.workerId = workerId) :
    OfWorker workerId { s with gIdWorker := some w } := by
  refine ⟨h.global, ?_, h.field⟩
  intro g w' hw'
  cases g with
  | thread t => exact h.worker (.thread t) w' hw'
  | unSafe =>
    cases hw'
    exact hw

theorem OfWorker.returns (h : OfWorker workerId s) (g : Generator) {id : UInt64}
    (hid : workerField id = workerId.toNat % 32) :
    OfWorker workerId { s with returned := (g, id) :: s.returned } := by
  refine ⟨h.global, h.worker, ?_⟩
  intro x hx
  rcases List.mem_cons.1 hx with rfl | hx
  · exact hid
  · exact h.field x hx

theorem OfWorker.acquire (h : OfWorker workerId s) (t : ℕ) (lastTimestamp : UInt64) :
    OfWorker workerId (s.getIdWorkerByThreadLocal t lastTimestamp).2 ∧
      (s.getIdWorkerByThreadLocal t lastTimestamp).1.workerId = workerId := by
  unfold getIdWorkerByThreadLocal
  cases hfind : s.cache.find t with
  | some w => exact ⟨h, h.worker (.thread t) w hfind⟩
  | none => exact ⟨h.insert t h.global _, h.global⟩

theorem OfWorker.acquireStatic (h : OfWorker workerId s) (lastTimestamp : UInt64) :
    OfWorker workerId (s.staticIdWorker lastTimestamp).2 ∧
      (s.staticIdWorker lastTimestamp).1.workerId = workerId := by
  unfold staticIdWorker
  cases hw : s.gIdWorker with
  | some w => exact ⟨h, h.worker .unSafe w hw⟩
  | none => exact ⟨h.setStatic h.global, h.global⟩

/-- A returned id carries the worker id of the generator, which keeps it. -/
theorem getNextID_workerField {w w' : IdWorker} {clock rest : List UInt64} {id : UInt64}
    (h : w.getNextID clock = some (id, w', rest)) :
    w'.workerId = w.workerId ∧ workerField id = w.workerId.toNat % 32 := by
  obtain ⟨hwk, -, t, rfl⟩ := IdWorker.getNextID_packs h
  exact ⟨hwk, by rw [workerField_pack, hwk]⟩

theorem OfWorker.step {s' : SnowflakeProcess} {c : Call} (h : OfWorker workerId s)
    (hs : step s c = some s') : OfWorker workerId s' := by
  cases c with
  | getNextIDBySnowflake t lastTimestamp clock =>
    cases hs
    obtain ⟨hacq, hwk⟩ := h.acquire t lastTimestamp
    rcases s.getNextIDBySnowflake_cases t lastTimestamp clock with he | ⟨id, w', rest, hid, he⟩
    · rwa [he]
    · obtain ⟨hwk', hfield⟩ := getNextID_workerField hid
      rw [he]
      exact (hacq.insert t (hwk'.trans hwk) _).returns (.thread t) (by rw [hfield, hwk])
  | getNextIDBySnowflakeUnSafe lastTimestamp clock =>
    cases hs
    obtain ⟨hacq, hwk⟩ := h.acquireStatic lastTimestamp
    rcases s.getNextIDBySnowflakeUnSafe_cases lastTimestamp clock with
      he | ⟨id, w', rest, hid, he⟩
    · rwa [he]
    · obtain ⟨hwk', hfield⟩ := getNextID_workerField hid
      rw [he]
      exact (hacq.setStatic (hwk'.trans hwk)).returns .unSafe (by rw [hfield, hwk])

theorem ofWorker_run {calls : List Call} {dataCenterId : UInt16}
    (hr : run step (({} : SnowflakeProcess).initSnowflakeWorkerID workerId dataCenterId) calls =
      some s) : OfWorker workerId s :=
  run_invariant (fun _ _ _ h hs => OfWorker.step h hs) (ofWorker_init workerId dataCenterId) hr

/-- `GetNextIDBySnowflake` is the function called. -/
def Call.IsThreadLocal : Call → Prop
  | .getNextIDBySnowflake _ _ _ => True
  | .getNextIDBySnowflakeUnSafe _ _ => False

/-- No id is returned in both processes. -/
def NoCommonId (s s' : SnowflakeProcess) : Prop := ∀ x ∈ s.returned, ∀ y ∈ s'.returned, x.2 ≠ y.2

/-- **Two data centers.** Processes with 5-bit worker ids, whose threads call
`GetNextIDBySnowflake`, never return one id exactly when these worker ids differ: the data center id
reaches no generator of a thread. -/
theorem processes_disjoint_iff (workerId dataCenterId workerId' dataCenterId' : UInt16)
    (hworker : workerId < 32) (hworker' : workerId' < 32) :
    (∀ calls calls' s s', (∀ c ∈ calls, c.IsThreadLocal) → (∀ c ∈ calls', c.IsThreadLocal) →
      run step (({} : SnowflakeProcess).initSnowflakeWorkerID workerId dataCenterId) calls = some s →
      run step (({} : SnowflakeProcess).initSnowflakeWorkerID workerId' dataCenterId') calls' =
        some s' → s.NoCommonId s') ↔
      workerId ≠ workerId' := by
  constructor
  · rintro h rfl
    -- the first thread of either process is number 0
    obtain ⟨s, hrun, -, -, -, -, -, -, hret⟩ := run_oneCallEach workerId dataCenterId 1
    obtain ⟨s', hrun', -, -, -, -, -, -, hret'⟩ := run_oneCallEach workerId dataCenterId' 1
    have hlocal : ∀ c ∈ oneCallEach 1, c.IsThreadLocal := by
      intro c hc
      obtain ⟨t, -, rfl⟩ := List.mem_map.1 hc
      trivial
    exact h _ _ s s' hlocal hlocal hrun hrun' _ (hret 0 Nat.one_pos) _ (hret' 0 Nat.one_pos) rfl
  · intro hne calls calls' s s' _ _ hrun hrun' x hx y hy he
    have hx' := (ofWorker_run hrun).field x hx
    have hy' := (ofWorker_run hrun').field y hy
    rw [UInt16.lt_iff_toNat_lt] at hworker hworker'
    change _ < 32 at hworker hworker'
    rw [he, hy', Nat.mod_eq_of_lt hworker, Nat.mod_eq_of_lt hworker'] at hx'
    exact hne (UInt16.toNat_inj.1 hx').symm

theorem processes_disjoint_iff_two_workers :
    (∀ calls calls' s s', (∀ c ∈ calls, c.IsThreadLocal) → (∀ c ∈ calls', c.IsThreadLocal) →
      run step (({} : SnowflakeProcess).initSnowflakeWorkerID 1 1) calls = some s →
      run step (({} : SnowflakeProcess).initSnowflakeWorkerID 2 1) calls' = some s' →
      s.NoCommonId s') ↔ (1 : UInt16) ≠ 2 :=
  processes_disjoint_iff 1 1 2 1 (by decide) (by decide)

/-- One worker id in the data centers 1 and 2. -/
theorem data_centers_collide :
    ¬ ∀ workerId dataCenterId workerId' dataCenterId' : UInt16, workerId < 32 → dataCenterId < 32 →
      workerId' < 32 → dataCenterId' < 32 → (workerId, dataCenterId) ≠ (workerId', dataCenterId') →
      ∀ calls calls' s s', (∀ c ∈ calls, c.IsThreadLocal) → (∀ c ∈ calls', c.IsThreadLocal) →
        run step (({} : SnowflakeProcess).initSnowflakeWorkerID workerId dataCenterId) calls = some s →
        run step (({} : SnowflakeProcess).initSnowflakeWorkerID workerId' dataCenterId') calls' =
          some s' → s.NoCommonId s' := by
  intro h
  have hlocal : ∀ c ∈ [Call.getNextIDBySnowflake 0 0 [1700000000000]], c.IsThreadLocal := by
    simp [Call.IsThreadLocal]
  have hdisj := h 1 1 1 2 (by decide) (by decide) (by decide) (by decide) (by decide)
    [.getNextIDBySnowflake 0 0 [1700000000000]] [.getNextIDBySnowflake 0 0 [1700000000000]] _ _
    hlocal hlocal rfl rfl
  exact hdisj (.thread 0, firstId 1 0 1700000000000) (by decide)
    (.thread 0, firstId 1 0 1700000000000) (by decide) rfl

end SnowflakeProcess

end ServiceFramework.Base

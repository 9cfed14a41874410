import ServiceFramework.Lib.BitField
import ServiceFramework.Lib.Probe

/-!
# The connection table of one IO thread

`ThreadLocalConnManager` (`net/thread_local_conn_manager.cc`): the table from the low 32 bits of a
connection id to its pipeline, and the counter the ids are drawn from. A pipeline is a pointer, so
the type `P` of pipelines is a parameter.

The counter is advanced by a do/while loop until it yields a key that is not in the table
(`nextConnId`, one round). The loop ends whenever fewer than `2^32 - 1` connections are open
(`onNewConnection_total`): after a wrap-around the counter steps over the key 1, so the keys it
tries in `2^32 - 1` successive rounds are distinct (`keyAt_nextConnId_inj`).
-/

namespace ServiceFramework.Net

open Probe BitField

/-! ## The counter -/

/-- One round of the loop in `OnNewConnection`, the key and the new `current_conn_id_`. After a
wrap-around the member is incremented once more; the local `conn_id` keeps the zero. -/
def nextConnId (currentConnId : UInt32) : UInt32 × UInt32 :=
  let connId := currentConnId + 1
  (connId, if connId = 0 then connId + 1 else connId)

/-- Rounds granted to the loop; it never needs as many (`onNewConnection_total`). -/
def connIdFuel : ℕ := 2 ^ 32

theorem nextConnId_fst_toNat (c : UInt32) : (nextConnId c).1.toNat = (c.toNat + 1) % 2 ^ 32 := by
  simp [nextConnId, UInt32.toNat_add]

theorem nextConnId_snd_toNat (c : UInt32) :
    (nextConnId c).2.toNat = if c.toNat + 1 = 2 ^ 32 then 1 else c.toNat + 1 := by
  have hc : c.toNat < 2 ^ 32 := c.toNat_lt
  have hzero : c + 1 = 0 ↔ c.toNat + 1 = 2 ^ 32 := by
    rw [← UInt32.toNat_inj, UInt32.toNat_add]
    change (c.toNat + 1) % 2 ^ 32 = 0 ↔ _
    omega
  simp only [nextConnId, hzero]
  split
  · next h => rw [hzero.2 h]; rfl
  · next h =>
    rw [UInt32.toNat_add]
    change (c.toNat + 1) % 2 ^ 32 = _
    omega

/-- The counter after round `i`, up to a full cycle. -/
theorem counterAt_nextConnId (c : UInt32) {i : ℕ} (hi : i < 2 ^ 32 - 1) :
    (counterAt nextConnId c (i + 1)).toNat = wrapCounter (2 ^ 32) c.toNat i := by
  have hc : c.toNat < 2 ^ 32 := c.toNat_lt
  induction i with
  | zero =>
    simp only [counterAt, nextConnId_snd_toNat, wrapCounter]
    split <;> split <;> omega
  | succ i ih =>
    rw [counterAt, nextConnId_snd_toNat, ih (by omega)]
    unfold wrapCounter
    split <;> split <;> split <;> omega

/-- The key of round `i`, up to a full cycle. -/
theorem keyAt_nextConnId (c : UInt32) {i : ℕ} (hi : i < 2 ^ 32 - 1) :
    (keyAt nextConnId c i).toNat = wrapKey (2 ^ 32) c.toNat i := by
  have hc : c.toNat < 2 ^ 32 := c.toNat_lt
  rw [keyAt, nextConnId_fst_toNat]
  cases i with
  | zero =>
    simp only [counterAt, wrapKey]
    split
    · omega
    · split <;> omega
  | succ i =>
    rw [counterAt_nextConnId c (by omega)]
    unfold wrapCounter wrapKey
    split <;> split
    · omega
    · split <;> omega
    · omega
    · split <;> omega

/-- The keys tried in one cycle of `2^32 - 1` rounds are distinct. -/
theorem keyAt_nextConnId_inj (c : UInt32) (i j : ℕ) (hi : i < 2 ^ 32 - 1) (hj : j < 2 ^ 32 - 1)
    (h : keyAt nextConnId c i = keyAt nextConnId c j) : i = j := by
  have hk := congrArg UInt32.toNat h
  rw [keyAt_nextConnId c hi, keyAt_nextConnId c hj] at hk
  exact wrapKey_inj hi hj c.toNat_lt hk

/-- While fewer than `2^32 - 1` keys are taken the loop finds a free one within as many rounds. -/
theorem exists_connId {P : Type} (c : UInt32) {t : Table UInt32 P} (hopen : t.size < 2 ^ 32 - 1) :
    ∃ k c', k ∉ t ∧ probe nextConnId (fun k => decide (k ∈ t)) (2 ^ 32 - 1) c = some (k, c') ∧
      probe nextConnId (fun k => decide (k ∈ t)) connIdFuel c = some (k, c') := by
  obtain ⟨i, -, hfree, hends⟩ := probe_total (le_refl (2 ^ 32 - 1)) (keyAt_nextConnId_inj c) hopen
  have hfuel : 2 ^ 32 - 1 ≤ connIdFuel := by
    unfold connIdFuel
    omega
  exact ⟨_, _, hfree, hends, probe_mono nextConnId (fun k => decide (k ∈ t)) hfuel hends⟩

/-! ## The key zero -/

/-- The loop meets a free key before its counter wraps around. -/
def FreeBeforeWrap {P : Type} (c : UInt32) (t : Table UInt32 P) : Prop := ∃ k, c < k ∧ k ∉ t

/-- Up to the wrap-around the counter goes up by one in each round. -/
theorem counterAt_before_wrap (c : UInt32) {i : ℕ} (hi : c.toNat + i < 2 ^ 32) :
    (counterAt nextConnId c i).toNat = c.toNat + i := by
  induction i with
  | zero => rfl
  | succ i ih =>
    rw [counterAt, nextConnId_snd_toNat, ih (by omega), if_neg (by omega)]
    omega

theorem keyAt_before_wrap (c : UInt32) {i : ℕ} (hi : c.toNat + i + 1 < 2 ^ 32) :
    (keyAt nextConnId c i).toNat = c.toNat + i + 1 := by
  rw [keyAt, nextConnId_fst_toNat, counterAt_before_wrap c (by omega), Nat.mod_eq_of_lt hi]

theorem keyAt_at_wrap (c : UInt32) {i : ℕ} (hi : c.toNat + i + 1 = 2 ^ 32) :
    keyAt nextConnId c i = 0 := by
  apply UInt32.toNat_inj.1
  rw [keyAt, nextConnId_fst_toNat, counterAt_before_wrap c (by omega), hi, Nat.mod_self]
  rfl

/-- While zero is not taken, the loop returns it exactly if no key is free before the
wrap-around. -/
theorem probe_ne_zero_iff {P : Type} {t : Table UInt32 P} (hzero : 0 ∉ t) {n : ℕ} {c k c' : UInt32}
    (h : probe nextConnId (fun k => decide (k ∈ t)) n c = some (k, c')) :
    k ≠ 0 ↔ FreeBeforeWrap c t := by
  obtain ⟨i, -, hr, hfree, hbefore⟩ := probe_first h
  have hk : k = keyAt nextConnId c i := congrArg Prod.fst hr
  have hfree' : k ∉ t := by simpa [hk] using hfree
  constructor
  · intro hne
    by_contra hnot
    rcases Nat.lt_trichotomy (c.toNat + i + 1) (2 ^ 32) with hlt | heq | hgt
    · -- the key is above the counter, so it is taken
      refine hnot ⟨k, ?_, hfree'⟩
      rw [UInt32.lt_iff_toNat_lt, hk, keyAt_before_wrap c hlt]
      omega
    · exact hne (hk.trans (keyAt_at_wrap c heq))
    · -- an earlier round found zero taken
      have hc : c.toNat < 2 ^ 32 := c.toNat_lt
      have htaken0 := hbefore (2 ^ 32 - 1 - c.toNat) (by omega)
      rw [keyAt_at_wrap c (by omega)] at htaken0
      exact hzero (by simpa using htaken0)
  · rintro ⟨k', hlt, hfreek⟩ rfl
    -- the loop does not pass the free key `k'`
    rw [UInt32.lt_iff_toNat_lt] at hlt
    have hk' : k'.toNat < 2 ^ 32 := k'.toNat_lt
    have hround : keyAt nextConnId c (k'.toNat - c.toNat - 1) = k' := by
      apply UInt32.toNat_inj.1
      rw [keyAt_before_wrap c (by omega)]
      omega
    have hle : i ≤ k'.toNat - c.toNat - 1 := by
      by_contra hgt
      have htaken := hbefore _ (Nat.lt_of_not_le hgt)
      rw [hround] at htaken
      exact hfreek (by simpa using htaken)
    have hpos := keyAt_before_wrap c (i := i) (by omega)
    rw [← hk] at hpos
    change 0 = _ at hpos
    omega

/-! ## The manager -/

/-- The members of `ThreadLocalConnManager`. -/
structure ThreadLocalConnManager (P : Type) where
  currentConnId : UInt32 := 0
  threadId : UInt64 := 0
  pipelines : Table UInt32 P := ∅

namespace ThreadLocalConnManager

variable {P D : Type}

/-- `set_thread_id`. -/
def setThreadId (m : ThreadLocalConnManager P) (threadId : UInt64) : ThreadLocalConnManager P :=
  { m with threadId }

/-- `OnNewConnection`: the new connection id and the manager after it, `none` if the do/while loop
does not end. -/
def onNewConnection (m : ThreadLocalConnManager P) (pipeline : P) :
    Option (UInt64 × ThreadLocalConnManager P) := do
  let (connId, currentConnId) ←
    probe nextConnId (fun k => decide (k ∈ m.pipelines)) connIdFuel m.currentConnId
  return (pair m.threadId connId,
    { m with currentConnId, pipelines := m.pipelines.insert connId pipeline })

/-- `OnConnectionClosed`: erase the entry of the low 32 bits, whatever pipeline it maps to; `false`
when there is none. -/
def onConnectionClosed (m : ThreadLocalConnManager P) (connId : UInt64) (_pipeline : P) :
    Bool × ThreadLocalConnManager P :=
  if low connId ∈ m.pipelines then
    (true, { m with pipelines := m.pipelines.erase (low connId) })
  else
    (false, m)

/-- `SendIOBufByConnID`: the pipeline written to, if any, with the data. The result is always
`true`. -/
def sendIOBufByConnID (m : ThreadLocalConnManager P) (connId : UInt64) (data : D) :
    Bool × Option (P × D) :=
  match m.pipelines.find (low connId) with
  | some pipeline => (true, some (pipeline, data))
  | none => (true, none)

/-! ## What an operation does -/

/-- All that `OnNewConnection` can do: it adds one entry, under a key that was not in the table. -/
theorem onNewConnection_cases {m m' : ThreadLocalConnManager P} {pipeline : P} {id : UInt64}
    (h : m.onNewConnection pipeline = some (id, m')) :
    ∃ k c, k ∉ m.pipelines ∧ id = pair m.threadId k ∧
      m' = { m with currentConnId := c, pipelines := m.pipelines.insert k pipeline } := by
  unfold onNewConnection at h
  obtain ⟨⟨k, c⟩, hp, hr⟩ := Option.bind_eq_some_iff.1 h
  have hfree := (probe_sound hp).1
  cases hr
  exact ⟨k, c, by simpa using hfree, rfl, rfl⟩

/-- The loop ends while fewer than `2^32 - 1` connections are open. -/
theorem onNewConnection_total (m : ThreadLocalConnManager P) (pipeline : P)
    (hopen : m.pipelines.size < 2 ^ 32 - 1) :
    ∃ r, m.onNewConnection pipeline = some r := by
  obtain ⟨k, c, -, -, hp⟩ := exists_connId m.currentConnId hopen
  unfold onNewConnection
  rw [hp]
  exact ⟨_, rfl⟩

/-- While the next key is neither zero nor taken, the loop ends in its first round. -/
theorem onNewConnection_first (m : ThreadLocalConnManager P) (pipeline : P)
    (hwrap : m.currentConnId.toNat + 1 < 2 ^ 32) (hfree : m.currentConnId + 1 ∉ m.pipelines) :
    m.onNewConnection pipeline = some (pair m.threadId (m.currentConnId + 1),
      { m with currentConnId := m.currentConnId + 1,
               pipelines := m.pipelines.insert (m.currentConnId + 1) pipeline }) := by
  have hnz : m.currentConnId + 1 ≠ 0 := by
    intro h
    have h' := nextConnId_fst_toNat m.currentConnId
    rw [show (nextConnId m.currentConnId).1 = 0 from h] at h'
    change 0 = _ at h'
    omega
  have hfuel : 0 < connIdFuel := by
    unfold connIdFuel
    omega
  have hp := probe_eq_some_of nextConnId (fun k => decide (k ∈ m.pipelines)) hfuel
    (s := m.currentConnId) (decide_eq_false hfree) fun j hj => absurd hj (Nat.not_lt_zero j)
  unfold onNewConnection
  rw [hp]
  simp [counterAt, nextConnId, hnz]

/-- Closing erases the key of the id and nothing else, whether or not it was in the table. -/
theorem onConnectionClosed_eq (m : ThreadLocalConnManager P) (connId : UInt64) (pipeline : P) :
    (m.onConnectionClosed connId pipeline).2 =
      { m with pipelines := m.pipelines.erase (low connId) } := by
  unfold onConnectionClosed
  split
  · rfl
  · next h =>
    rw [Table.erase_of_notMem h]

theorem sendIOBufByConnID_eq (m : ThreadLocalConnManager P) (connId : UInt64) (data : D) :
    m.sendIOBufByConnID connId data =
      (true, (m.pipelines.find (low connId)).map fun pipeline => (pipeline, data)) := by
  unfold sendIOBufByConnID
  cases m.pipelines.find (low connId) <;> rfl

end ThreadLocalConnManager

end ServiceFramework.Net

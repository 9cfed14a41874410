import ServiceFramework.Net.IOThreadConnManager

/-!
# The ids of connections

`ThreadLocalConnManager` and `IOThreadConnManager` draw their ids from the same loop. The key zero
is meant to be no id, and the loop steps its counter over zero, but the key of that round stays
zero. So zero is issued exactly when the loop runs while no key above the counter is free
(`ids_nonzero_iff`), which is when the counter wraps around (`zero_issued`). The loop ends while
fewer than `2^32 - 1` connections are open, and the key it draws is a new one
(`onNewConnection_ends`).
-/

namespace ServiceFramework.Net

open BitField Probe Transition

/-! ## Runs of a thread's manager -/

/-- The operations of a `ThreadLocalConnManager`. -/
inductive ThreadLocalConnEvent (P : Type) where
  | onNewConnection (pipeline : P)
  | onConnectionClosed (connId : UInt64) (pipeline : P)

/-- A manager and the ids `OnNewConnection` returned, in order. -/
structure ThreadLocalConns (P : Type) where
  manager : ThreadLocalConnManager P
  issued : List UInt64 := []

namespace ThreadLocalConns

variable {P : Type}

def init (threadId : UInt64) : ThreadLocalConns P where
  manager := { threadId }

def step (w : ThreadLocalConns P) : ThreadLocalConnEvent P → Option (ThreadLocalConns P)
  | .onNewConnection pipeline => do
    let (connId, manager) ← w.manager.onNewConnection pipeline
    return { manager, issued := w.issued ++ [connId] }
  | .onConnectionClosed connId pipeline =>
    some { w with manager := (w.manager.onConnectionClosed connId pipeline).2 }

/-- A connection opens only while a key above the counter is free. -/
def OpensBeforeWrap (w : ThreadLocalConns P) (e : ThreadLocalConnEvent P)
    (_ : ThreadLocalConns P) : Prop :=
  match e with
  | .onNewConnection _ => FreeBeforeWrap w.manager.currentConnId w.manager.pipelines
  | .onConnectionClosed _ _ => True

end ThreadLocalConns

namespace IOThreadConns

variable {E P : Type}

/-- A connection opens only while a key above the counter is free. -/
def OpensBeforeWrap (w : IOThreadConns E P) (e : IOThreadConnEvent P) (_ : IOThreadConns E P) :
    Prop :=
  match e with
  | .onNewConnection _ _ => FreeBeforeWrap w.manager.currentConnId w.manager.pipelines
  | _ => True

end IOThreadConns

/-! ## The key zero -/

/-- The keys issued include those in the table. -/
def Issued {P : Type} (t : Table UInt32 P) (keys : List UInt32) : Prop := ∀ k ∈ t, k ∈ keys

theorem issued_empty {P : Type} (keys : List UInt32) : Issued (∅ : Table UInt32 P) keys :=
  fun k hk => absurd hk (AList.notMem_empty k)

theorem Issued.insert {P : Type} {t : Table UInt32 P} {keys : List UInt32} (h : Issued t keys)
    (k : UInt32) (p : P) : Issued (t.insert k p) (keys ++ [k]) := by
  intro k' hk'
  rw [AList.mem_insert] at hk'
  rcases hk' with rfl | hk'
  · simp
  · exact List.mem_append_left _ (h k' hk')

theorem Issued.erase {P : Type} {t : Table UInt32 P} {keys : List UInt32} (h : Issued t keys)
    (k : UInt32) : Issued (t.erase k) keys := by
  intro k' hk'
  exact h k' (AList.mem_erase.1 hk').2

/-- One more key keeps the keys off zero exactly if a key was free before the wrap-around. -/
theorem Issued.ne_zero_iff {P : Type} {t : Table UInt32 P} {keys : List UInt32} (h : Issued t keys)
    {n : ℕ} {c k c' : UInt32} (hp : probe nextConnId (fun k => decide (k ∈ t)) n c = some (k, c')) :
    (∀ k' ∈ keys ++ [k], k' ≠ 0) ↔ (∀ k' ∈ keys, k' ≠ 0) ∧ FreeBeforeWrap c t := by
  simp only [List.forall_mem_append, List.forall_mem_singleton]
  refine and_congr_right fun hkeys => probe_ne_zero_iff ?_ hp
  intro hzero
  exact hkeys 0 (h 0 hzero) rfl

theorem ThreadLocalConns.step_nonzero {P : Type} {w w' : ThreadLocalConns P}
    {e : ThreadLocalConnEvent P} (hw : Issued w.manager.pipelines (w.issued.map low))
    (h : ThreadLocalConns.step w e = some w') :
    Issued w'.manager.pipelines (w'.issued.map low) ∧
      ((∀ k ∈ w'.issued.map low, k ≠ 0) ↔
        (∀ k ∈ w.issued.map low, k ≠ 0) ∧ OpensBeforeWrap w e w') := by
  cases e with
  | onNewConnection pipeline =>
    obtain ⟨⟨id, m⟩, hm, hr⟩ := Option.bind_eq_some_iff.1 h
    obtain ⟨⟨k, c⟩, hp, hrm⟩ := Option.bind_eq_some_iff.1 hm
    cases hr
    cases hrm
    simp only [List.map_append, List.map_cons, List.map_nil, low_pair]
    exact ⟨hw.insert k pipeline, hw.ne_zero_iff hp⟩
  | onConnectionClosed connId pipeline =>
    cases h
    rw [ThreadLocalConnManager.onConnectionClosed_eq]
    exact ⟨hw.erase _, (and_iff_left trivial).symm⟩

theorem IOThreadConns.step_nonzero {E P : Type} [DecidableEq P] {w w' : IOThreadConns E P}
    {e : IOThreadConnEvent P} (hw : Issued w.manager.pipelines w.issued)
    (h : IOThreadConns.step w e = some w') :
    Issued w'.manager.pipelines w'.issued ∧
      ((∀ k ∈ w'.issued, k ≠ 0) ↔ (∀ k ∈ w.issued, k ≠ 0) ∧ OpensBeforeWrap w e w') := by
  have hcase := IOThreadConns.step_cases h
  cases e with
  | onNewConnection pipeline serviceName =>
    obtain ⟨id, c, -, hp, rfl⟩ := hcase
    exact ⟨hw.insert id pipeline, hw.ne_zero_iff hp⟩
  | onServerRegister pipeline serverName serverNumber =>
    cases hcase
    exact ⟨hw, (and_iff_left trivial).symm⟩
  | onConnectionClosed connId pipeline serviceName =>
    cases hcase
    exact ⟨hw.erase _, (and_iff_left trivial).symm⟩

/-- **No id is zero.** In every run of either manager, no id returned by `OnNewConnection` has the
key zero exactly if, whenever a connection opened, some key above the counter was free. -/
theorem ids_nonzero_iff {E P : Type} [DecidableEq P] (threadId : UInt64) (eventBase : Option E) :
    (∀ (es : List (ThreadLocalConnEvent P)) (w : ThreadLocalConns P),
      run ThreadLocalConns.step (.init threadId) es = some w →
        ((∀ id ∈ w.issued, low id ≠ 0) ↔
          Along ThreadLocalConns.step ThreadLocalConns.OpensBeforeWrap (.init threadId) es)) ∧
      ∀ (es : List (IOThreadConnEvent P)) (w : IOThreadConns E P),
        run IOThreadConns.step (.init threadId eventBase) es = some w →
          ((∀ id ∈ w.issued, id ≠ 0) ↔
            Along IOThreadConns.step IOThreadConns.OpensBeforeWrap (.init threadId eventBase) es) := by
  constructor
  · intro es w h
    have hiff : (∀ k ∈ w.issued.map low, k ≠ 0) ↔ (∀ k ∈ ([] : List UInt32), k ≠ 0) ∧
        Along ThreadLocalConns.step ThreadLocalConns.OpensBeforeWrap (.init threadId) es :=
      run_iff_along (P := fun w => ∀ k ∈ w.issued.map low, k ≠ 0)
        (fun _ _ _ hw hs => ThreadLocalConns.step_nonzero hw hs) (issued_empty _) h
    rw [List.forall_mem_map] at hiff
    rw [hiff, and_iff_right (List.forall_mem_nil _)]
  · intro es w h
    have hiff : (∀ k ∈ w.issued, k ≠ 0) ↔ (∀ k ∈ ([] : List UInt32), k ≠ 0) ∧
        Along IOThreadConns.step IOThreadConns.OpensBeforeWrap (.init threadId eventBase) es :=
      run_iff_along (P := fun w => ∀ k ∈ w.issued, k ≠ 0)
        (fun _ _ _ hw hs => IOThreadConns.step_nonzero hw hs) (issued_empty _) h
    rw [hiff, and_iff_right (List.forall_mem_nil _)]

/-- Two connections open, the first closes, and a third opens. -/
def threeOpens : List (ThreadLocalConnEvent Unit) :=
  [.onNewConnection (), .onNewConnection (), .onConnectionClosed (pair 3 1) (), .onNewConnection ()]

def ioThreeOpens : List (IOThreadConnEvent Unit) :=
  [.onNewConnection () "gate", .onNewConnection () "gate", .onConnectionClosed 1 () "gate",
    .onNewConnection () "gate"]

/-- The keys are 1, 2 and 3, and no open came to the wrap-around. -/
theorem ids_nonzero_iff_three_opens :
    (∃ w : ThreadLocalConns Unit, run ThreadLocalConns.step (.init 3) threeOpens = some w ∧
      w.issued = [pair 3 1, pair 3 2, pair 3 3] ∧
      Along ThreadLocalConns.step ThreadLocalConns.OpensBeforeWrap (.init 3) threeOpens) ∧
      ∃ w : IOThreadConns Unit Unit,
        run IOThreadConns.step (.init 3 (some ())) ioThreeOpens = some w ∧ w.issued = [1, 2, 3] ∧
          Along IOThreadConns.step IOThreadConns.OpensBeforeWrap (.init 3 (some ())) ioThreeOpens := by
  have hrun : (run ThreadLocalConns.step (.init 3) threeOpens).map ThreadLocalConns.issued =
      some [pair 3 1, pair 3 2, pair 3 3] := by decide +kernel
  have hrun' : (run IOThreadConns.step (.init 3 (some ())) ioThreeOpens).map IOThreadConns.issued =
      some [1, 2, 3] := by decide +kernel
  obtain ⟨w, hw, hissued⟩ := Option.map_eq_some_iff.1 hrun
  obtain ⟨w', hw', hissued'⟩ := Option.map_eq_some_iff.1 hrun'
  refine ⟨⟨w, hw, hissued, ((ids_nonzero_iff 3 (some ())).1 _ w hw).1 ?_⟩,
    ⟨w', hw', hissued', ((ids_nonzero_iff 3 (some ())).2 _ w' hw').1 ?_⟩⟩
  · rw [hissued, List.forall_mem_cons, List.forall_mem_cons, List.forall_mem_singleton]
    decide
  · rw [hissued', List.forall_mem_cons, List.forall_mem_cons, List.forall_mem_singleton]
    decide

/-! ## The wrap-around -/

namespace ThreadLocalConns

theorem step_onNewConnection {P : Type} {w : ThreadLocalConns P} {pipeline : P} {id : UInt64}
    {m : ThreadLocalConnManager P} (h : w.manager.onNewConnection pipeline = some (id, m)) :
    step w (.onNewConnection pipeline) = some { manager := m, issued := w.issued ++ [id] } := by
  rw [step, h]
  rfl

theorem step_onConnectionClosed {P : Type} (w : ThreadLocalConns P) (connId : UInt64)
    (pipeline : P) :
    step w (.onConnectionClosed connId pipeline) =
      some { w with manager.pipelines := w.manager.pipelines.erase (low connId) } := by
  rw [step, ThreadLocalConnManager.onConnectionClosed_eq]

/-- Fewer than `2^32 - 1` connections are open after the step. -/
def FewOpen (_ : ThreadLocalConns Unit) (_ : ThreadLocalConnEvent Unit)
    (w' : ThreadLocalConns Unit) : Prop :=
  w'.manager.pipelines.size < 2 ^ 32 - 1

/-- `n` connections opened and were closed again, one after the other. -/
structure Idle (n : ℕ) (w : ThreadLocalConns Unit) : Prop where
  counter : w.manager.currentConnId.toNat = n
  none_open : ∀ k, k ∉ w.manager.pipelines

theorem Idle.size {n : ℕ} {w : ThreadLocalConns Unit} (hw : w.Idle n) :
    w.manager.pipelines.size = 0 := by
  have hempty : w.manager.pipelines.keys = [] := List.eq_nil_iff_forall_not_mem.2 hw.none_open
  rw [Table.size, hempty, List.length_nil]

theorem Idle.size_insert {n : ℕ} {w : ThreadLocalConns Unit} (hw : w.Idle n) (k : UInt32) :
    Table.size (w.manager.pipelines.insert k ()) = 1 := by
  rw [Table.size_insert_of_notMem (hw.none_open k), hw.size]

/-- One more connection opens and is closed. -/
theorem Idle.next {n : ℕ} {w : ThreadLocalConns Unit} (hw : w.Idle n) (hn : n + 1 < 2 ^ 32) :
    ∃ es w', run step w es = some w' ∧ Along step FewOpen w es ∧ w'.Idle (n + 1) := by
  have hnew := ThreadLocalConnManager.onNewConnection_first w.manager () (by rw [hw.counter]; omega)
    (hw.none_open _)
  have hcounter : (w.manager.currentConnId + 1).toNat = n + 1 := by
    rw [UInt32.toNat_add, hw.counter]
    exact Nat.mod_eq_of_lt hn
  have hopen := step_onNewConnection hnew
  have hclose := step_onConnectionClosed
    { manager := { w.manager with
        currentConnId := w.manager.currentConnId + 1
        pipelines := w.manager.pipelines.insert (w.manager.currentConnId + 1) () }
      issued := w.issued ++ [pair w.manager.threadId (w.manager.currentConnId + 1)] }
    (pair w.manager.threadId (w.manager.currentConnId + 1)) ()
  have hsize := hw.size_insert (w.manager.currentConnId + 1)
  refine ⟨[.onNewConnection (), .onConnectionClosed _ ()], _,
    run_cons_eq_some.2 ⟨_, hopen, run_cons_eq_some.2 ⟨_, hclose, rfl⟩⟩, ?_, hcounter, ?_⟩
  · rw [along_cons_of_eq_some hopen, along_cons_of_eq_some hclose]
    refine ⟨?_, ?_, trivial⟩
    · simp [FewOpen, hsize]
    · exact (Table.size_erase_le _ _).trans_lt (by rw [hsize]; decide)
  · intro k hk
    obtain ⟨hne, hk⟩ := AList.mem_erase.1 hk
    rw [low_pair] at hne
    exact hw.none_open k (((AList.mem_insert _).1 hk).resolve_left hne)

theorem exists_idle (n : ℕ) (hn : n < 2 ^ 32) :
    ∃ es w, run step (init 0 : ThreadLocalConns Unit) es = some w ∧
      Along step FewOpen (init 0) es ∧ w.Idle n := by
  induction n with
  | zero => exact ⟨[], _, rfl, trivial, rfl, fun k => AList.notMem_empty k⟩
  | succ n ih =>
    obtain ⟨es, w, hrun, hfew, hw⟩ := ih (by omega)
    obtain ⟨es', w', hrun', hfew', hw'⟩ := hw.next hn
    exact ⟨es ++ es', w', run_append_of_eq_some hrun hrun', hfew.append hrun hfew', hw'⟩

/-- With the counter at its last value the next id has the key zero. -/
theorem Idle.zero {w : ThreadLocalConns Unit} (hw : w.Idle (2 ^ 32 - 1)) :
    ∃ w', step w (.onNewConnection ()) = some w' ∧ FewOpen w (.onNewConnection ()) w' ∧
      ∃ id ∈ w'.issued, low id = 0 := by
  obtain ⟨⟨id, m⟩, hm⟩ := ThreadLocalConnManager.onNewConnection_total w.manager ()
    (by rw [hw.size]; decide)
  obtain ⟨⟨k, c⟩, hp, hr⟩ := Option.bind_eq_some_iff.1 hm
  cases hr
  have hzero : k = 0 := by
    by_contra hne
    obtain ⟨k', hlt, -⟩ := (probe_ne_zero_iff (hw.none_open 0) hp).1 hne
    have hk' : k'.toNat < 2 ^ 32 := k'.toNat_lt
    rw [UInt32.lt_iff_toNat_lt, hw.counter] at hlt
    omega
  refine ⟨_, step_onNewConnection hm, ?_, pair w.manager.threadId k, ?_, ?_⟩
  · simp [FewOpen, hw.size_insert k]
  · exact List.mem_append_right _ List.mem_cons_self
  · rw [low_pair, hzero]

/-- A connection that opens after `2^32 - 1` others came and went gets the key zero, though never
more than one is open. -/
theorem zero_issued :
    ¬ ∀ (es : List (ThreadLocalConnEvent Unit)) (w : ThreadLocalConns Unit),
      run step (init 0) es = some w → Along step FewOpen (init 0) es →
        ∀ id ∈ w.issued, low id ≠ 0 := by
  intro hall
  obtain ⟨es, w, hrun, hfew, hw⟩ := exists_idle (2 ^ 32 - 1) (by decide)
  obtain ⟨w', hstep, hfew', id, hid, hzero⟩ := hw.zero
  have hlast : Along step FewOpen w [.onNewConnection ()] :=
    (along_cons_of_eq_some hstep).2 ⟨hfew', trivial⟩
  exact hall _ w' (run_concat_of_eq_some hrun hstep) (hfew.append hrun hlast) id hid hzero

end ThreadLocalConns

/-! ## The loop ends -/

/-- The loop draws the key `k` for a table that becomes `t'`, and leaves the counter at `c'`. -/
structure Draws {P : Type} (c : UInt32) (t : Table UInt32 P) (k c' : UInt32) (t' : Table UInt32 P) :
    Prop where
  ends : probe nextConnId (fun k => decide (k ∈ t)) (2 ^ 32 - 1) c = some (k, c')
  fresh : k ∉ t
  kept : ∀ k' ∈ t, t'.find k' = t.find k'

/-- While fewer than `2^32 - 1` keys are taken the loop ends within as many rounds, and the key it
draws replaces none. -/
theorem draws_total {P : Type} (c : UInt32) {t : Table UInt32 P} (hopen : t.size < 2 ^ 32 - 1)
    (p : P) :
    ∃ k c', probe nextConnId (fun k => decide (k ∈ t)) connIdFuel c = some (k, c') ∧
      Draws c t k c' (t.insert k p) := by
  obtain ⟨k, c', hfree, hends, hprobe⟩ := exists_connId c hopen
  refine ⟨k, c', hprobe, hends, hfree, ?_⟩
  intro k' hk'
  rw [Table.find_insert, if_neg]
  rintro rfl
  exact hfree hk'

/-- **A connection id is always found.** In every state of either manager with fewer than
`2^32 - 1` open connections, the loop of `OnNewConnection` ends within `2^32 - 1` rounds, its key is
not in the table, and the entries of the table stay as they are. -/
theorem onNewConnection_ends {E P : Type} :
    (∀ (m : ThreadLocalConnManager P) (pipeline : P), m.pipelines.size < 2 ^ 32 - 1 →
      ∃ k m', m.onNewConnection pipeline = some (pair m.threadId k, m') ∧
        Draws m.currentConnId m.pipelines k m'.currentConnId m'.pipelines) ∧
      ∀ (m : IOThreadConnManager E P) (pipeline : P) (serviceName : String),
        m.pipelines.size < 2 ^ 32 - 1 →
          ∃ k m', m.onNewConnection pipeline serviceName = some (k, m') ∧
            Draws m.currentConnId m.pipelines k m'.currentConnId m'.pipelines := by
  constructor
  · intro m pipeline hopen
    obtain ⟨k, c, hprobe, hdraws⟩ := draws_total m.currentConnId hopen pipeline
    refine ⟨k, { m with currentConnId := c, pipelines := m.pipelines.insert k pipeline }, ?_, hdraws⟩
    rw [ThreadLocalConnManager.onNewConnection, hprobe]
    rfl
  · intro m pipeline serviceName hopen
    obtain ⟨k, c, hprobe, hdraws⟩ := draws_total m.currentConnId hopen pipeline
    refine ⟨k, { m with
      currentConnId := c
      pipelines := m.pipelines.insert k pipeline
      servicePipelines := m.servicePipelines.add serviceName k }, ?_, hdraws⟩
    rw [IOThreadConnManager.onNewConnection, hprobe]
    rfl

/-- The keys 0, 2 and 3 are taken. -/
def takenKeys : Table UInt32 Unit := (((∅ : Table UInt32 Unit).insert 0 ()).insert 2 ()).insert 3 ()

def managerAtWrap : ThreadLocalConnManager Unit where
  threadId := 5
  currentConnId := 0xffffffff
  pipelines := takenKeys

def ioManagerAtWrap : IOThreadConnManager Unit Unit where
  threadId := 5
  eventBase := some ()
  currentConnId := 0xffffffff
  pipelines := takenKeys

/-- At the last value of the counter the loop tries 0, 2 and 3, which are taken, and draws 4. -/
theorem onNewConnection_ends_over_wrap :
    (∃ k m', managerAtWrap.onNewConnection () = some (pair 5 k, m') ∧ k = 4 ∧
      Draws 0xffffffff takenKeys k m'.currentConnId m'.pipelines) ∧
      ∃ k m', ioManagerAtWrap.onNewConnection () "gate" = some (k, m') ∧ k = 4 ∧
        Draws 0xffffffff takenKeys k m'.currentConnId m'.pipelines := by
  have hends : probe nextConnId (fun k => decide (k ∈ takenKeys)) (2 ^ 32 - 1) 0xffffffff =
      some (4, 4) := by decide +kernel
  have hfour : ∀ {k c' : UInt32} {t : Table UInt32 Unit}, Draws 0xffffffff takenKeys k c' t → k = 4 :=
    fun hdraws => (Prod.mk.inj (Option.some.inj (hdraws.ends.symm.trans hends))).1
  obtain ⟨k, m, h, hdraws⟩ := onNewConnection_ends (E := Unit).1 managerAtWrap () (by decide)
  obtain ⟨k', m', h', hdraws'⟩ := onNewConnection_ends.2 ioManagerAtWrap () "gate" (by decide)
  exact ⟨⟨k, m, h, hfour hdraws, hdraws⟩, ⟨k', m', h', hfour hdraws', hdraws'⟩⟩

end ServiceFramework.Net

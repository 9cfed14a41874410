import ServiceFramework.Net.RunningServices

/-!
# Sends by name

Up to `Stop` no send ends the process, and the data of a call is written at most once by a client, which
was made for the name (`sends_by_name`); a broadcast reaches each client that stays connected
(`send_reaches`). What carries both is a count: what a call has written to a client, the tasks it has
queued for it and the times its loop has still to come to it are one together at most (`due`).
-/

namespace ServiceFramework.Net

open Transition

namespace RunningServices

variable {D : Type}

/-! ## What a step does -/

/-- The service of the number is a client made for the name. -/
def Named (m : ServiceRegistry) (name : String) (number : ℕ) : Prop :=
  ∃ s ∈ m.named name, s.number = number ∧ s.config.serviceType = "tcp_client"

/-- The call is for a service of which the client is one, and has the data. -/
def IsFor (m : ServiceRegistry) (w : RunningServices D) (n client : ℕ) (data : D) : Prop :=
  ∃ call, w.calls[n]? = some call ∧ Named m call.serviceName client ∧ call.data = data

/-- The times a call has written to clients with `p` or may yet do so. -/
def due (w : RunningServices D) (n : ℕ) (p : ℕ → Bool) : ℕ :=
  w.written.countP (fun x => x.call = n ∧ p x.client) +
    w.tasks.countP (fun t => t.call = n ∧ p t.client) + (w.todo n).countP p

/-- The state before `Stop`. -/
structure Runs (m : ServiceRegistry) (w : RunningServices D) : Prop where
  registers : m.Registers
  registry : w.registry = m
  ready : ∀ n, (w.clients n).Ready
  todo : ∀ n, ∀ client ∈ w.todo n, ∃ call, w.calls[n]? = some call ∧
    Named m call.serviceName client
  task : ∀ t ∈ w.tasks, IsFor m w t.call t.client t.data
  written : ∀ x ∈ w.written, IsFor m w x.call x.client x.data
  once : ∀ n client, w.due n (fun c => c = client) ≤ 1
  single : ∀ n call, w.calls[n]? = some call → call.broadCast = false → w.due n (fun _ => true) ≤ 1
  returns : ∀ call ∈ w.calls, call.rv = true ↔ ∃ client, Named m call.serviceName client
  calledBack : ∀ n, w.calledBack.count n ≤ w.written.countP fun x => x.call = n
  stopped : w.stopped = []

variable {m : ServiceRegistry} {w w' : RunningServices D}

theorem runs_init (hm : m.Registers) : ({ registry := m } : RunningServices D).Runs m where
  registers := hm
  registry := rfl
  ready _ := TcpClient.ready_new
  todo _ _ h := by cases h
  task _ h := by cases h
  written _ h := by cases h
  once _ _ := Nat.zero_le 1
  single _ _ _ _ := Nat.zero_le 1
  returns _ h := by cases h
  calledBack _ := Nat.zero_le 0
  stopped := rfl

theorem IsFor.append {n client : ℕ} {data : D} (h : IsFor m w n client data)
    (hcalls : ∃ calls, w'.calls = w.calls ++ calls) : IsFor m w' n client data := by
  obtain ⟨call, hcall, hrest⟩ := h
  obtain ⟨calls, hcalls⟩ := hcalls
  refine ⟨call, ?_, hrest⟩
  rw [hcalls, List.getElem?_append_left (List.getElem?_eq_some_iff.1 hcall).1]
  exact hcall

/-- The calls made before are those of the numbers below. -/
theorem IsFor.lt {n client : ℕ} {data : D} (h : IsFor m w n client data) : n < w.calls.length := by
  obtain ⟨call, hcall, -⟩ := h
  exact (List.getElem?_eq_some_iff.1 hcall).1

/-- A call that is not made yet has no loop. -/
theorem Runs.todo_eq_nil (hw : w.Runs m) {n : ℕ} (hn : w.calls.length ≤ n) : w.todo n = [] := by
  rw [List.eq_nil_iff_forall_not_mem]
  intro client h
  obtain ⟨call, hcall, -⟩ := hw.todo n client h
  exact absurd (List.getElem?_eq_some_iff.1 hcall).1 (Nat.not_lt.2 hn)

/-- A call that is not made yet has nothing to write. -/
theorem Runs.due_eq_zero (hw : w.Runs m) {n : ℕ} (hn : w.calls.length ≤ n) (p : ℕ → Bool) :
    w.due n p = 0 := by
  have hwritten : w.written.countP (fun x => x.call = n ∧ p x.client) = 0 := by
    rw [List.countP_eq_zero]
    intro x hx h
    exact absurd (hw.written x hx).lt (Nat.not_lt.2 (hn.trans (of_decide_eq_true h).1.ge))
  have htasks : w.tasks.countP (fun t => t.call = n ∧ p t.client) = 0 := by
    rw [List.countP_eq_zero]
    intro t ht h
    exact absurd (hw.task t ht).lt (Nat.not_lt.2 (hn.trans (of_decide_eq_true h).1.ge))
  rw [due, hwritten, htasks, hw.todo_eq_nil hn, List.countP_nil]

/-- The clients of the two states are alike but in the number of their sends. -/
def SameClients (w : RunningServices D) (clients : ℕ → TcpClient) : Prop :=
  ∀ n, ∃ sends, clients n = { w.clients n with sends }

theorem SameClients.ready {clients : ℕ → TcpClient} (h : w.SameClients clients)
    (hready : ∀ n, (w.clients n).Ready) : ∀ n, (clients n).Ready := by
  intro n
  obtain ⟨sends, hn⟩ := h n
  rw [hn]
  exact (hready n).sends sends

/-- One client is given another number of sends. -/
theorem sameClients_update (w : RunningServices D) (number sends : ℕ) :
    w.SameClients (Function.update w.clients number { w.clients number with sends }) := by
  intro n
  by_cases hn : n = number
  · subst hn
    exact ⟨sends, Function.update_self n _ w.clients⟩
  · exact ⟨_, Function.update_of_ne hn _ w.clients⟩

/-- `SendIOBufThreadSafe` of a client that is not stopped queues a task. -/
theorem queueTask_eq (hready : ∀ n, (w.clients n).Ready) (call number : ℕ) (data : D)
    (callback : Bool) : ∃ clients piped, w.queueTask call number data callback =
      some { w with
        clients
        piped
        tasks := w.tasks ++ [{ call, client := number, data, callback }] } ∧
      w.SameClients clients := by
  refine ⟨Function.update w.clients number (w.clients number).sendIOBufThreadSafe,
    (w.setClient number _ (w.piped number).sendIOBufThreadSafe).piped, ?_, ?_⟩
  · rw [queueTask, TcpClientGroup.sendIOBufThreadSafe, if_pos (hready number).client]
    rfl
  · rw [(hready number).sendIOBufThreadSafe_eq]
    exact w.sameClients_update number _

/-! ## The calls -/

/-- The state after a call, with the tasks it queued and the clients its loop has to come to. -/
def called (w : RunningServices D) (clients : ℕ → TcpClient) (piped : ∀ n, (clients n).Piped)
    (call : ServiceCall D) (tasks : List (ServiceTask D)) (onlines : List ℕ) : RunningServices D :=
  { w with
    clients
    piped
    calls := w.calls ++ [call]
    todo := Function.update w.todo w.calls.length onlines
    tasks := w.tasks ++ tasks }

/-- The times a call with these tasks and this loop has chosen a client. -/
def chosen (tasks : List (ServiceTask D)) (onlines : List ℕ) (client : ℕ) : ℕ :=
  tasks.countP (fun t => t.client = client) + onlines.count client

/-- A broadcast is for all clients of the name; any other call is for one of them, if there is one. -/
structure Call (m : ServiceRegistry) (w : RunningServices D) (call : ServiceCall D)
    (tasks : List (ServiceTask D)) (onlines : List ℕ) : Prop where
  task : ∀ t ∈ tasks, t.call = w.calls.length ∧ Named m call.serviceName t.client ∧
    t.data = call.data
  online : ∀ client ∈ onlines, Named m call.serviceName client
  once : ∀ client, chosen tasks onlines client ≤ 1
  single : call.broadCast = false → tasks.length + onlines.length ≤ 1
  returns : call.rv = true ↔ ∃ client, Named m call.serviceName client
  all : call.broadCast = true → ∀ client, Named m call.serviceName client →
    chosen tasks onlines client = 1
  one : (∃ client, Named m call.serviceName client) → ∃ client, Named m call.serviceName client ∧
    chosen tasks onlines client = 1

section Called

variable {clients : ℕ → TcpClient} {piped : ∀ n, (clients n).Piped} {call : ServiceCall D}
  {tasks : List (ServiceTask D)} {onlines : List ℕ}

theorem todo_called (n : ℕ) : (w.called clients piped call tasks onlines).todo n =
    if n = w.calls.length then onlines else w.todo n :=
  Function.update_apply w.todo w.calls.length onlines n

/-- A call adds nothing to the other calls. -/
theorem due_called_of_ne {n : ℕ} (hn : n ≠ w.calls.length)
    (htasks : ∀ t ∈ tasks, t.call = w.calls.length) (p : ℕ → Bool) :
    (w.called clients piped call tasks onlines).due n p = w.due n p := by
  have hnone : tasks.countP (fun t => t.call = n ∧ p t.client) = 0 := by
    rw [List.countP_eq_zero]
    intro t ht h
    exact hn ((of_decide_eq_true h).1.symm.trans (htasks t ht))
  unfold due
  rw [todo_called, if_neg hn]
  change _ + (w.tasks ++ tasks).countP _ + _ = _
  rw [List.countP_append, hnone, Nat.add_zero]
  rfl

theorem Runs.due_called (hw : w.Runs m) (htasks : ∀ t ∈ tasks, t.call = w.calls.length)
    (p : ℕ → Bool) : (w.called clients piped call tasks onlines).due w.calls.length p =
      tasks.countP (fun t => p t.client) + onlines.countP p := by
  have hzero := hw.due_eq_zero (le_refl w.calls.length) p
  have hall : tasks.countP (fun t => t.call = w.calls.length ∧ p t.client) =
      tasks.countP (fun t => p t.client) := by
    apply List.countP_congr
    intro t ht
    simp [htasks t ht]
  unfold due at hzero ⊢
  rw [todo_called, if_pos rfl]
  change w.written.countP _ + (w.tasks ++ tasks).countP _ + _ = _
  rw [List.countP_append, hall]
  omega

/-- A call keeps the state one before `Stop`. -/
theorem Runs.called (hw : w.Runs m) (hclients : w.SameClients clients)
    (h : Call m w call tasks onlines) : (w.called clients piped call tasks onlines).Runs m := by
  have hold : ∀ {n c d}, IsFor m w n c d →
      IsFor m (w.called clients piped call tasks onlines) n c d := fun hfor => hfor.append ⟨_, rfl⟩
  have hnew : (w.called clients piped call tasks onlines).calls[w.calls.length]? = some call :=
    List.getElem?_concat_length
  have htasks := fun t ht => (h.task t ht).1
  refine ⟨hw.registers, hw.registry, hclients.ready hw.ready, ?_, ?_, fun x hx => hold (hw.written x hx),
    ?_, ?_, ?_, hw.calledBack, hw.stopped⟩
  · intro n c hc
    rw [todo_called] at hc
    split at hc
    · next hn =>
      rw [hn]
      exact ⟨call, hnew, h.online c hc⟩
    · obtain ⟨call', hcall, hnamed⟩ := hw.todo n c hc
      refine ⟨call', ?_, hnamed⟩
      rw [RunningServices.called, List.getElem?_append_left (List.getElem?_eq_some_iff.1 hcall).1]
      exact hcall
  · intro t ht
    rcases List.mem_append.1 ht with ht | ht
    · exact hold (hw.task t ht)
    · obtain ⟨hnumber, hnamed, hdata⟩ := h.task t ht
      rw [hnumber]
      exact ⟨call, hnew, hnamed, hdata.symm⟩
  · intro n client
    by_cases hn : n = w.calls.length
    · rw [hn, hw.due_called htasks]
      exact h.once client
    · rw [due_called_of_ne hn htasks]
      exact hw.once n client
  · intro n call' hcall hbroadCast
    by_cases hn : n = w.calls.length
    · rw [hn, hnew, Option.some.injEq] at hcall
      rw [hn, hw.due_called htasks, List.countP_true, List.countP_true]
      exact h.single (hcall ▸ hbroadCast)
    · rw [due_called_of_ne hn htasks]
      apply hw.single n call' _ hbroadCast
      rw [RunningServices.called, List.getElem?_append] at hcall
      split at hcall
      · exact hcall
      · next hlt => exact absurd (List.getElem?_eq_some_iff.1 hcall).1 (by simp; omega)
  · intro c hc
    rcases List.mem_append.1 hc with hc | hc
    · exact hw.returns c hc
    · rw [List.mem_singleton.1 hc]
      exact h.returns

end Called

/-- The call is made: it does not end the process, and adds its tasks and its loop to the state. -/
def Makes (m : ServiceRegistry) (w : RunningServices D) (call : ServiceCall D)
    (r : Option (RunningServices D)) : Prop :=
  ∃ clients piped tasks onlines, r = some (w.called clients piped call tasks onlines) ∧
    w.SameClients clients ∧ Call m w call tasks onlines

/-- The group of the clients made for a name. -/
structure GroupFor (m : ServiceRegistry) (name : String) (group : ClientGroup) : Prop where
  clients : group.clients.map GroupedClient.client = m.named name
  nonempty : m.named name ≠ []
  types : ∀ s ∈ m.named name, s.config.serviceType = "tcp_client"

theorem GroupFor.numbers {name : String} {group : ClientGroup} (hgroup : GroupFor m name group) :
    (group.clients.map fun c => c.client.number) = (m.named name).map ServiceBase.number := by
  rw [← hgroup.clients, List.map_map]
  rfl

theorem GroupFor.mem_iff {name : String} {group : ClientGroup} (hgroup : GroupFor m name group)
    {number : ℕ} : (number ∈ group.clients.map fun c => c.client.number) ↔ Named m name number := by
  rw [hgroup.numbers, List.mem_map]
  exact exists_congr fun s => and_congr_right fun hs => (and_iff_left (hgroup.types s hs)).symm

/-- The entry of a name of clients is their group; any other name has no clients. -/
theorem lookup_cases (hm : m.Registers) (hregistry : w.registry = m) (name : String) :
    (∃ group, w.lookup name = some (.tcpClientGroup group) ∧ GroupFor m name group) ∨
      ((∃ s, w.lookup name = some (.single s) ∧ m.named name = [s]) ∨ w.lookup name = none) ∧
        ¬ ∃ client, Named m name client := by
  have hholds := hm.holds name
  unfold lookup
  rw [hregistry]
  rw [ServiceRegistry.Holds] at hholds
  cases hfind : m.services.find name with
  | none =>
    rw [hfind] at hholds
    refine .inr ⟨.inr rfl, ?_⟩
    rintro ⟨client, s, hs, -⟩
    rw [hholds] at hs
    cases hs
  | some it =>
    rw [hfind] at hholds
    cases it with
    | tcpClientGroup group =>
      obtain ⟨hne, hclients, htypes, -⟩ := hholds
      exact .inl ⟨group, rfl, hclients, hne, fun s hs => (htypes s hs).1⟩
    | single s =>
      obtain ⟨hone, htype⟩ := hholds
      refine .inr ⟨.inl ⟨s, rfl, hone⟩, ?_⟩
      rintro ⟨client, s', hs', -, hclient⟩
      rw [hone, List.mem_singleton] at hs'
      exact htype (hs' ▸ hclient)

/-- The numbers of the services of a name are different. -/
theorem nodup_named (hm : m.Registers) (name : String) :
    ((m.named name).map ServiceBase.number).Nodup := by
  have hall : (m.created.map ServiceBase.number).Nodup := by
    rw [hm.numbers]
    exact List.nodup_range
  exact (List.filter_sublist.map _).nodup hall

theorem groupOf_clients (w : RunningServices D) (group : ClientGroup) :
    (w.groupOf group).clients = group.clients.map fun c => w.clients c.client.number :=
  rfl

/-- The state after a call without a loop. -/
theorem Runs.called_nil (hw : w.Runs m) {clients : ℕ → TcpClient} (piped : ∀ n, (clients n).Piped)
    (call : ServiceCall D) (tasks : List (ServiceTask D)) : w.called clients piped call tasks [] =
      { w with clients, piped, calls := w.calls ++ [call], tasks := w.tasks ++ tasks } := by
  have htodo : Function.update w.todo w.calls.length [] = w.todo := by
    rw [← hw.todo_eq_nil (le_refl w.calls.length)]
    exact Function.update_eq_self w.calls.length w.todo
  rw [RunningServices.called, htodo]

/-- A call for a name without clients. -/
theorem Runs.makes_notSent (hw : w.Runs m) {name : String} (hnone : ¬ ∃ client, Named m name client)
    (data : D) (broadCast : Bool) : Makes m w ⟨name, data, broadCast, false⟩
      (some { w with calls := w.calls ++ [⟨name, data, broadCast, false⟩] }) := by
  refine ⟨w.clients, w.piped, [], [], ?_, fun n => ⟨_, rfl⟩, nofun, nofun, fun _ => Nat.zero_le 1,
    fun _ => Nat.zero_le 1, iff_of_false nofun hnone, ?_, fun h => absurd h hnone⟩
  · rw [hw.called_nil, List.append_nil]
  · exact fun _ client hclient => absurd ⟨client, hclient⟩ hnone

theorem call_drawn {name : String} {number : ℕ} (data : D) (callback : Bool)
    (hnamed : Named m name number) :
    Call m w ⟨name, data, false, true⟩ [⟨w.calls.length, number, data, callback⟩] [] where
  task t ht := by
    rw [List.mem_singleton.1 ht]
    exact ⟨rfl, hnamed, rfl⟩
  online := nofun
  once client := by
    rw [chosen, List.countP_singleton]
    split <;> simp
  single _ := le_rfl
  returns := iff_of_true rfl ⟨number, hnamed⟩
  all := nofun
  one _ := ⟨number, hnamed, by simp [chosen]⟩

/-- The client drawn is one of the name. -/
theorem GroupFor.drawn {name : String} {group : ClientGroup} (hgroup : GroupFor m name group)
    (w : RunningServices D) (draw : UInt32) : ∃ member,
      group.clients[(w.groupOf group).drawn draw]? = some member ∧
      Named m name member.client.number ∧
      (w.groupOf group).clients[(w.groupOf group).drawn draw]? =
        some (w.clients member.client.number) := by
  have hne : (w.groupOf group).clients ≠ [] := by
    intro h
    rw [groupOf_clients, List.map_eq_nil_iff] at h
    have hnil := hgroup.clients
    rw [h] at hnil
    exact hgroup.nonempty hnil.symm
  have hlt := (w.groupOf group).drawn_lt hne draw
  rw [groupOf_clients, List.length_map] at hlt
  have hmember := List.getElem?_eq_getElem hlt
  refine ⟨_, hmember, hgroup.mem_iff.1 (List.mem_map_of_mem (List.getElem_mem hlt)), ?_⟩
  rw [groupOf_clients, List.getElem?_map, hmember]
  rfl

/-- A call that draws a client of a group queues one task. -/
theorem Runs.makes_sendToDrawnClient (hw : w.Runs m) {group : ClientGroup} {name : String}
    (hgroup : GroupFor m name group) (data : D) (callback : Bool) (draw : UInt32) :
    Makes m w ⟨name, data, false, true⟩ (w.sendToDrawnClient group name data
      ((w.groupOf group).sendToDrawnClient data callback draw)) := by
  obtain ⟨member, hmember, hnamed, hc⟩ := hgroup.drawn w draw
  obtain ⟨clients, piped, hqueue, hclients⟩ :=
    queueTask_eq hw.ready w.calls.length member.client.number data callback
  refine ⟨clients, piped, _, [], ?_, hclients, call_drawn data callback hnamed⟩
  rw [sendToDrawnClient, TcpClientGroup.sendToDrawnClient_eq hc, if_pos (hw.ready _).client]
  simp only [Option.bind_eq_bind, Option.bind_some, run_cons, run_nil, hmember, hqueue]
  rw [hw.called_nil]
  rfl

/-- A broadcast has the clients of the group to come to. -/
theorem Runs.makes_broadCast (hw : w.Runs m) {group : ClientGroup} {name : String}
    (hgroup : GroupFor m name group) (data : D) :
    Makes m w ⟨name, data, true, true⟩ (some (w.broadCast group name data)) := by
  have hnodup : (group.clients.map fun c => c.client.number).Nodup := by
    rw [hgroup.numbers]
    exact nodup_named hw.registers name
  have hone : ∀ client, Named m name client →
      chosen ([] : List (ServiceTask D)) (group.clients.map fun c => c.client.number) client = 1 := by
    intro client hclient
    rw [chosen, List.countP_nil, Nat.zero_add]
    exact List.count_eq_one_of_mem hnodup (hgroup.mem_iff.2 hclient)
  obtain ⟨s, hs⟩ := List.exists_mem_of_ne_nil _ hgroup.nonempty
  have hs : Named m name s.number := ⟨s, hs, rfl, hgroup.types s hs⟩
  have hrv : (!(group.clients.map fun c => c.client.number).isEmpty) = true := by
    cases hlist : group.clients.map fun c => c.client.number with
    | nil =>
      have hmem := hgroup.mem_iff.2 hs
      rw [hlist] at hmem
      cases hmem
    | cons _ _ => rfl
  refine ⟨w.clients, w.piped, [], group.clients.map fun c => c.client.number, ?_, fun n => ⟨_, rfl⟩,
    nofun, fun client => hgroup.mem_iff.1, ?_, nofun, iff_of_true rfl ⟨_, hs⟩, fun _ => hone,
    fun _ => ⟨_, hs, hone _ hs⟩⟩
  · rw [RunningServices.broadCast, RunningServices.called, List.append_nil]
    simp only [hrv]
  · intro client
    rw [chosen, List.countP_nil, Nat.zero_add]
    exact List.nodup_iff_count_le_one.1 hnodup client

/-- Both versions of `SendIOBuf`, for a way of sending to a group. -/
theorem Runs.makes_sendByName (hw : w.Runs m) (name : String) (data : D) (broadCast : Bool)
    {send : ClientGroup → Option (RunningServices D)}
    (hsend : ∀ group, GroupFor m name group → Makes m w ⟨name, data, broadCast, true⟩ (send group)) :
    ∃ rv, Makes m w ⟨name, data, broadCast, rv⟩ (w.sendByName name data broadCast send) := by
  unfold sendByName
  rcases lookup_cases hw.registers hw.registry name with
    ⟨group, hlookup, hgroup⟩ | ⟨⟨s, hlookup, -⟩ | hlookup, hnone⟩
  · rw [hlookup]
    exact ⟨true, hsend group hgroup⟩
  · rw [hlookup]
    exact ⟨false, hw.makes_notSent hnone data broadCast⟩
  · rw [hlookup]
    exact ⟨false, hw.makes_notSent hnone data broadCast⟩

theorem Runs.makes_sendIOBuf (hw : w.Runs m) (name : String) (data : D)
    (dispatchStrategy : DispatchStrategy) (draw : UInt32) :
    ∃ rv, Makes m w ⟨name, data, dispatchStrategy = .kBroadCast, rv⟩
      (w.sendIOBuf name data dispatchStrategy draw) := by
  apply hw.makes_sendByName
  intro group hgroup
  cases dispatchStrategy with
  | kBroadCast => exact hw.makes_broadCast hgroup data
  | _ => exact hw.makes_sendToDrawnClient hgroup data false draw

theorem Runs.makes_sendIOBufWithCallback (hw : w.Runs m) (name : String) (data : D) (draw : UInt32) :
    ∃ rv, Makes m w ⟨name, data, false, rv⟩ (w.sendIOBufWithCallback name data draw) := by
  apply hw.makes_sendByName
  exact fun group hgroup => hw.makes_sendToDrawnClient hgroup data true draw

/-! ## Between the calls -/

/-- Between calls, what is due to clients does not grow, and stays due to clients that are connected. -/
structure Moves (w w' : RunningServices D) : Prop where
  registry : w'.registry = w.registry
  calls : w'.calls = w.calls
  stopped : w'.stopped = w.stopped
  due_le : ∀ n p, w'.due n p ≤ w.due n p
  due_eq : ∀ n p, (∀ c, p c = true → (w.clients c).connected = true) → w'.due n p = w.due n p

theorem Runs.moves (hw : w.Runs m) (h : Moves w w') (hready : ∀ n, (w'.clients n).Ready)
    (htodo : ∀ n, ∀ c ∈ w'.todo n, c ∈ w.todo n)
    (htask : ∀ t ∈ w'.tasks, IsFor m w t.call t.client t.data)
    (hwritten : ∀ x ∈ w'.written, IsFor m w x.call x.client x.data)
    (hback : ∀ n, w'.calledBack.count n ≤ w'.written.countP fun x => x.call = n) : w'.Runs m where
  registers := hw.registers
  registry := h.registry.trans hw.registry
  ready := hready
  todo n c hc := by
    rw [h.calls]
    exact hw.todo n c (htodo n c hc)
  task t ht := by
    rw [IsFor, h.calls]
    exact htask t ht
  written x hx := by
    rw [IsFor, h.calls]
    exact hwritten x hx
  once n client := (h.due_le n _).trans (hw.once n client)
  single n call hcall hbroadCast := by
    rw [h.calls] at hcall
    exact (h.due_le n _).trans (hw.single n call hcall hbroadCast)
  returns := by
    rw [h.calls]
    exact hw.returns
  calledBack := hback
  stopped := h.stopped.trans hw.stopped

/-- Something happens to a client. -/
theorem Runs.setClient (hw : w.Runs m) (number : ℕ) {c : TcpClient} (hready : c.Ready)
    (hc : c.Piped) : (w.setClient number c hc).Runs m ∧ Moves w (w.setClient number c hc) := by
  have hmoves : Moves w (w.setClient number c hc) :=
    ⟨rfl, rfl, rfl, fun _ _ => le_rfl, fun _ _ _ => rfl⟩
  refine ⟨hw.moves hmoves ?_ (fun _ _ h => h) hw.task hw.written hw.calledBack, hmoves⟩
  intro n
  change (Function.update w.clients number c n).Ready
  rw [Function.update_apply]
  split
  · exact hready
  · exact hw.ready n

/-- The loop of a broadcast comes to a client: it queues a task exactly if the client is connected. -/
theorem Runs.visit_eq (hw : w.Runs m) {n number : ℕ} {todo : List ℕ}
    (htodo : w.todo n = number :: todo) : ∃ clients piped call, w.calls[n]? = some call ∧
      Named m call.serviceName number ∧ w.SameClients clients ∧
      w.visit n = some { w with
        clients
        piped
        todo := Function.update w.todo n todo
        tasks := w.tasks ++
          if (w.clients number).connected then [⟨n, number, call.data, false⟩] else [] } := by
  have hmem : number ∈ w.todo n := by
    rw [htodo]
    exact List.mem_cons_self
  obtain ⟨call, hcall, hnamed⟩ := hw.todo n number hmem
  obtain ⟨clients, piped, hqueue, hclients⟩ :=
    queueTask_eq (w := { w with todo := Function.update w.todo n todo }) hw.ready n number call.data
      false
  have hvisit : w.visit n = if (w.clients number).connected then
      queueTask { w with todo := Function.update w.todo n todo } n number call.data false
    else some { w with todo := Function.update w.todo n todo } := by
    rw [visit, hcall]
    simp only [Option.bind_eq_bind, Option.bind_some, htodo]
  rw [hvisit]
  split
  · exact ⟨clients, piped, call, hcall, hnamed, hclients, hqueue⟩
  · refine ⟨w.clients, w.piped, call, hcall, hnamed, fun n => ⟨_, rfl⟩, ?_⟩
    rw [List.append_nil]

/-- A task runs: it writes exactly if its client is connected. -/
theorem Runs.runTask_eq (hw : w.Runs m) {i : ℕ} {task : ServiceTask D}
    (htask : w.tasks[i]? = some task) : ∃ clients piped written calledBack, w.SameClients clients ∧
      w.runTask i = some { w with
        clients
        piped
        tasks := w.tasks.eraseIdx i
        written := w.written ++ written
        calledBack := w.calledBack ++ calledBack } ∧
      ((w.clients task.client).connected = true ∧
          (∃ p, (w.clients task.client).pipeline = some p ∧
            written = [⟨task.call, task.client, p, task.data⟩]) ∧
          calledBack = (if task.callback then [task.call] else []) ∨
        (w.clients task.client).connected = false ∧ written = [] ∧ calledBack = []) := by
  have hsends := (hw.ready task.client).sends ((w.clients task.client).sends - 1)
  have hsame := w.sameClients_update task.client ((w.clients task.client).sends - 1)
  rw [← hsends.sendTask_eq] at hsame
  have hpiped := (w.setClient task.client _ (TcpClient.Piped.sendTask
    (c := { w.clients task.client with sends := (w.clients task.client).sends - 1 })
    (w.piped task.client))).piped
  cases hconnected : (w.clients task.client).connected with
  | true =>
    obtain ⟨p, hp⟩ := Option.isSome_iff_exists.1 (w.piped task.client hconnected)
    refine ⟨_, hpiped, [⟨task.call, task.client, p, task.data⟩],
      if task.callback then [task.call] else [], hsame, ?_, .inl ⟨rfl, ⟨p, hp, rfl⟩, rfl⟩⟩
    rw [runTask, htask]
    simp only [Option.bind_eq_bind, Option.bind_some, TcpClientGroup.runSendTask, hconnected, hp,
      (hw.ready task.client).client]
    rfl
  | false =>
    refine ⟨_, hpiped, [], [], hsame, ?_, .inr ⟨rfl, rfl, rfl⟩⟩
    rw [runTask, htask]
    simp only [Option.bind_eq_bind, Option.bind_some, TcpClientGroup.runSendTask, hconnected]
    rfl

/-- A client that a loop comes to and that is not connected is given up. -/
theorem due_visit {n number : ℕ} {todo : List ℕ} (htodo : w.todo n = number :: todo)
    (clients : ℕ → TcpClient) (piped : ∀ n, (clients n).Piped) (data : D) (connected : Bool) (k : ℕ)
    (p : ℕ → Bool) :
    w.due k p = due { w with
      clients
      piped
      todo := Function.update w.todo n todo
      tasks := w.tasks ++ if connected then [⟨n, number, data, false⟩] else [] } k p +
        if n = k ∧ p number ∧ connected = false then 1 else 0 := by
  unfold due
  dsimp only
  by_cases hk : k = n
  · subst hk
    rw [htodo, Function.update_self, List.countP_append, List.countP_cons]
    cases connected <;> cases hp : p number <;> simp [hp] <;> omega
  · rw [Function.update_of_ne hk, List.countP_append]
    cases connected <;> simp [Ne.symm hk]

/-- What a task had to write is written or given up. -/
theorem due_runTask {i : ℕ} {task : ServiceTask D} (htask : w.tasks[i]? = some task)
    (clients : ℕ → TcpClient) (piped : ∀ n, (clients n).Piped) (written : List (ServiceWrite D))
    (calledBack : List ℕ)
    (hwritten : (∃ q, written = [⟨task.call, task.client, q, task.data⟩]) ∨ written = []) (k : ℕ)
    (p : ℕ → Bool) :
    w.due k p = due { w with
      clients
      piped
      tasks := w.tasks.eraseIdx i
      written := w.written ++ written
      calledBack := w.calledBack ++ calledBack } k p +
        if task.call = k ∧ p task.client ∧ written = [] then 1 else 0 := by
  obtain ⟨hi, hget⟩ := List.getElem?_eq_some_iff.1 htask
  have hperm := List.getElem_cons_eraseIdx_perm hi
  rw [hget] at hperm
  have hcount := hperm.countP_eq fun t => t.call = k ∧ p t.client
  rw [List.countP_cons] at hcount
  unfold due
  dsimp only
  rw [← hcount, List.countP_append]
  rcases hwritten with ⟨q, rfl⟩ | rfl
  · rw [List.countP_singleton]
    simp only [decide_eq_true_eq, List.cons_ne_nil, and_false, if_false]
    omega
  · simp only [decide_eq_true_eq, and_true, List.countP_nil]
    omega

theorem Runs.visit (hw : w.Runs m) {n : ℕ} (h : w.visit n = some w') : w'.Runs m ∧ Moves w w' := by
  cases htodo : w.todo n with
  | nil =>
    rw [RunningServices.visit] at h
    simp only [htodo, Option.bind_eq_bind, Option.bind_eq_some_iff] at h
    obtain ⟨call, -, hnone⟩ := h
    cases hnone
  | cons number todo =>
    obtain ⟨clients, piped, call, hcall, hnamed, hclients, hvisit⟩ := hw.visit_eq htodo
    rw [hvisit] at h
    cases h
    have hmoves : Moves w { w with
        clients
        piped
        todo := Function.update w.todo n todo
        tasks := w.tasks ++
          if (w.clients number).connected then [⟨n, number, call.data, false⟩] else [] } := by
      refine ⟨rfl, rfl, rfl, ?_, ?_⟩
      · intro k p
        rw [due_visit htodo clients piped call.data (w.clients number).connected k p]
        exact Nat.le_add_right _ _
      · intro k p hp
        have hnot : ¬ (n = k ∧ p number = true ∧ (w.clients number).connected = false) := by
          rintro ⟨-, hnumber, hnot⟩
          rw [hp number hnumber] at hnot
          cases hnot
        rw [due_visit htodo clients piped call.data (w.clients number).connected k p, if_neg hnot]
        rfl
    refine ⟨hw.moves hmoves (hclients.ready hw.ready) ?_ ?_ hw.written hw.calledBack, hmoves⟩
    · intro k c hc
      dsimp only at hc
      rw [Function.update_apply] at hc
      split at hc
      · next hk =>
        rw [hk, htodo]
        exact List.mem_cons_of_mem number hc
      · exact hc
    · intro t ht
      rcases List.mem_append.1 ht with ht | ht
      · exact hw.task t ht
      · split at ht
        · rw [List.mem_singleton.1 ht]
          exact ⟨call, hcall, hnamed, rfl⟩
        · cases ht

theorem Runs.runTask (hw : w.Runs m) {i : ℕ} (h : w.runTask i = some w') :
    w'.Runs m ∧ Moves w w' := by
  cases htask : w.tasks[i]? with
  | none =>
    rw [RunningServices.runTask, htask] at h
    cases h
  | some task =>
    obtain ⟨clients, piped, written, calledBack, hclients, hrun, hcase⟩ := hw.runTask_eq htask
    rw [hrun] at h
    cases h
    have hfor := hw.task task (List.mem_of_getElem? htask)
    have hone : (∃ q, written = [⟨task.call, task.client, q, task.data⟩]) ∨ written = [] := by
      rcases hcase with ⟨-, ⟨p, -, hp⟩, -⟩ | ⟨-, hnil, -⟩
      · exact .inl ⟨p, hp⟩
      · exact .inr hnil
    have hmoves : Moves w { w with
        clients
        piped
        tasks := w.tasks.eraseIdx i
        written := w.written ++ written
        calledBack := w.calledBack ++ calledBack } := by
      refine ⟨rfl, rfl, rfl, ?_, ?_⟩
      · intro k p
        rw [due_runTask htask clients piped written calledBack hone k p]
        exact Nat.le_add_right _ _
      · intro k p hp
        have hnot : ¬ (task.call = k ∧ p task.client = true ∧ written = []) := by
          rintro ⟨-, hclient, hnil⟩
          rcases hcase with ⟨-, ⟨q, -, hq⟩, -⟩ | ⟨hnot, -⟩
          · rw [hq] at hnil
            cases hnil
          · rw [hp task.client hclient] at hnot
            cases hnot
        rw [due_runTask htask clients piped written calledBack hone k p, if_neg hnot]
        rfl
    refine ⟨hw.moves hmoves (hclients.ready hw.ready) (fun _ _ h => h) ?_ ?_ ?_, hmoves⟩
    · exact fun t ht => hw.task t (List.mem_of_mem_eraseIdx ht)
    · intro x hx
      rcases List.mem_append.1 hx with hx | hx
      · exact hw.written x hx
      · rcases hone with ⟨q, hq⟩ | hnil
        · rw [hq, List.mem_singleton] at hx
          rw [hx]
          exact hfor
        · rw [hnil] at hx
          cases hx
    · intro n
      dsimp only
      rw [List.count_append, List.countP_append]
      have hback : calledBack.count n ≤ written.countP fun x => x.call = n := by
        rcases hcase with ⟨-, ⟨q, -, rfl⟩, rfl⟩ | ⟨-, rfl, rfl⟩
        · rw [List.countP_singleton]
          split
          · rw [List.count_singleton]
            split <;> simp_all
          · exact Nat.zero_le _
        · exact le_rfl
      have hold := hw.calledBack n
      omega

/-- A step keeps the state one before `Stop`, and what is due of the calls made before it is as it was
between calls. -/
theorem Runs.step (hw : w.Runs m) {e : ServicesEvent D} (he : e.isStop = false)
    (h : step w e = some w') : w'.Runs m ∧ (∃ calls, w'.calls = w.calls ++ calls) ∧
      ∀ n < w.calls.length, ∀ p, (∀ c, p c = true → (w.clients c).connected = true) →
        w'.due n p = w.due n p := by
  have hmade : ∀ {call r}, Makes m w call r → r = some w' → w'.Runs m ∧
      (∃ calls, w'.calls = w.calls ++ calls) ∧
      ∀ n < w.calls.length, ∀ p, (∀ c, p c = true → (w.clients c).connected = true) →
        w'.due n p = w.due n p := by
    rintro call r ⟨clients, piped, tasks, onlines, hr, hclients, hcall⟩ hsome
    rw [hr] at hsome
    cases hsome
    exact ⟨hw.called hclients hcall, ⟨[call], rfl⟩,
      fun n hn p _ => due_called_of_ne hn.ne (fun t ht => (hcall.task t ht).1) p⟩
  have hmoved : w'.Runs m ∧ Moves w w' → w'.Runs m ∧ (∃ calls, w'.calls = w.calls ++ calls) ∧
      ∀ n < w.calls.length, ∀ p, (∀ c, p c = true → (w.clients c).connected = true) →
        w'.due n p = w.due n p :=
    fun ⟨hruns, hmoves⟩ =>
      ⟨hruns, ⟨[], by rw [hmoves.calls, List.append_nil]⟩, fun n _ p hp => hmoves.due_eq n p hp⟩
  cases e with
  | client number e =>
    unfold RunningServices.step at h
    dsimp only at h
    split at h
    · next hown =>
      split at h
      · next c hc =>
        split at h
        · cases h
        · cases h
          exact hmoved (hw.setClient number ((hw.ready number).step hown.2 hc) _)
      · cases h
    · cases h
  | sendIOBuf name data dispatchStrategy draw =>
    obtain ⟨rv, hmakes⟩ := hw.makes_sendIOBuf name data dispatchStrategy draw
    exact hmade hmakes h
  | sendIOBufWithCallback name data draw =>
    obtain ⟨rv, hmakes⟩ := hw.makes_sendIOBufWithCallback name data draw
    exact hmade hmakes h
  | visit n => exact hmoved (hw.visit h)
  | runTask i => exact hmoved (hw.runTask h)
  | stop names closes => cases he

theorem Runs.run (hw : w.Runs m) {es : List (ServicesEvent D)} (hes : ∀ e ∈ es, e.isStop = false)
    (h : Transition.run RunningServices.step w es = some w') : w'.Runs m := by
  have hno : Along RunningServices.step (fun _ e _ => e.isStop = false) w es :=
    Along.of_forall fun e he _ _ => hes e he
  exact hno.invariant (fun _ _ _ he hw hs => (hw.step he hs).1) hw h

/-- What is due of a call stays as it is over a run in which its clients stay connected. -/
theorem Runs.due_run (hw : w.Runs m) {n : ℕ} (hn : n < w.calls.length) {p : ℕ → Bool}
    {es : List (ServicesEvent D)} (hes : ∀ e ∈ es, e.isStop = false)
    (hconnected : Along RunningServices.step
      (fun w _ _ => ∀ c, p c = true → (w.clients c).connected = true) w es)
    (h : Transition.run RunningServices.step w es = some w') : w'.due n p = w.due n p := by
  induction es generalizing w with
  | nil =>
    cases h
    rfl
  | cons e es ih =>
    obtain ⟨w₁, h₁, h₂⟩ := run_cons_eq_some.1 h
    obtain ⟨hc, hrest⟩ := hconnected w₁ h₁
    obtain ⟨hw₁, ⟨calls, hcalls⟩, hdue⟩ := hw.step (hes e List.mem_cons_self) h₁
    have hn₁ : n < w₁.calls.length := by
      rw [hcalls, List.length_append]
      omega
    rw [ih hw₁ hn₁ (fun e' he' => hes e' (List.mem_cons_of_mem e he')) hrest h₂]
    exact hdue n hn p hc

/-- The registry after a start is the one before any call. -/
theorem runs_start {factories : ServiceFactoryManager} {serviceConfigs : List ServiceConfig}
    (h : ServiceRegistry.start factories serviceConfigs = .ok m) :
    ({ registry := m } : RunningServices D).Runs m :=
  runs_init (ServiceRegistry.Registers.of_start h)

/-! ## Sending by name -/

/-- What holds of the sends by name: what each call and each task does, and of what was written. -/
structure SendsByName (m : ServiceRegistry) (w : RunningServices D) : Prop where
  written : ∀ x ∈ w.written, IsFor m w x.call x.client x.data
  once : ∀ n client, w.written.countP (fun x => x.call = n ∧ x.client = client) ≤ 1
  single : ∀ n call, w.calls[n]? = some call → call.broadCast = false →
    w.written.countP (fun x => x.call = n) ≤ 1
  calledBack : ∀ n, w.calledBack.count n ≤ w.written.countP fun x => x.call = n
  returns : ∀ call ∈ w.calls, call.rv = true ↔ ∃ client, Named m call.serviceName client
  sendIOBuf : ∀ name data dispatchStrategy draw,
    (w.sendIOBuf name data dispatchStrategy draw).isSome = true
  sendIOBufWithCallback : ∀ name data draw, (w.sendIOBufWithCallback name data draw).isSome = true
  visit : ∀ n, w.todo n ≠ [] → (w.visit n).isSome = true
  runTask : ∀ i task, w.tasks[i]? = some task → ∃ w', w.runTask i = some w' ∧
    ((w.clients task.client).connected = true → ∃ p, (w.clients task.client).pipeline = some p ∧
      w'.written = w.written ++ [⟨task.call, task.client, p, task.data⟩]) ∧
    ((w.clients task.client).connected = false → w'.written = w.written)

theorem Makes.isSome {call : ServiceCall D} {r : Option (RunningServices D)} (h : Makes m w call r) :
    r.isSome = true := by
  obtain ⟨clients, piped, tasks, onlines, rfl, -⟩ := h
  rfl

theorem Runs.sendsByName (hw : w.Runs m) : SendsByName m w where
  written := hw.written
  once n client := by
    have h := hw.once n client
    rw [due] at h
    simp only [decide_eq_true_eq] at h
    omega
  single n call hcall hbroadCast := by
    have h := hw.single n call hcall hbroadCast
    rw [due] at h
    simp only [and_true] at h
    omega
  calledBack := hw.calledBack
  returns := hw.returns
  sendIOBuf name data dispatchStrategy draw := by
    obtain ⟨rv, hmakes⟩ := hw.makes_sendIOBuf name data dispatchStrategy draw
    exact hmakes.isSome
  sendIOBufWithCallback name data draw := by
    obtain ⟨rv, hmakes⟩ := hw.makes_sendIOBufWithCallback name data draw
    exact hmakes.isSome
  visit n hn := by
    obtain ⟨number, todo, htodo⟩ := List.exists_cons_of_ne_nil hn
    obtain ⟨clients, piped, call, -, -, -, hvisit⟩ := hw.visit_eq htodo
    rw [hvisit]
    rfl
  runTask i task htask := by
    obtain ⟨clients, piped, written, calledBack, -, hrun, hcase⟩ := hw.runTask_eq htask
    refine ⟨_, hrun, ?_, ?_⟩
    · intro hconnected
      rcases hcase with ⟨-, ⟨p, hp, rfl⟩, -⟩ | ⟨hnot, -⟩
      · exact ⟨p, hp, rfl⟩
      · rw [hconnected] at hnot
        cases hnot
    · intro hnot
      rcases hcase with ⟨hconnected, -⟩ | ⟨-, rfl, -⟩
      · rw [hnot] at hconnected
        cases hconnected
      · exact List.append_nil _

/-- **Sends by name.** In every run from a start, up to `Stop`, whatever the clients do and in
whatever order the tasks run: the data of a call is written only by clients made for its name, to each
at most once, and to one at most once in all unless the call is a broadcast; a callback runs only for
data that was written; a call returns true exactly if there is a client of the name; and no call and no
task ends the process. -/
theorem sends_by_name (factories : ServiceFactoryManager) {serviceConfigs : List ServiceConfig}
    (hm : ServiceRegistry.start factories serviceConfigs = .ok m) {es : List (ServicesEvent D)}
    (hes : ∀ e ∈ es, e.isStop = false)
    (h : Transition.run RunningServices.step { registry := m } es = some w) : SendsByName m w :=
  ((runs_start hm).run hes h).sendsByName

/-- Two clients of one name. -/
def twoClients : List ServiceConfig :=
  [⟨"biz", "tcp_client", "a", 1, 0⟩, ⟨"biz", "tcp_client", "b", 1, 0⟩]

/-- The first client has connected, and a broadcast has written to it. -/
def oneBroadCast : List (ServicesEvent String) :=
  [.client 0 .start, .client 0 (.connectSuccess 0), .sendIOBuf "biz" "ping" .kBroadCast 0, .visit 0,
    .visit 0, .runTask 0]

theorem sends_by_name_broadcast :
    ∃ m, ServiceRegistry.start { factories := [tcpClientFactory "biz"] } twoClients = .ok m ∧
      ∃ w, Transition.run RunningServices.step { registry := m } oneBroadCast = some w ∧
        w.written.length = 1 ∧ SendsByName m w :=
  ⟨_, rfl, _, rfl, rfl, sends_by_name { factories := [tcpClientFactory "biz"] }
    (show ServiceRegistry.start _ twoClients = .ok _ from rfl)
    (show ∀ e ∈ oneBroadCast, _ from by decide) rfl⟩

/-- The call reaches the client: once its loop has ended and it has no task left for the client,
it has written to the client, unless the client lost its connection on the way. -/
def Reaches (w : RunningServices D) (n client : ℕ) : Prop :=
  ∀ (es : List (ServicesEvent D)) (w' : RunningServices D), (∀ e ∈ es, e.isStop = false) →
    Transition.run RunningServices.step w es = some w' →
    Along RunningServices.step (fun w _ _ => (w.clients client).connected = true) w es →
    w'.todo n = [] → (∀ t ∈ w'.tasks, t.call = n → t.client ≠ client) →
    w'.written.countP (fun x => x.call = n ∧ x.client = client) = 1

/-- A call reaches the clients it has chosen. -/
theorem Runs.reaches (hw : w.Runs m) {call : ServiceCall D} {tasks : List (ServiceTask D)}
    {onlines : List ℕ} {clients : ℕ → TcpClient} {piped : ∀ n, (clients n).Piped}
    (hclients : w.SameClients clients) (hcall : Call m w call tasks onlines) {client : ℕ}
    (hchosen : chosen tasks onlines client = 1) :
    (w.called clients piped call tasks onlines).Reaches w.calls.length client := by
  intro es w' hes hr hconnected htodo htasks
  have hstart : (w.called clients piped call tasks onlines).due w.calls.length (fun c => c = client) =
      1 := by
    rw [hw.due_called fun t ht => (hcall.task t ht).1]
    exact hchosen
  have hn : w.calls.length < (w.called clients piped call tasks onlines).calls.length := by
    simp [RunningServices.called]
  have hstays : Along RunningServices.step
      (fun w _ _ => ∀ c, decide (c = client) = true → (w.clients c).connected = true)
      (w.called clients piped call tasks onlines) es := by
    refine hconnected.imp (P := fun _ => True) ?_ trivial
    intro s e s' hs _ _
    refine ⟨trivial, fun c hc => ?_⟩
    rw [of_decide_eq_true hc]
    exact hs
  have hdue := (hw.called hclients hcall).due_run hn hes hstays hr
  rw [hstart, due, htodo, List.countP_nil] at hdue
  have hnone : w'.tasks.countP (fun t => t.call = w.calls.length ∧ decide (t.client = client)) = 0 := by
    rw [List.countP_eq_zero]
    intro t ht h
    obtain ⟨hnumber, hclient⟩ := of_decide_eq_true h
    exact htasks t ht hnumber (of_decide_eq_true hclient)
  rw [hnone] at hdue
  simpa using hdue

/-- Where the call reaches a client, or all clients. -/
theorem Runs.exists_reaches (hw : w.Runs m) {call : ServiceCall D} {r : Option (RunningServices D)}
    (hmakes : Makes m w call r) (h : r = some w') :
    (call.broadCast = true → ∀ client, Named m call.serviceName client →
        w'.Reaches w.calls.length client) ∧
      ((∃ client, Named m call.serviceName client) → ∃ client, Named m call.serviceName client ∧
        w'.Reaches w.calls.length client) := by
  obtain ⟨clients, piped, tasks, onlines, hr, hclients, hcall⟩ := hmakes
  rw [hr] at h
  cases h
  constructor
  · intro hbroadCast client hnamed
    exact hw.reaches hclients hcall (hcall.all hbroadCast client hnamed)
  · intro hsome
    obtain ⟨client, hnamed, hchosen⟩ := hcall.one hsome
    exact ⟨client, hnamed, hw.reaches hclients hcall hchosen⟩

/-- **Who is reached.** A broadcast to a name writes exactly once to each client of the name that stays
connected until the loop is over and its task has run, whatever else goes on in between; any other send
to a name of clients does so for one of them. -/
theorem send_reaches (factories : ServiceFactoryManager) {serviceConfigs : List ServiceConfig}
    (hm : ServiceRegistry.start factories serviceConfigs = .ok m) {es : List (ServicesEvent D)}
    (hes : ∀ e ∈ es, e.isStop = false)
    (h : Transition.run RunningServices.step { registry := m } es = some w) (name : String) (data : D)
    (draw : UInt32) :
    (∀ w', w.sendIOBuf name data .kBroadCast draw = some w' →
        ∀ client, Named m name client → w'.Reaches w.calls.length client) ∧
      ((∃ client, Named m name client) →
        (∀ dispatchStrategy w', w.sendIOBuf name data dispatchStrategy draw = some w' →
          ∃ client, Named m name client ∧ w'.Reaches w.calls.length client) ∧
        ∀ w', w.sendIOBufWithCallback name data draw = some w' →
          ∃ client, Named m name client ∧ w'.Reaches w.calls.length client) := by
  have hw := (runs_start hm).run hes h
  refine ⟨?_, fun hsome => ⟨?_, ?_⟩⟩
  · intro w' hw'
    obtain ⟨rv, hmakes⟩ := hw.makes_sendIOBuf name data .kBroadCast draw
    exact (hw.exists_reaches hmakes hw').1 rfl
  · intro dispatchStrategy w' hw'
    obtain ⟨rv, hmakes⟩ := hw.makes_sendIOBuf name data dispatchStrategy draw
    exact (hw.exists_reaches hmakes hw').2 hsome
  · intro w' hw'
    obtain ⟨rv, hmakes⟩ := hw.makes_sendIOBufWithCallback name data draw
    exact (hw.exists_reaches hmakes hw').2 hsome

theorem send_reaches_broadcast :
    ∃ m, ServiceRegistry.start { factories := [tcpClientFactory "biz"] } twoClients = .ok m ∧
      ∃ w, Transition.run RunningServices.step { registry := m } oneBroadCast = some w ∧
        ∀ w', w.sendIOBuf "biz" "pong" .kBroadCast 7 = some w' →
          ∀ client, Named m "biz" client → w'.Reaches w.calls.length client :=
  ⟨_, rfl, _, rfl, (send_reaches { factories := [tcpClientFactory "biz"] }
    (show ServiceRegistry.start _ twoClients = .ok _ from rfl)
    (show ∀ e ∈ oneBroadCast, _ from by decide) rfl "biz" "pong" 7).1⟩

end RunningServices

end ServiceFramework.Net

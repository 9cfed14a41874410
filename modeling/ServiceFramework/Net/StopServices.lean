import ServiceFramework.Net.SendByName

/-!
# Stopping the services

`ServiceManager::Stop` ends the process if a client has an attempt in flight. Otherwise it stops every
service once, whatever order the hash table walks them in, and leaves the entries where they are: the
line that clears `services_` is commented out. A stopped client has no `client_`, so a send by its name
or another `Stop` ends the process from then on (`stop_services`).
-/

namespace ServiceFramework.Net

open Transition

namespace RunningServices

variable {D : Type} {m : ServiceRegistry} {w w' : RunningServices D}

/-! ## Stop -/

/-- `Stop` of a client without an attempt in flight. -/
theorem stopClient_eq {closes : ℕ → Bool} {number : ℕ} (hready : (w.clients number).Ready)
    (hconn : (w.clients number).connecting = []) : stopClient closes w number =
      some { w.setClient number ((w.clients number).stop (closes number))
          ((w.piped number).stop (closes number)) with stopped := w.stopped ++ [number] } := by
  rw [stopClient]
  simp [(hready.stop hconn (closes number)).1]

/-- `Stop` of clients that are not stopped, one after the other: the first with an attempt in flight
ends the process. -/
theorem run_stopClient (closes : ℕ → Bool) {numbers : List ℕ} (hnodup : numbers.Nodup)
    (hready : ∀ n ∈ numbers, (w.clients n).Ready) :
    (∃ n ∈ numbers, (w.clients n).connecting ≠ []) ∧
        Transition.run (stopClient closes) w numbers = none ∨
      (∀ n ∈ numbers, (w.clients n).connecting = []) ∧ ∃ clients piped,
        Transition.run (stopClient closes) w numbers =
          some { w with clients, piped, stopped := w.stopped ++ numbers } ∧
        ∀ n, clients n = if n ∈ numbers then (w.clients n).stop (closes n) else w.clients n := by
  induction numbers generalizing w with
  | nil =>
    exact .inr ⟨nofun, w.clients, w.piped, by rw [run_nil, List.append_nil],
      fun n => (if_neg nofun).symm⟩
  | cons number numbers ih =>
    obtain ⟨hnotMem, hrest⟩ := List.nodup_cons.1 hnodup
    rw [List.forall_mem_cons] at hready
    obtain ⟨hnumber, hready⟩ := hready
    rw [List.exists_mem_cons_iff, List.forall_mem_cons, run_cons]
    by_cases hconn : (w.clients number).connecting = []
    · have hothers : ∀ n ∈ numbers, Function.update w.clients number
          ((w.clients number).stop (closes number)) n = w.clients n := by
        intro n hn
        apply Function.update_of_ne
        rintro rfl
        exact hnotMem hn
      rw [stopClient_eq hnumber hconn, Option.bind_some]
      rcases ih hrest
        (w := { w.setClient number ((w.clients number).stop (closes number))
            ((w.piped number).stop (closes number)) with stopped := w.stopped ++ [number] })
        (fun n hn => (congrArg TcpClient.Ready (hothers n hn)).mpr (hready n hn)) with
          ⟨⟨n, hn, hflight⟩, hrun⟩ | ⟨hquiet, clients, piped, hrun, hclients⟩
      · refine .inl ⟨.inr ⟨n, hn, ?_⟩, hrun⟩
        rw [← hothers n hn]
        exact hflight
      · refine .inr ⟨⟨hconn, ?_⟩, clients, piped, ?_, ?_⟩
        · intro n hn
          rw [← hothers n hn]
          exact hquiet n hn
        · rw [hrun]
          simp [RunningServices.setClient]
        · intro n
          rw [hclients n]
          by_cases hn : n ∈ numbers
          · rw [if_pos hn, if_pos (List.mem_cons_of_mem number hn)]
            exact congrArg (TcpClient.stop · (closes n)) (hothers n hn)
          · rw [if_neg hn]
            change Function.update w.clients number _ n = _
            by_cases hsame : n = number
            · rw [hsame, Function.update_self, if_pos List.mem_cons_self]
            · rw [Function.update_of_ne hsame, if_neg (by simp [hsame, hn])]
    · refine .inl ⟨.inl hconn, ?_⟩
      rw [stopClient]
      simp [hnumber.stop_connecting hconn]

/-- A service has one name. -/
theorem Named.name_eq (hm : m.Registers) {name name' : String} {number : ℕ}
    (h : Named m name number) (h' : Named m name' number) : name = name' := by
  obtain ⟨s, hs, hnumber, -⟩ := h
  obtain ⟨s', hs', hnumber', -⟩ := h'
  obtain ⟨hcreated, rfl⟩ := ServiceRegistry.mem_named.1 hs
  obtain ⟨hcreated', rfl⟩ := ServiceRegistry.mem_named.1 hs'
  have hnodup : (m.created.map ServiceBase.number).Nodup := by
    rw [hm.numbers]
    exact List.nodup_range
  rw [List.inj_on_of_nodup_map hnodup hcreated hcreated' (hnumber.trans hnumber'.symm)]

/-- `Stop` of the entry of a name. -/
theorem stopService_eq (hm : m.Registers) (hregistry : w.registry = m) (closes : ℕ → Bool)
    {name : String} (hname : name ∈ m.services)
    (hready : ∀ n, Named m name n → (w.clients n).Ready) :
    (∃ n, Named m name n ∧ (w.clients n).connecting ≠ []) ∧
        (w.lookup name).bind (stopService closes w) = none ∨
      (∀ n, Named m name n → (w.clients n).connecting = []) ∧ ∃ clients piped,
        (w.lookup name).bind (stopService closes w) = some { w with
          clients
          piped
          stopped := w.stopped ++ (m.named name).map ServiceBase.number } ∧
        ∀ n, (Named m name n → clients n = (w.clients n).stop (closes n)) ∧
          (¬ Named m name n → clients n = w.clients n) := by
  rcases lookup_cases hm hregistry name with
    ⟨group, hlookup, hgroup⟩ | ⟨⟨s, hlookup, hone⟩ | hlookup, hnone⟩
  · have hnodup : (group.clients.map fun c => c.client.number).Nodup := by
      rw [hgroup.numbers]
      exact nodup_named hm name
    rw [hlookup, Option.bind_some, stopService]
    rcases run_stopClient (w := w) closes hnodup (fun n hn => hready n (hgroup.mem_iff.1 hn)) with
      ⟨⟨n, hn, hflight⟩, hrun⟩ | ⟨hquiet, clients, piped, hrun, hclients⟩
    · exact .inl ⟨⟨n, hgroup.mem_iff.1 hn, hflight⟩, hrun⟩
    · refine .inr ⟨fun n hn => hquiet n (hgroup.mem_iff.2 hn), clients, piped, ?_, ?_⟩
      · rw [hrun, hgroup.numbers]
      · intro n
        rw [hclients n]
        exact ⟨fun hn => if_pos (hgroup.mem_iff.2 hn),
          fun hn => if_neg fun h => hn (hgroup.mem_iff.1 h)⟩
  · refine .inr ⟨fun n hn => absurd ⟨n, hn⟩ hnone, w.clients, w.piped, ?_,
      fun n => ⟨fun hn => absurd ⟨n, hn⟩ hnone, fun _ => rfl⟩⟩
    rw [hlookup, Option.bind_some, stopService, hone]
    rfl
  · obtain ⟨it, hit⟩ := Table.mem_iff.1 hname
    rw [lookup, hregistry, hit] at hlookup
    cases hlookup

/-- `Stop` of the entries of different names: the first client with an attempt in flight ends the
process. -/
theorem stop_eq (hm : m.Registers) (hregistry : w.registry = m) (closes : ℕ → Bool)
    {names : List String} (hnodup : names.Nodup) (hnames : ∀ name ∈ names, name ∈ m.services)
    (hready : ∀ name ∈ names, ∀ n, Named m name n → (w.clients n).Ready) :
    (∃ name ∈ names, ∃ n, Named m name n ∧ (w.clients n).connecting ≠ []) ∧
        w.stop closes names = none ∨
      (∀ name ∈ names, ∀ n, Named m name n → (w.clients n).connecting = []) ∧ ∃ clients piped,
        w.stop closes names = some { w with
          clients
          piped
          stopped := w.stopped ++ names.flatMap fun name => (m.named name).map ServiceBase.number } ∧
        ∀ n, (∀ name ∈ names, Named m name n → clients n = (w.clients n).stop (closes n)) ∧
          ((∀ name ∈ names, ¬ Named m name n) → clients n = w.clients n) := by
  induction names generalizing w with
  | nil =>
    refine .inr ⟨nofun, w.clients, w.piped, ?_, fun n => ⟨nofun, fun _ => rfl⟩⟩
    rw [List.flatMap_nil, List.append_nil]
    rfl
  | cons name names ih =>
    obtain ⟨hnotMem, hrest⟩ := List.nodup_cons.1 hnodup
    rw [List.forall_mem_cons] at hnames hready
    rw [List.exists_mem_cons_iff, List.forall_mem_cons, stop, run_cons]
    change _ ∧ ((w.lookup name).bind (stopService closes w)).bind _ = none ∨ _ ∧ ∃ clients piped,
      ((w.lookup name).bind (stopService closes w)).bind _ = _ ∧ _
    rcases stopService_eq hm hregistry closes hnames.1 hready.1 with
      ⟨hflight, hstop⟩ | ⟨hquiet, clients, piped, hstop, hclients⟩
    · rw [hstop]
      exact .inl ⟨.inl hflight, rfl⟩
    · have hothers : ∀ name' ∈ names, ∀ n, Named m name' n → clients n = w.clients n := by
        intro name' hname' n hn
        apply (hclients n).2
        intro hsame
        rw [hsame.name_eq hm hn] at hnotMem
        exact hnotMem hname'
      rw [hstop]
      rcases ih
        (w := { w with
          clients
          piped
          stopped := w.stopped ++ (m.named name).map ServiceBase.number })
        hregistry hrest hnames.2
        (fun name' hname' n hn =>
          (congrArg TcpClient.Ready (hothers name' hname' n hn)).mpr (hready.2 name' hname' n hn)) with
          ⟨⟨name', hname', n, hn, hflight⟩, hrun⟩ | ⟨hquiet', clients', piped', hrun, hclients'⟩
      · refine .inl ⟨.inr ⟨name', hname', n, hn, ?_⟩, hrun⟩
        rw [← hothers name' hname' n hn]
        exact hflight
      · refine .inr ⟨⟨hquiet, ?_⟩, clients', piped', ?_, ?_⟩
        · intro name' hname' n hn
          rw [← hothers name' hname' n hn]
          exact hquiet' name' hname' n hn
        · rw [Option.bind_some]
          change stop closes _ names = _
          rw [hrun, List.flatMap_cons, List.append_assoc]
        · intro n
          constructor
          · intro name' hname' hn
            rcases List.mem_cons.1 hname' with rfl | hname'
            · rw [(hclients' n).2 fun name'' hname'' hn'' => ?_]
              · exact (hclients n).1 hn
              · rw [hn.name_eq hm hn''] at hnotMem
                exact hnotMem hname''
            · rw [(hclients' n).1 name' hname' hn]
              exact congrArg (TcpClient.stop · (closes n)) (hothers name' hname' n hn)
          · intro hnone
            rw [(hclients' n).2 fun name' hname' => hnone name' (List.mem_cons_of_mem name hname')]
            exact (hclients n).2 (hnone name List.mem_cons_self)

/-! ## After Stop -/

/-- The registry stays as it is, and no client gets its `client_` back. -/
structure Later (w w' : RunningServices D) : Prop where
  registry : w'.registry = w.registry
  client : ∀ n, (w.clients n).client = false → (w'.clients n).client = false

theorem Later.trans {u : RunningServices D} (h : Later w w') (h' : Later w' u) : Later w u :=
  ⟨h'.registry.trans h.registry, fun n hn => h'.client n (h.client n hn)⟩

/-- The clients of the registry were all stopped. -/
structure Halted (m : ServiceRegistry) (w : RunningServices D) : Prop where
  registers : m.Registers
  registry : w.registry = m
  client : ∀ name n, Named m name n → (w.clients n).client = false

theorem Halted.later (h : w.Halted m) (hl : Later w w') : w'.Halted m :=
  ⟨h.registers, hl.registry.trans h.registry, fun name n hn => hl.client n (h.client name n hn)⟩

theorem Halted.queueTask_eq_none (h : w.Halted m) {name : String} {number : ℕ}
    (hnamed : Named m name number) (call : ℕ) (data : D) (callback : Bool) :
    w.queueTask call number data callback = none := by
  rw [queueTask, TcpClientGroup.sendIOBufThreadSafe, if_neg (by simp [h.client name number hnamed])]
  rfl

/-- A send that draws a client of a group finds its `client_` null. -/
theorem Halted.sendToDrawnClient_eq_none (h : w.Halted m) {group : ClientGroup} {name : String}
    (hgroup : GroupFor m name group) (data : D) (callback : Bool) (draw : UInt32) :
    w.sendToDrawnClient group name data ((w.groupOf group).sendToDrawnClient data callback draw) =
      none := by
  obtain ⟨member, -, hnamed, hc⟩ := hgroup.drawn w draw
  rw [TcpClientGroup.sendToDrawnClient_eq hc, if_neg (by simp [h.client _ _ hnamed])]
  rfl

theorem Halted.sendByName_eq (h : w.Halted m) {name : String} (hsome : ∃ client, Named m name client)
    (data : D) (broadCast : Bool) (send : ClientGroup → Option (RunningServices D)) :
    ∃ group, GroupFor m name group ∧ w.sendByName name data broadCast send = send group := by
  unfold sendByName
  rcases lookup_cases h.registers h.registry name with ⟨group, hlookup, hgroup⟩ | ⟨-, hnone⟩
  · rw [hlookup]
    exact ⟨group, hgroup, rfl⟩
  · exact absurd hsome hnone

/-- Another `Stop` ends the process at the first client it comes to. -/
theorem Halted.stop_eq_none (h : w.Halted m) (closes : ℕ → Bool) {names : List String}
    (hsome : ∃ name ∈ names, ∃ client, Named m name client) : w.stop closes names = none := by
  induction names generalizing w with
  | nil =>
    obtain ⟨name, hname, -⟩ := hsome
    cases hname
  | cons name names ih =>
    rw [stop, run_cons]
    rcases lookup_cases h.registers h.registry name with
      ⟨group, hlookup, hgroup⟩ | ⟨⟨s, hlookup, -⟩ | hlookup, hnone⟩
    · obtain ⟨member, members, hmembers⟩ : ∃ member members, group.clients = member :: members := by
        apply List.exists_cons_of_ne_nil
        intro hnil
        have hclients := hgroup.clients
        rw [hnil] at hclients
        exact hgroup.nonempty hclients.symm
      have hnamed : Named m name member.client.number := by
        rw [← hgroup.mem_iff, hmembers]
        exact List.mem_cons_self
      have hfirst : stopClient closes w member.client.number = none := by
        apply if_pos
        rw [TcpClient.stop_of_client (h.client name _ hnamed)]
        rfl
      rw [hlookup]
      change ((Transition.run (stopClient closes) w _).bind _) = none
      rw [hmembers, List.map_cons, run_cons, hfirst]
      rfl
    · rw [hlookup]
      change stop closes { w with stopped := w.stopped ++ [s.number] } names = none
      have hnext : Halted m { w with stopped := w.stopped ++ [s.number] } :=
        h.later ⟨rfl, fun _ hn => hn⟩
      apply ih hnext
      obtain ⟨name', hname', hclient⟩ := hsome
      rcases List.mem_cons.1 hname' with rfl | hname'
      · exact absurd hclient hnone
      · exact ⟨name', hname', hclient⟩
    · rw [hlookup]
      rfl

/-- What uses `client_` ends the process: a send by the name of clients that is no broadcast; a
broadcast that comes to a client, or a task of a client, exactly if the client is still connected; and
another `Stop`, exactly if there are clients. -/
structure Fatal (m : ServiceRegistry) (w : RunningServices D) : Prop where
  sendIOBuf : ∀ name, (∃ client, Named m name client) → ∀ data, ∀ dispatchStrategy ≠ .kBroadCast,
    ∀ draw, w.sendIOBuf name data dispatchStrategy draw = none
  sendIOBufWithCallback : ∀ name, (∃ client, Named m name client) → ∀ data draw,
    w.sendIOBufWithCallback name data draw = none
  visit : ∀ n call number todo, w.calls[n]? = some call → w.todo n = number :: todo →
    ∀ name, Named m name number → (w.visit n = none ↔ (w.clients number).connected = true)
  runTask : ∀ i task, w.tasks[i]? = some task →
    ∀ name, Named m name task.client → (w.runTask i = none ↔ (w.clients task.client).connected = true)
  stop : ∀ closes names, names.Perm m.services.keys →
    (w.stop closes names = none ↔ ∃ name client, Named m name client)

/-- A name of clients has an entry. -/
theorem Named.mem_services (hm : m.Registers) {name : String} {number : ℕ} (h : Named m name number) :
    name ∈ m.services := by
  obtain ⟨s, hs, -⟩ := h
  exact (hm.mem_services_iff name).2 ⟨s, ServiceRegistry.mem_named.1 hs⟩

theorem Halted.fatal (h : w.Halted m) : w.Fatal m where
  sendIOBuf name hsome data dispatchStrategy hstrategy draw := by
    obtain ⟨group, hgroup, hsend⟩ := h.sendByName_eq hsome data (dispatchStrategy = .kBroadCast) _
    rw [RunningServices.sendIOBuf, hsend]
    cases dispatchStrategy with
    | kBroadCast => exact absurd rfl hstrategy
    | _ => exact h.sendToDrawnClient_eq_none hgroup data false draw
  sendIOBufWithCallback name hsome data draw := by
    obtain ⟨group, hgroup, hsend⟩ := h.sendByName_eq hsome data false _
    rw [RunningServices.sendIOBufWithCallback, hsend]
    exact h.sendToDrawnClient_eq_none hgroup data true draw
  visit n call number todo hcall htodo name hnamed := by
    rw [RunningServices.visit, hcall]
    simp only [Option.bind_eq_bind, Option.bind_some, htodo]
    have hlater : Halted m { w with todo := Function.update w.todo n todo } :=
      h.later ⟨rfl, fun _ hn => hn⟩
    rw [hlater.queueTask_eq_none hnamed]
    simp
  runTask i task htask name hnamed := by
    have hsend : TcpClientGroup.runSendTask (w.clients task.client)
        { client := task.client, data := task.data, callback := task.callback } =
          if (w.clients task.client).connected then none else some (none, false) := by
      simp [TcpClientGroup.runSendTask, h.client name task.client hnamed]
    rw [RunningServices.runTask, htask]
    change ((TcpClientGroup.runSendTask (w.clients task.client) _).bind _ = none ↔ _)
    rw [hsend]
    by_cases hconnected : (w.clients task.client).connected = true
    · rw [if_pos hconnected]
      exact iff_of_true rfl hconnected
    · rw [if_neg hconnected]
      exact iff_of_false (Option.some_ne_none _) hconnected
  stop closes names hnames := by
    constructor
    · intro hnone
      by_contra hno
      have hready : ∀ name ∈ names, ∀ n, Named m name n → (w.clients n).Ready :=
        fun name _ n hn => absurd ⟨name, n, hn⟩ hno
      rcases stop_eq h.registers h.registry closes (hnames.nodup_iff.2 m.services.nodupKeys)
        (fun name hname => hnames.mem_iff.1 hname) hready with
          ⟨⟨name, -, n, hn, -⟩, -⟩ | ⟨-, clients, piped, hstop, -⟩
      · exact hno ⟨name, n, hn⟩
      · rw [hstop] at hnone
        cases hnone
    · rintro ⟨name, client, hnamed⟩
      exact h.stop_eq_none closes
        ⟨name, hnames.mem_iff.2 (hnamed.mem_services h.registers), client, hnamed⟩

end RunningServices

end ServiceFramework.Net

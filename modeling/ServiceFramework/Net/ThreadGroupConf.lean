import ServiceFramework.Lib.Table
import ServiceFramework.Net.ServiceFactoryManager

/-!
# The configuration of the thread groups

`ThreadGroupListOption::SetConf` (`net/thread_group_list_manager.cc`) reads from the object
"thread_group" which groups of threads are wanted, and of how many threads each.
`ThreadGroupListManager` makes them, and `ServiceManager` registers the default factories whose
group is there.

A configuration with the key "conn" asks for one group that accepts and connects, instead of two.
`SetConf` emits its option, but no function after it handles that type, so neither group is made and
neither factory registered. Every configuration without the key is honoured (`honoured_iff`).
-/

namespace ServiceFramework.Net

/-- `get<int>` of an integer, which cuts it to 32 bits. -/
def getInt (v : ℤ) : ℤ := v.bmod (2 ^ 32)

/-- `GetIOThreadSize`, for the given `std::thread::hardware_concurrency`. -/
def getIOThreadSize (hardwareConcurrency : UInt32) : ℕ :=
  if hardwareConcurrency ≤ 0 then 8 else hardwareConcurrency.toNat

/-- The number of threads of an option, for the value under its key. -/
def threadSize (hardwareConcurrency : UInt32) (v : ℤ) : ℤ :=
  if getInt v > 0 then getInt v else getInt (getIOThreadSize hardwareConcurrency)

namespace ThreadGroupListOption

/-- The branch of `SetConf` for one key. -/
def setKey (hardwareConcurrency : UInt32) (conf : Table String ℤ) (options : List ThreadGroupOption)
    (key : String) (threadType : ThreadType) : List ThreadGroupOption :=
  match conf.find key with
  | some v => options ++ [{ threadType, threadSize := threadSize hardwareConcurrency v }]
  | none => options

/-- `SetConf`, for an object with integer values. -/
def setConf (hardwareConcurrency : UInt32) (options : List ThreadGroupOption)
    (conf : Table String ℤ) : Bool × List ThreadGroupOption :=
  let set := setKey hardwareConcurrency conf
  let options :=
    if "conn" ∈ conf then
      set options "conn" .conn
    else
      let options := set options "accept" .connAccept
      set options "client" .connClient
  let options := set options "fiber" .fiber
  let options := set options "db" .db
  let options := set options "redis" .redis
  (true, options)

/-! ## The options -/

/-- The option of a key, if the configuration has it. -/
def optionOf (hardwareConcurrency : UInt32) (conf : Table String ℤ) (key : String × ThreadType) :
    Option ThreadGroupOption :=
  (conf.find key.1).map fun v =>
    { threadType := key.2, threadSize := threadSize hardwareConcurrency v }

/-- The options of some keys, in their order. -/
def optionsOf (hardwareConcurrency : UInt32) (conf : Table String ℤ)
    (keys : List (String × ThreadType)) : List ThreadGroupOption :=
  keys.flatMap fun key => (optionOf hardwareConcurrency conf key).toList

/-- The keys that are read. -/
def keys (conf : Table String ℤ) : List (String × ThreadType) :=
  (if "conn" ∈ conf then [("conn", .conn)] else [("accept", .connAccept), ("client", .connClient)]) ++
    [("fiber", .fiber), ("db", .db), ("redis", .redis)]

variable (hardwareConcurrency : UInt32) (conf : Table String ℤ)

theorem setKey_eq (options : List ThreadGroupOption) (key : String) (threadType : ThreadType) :
    setKey hardwareConcurrency conf options key threadType =
      options ++ (optionOf hardwareConcurrency conf (key, threadType)).toList := by
  rw [setKey, optionOf]
  cases conf.find key with
  | none => exact (List.append_nil options).symm
  | some v => rfl

theorem setConf_eq (options : List ThreadGroupOption) :
    (setConf hardwareConcurrency options conf).2 =
      options ++ optionsOf hardwareConcurrency conf (keys conf) := by
  simp only [setConf, setKey_eq, keys, optionsOf]
  split <;> simp [List.flatMap_cons]

theorem mem_optionsOf {keys : List (String × ThreadType)} {option : ThreadGroupOption} :
    option ∈ optionsOf hardwareConcurrency conf keys ↔
      ∃ key ∈ keys, optionOf hardwareConcurrency conf key = some option := by
  simp only [optionsOf, List.mem_flatMap, Option.mem_toList]

/-- No key is read twice, so no type has two options. -/
theorem types_optionsOf_sublist (keys : List (String × ThreadType)) :
    ((optionsOf hardwareConcurrency conf keys).map ThreadGroupOption.threadType).Sublist
      (keys.map Prod.snd) := by
  induction keys with
  | nil => exact List.Sublist.slnil
  | cons key keys ih =>
    rw [optionsOf, List.flatMap_cons, List.map_append, List.map_cons]
    cases hkey : optionOf hardwareConcurrency conf key with
    | none => exact ih.cons key.2
    | some option =>
      obtain ⟨v, -, rfl⟩ := Option.map_eq_some_iff.1 hkey
      exact ih.cons_cons key.2

theorem nodup_types : ((optionsOf hardwareConcurrency conf (keys conf)).map
    ThreadGroupOption.threadType).Nodup := by
  apply (types_optionsOf_sublist hardwareConcurrency conf (keys conf)).nodup
  unfold keys
  split <;> decide

end ThreadGroupListOption

/-! ## The groups -/

namespace ThreadGroupListManager

variable {E : Type}

/-- Options of other types leave the group of a type as it is. -/
theorem threadGroups_foldl_of_notMem {options : List ThreadGroupOption} {t : ThreadType}
    (h : t ∉ options.map ThreadGroupOption.threadType) (m : ThreadGroupListManager E) :
    (options.foldl addThreadGroup m).threadGroups t = m.threadGroups t := by
  induction options generalizing m with
  | nil => rfl
  | cons option options ih =>
    rw [List.map_cons, List.mem_cons, not_or] at h
    rw [List.foldl_cons, ih h.2, threadGroups_addThreadGroup, if_neg h.1]

/-- Where no type has two options, the group of an option's type is the one made for it. -/
theorem threadGroups_ofOptions {options : List ThreadGroupOption}
    (hnodup : (options.map ThreadGroupOption.threadType).Nodup) {option : ThreadGroupOption}
    (h : option ∈ options) :
    (ofOptions options : ThreadGroupListManager E).threadGroups option.threadType =
      makeThreadGroup option.threadType option.threadSize := by
  rw [ofOptions, initializeWith_eq]
  generalize ({} : ThreadGroupListManager E) = m
  induction options generalizing m with
  | nil => cases h
  | cons first options ih =>
    rw [List.map_cons, List.nodup_cons] at hnodup
    rcases List.mem_cons.1 h with rfl | h
    · rw [List.foldl_cons, threadGroups_foldl_of_notMem hnodup.1, threadGroups_addThreadGroup,
        if_pos rfl]
    · exact ih hnodup.2 h _

/-- The executor of a type that has one is there when an option of the type is. -/
theorem getIOThreadPoolExecutor_isSome {options : List ThreadGroupOption}
    (hnodup : (options.map ThreadGroupOption.threadType).Nodup) {option : ThreadGroupOption}
    (h : option ∈ options) (htype : option.threadType = .connAccept ∨ option.threadType = .connClient) :
    ((ofOptions options : ThreadGroupListManager E).getIOThreadPoolExecutor
      option.threadType).isSome = true := by
  have hgroup := threadGroups_ofOptions (E := E) hnodup h
  unfold getIOThreadPoolExecutor
  rcases htype with ht | ht
  · rw [ht] at hgroup ⊢
    rw [if_pos (.inl rfl), hgroup]
    rfl
  · rw [ht] at hgroup ⊢
    rw [if_pos (.inr (.inl rfl)), hgroup]
    rfl

end ThreadGroupListManager

/-- The number of threads of an executor. -/
def ThreadPoolExecutor.numThreads : ThreadPoolExecutor → ℤ
  | ioThreadPoolExecutor numThreads => numThreads
  | cpuThreadPoolExecutor numThreads => numThreads

namespace ThreadGroupListOption

/-- The thread groups of a configuration. -/
def threadGroups (E : Type) (hardwareConcurrency : UInt32) (conf : Table String ℤ) :
    ThreadGroupListManager E :=
  .ofOptions (setConf hardwareConcurrency [] conf).2

/-- A configuration is honoured: each option emitted has a group of as many threads, and where it
asks for threads that accept or connect, there are such threads and the default factory that needs
them is registered. -/
structure Honoured (E : Type) (hardwareConcurrency : UInt32) (conf : Table String ℤ) : Prop where
  groups : ∀ option ∈ (setConf hardwareConcurrency [] conf).2, ∃ group,
    (threadGroups E hardwareConcurrency conf).getThreadGroupByThreadType option.threadType =
      some group ∧ group.threadPool.numThreads = option.threadSize
  accept : "conn" ∈ conf ∨ "accept" ∈ conf →
    ((threadGroups E hardwareConcurrency conf).getIOThreadPoolExecutor .connAccept).isSome = true
  client : "conn" ∈ conf ∨ "client" ∈ conf →
    ((threadGroups E hardwareConcurrency conf).getIOThreadPoolExecutor .connClient).isSome = true
  server_factory : "conn" ∈ conf ∨ "accept" ∈ conf → tcpServerFactory "tcp_server" ∈
    (ServiceFactoryManager.setThreadGroups {} (threadGroups E hardwareConcurrency conf)).factories
  client_factory : "conn" ∈ conf ∨ "client" ∈ conf → tcpClientFactory "tcp_client" ∈
    (ServiceFactoryManager.setThreadGroups {} (threadGroups E hardwareConcurrency conf)).factories

variable {E : Type} {hardwareConcurrency : UInt32} {conf : Table String ℤ}

theorem setConf_new : (setConf hardwareConcurrency [] conf).2 =
    optionsOf hardwareConcurrency conf (keys conf) := by
  rw [setConf_eq, List.nil_append]

theorem nodup_types_setConf (hardwareConcurrency : UInt32) (conf : Table String ℤ) :
    ((setConf hardwareConcurrency [] conf).2.map ThreadGroupOption.threadType).Nodup := by
  rw [setConf_new]
  exact nodup_types hardwareConcurrency conf

/-- A key of the configuration that is read has an option of its type. -/
theorem exists_option (hardwareConcurrency : UInt32) {key : String} {threadType : ThreadType}
    (h : (key, threadType) ∈ keys conf) (hkey : key ∈ conf) :
    ∃ option ∈ (setConf hardwareConcurrency [] conf).2, option.threadType = threadType := by
  obtain ⟨v, hv⟩ := Table.mem_iff.1 hkey
  refine ⟨{ threadType, threadSize := threadSize hardwareConcurrency v }, ?_, rfl⟩
  rw [setConf_new, mem_optionsOf]
  exact ⟨(key, threadType), h, by rw [optionOf, hv]; rfl⟩

/-- The executor of a type that accepts or connects is there when its key is read. -/
theorem executor_isSome (key : String) {threadType : ThreadType} (h : (key, threadType) ∈ keys conf)
    (hkey : key ∈ conf) (htype : threadType = .connAccept ∨ threadType = .connClient) :
    ((threadGroups E hardwareConcurrency conf).getIOThreadPoolExecutor threadType).isSome = true := by
  obtain ⟨option, hoption, rfl⟩ := exists_option hardwareConcurrency h hkey
  exact ThreadGroupListManager.getIOThreadPoolExecutor_isSome
    (nodup_types_setConf hardwareConcurrency conf) hoption htype

/-- Without the key "conn" every type read has a group. -/
theorem makeThreadGroup_of_mem (hconn : "conn" ∉ conf) {key : String × ThreadType}
    (hkey : key ∈ keys conf) (threadSize : ℤ) : ∃ group : ThreadGroup,
      ThreadGroupListManager.makeThreadGroup key.2 threadSize = some group ∧
        group.threadPool.numThreads = threadSize := by
  unfold keys at hkey
  rw [if_neg hconn] at hkey
  simp only [List.cons_append, List.nil_append, List.mem_cons, List.not_mem_nil, or_false] at hkey
  rcases hkey with rfl | rfl | rfl | rfl | rfl <;> exact ⟨_, rfl, rfl⟩

/-- The group of an option's type is the one made for the option. -/
theorem threadGroups_setConf {option : ThreadGroupOption}
    (h : option ∈ (setConf hardwareConcurrency [] conf).2) :
    (threadGroups E hardwareConcurrency conf).threadGroups option.threadType =
      ThreadGroupListManager.makeThreadGroup option.threadType option.threadSize :=
  ThreadGroupListManager.threadGroups_ofOptions (nodup_types_setConf hardwareConcurrency conf) h

theorem groups_of_notMem (hconn : "conn" ∉ conf) {option : ThreadGroupOption}
    (h : option ∈ (setConf hardwareConcurrency [] conf).2) : ∃ group,
      (threadGroups E hardwareConcurrency conf).getThreadGroupByThreadType option.threadType =
        some group ∧ group.threadPool.numThreads = option.threadSize := by
  have hgroup := threadGroups_setConf (E := E) h
  rw [setConf_new, mem_optionsOf] at h
  obtain ⟨key, hkey, hoption⟩ := h
  obtain ⟨v, -, rfl⟩ := Option.map_eq_some_iff.1 hoption
  obtain ⟨group, hmake, hsize⟩ := makeThreadGroup_of_mem hconn hkey (threadSize hardwareConcurrency v)
  exact ⟨group, hgroup.trans hmake, hsize⟩

/-- **The configuration of the thread groups.** A configuration is honoured exactly if it does not
have the key "conn", which asks for one group of threads that both accept and connect. -/
theorem honoured_iff (E : Type) (hardwareConcurrency : UInt32) (conf : Table String ℤ) :
    Honoured E hardwareConcurrency conf ↔ "conn" ∉ conf := by
  constructor
  · intro h hconn
    have hkey : ("conn", ThreadType.conn) ∈ keys conf := by
      rw [keys, if_pos hconn]
      exact List.mem_cons_self
    obtain ⟨option, hoption, htype⟩ := exists_option hardwareConcurrency hkey hconn
    obtain ⟨group, hgroup, -⟩ := h.groups option hoption
    have hnone := threadGroups_setConf (E := E) hoption
    rw [htype] at hnone hgroup
    cases hgroup.symm.trans hnone
  · intro hconn
    have haccept (h : "conn" ∈ conf ∨ "accept" ∈ conf) :
        ((threadGroups E hardwareConcurrency conf).getIOThreadPoolExecutor
          .connAccept).isSome = true := by
      apply executor_isSome "accept" ?_ (h.resolve_left hconn) (.inl rfl)
      simp [keys, hconn]
    have hclient (h : "conn" ∈ conf ∨ "client" ∈ conf) :
        ((threadGroups E hardwareConcurrency conf).getIOThreadPoolExecutor
          .connClient).isSome = true := by
      apply executor_isSome "client" ?_ (h.resolve_left hconn) (.inr rfl)
      simp [keys, hconn]
    constructor
    · intro option h
      exact groups_of_notMem hconn h
    · exact haccept
    · exact hclient
    · intro h
      exact ServiceFactoryManager.mem_setThreadGroups.2 (.inr (.inl ⟨haccept h, rfl⟩))
    · intro h
      exact ServiceFactoryManager.mem_setThreadGroups.2 (.inr (.inr ⟨hclient h, rfl⟩))

/-- With four threads that accept and connect asked for, there are none of either. -/
theorem conn_group_missing :
    ¬ Honoured ℕ 8 ((∅ : Table String ℤ).insert "conn" 4) := by
  intro h
  have haccept := h.accept (.inl (by decide))
  exact absurd haccept (by decide)

end ThreadGroupListOption

end ServiceFramework.Net

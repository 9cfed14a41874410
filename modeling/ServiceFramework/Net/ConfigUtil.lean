import ServiceFramework.Base.ConfigManager
import ServiceFramework.Net.ThreadGroupConf

/-!
# The readers of the configuration

The classes whose `SetConf` reads a part of the configuration file: the services and the system
options (`base/config_util.cc`), the thread groups (`net/thread_group_list_manager.cc`), the logger
(`base/glog_util.cc`) and the server itself (`IotHubServer/IotHubUtil.cc`).

The list of services accepts every value whose elements fit the schema of a service, and has one
service for each element, in order (`toServiceConfigs_cases`): keys that are missing leave their
defaults, and keys that are not known are skipped.
-/

namespace ServiceFramework.Net

open Base Base.JsonField Handler

/-! ## Services -/

namespace ServiceConfig

/-- The fields that `SetConf` reads. -/
def fields : List (JsonField ServiceConfig) :=
  [.string "service_name" fun v c => { c with serviceName := v },
    .string "service_type" fun v c => { c with serviceType := v },
    .string "hosts" fun v c => { c with hosts := v },
    .int "port" fun v c => { c with port := UInt32.ofInt v },
    .int "max_conn_cnt" fun v c => { c with maxConnCnt := UInt32.ofInt v }]

/-- `SetConf`. -/
def setConf : SetConf ServiceConfig := readFields fields

/-- A new `ServiceConfig`. -/
def new : ServiceConfig where
  serviceName := ""
  serviceType := ""

def schema : List (String × JsonType) := fields.map type

/-- The service that a value describes. -/
def ofJson (conf : Json) : ServiceConfig where
  serviceName := (conf.stringAt "service_name").getD ""
  serviceType := (conf.stringAt "service_type").getD ""
  hosts := (conf.stringAt "hosts").getD ""
  port := UInt32.ofInt ((conf.intAt "port").getD 0)
  maxConnCnt := UInt32.ofInt ((conf.intAt "max_conn_cnt").getD 0)

theorem fields_apply (conf : Json) :
    fields.foldl (fun c f => f.apply conf c) new = ofJson conf := by
  simp only [fields, List.foldl_cons, List.foldl_nil, apply, ofJson]
  cases conf.stringAt "service_name" <;> cases conf.stringAt "service_type" <;>
    cases conf.stringAt "hosts" <;> cases conf.intAt "port" <;>
    cases conf.intAt "max_conn_cnt" <;> rfl

theorem setConf_cases (conf : Json) :
    conf.Fits schema ∧ setConf conf new = (.ok (), ofJson conf) ∨
      ¬conf.Fits schema ∧ ∃ e, ∀ c, (setConf conf c).1 = .error e := by
  rw [← fields_apply]
  exact readFields_cases fields conf new

end ServiceConfig

/-- `ToServiceConfigs`. -/
def toServiceConfigs (conf : Json) : Except String (List ServiceConfig) :=
  go conf.range
where
  go : List Json → Except String (List ServiceConfig)
    | [] => .ok []
    | item :: items =>
      match ServiceConfig.setConf item .new with
      | (.ok (), configInfo) => do
        let v ← go items
        return configInfo :: v
      | (.error e, _) => .error e

/-- Each element describes a service, or the exception of one of them is thrown. -/
theorem toServiceConfigs_cases (conf : Json) :
    (∀ item ∈ conf.range, item.Fits ServiceConfig.schema) ∧
        toServiceConfigs conf = .ok (conf.range.map ServiceConfig.ofJson) ∨
      ¬(∀ item ∈ conf.range, item.Fits ServiceConfig.schema) ∧
        ∃ e, toServiceConfigs conf = .error e := by
  unfold toServiceConfigs
  induction conf.range with
  | nil => exact .inl ⟨nofun, rfl⟩
  | cons item items ih =>
    rw [toServiceConfigs.go, List.forall_mem_cons, List.map_cons]
    rcases ServiceConfig.setConf_cases item with ⟨hfits, hset⟩ | ⟨hnot, e, hset⟩
    · rw [hset]
      rcases ih with ⟨hall, hgo⟩ | ⟨hnot, e, hgo⟩
      · exact .inl ⟨⟨hfits, hall⟩, by rw [hgo]; rfl⟩
      · exact .inr ⟨fun h => hnot h.2, e, by rw [hgo]; rfl⟩
    · refine .inr ⟨fun h => hnot h.1, e, ?_⟩
      have herror := hset .new
      generalize ServiceConfig.setConf item .new = r at herror ⊢
      obtain ⟨r, c⟩ := r
      cases herror
      rfl

/-- `ServicesConfig`. -/
structure ServicesConfig where
  serviceConfigs : List ServiceConfig := []

/-- `ServicesConfig::SetConf`: the old list is kept if an exception is thrown. -/
def ServicesConfig.setConf : SetConf ServicesConfig := fun conf c =>
  match toServiceConfigs conf with
  | .ok serviceConfigs => (.ok (), { serviceConfigs })
  | .error e => (.error e, c)

/-! ## Options -/

/-- `SystemConfig`. -/
structure SystemConfig where
  ioThreadPoolSize : UInt32 := 0

namespace SystemConfig

def fields : List (JsonField SystemConfig) :=
  [.int "io_thread_pool_size" fun v _ => { ioThreadPoolSize := UInt32.ofInt v }]

/-- `SetConf`. -/
def setConf : SetConf SystemConfig := readFields fields

end SystemConfig

/-- `IotHubConfig`. What a new one has for its server number is what its memory held. -/
structure IotHubConfig where
  serverNumber : UInt16
  serverIps : String := ""
  serverPort : ℤ := 443

namespace IotHubConfig

def fields : List (JsonField IotHubConfig) :=
  [.int "server_number" fun v c => { c with serverNumber := UInt16.ofInt v },
    .string "server_ips" fun v c => { c with serverIps := v },
    .int "server_port" fun v c => { c with serverPort := v }]

/-- `SetConf`. -/
def setConf : SetConf IotHubConfig := readFields fields

theorem serverNumber_setConf {conf : Json} (h : conf.Fits (fields.map type)) (c : IotHubConfig) :
    (setConf conf c).2.serverNumber =
      ((conf.intAt "server_number").map UInt16.ofInt).getD c.serverNumber := by
  rcases readFields_cases fields conf c with ⟨-, hs⟩ | ⟨hnot, -⟩
  · rw [setConf, hs]
    simp only [fields, List.foldl_cons, List.foldl_nil, apply]
    cases conf.intAt "server_number" <;> cases conf.stringAt "server_ips" <;>
      cases conf.intAt "server_port" <;> rfl
  · exact absurd h hnot

end IotHubConfig

/-- The severities of the log. -/
inductive LogSeverity where
  | info
  | warning
  | error
  | fatal
  deriving DecidableEq

/-- What `LogInitializer` sets: the destinations and the flags of the log. -/
structure LogConfig where
  logDestination : LogSeverity → Option String
  logbufsecs : ℤ
  logbuflevel : ℤ
  maxLogSize : ℤ
  minloglevel : ℤ
  stopLoggingIfFullDisk : Bool
  v : ℤ
  trace : Bool
  traceCallChain : Bool
  traceFiber : Bool
  traceHttp : Bool
  traceMessageHandler : Bool
  traceCost : Bool

namespace LogConfig

/-- `google::SetLogDestination`. -/
def setLogDestination (severity : LogSeverity) (loggerName : String) (c : LogConfig) : LogConfig :=
  { c with logDestination := Function.update c.logDestination severity (some loggerName) }

/-- The fields that `LogInitializer::SetConf` reads, in a program of the given name. The destination
of the fatal messages is set for those of the severity INFO. -/
def fields (programName : String) : List (JsonField LogConfig) :=
  [.string "fatal_dest" fun v => setLogDestination .info (v ++ programName ++ "_fatal_"),
    .string "error_dest" fun v => setLogDestination .error (v ++ programName ++ "_error_"),
    .string "warning_dest" fun v => setLogDestination .warning (v ++ programName ++ "_warning_"),
    .string "info_dest" fun v => setLogDestination .info (v ++ programName ++ "_info_"),
    .int "logbufsecs" (fun v c => { c with logbufsecs := v }) fun c => { c with logbufsecs := 10 },
    .int "logbuflevel" (fun v c => { c with logbuflevel := v }) fun c => { c with logbuflevel := 4 },
    .int "max_log_size" (fun v c => { c with maxLogSize := v }) fun c => { c with maxLogSize := 1000 },
    .int "minloglevel" (fun v c => { c with minloglevel := v }) fun c => { c with minloglevel := 0 },
    .boolean "stop_logging_if_full_disk" (fun b c => { c with stopLoggingIfFullDisk := b })
      fun c => { c with stopLoggingIfFullDisk := true },
    .boolean "enable_folly_debug" fun b c => if b then { c with v := 20 } else c,
    .boolean "trace" fun b c => { c with trace := b },
    .boolean "trace_call_chain" fun b c => { c with traceCallChain := b },
    .boolean "trace_fiber" fun b c => { c with traceFiber := b },
    .boolean "trace_http" fun b c => { c with traceHttp := b },
    .boolean "trace_message_handler" fun b c => { c with traceMessageHandler := b },
    .boolean "trace_cost" fun b c => { c with traceCost := b }]

/-- `LogInitializer::SetConf`. -/
def setConf (programName : String) : SetConf LogConfig := readFields (fields programName)

end LogConfig

/-! ## Thread groups -/

namespace ThreadGroupListOption

/-- The keys that `SetConf` looks for in a value, each with the type of its option. -/
def jsonKeys (conf : Json) : List (String × ThreadType) :=
  (if (conf.find "conn").isSome then [("conn", .conn)]
    else [("accept", .connAccept), ("client", .connClient)]) ++
    [("fiber", .fiber), ("db", .db), ("redis", .redis)]

def fields (hardwareConcurrency : UInt32) (conf : Json) : List (JsonField (List ThreadGroupOption)) :=
  (jsonKeys conf).map fun key => .int key.1 fun v options =>
    options ++ [{
      threadType := key.2
      threadSize := if v > 0 then v else getInt (getIOThreadSize hardwareConcurrency) }]

/-- `SetConf`, for any value. -/
def setConfJson (hardwareConcurrency : UInt32) : SetConf (List ThreadGroupOption) :=
  fun conf options => readFields (fields hardwareConcurrency conf) conf options

def schema (conf : Json) : List (String × JsonType) := (jsonKeys conf).map fun key => (key.1, .int)

/-- The keys of the thread groups. -/
def allKeys : List String := ["conn", "accept", "client", "fiber", "db", "redis"]

/-- The integers of a value under the keys of the thread groups. -/
def ints (conf : Json) : Table String ℤ :=
  allKeys.foldr (fun key t =>
    match conf.intAt key with
    | some v => t.insert key v
    | none => t) ∅

theorem find_ints {conf : Json} {key : String} (h : key ∈ allKeys) :
    (ints conf).find key = conf.intAt key := by
  have hfold : ∀ keys : List String, (keys.foldr (fun key t =>
      match conf.intAt key with
      | some v => t.insert key v
      | none => t) (∅ : Table String ℤ)).find key = if key ∈ keys then conf.intAt key else none := by
    intro keys
    induction keys with
    | nil => exact Table.find_empty key
    | cons k keys ih =>
      rw [List.foldr_cons]
      by_cases he : key = k
      · subst he
        cases hv : conf.intAt key with
        | none =>
          rw [hv] at ih
          simpa using ih
        | some v => simp [Table.find_insert]
      · cases hv : conf.intAt k with
        | none => simpa [he] using ih
        | some v => simpa [Table.find_insert, he] using ih
  rw [ints, hfold, if_pos h]

/-- An integer under a key is one of 32 bits. -/
theorem getInt_of_intAt {conf : Json} {key : String} {v : ℤ} (h : conf.intAt key = some v) :
    getInt v = v := by
  obtain ⟨j, -, hj⟩ := Option.bind_eq_some_iff.1 h
  cases j with
  | numberUnsigned n =>
    obtain rfl : (n.toNat : ℤ).bmod (2 ^ 32) = v := Option.some.inj hj
    exact Int.bmod_bmod
  | numberInteger n =>
    obtain rfl : n.toInt.bmod (2 ^ 32) = v := Option.some.inj hj
    exact Int.bmod_bmod
  | numberFloat x =>
    obtain rfl : x.toInt.toInt = v := Option.some.inj hj
    have hle := Int32.le_toInt x.toInt
    have hlt := Int32.toInt_lt x.toInt
    rw [getInt, Int.bmod_eq_of_le (by omega) (by omega)]
  | boolean b =>
    cases hj
    cases b <;> rfl
  | null => cases hj
  | string s => cases hj
  | array elements => cases hj
  | object members => cases hj

theorem mem_allKeys {conf : Json} : ∀ key ∈ jsonKeys conf, key.1 ∈ allKeys := by
  unfold jsonKeys
  split <;> decide

/-- The fields add the options of their keys. -/
theorem fields_apply (hardwareConcurrency : UInt32) (conf : Json) (options : List ThreadGroupOption) :
    (fields hardwareConcurrency conf).foldl (fun s f => f.apply conf s) options =
      options ++ optionsOf hardwareConcurrency (ints conf) (jsonKeys conf) := by
  have hkeys : ∀ keys : List (String × ThreadType), (∀ key ∈ keys, key.1 ∈ allKeys) →
      ∀ options, (keys.map fun key => (.int key.1 fun v options =>
        options ++ [{
          threadType := key.2
          threadSize := if v > 0 then v else getInt (getIOThreadSize hardwareConcurrency) }] :
          JsonField (List ThreadGroupOption))).foldl (fun s f => f.apply conf s) options =
        options ++ optionsOf hardwareConcurrency (ints conf) keys := by
    intro keys
    induction keys with
    | nil => exact fun _ options => (List.append_nil options).symm
    | cons key keys ih =>
      intro hmem options
      have hcons : optionsOf hardwareConcurrency (ints conf) (key :: keys) =
          (optionOf hardwareConcurrency (ints conf) key).toList ++
            optionsOf hardwareConcurrency (ints conf) keys := List.flatMap_cons
      rw [List.map_cons, List.foldl_cons, ih fun k hk => hmem k (List.mem_cons_of_mem key hk), hcons,
        ← List.append_assoc]
      congr 1
      simp only [apply, optionOf, find_ints (hmem key List.mem_cons_self)]
      cases hv : conf.intAt key.1 with
      | none => simp
      | some v => simp [threadSize, getInt_of_intAt hv]
  exact hkeys _ mem_allKeys options

/-- A value that fits has the keys of its integers. -/
theorem jsonKeys_eq {conf : Json} (h : conf.Fits (schema conf)) : jsonKeys conf = keys (ints conf) := by
  have hconn : (conf.find "conn").isSome = true ↔ "conn" ∈ ints conf := by
    rw [Table.mem_iff, find_ints (by decide)]
    constructor
    · intro hsome
      obtain ⟨v, hv⟩ := Option.isSome_iff_exists.1 hsome
      have htype := h ("conn", .int) (by simp [schema, jsonKeys, hsome]) v hv
      obtain ⟨n, hn⟩ := Json.getInt_isOk.2 htype
      exact ⟨n, by simp [Json.intAt, hv, hn, Except.toOption]⟩
    · rintro ⟨n, hn⟩
      obtain ⟨v, hv, -⟩ := Option.bind_eq_some_iff.1 hn
      rw [hv]
      rfl
  simp only [jsonKeys, keys, hconn]

/-- For a value that fits, the options are those of its integers; for any other there is an
exception. -/
theorem setConfJson_cases (hardwareConcurrency : UInt32) (conf : Json)
    (options : List ThreadGroupOption) :
    conf.Fits (schema conf) ∧ setConfJson hardwareConcurrency conf options =
        (.ok (), (setConf hardwareConcurrency options (ints conf)).2) ∨
      ¬conf.Fits (schema conf) ∧
        ∃ e, ∀ options, (setConfJson hardwareConcurrency conf options).1 = .error e := by
  have hschema : (fields hardwareConcurrency conf).map type = schema conf := by
    simp [fields, schema, type, Function.comp_def]
  rcases readFields_cases (fields hardwareConcurrency conf) conf options with
    ⟨hfits, hr⟩ | ⟨hnot, e, hr⟩
  · rw [hschema] at hfits
    refine .inl ⟨hfits, ?_⟩
    rw [setConfJson, hr, fields_apply, setConf_eq, jsonKeys_eq hfits]
  · rw [hschema] at hnot
    exact .inr ⟨hnot, e, hr⟩

end ThreadGroupListOption

end ServiceFramework.Net

import ServiceFramework.Lib.KeyedHandlers
import Mathlib.Algebra.Group.Nat.Defs
import Mathlib.Data.Int.Notation
import Mathlib.Data.Rat.Init

/-!
# The values of a configuration file

What the readers of the configuration use of `nlohmann::json` (`thirdparty/nlohmann/json.hpp`): the
search for a key, the conversions to strings, booleans and integers with the exceptions they throw,
and the range of a loop over a value. The parser keeps an integer as one of 64 bits if it is one, and
any other number as a `double`.

A reader is a list of fields: it looks for the key of each in order and converts the value it finds
(`readFields`). It accepts the values that have nothing or a value of the right type under each key
(`readFields_cases`).
-/

namespace ServiceFramework.Base

open Handler

/-- A `double`, and what a cast to `int` makes of it: the value without its fraction where that is an
`int`, and anything where it is not. -/
structure JsonFloat where
  value : ℚ
  toInt : Int32
  toInt_eq : Int32.minValue.toInt ≤ value.num.tdiv value.den →
    value.num.tdiv value.den ≤ Int32.maxValue.toInt → toInt.toInt = value.num.tdiv value.den

/-- A value of a configuration file. The members of an object are in the order of their keys. -/
inductive Json where
  | null
  | boolean (b : Bool)
  | numberUnsigned (n : UInt64)
  | numberInteger (n : Int64)
  | numberFloat (x : JsonFloat)
  | string (s : String)
  | array (elements : List Json)
  | object (members : List (String × Json))

/-- The types that the readers convert values to. -/
inductive JsonType where
  | string
  | int
  | boolean
  deriving DecidableEq

namespace Json

/-- `type_name`. -/
def typeName : Json → String
  | null => "null"
  | boolean _ => "boolean"
  | numberUnsigned _ => "number"
  | numberInteger _ => "number"
  | numberFloat _ => "number"
  | string _ => "string"
  | array _ => "array"
  | object _ => "object"

/-- `find`, the end of the value being `none`. -/
def find (j : Json) (key : String) : Option Json :=
  match j with
  | object members => (members.find? fun member => member.1 = key).map Prod.snd
  | _ => none

/-- What a loop over a value visits: nothing of null, the elements of an array, the values of an
object, and any other value itself. -/
def range : Json → List Json
  | null => []
  | array elements => elements
  | object members => members.map Prod.snd
  | j => [j]

/-- The text of the `type_error` thrown by a conversion. -/
def typeError (expected : String) (j : Json) : String :=
  "[json.exception.type_error.302] type must be " ++ expected ++ ", but is " ++ j.typeName

/-- `get<std::string>`. -/
def getString : Json → Except String String
  | string s => .ok s
  | j => .error (j.typeError "string")

/-- `get<bool>`. -/
def getBool : Json → Except String Bool
  | boolean b => .ok b
  | j => .error (j.typeError "boolean")

/-- `get<int>`: an integer is cut to 32 bits, and a boolean is a number. -/
def getInt : Json → Except String ℤ
  | numberUnsigned n => .ok ((n.toNat : ℤ).bmod (2 ^ 32))
  | numberInteger n => .ok (n.toInt.bmod (2 ^ 32))
  | numberFloat x => .ok x.toInt.toInt
  | boolean b => .ok (if b then 1 else 0)
  | j => .error (j.typeError "number")

/-- The integer that the parser kept as such. -/
def integer : Json → Option ℤ
  | numberUnsigned n => some n.toNat
  | numberInteger n => some n.toInt
  | _ => none

/-- A value can be converted to a type. -/
def HasType : Json → JsonType → Prop
  | string _, .string => True
  | numberUnsigned _, .int => True
  | numberInteger _, .int => True
  | numberFloat _, .int => True
  | boolean _, .int => True
  | boolean _, .boolean => True
  | _, _ => False

theorem getInt_of_integer {j : Json} {n : ℤ} (h : j.integer = some n) :
    j.getInt = .ok (n.bmod (2 ^ 32)) := by
  cases j with
  | numberUnsigned u =>
    cases h
    rfl
  | numberInteger i =>
    cases h
    rfl
  | _ => cases h

theorem getString_isOk {j : Json} : (∃ s, j.getString = .ok s) ↔ j.HasType .string := by
  cases j <;> simp [getString, HasType]

theorem getInt_isOk {j : Json} : (∃ n, j.getInt = .ok n) ↔ j.HasType .int := by
  cases j <;> simp [getInt, HasType]

theorem getBool_isOk {j : Json} : (∃ b, j.getBool = .ok b) ↔ j.HasType .boolean := by
  cases j <;> simp [getBool, HasType]

/-- Under each key of a schema the value has nothing or a value of the type. -/
def Fits (schema : List (String × JsonType)) (j : Json) : Prop :=
  ∀ key ∈ schema, ∀ v, j.find key.1 = some v → v.HasType key.2

/-- The string under a key. -/
def stringAt (j : Json) (key : String) : Option String :=
  (j.find key).bind fun v => v.getString.toOption

/-- The `int` under a key. -/
def intAt (j : Json) (key : String) : Option ℤ := (j.find key).bind fun v => v.getInt.toOption

/-- The boolean under a key. -/
def boolAt (j : Json) (key : String) : Option Bool :=
  (j.find key).bind fun v => v.getBool.toOption

end Json

/-! ## Fields -/

/-- What a reader makes of a value: `SetConf`, with the exception it throws, if any, and the state it
leaves. The result of `SetConf`, always `true`, is left out. -/
abbrev SetConf (σ : Type) := Json → σ → Except String Unit × σ

/-- A key that a reader looks for, what it does with the value converted, and what it does where the
key is missing. -/
inductive JsonField (σ : Type) where
  | string (key : String) (put : String → σ → σ)
  | int (key : String) (put : ℤ → σ → σ) (absent : σ → σ := id)
  | boolean (key : String) (put : Bool → σ → σ) (absent : σ → σ := id)

namespace JsonField

variable {σ : Type}

def handler : JsonField σ → Handler String Json String σ
  | string key put => .ofRead key Json.getString put
  | int key put absent => .ofRead key Json.getInt put absent
  | boolean key put absent => .ofRead key Json.getBool put absent

/-- The key and the type of its value. -/
def type : JsonField σ → String × JsonType
  | string key _ => (key, .string)
  | int key _ _ => (key, .int)
  | boolean key _ _ => (key, .boolean)

/-- What a field sets from a value that fits it. -/
def apply (conf : Json) : JsonField σ → σ → σ
  | string key put, s =>
    match conf.stringAt key with
    | some v => put v s
    | none => s
  | int key put absent, s =>
    match conf.intAt key with
    | some v => put v s
    | none => absent s
  | boolean key put absent, s =>
    match conf.boolAt key with
    | some v => put v s
    | none => absent s

/-- A reader with some fields. -/
def readFields (fields : List (JsonField σ)) : SetConf σ := fun conf s =>
  handle conf.find (fields.map handler) s

theorem handler_decided (field : JsonField σ) : field.handler.Decided := by
  cases field <;> exact ofRead_decided _ _ _ _

theorem handlers_decided (fields : List (JsonField σ)) : ∀ h ∈ fields.map handler, h.Decided :=
  List.forall_mem_map.2 fun field _ => field.handler_decided

theorem handler_fits [Nonempty σ] {field : JsonField σ} {conf : Json} :
    field.handler.Fits conf.find ↔
      ∀ v, conf.find field.type.1 = some v → v.HasType field.type.2 := by
  cases field with
  | string key put => simp only [handler, type, ofRead_fits, Json.getString_isOk]
  | int key put absent => simp only [handler, type, ofRead_fits, Json.getInt_isOk]
  | boolean key put absent => simp only [handler, type, ofRead_fits, Json.getBool_isOk]

theorem step_handler {field : JsonField σ} {conf : Json}
    (h : ∀ v, conf.find field.type.1 = some v → v.HasType field.type.2) (s : σ) :
    field.handler.step conf.find s = field.apply conf s := by
  cases field with
  | string key put =>
    simp only [handler, apply, step_ofRead, Json.stringAt]
    cases conf.find key with
    | none => rfl
    | some v => cases hv : v.getString <;> simp [hv, Except.toOption]
  | int key put absent =>
    simp only [handler, apply, step_ofRead, Json.intAt]
    cases hfind : conf.find key with
    | none => rfl
    | some v =>
      obtain ⟨n, hn⟩ := Json.getInt_isOk.2 (h v hfind)
      simp [hn, Except.toOption]
  | boolean key put absent =>
    simp only [handler, apply, step_ofRead, Json.boolAt]
    cases hfind : conf.find key with
    | none => rfl
    | some v =>
      obtain ⟨b, hb⟩ := Json.getBool_isOk.2 (h v hfind)
      simp [hb, Except.toOption]

theorem readFields_decided (fields : List (JsonField σ)) (conf : Json) (s s' : σ) :
    (readFields fields conf s).1 = (readFields fields conf s').1 :=
  handle_decided (handlers_decided fields) conf.find s s'

/-- A reader sets its fields from a value that fits its schema, and throws for any other. -/
theorem readFields_cases (fields : List (JsonField σ)) (conf : Json) (s : σ) :
    conf.Fits (fields.map type) ∧
        readFields fields conf s = (.ok (), fields.foldl (fun s f => f.apply conf s) s) ∨
      ¬conf.Fits (fields.map type) ∧ ∃ e, ∀ s, (readFields fields conf s).1 = .error e := by
  have : Nonempty σ := ⟨s⟩
  have hiff : (∀ h ∈ fields.map handler, h.Fits conf.find) ↔ conf.Fits (fields.map type) := by
    simp only [Json.Fits, List.forall_mem_map, handler_fits]
  rcases handle_cases (handlers_decided fields) conf.find s with hall |
    ⟨pre, h, post, v, e, hsplit, -, hv, herror, hr⟩
  · refine .inl ⟨hiff.1 hall, ?_⟩
    rw [readFields, handle_of_fits hall, List.foldl_map]
    congr 1
    refine List.foldl_ext _ _ s ?_
    intro s field hfield
    exact step_handler (handler_fits.1 (hall _ (List.mem_map_of_mem hfield))) s
  · refine .inr ⟨fun hfits => ?_, e, fun s' => ?_⟩
    · have hok := hiff.2 hfits h (by simp [hsplit]) v hv s
      rw [herror s] at hok
      cases hok
    · rw [readFields_decided fields conf s' s, readFields, hr]

theorem readFields_ok_iff {fields : List (JsonField σ)} {conf : Json} {s : σ} :
    (readFields fields conf s).1 = .ok () ↔ conf.Fits (fields.map type) := by
  rcases readFields_cases fields conf s with ⟨hfits, hr⟩ | ⟨hnot, e, hr⟩
  · exact iff_of_true (by rw [hr]) hfits
  · exact iff_of_false (by rw [hr]; nofun) hnot

end JsonField

end ServiceFramework.Base

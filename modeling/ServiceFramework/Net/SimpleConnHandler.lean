import ServiceFramework.Lib.Balance
import ServiceFramework.Lib.Transition
import Mathlib.Data.List.Lemmas

/-!
# Simple connection handlers

`SimpleConnHandler` (`net/simple_conn_handler.cc`) passes the events of a connection on to a
`SocketEventCallback`. It has no state to tell a connection that is open from one that is not yet
or no longer, as `ConnHandler` has: whatever leads to `close` reports a closing. After the callback
has taken a message and answered -1, `read` logs the length of the message it has given away, a
null pointer then.

So the callbacks are balanced and no null pointer is read exactly if no callback answers -1 and one
event at most closes, after `transportActive` (`callbacks_balanced_iff`).
-/

namespace ServiceFramework.Net

open Balance Transition

/-- The calls a handler makes: to its callback, and `ctx->fireClose()`. -/
inductive SocketCall where
  | onNewConnection
  | onConnectionClosed
  | onDataArrived (buf : Option (List UInt8))
  | fireClose
  deriving DecidableEq

namespace SocketCall

def isOnNewConnection : SocketCall → Bool
  | onNewConnection => true
  | _ => false

def isOnConnectionClosed : SocketCall → Bool
  | onConnectionClosed => true
  | _ => false

end SocketCall

/-- `SimpleConnHandler`, a null `callback_` being `none`. `calls` is not in the source: the calls
made so far. -/
structure SimpleConnHandler (C : Type) where
  callback : Option C
  calls : List SocketCall := []

namespace SimpleConnHandler

variable {C : Type}

/-- A call through `callback_`, if it is not null. -/
def callBack (h : SimpleConnHandler C) (call : SocketCall) : SimpleConnHandler C :=
  match h.callback with
  | some _ => { h with calls := h.calls ++ [call] }
  | none => h

/-- `close`. -/
def close (h : SimpleConnHandler C) : SimpleConnHandler C :=
  let h := h.callBack .onConnectionClosed
  { h with calls := h.calls ++ [.fireClose] }

/-- `read`, where the callback returns `returned`; `none` for a null pointer. A message that was
moved is null. -/
def read (h : SimpleConnHandler C) (msg : Option (List UInt8)) (returned : Int32) :
    Option (SimpleConnHandler C) :=
  let (rv, moved) := match h.callback with
    | some _ => (returned, none)
    | none => (0, msg)
  let h := h.callBack (.onDataArrived msg)
  if rv = -1 then
    -- the log line has `msg->length()`
    moved.map fun _ => h.close
  else
    some h

/-- `readEOF`. -/
def readEOF (h : SimpleConnHandler C) : SimpleConnHandler C := h.close

/-- `readException`. -/
def readException (h : SimpleConnHandler C) : SimpleConnHandler C := h.close

/-- `transportActive`. -/
def transportActive (h : SimpleConnHandler C) : SimpleConnHandler C := h.callBack .onNewConnection

/-- The events a pipeline delivers to its handler, a read with what the callback returns for it. -/
inductive Event where
  | transportActive
  | read (msg : Option (List UInt8)) (returned : Int32)
  | readEOF
  | readException
  | close
  deriving DecidableEq

namespace Event

/-- `transportActive`. -/
def isTransportActive : Event → Bool
  | transportActive => true
  | _ => false

/-- One of the events that do nothing but `close`. -/
def closes : Event → Bool
  | readEOF => true
  | readException => true
  | close => true
  | _ => false

/-- A read whose callback returns -1. -/
def fails : Event → Bool
  | read _ returned => returned = -1
  | _ => false

theorem isTransportActive_or_closes (e : Event) :
    e.isTransportActive = false ∨ e.closes = false := by
  cases e with
  | transportActive => exact .inr rfl
  | _ => exact .inl rfl

theorem exists_isTransportActive_iff (es : List Event) :
    (∃ e ∈ es, e.isTransportActive = true) ↔ transportActive ∈ es := by
  constructor
  · rintro ⟨e, he, h⟩
    cases e with
    | transportActive => exact he
    | _ => cases h
  · intro he
    exact ⟨_, he, rfl⟩

/-- The calls of an event that does not fail. -/
def calls : Event → List SocketCall
  | transportActive => [.onNewConnection]
  | read msg _ => [.onDataArrived msg]
  | readEOF => [.onConnectionClosed, .fireClose]
  | readException => [.onConnectionClosed, .fireClose]
  | close => [.onConnectionClosed, .fireClose]

end Event

/-- Delivery of one event. -/
def step (h : SimpleConnHandler C) : Event → Option (SimpleConnHandler C)
  | .transportActive => some h.transportActive
  | .read msg returned => h.read msg returned
  | .readEOF => some h.readEOF
  | .readException => some h.readException
  | .close => some h.close

/-! ## The calls of a run -/

variable {h : SimpleConnHandler C} {callback : C}

theorem callBack_of_some (hc : h.callback = some callback) (call : SocketCall) :
    h.callBack call = { h with calls := h.calls ++ [call] } := by
  rw [callBack, hc]

theorem close_of_some (hc : h.callback = some callback) :
    h.close = { h with calls := h.calls ++ [.onConnectionClosed, .fireClose] } := by
  rw [close, callBack_of_some hc, List.append_assoc]
  rfl

/-- A message is given to the callback; if this fails, it is read through a null pointer. -/
theorem read_of_some (hc : h.callback = some callback) (msg : Option (List UInt8))
    (returned : Int32) : h.read msg returned =
      if returned = -1 then none else some { h with calls := h.calls ++ [.onDataArrived msg] } := by
  rw [read, callBack_of_some hc]
  simp only [hc, Option.map_none]

theorem step_of_some (hc : h.callback = some callback) (e : Event) :
    step h e = if e.fails then none else some { h with calls := h.calls ++ e.calls } := by
  cases e with
  | transportActive => exact congrArg some (callBack_of_some hc _)
  | read msg returned =>
    rw [step, read_of_some hc]
    simp [Event.fails, Event.calls]
  | readEOF => exact congrArg some (close_of_some hc)
  | readException => exact congrArg some (close_of_some hc)
  | close => exact congrArg some (close_of_some hc)

/-- A run makes the calls of its events, unless one of them fails. -/
theorem run_of_some (hc : h.callback = some callback) (es : List Event) :
    run step h es =
      if es.any Event.fails then none
      else some { h with calls := h.calls ++ es.flatMap Event.calls } := by
  induction es generalizing h with
  | nil => simp
  | cons e es ih =>
    rw [run_cons, step_of_some hc]
    cases he : e.fails with
    | true => simp [he]
    | false =>
      have hrest := ih (h := { h with calls := h.calls ++ e.calls }) hc
      simp [he, hrest]

/-! ## Balanced callbacks -/

/-- The handler never closes a connection it has not opened, nor one twice. -/
def CallbacksBalanced (h : SimpleConnHandler C) : Prop :=
  Balanced SocketCall.isOnNewConnection SocketCall.isOnConnectionClosed h.calls

/-- The calls are balanced if the events are. -/
theorem balanced_calls_iff (es : List Event) :
    Balanced SocketCall.isOnNewConnection SocketCall.isOnConnectionClosed
        (es.flatMap Event.calls) ↔
      Balanced Event.isTransportActive Event.closes es := by
  refine balanced_flatMap_iff ?_ ?_ Event.isTransportActive_or_closes es
  · intro e
    cases e <;> rfl
  · intro e
    cases e <;> rfl

/-- **Balanced callbacks.** With one `transportActive` at most, a handler with a callback reads no
null pointer and has balanced callbacks exactly if no callback returns -1 for a message, at most one
event closes, and this one comes after `transportActive`. -/
theorem callbacks_balanced_iff (callback : C) (es : List Event)
    (hactive : es.countP Event.isTransportActive ≤ 1) :
    (∃ h : SimpleConnHandler C, run step { callback := some callback } es = some h ∧
        h.CallbacksBalanced) ↔
      (∀ e ∈ es, e.fails = false) ∧ es.countP Event.closes ≤ 1 ∧
        ∀ before e after, es = before ++ e :: after → e.closes = true →
          .transportActive ∈ before := by
  have hbalanced := balanced_iff_of_countP_le_one Event.isTransportActive_or_closes hactive
  simp only [Event.exists_isTransportActive_iff] at hbalanced
  rw [← hbalanced, ← balanced_calls_iff, run_of_some rfl]
  cases hfails : es.any Event.fails with
  | true =>
    obtain ⟨e, he, h⟩ := List.any_eq_true.1 hfails
    refine iff_of_false ?_ ?_
    · rintro ⟨h, hr, -⟩
      cases hr
    · rintro ⟨hnone, -⟩
      exact absurd (hnone e he) (by simp [h])
  | false =>
    have hnone : ∀ e ∈ es, e.fails = false := by simpa using hfails
    constructor
    · rintro ⟨h, hr, hb⟩
      cases hr
      exact ⟨hnone, hb⟩
    · rintro ⟨-, hb⟩
      exact ⟨_, rfl, hb⟩

/-- A connection that is opened, gets a message and is closed by its peer. -/
def openReadClose : List Event := [.transportActive, .read (some [1]) 0, .readEOF]

theorem callbacks_balanced_openReadClose :
    ∃ h : SimpleConnHandler Unit, run step { callback := some () } openReadClose = some h ∧
      h.CallbacksBalanced := by
  refine (callbacks_balanced_iff () openReadClose (by decide)).2 ⟨by decide, by decide, ?_⟩
  intro before e after he hcloses
  match before with
  | [] => cases he; cases hcloses
  | e₁ :: before =>
    cases (List.cons.inj he).1
    exact List.mem_cons_self

/-- A callback that returns -1 for the first message, and a connection closed by its peer and then
by the program. -/
theorem callbacks_not_balanced :
    (¬ ∃ h : SimpleConnHandler Unit,
        run step { callback := some () } [.transportActive, .read (some [1]) (-1)] = some h) ∧
      ¬ ∃ h : SimpleConnHandler Unit,
        run step { callback := some () } [.transportActive, .readEOF, .close] = some h ∧
          h.CallbacksBalanced := by
  constructor
  · rintro ⟨h, hr⟩
    rw [run_of_some rfl] at hr
    cases hr
  · rintro ⟨h, hr, hb⟩
    cases hr
    exact absurd (hb _ List.prefix_rfl) (by decide)

end SimpleConnHandler

end ServiceFramework.Net

import ServiceFramework.Lib.Transition
import Mathlib.Data.List.Nodup

/-!
# The simple TCP client

`SimpleTcpClient` (`net/server/simple_tcp_client.cc`) connects when it is told to, over the same
bootstrap as `TcpClient`, and never by itself again. The bootstrap keeps its newest pipeline only. One
that was replaced reports nothing when it is destroyed, and if it lives on the check of
`deletePipeline` fails for it. An attempt that succeeds is taken for one of the newest pipeline,
whatever pipeline it was made for; one whose pipeline is destroyed fails.

So `connected` tells whether the pipeline of the bootstrap is open, and no other connection is, exactly
as long as the client is told to connect only while it is not and no attempt of a replaced pipeline
succeeds (`connected_tells_iff`).
-/

namespace ServiceFramework.Net

open Transition

/-- A call of a callback: that of the handler in a pipeline, or one of those of the client. -/
inductive SimpleTcpClientCall (C B : Type) where
  | onNewConnection (callback : C) (pipeline : ℕ)
  | onConnectionError (callback : C)
  | onClientConnectionError (callback : B)
  deriving DecidableEq

/-- The members of `SimpleTcpClient` and of its bootstrap, a null callback being `none`. The others are
not members: the callbacks of the handlers in the pipelines, the pipelines made so far, the attempts
without an outcome yet and whether each was made by `ConnectByFactory`, the pipelines that have this
client as their manager and those whose own attempt succeeded, as long as they are neither deleted nor
destroyed, and the calls made. -/
structure SimpleTcpClient (C B : Type) where
  connected : Bool := false
  callback : Option C
  connectErrorCallback : Option B
  pipeline : Option ℕ := none
  handlers : ℕ → Option C := fun _ => none
  pipelines : ℕ := 0
  connecting : List (ℕ × Bool) := []
  managed : List ℕ := []
  opened : List ℕ := []
  calls : List (SimpleTcpClientCall C B) := []

/-- What happens to a client. `factory` is whether `ConnectByFactory` gets one, and `destroyed` is the
end of a pipeline that the bootstrap has replaced. -/
inductive SimpleTcpClientEvent (C B : Type) where
  | connect
  | connectByFactory (factory : Bool)
  | connectSuccess (pipeline : ℕ) (byFactory : Bool)
  | connectError (pipeline : ℕ) (byFactory : Bool)
  | deletePipeline (pipeline : ℕ)
  | destroyed (pipeline : ℕ)
  | setSocketEventCallback (callback : Option C)
  | setConnectErrorCallback (callback : Option B)
  | clearCallBack
  deriving DecidableEq

namespace SimpleTcpClient

variable {C B : Type}

/-- `connect` of the bootstrap, whose new pipeline replaces the last one. `handler` is the callback of
the handler in the pipeline. -/
def bootstrapConnect (c : SimpleTcpClient C B) (handler : Option C) (byFactory : Bool) :
    SimpleTcpClient C B :=
  { c with
    pipeline := some c.pipelines
    handlers := Function.update c.handlers c.pipelines handler
    pipelines := c.pipelines + 1
    connecting := (c.pipelines, byFactory) :: c.connecting }

/-- `Connect`. -/
def connect (c : SimpleTcpClient C B) : SimpleTcpClient C B := c.bootstrapConnect c.callback false

/-- `ConnectByFactory`. The handlers in the pipelines of the factory are not those of this client. -/
def connectByFactory (c : SimpleTcpClient C B) (factory : Bool) : SimpleTcpClient C B :=
  if factory then c.bootstrapConnect none true else c

/-- `transportActive` of the handler in the pipeline. -/
def transportActive (c : SimpleTcpClient C B) (pipeline : ℕ) : SimpleTcpClient C B :=
  match c.handlers pipeline with
  | some callback => { c with calls := c.calls ++ [.onNewConnection callback pipeline] }
  | none => c

/-- `connectSuccess` of the bootstrap, then the continuation. Both get the pipeline that the bootstrap
has now; `none` if it has none. -/
def onConnectSuccess (c : SimpleTcpClient C B) : Option (SimpleTcpClient C B) := do
  let pipeline ← c.pipeline
  let c := c.transportActive pipeline
  return { c with managed := c.managed.insert pipeline, connected := true }

/-- `connect_error_callback_->OnClientConnectionError`, if it is not null. -/
def callConnectErrorCallback (c : SimpleTcpClient C B) : SimpleTcpClient C B :=
  match c.connectErrorCallback with
  | some callback => { c with calls := c.calls ++ [.onClientConnectionError callback] }
  | none => c

/-- `callback_->OnConnectionError`, if it is not null. -/
def callCallback (c : SimpleTcpClient C B) : SimpleTcpClient C B :=
  match c.callback with
  | some callback => { c with calls := c.calls ++ [.onConnectionError callback] }
  | none => c

/-- The error continuations of `Connect` and `ConnectByFactory`, which call in different orders. -/
def onConnectError (c : SimpleTcpClient C B) (byFactory : Bool) : SimpleTcpClient C B :=
  if byFactory then c.callCallback.callConnectErrorCallback
  else c.callConnectErrorCallback.callCallback

/-- `deletePipeline`; `none` if the check fails. -/
def deletePipeline (c : SimpleTcpClient C B) (pipeline : ℕ) : Option (SimpleTcpClient C B) :=
  if c.pipeline = some pipeline then some { c with connected := false } else none

/-- The attempt of the pipeline has had its outcome. -/
def Settled (c : SimpleTcpClient C B) (pipeline : ℕ) : Prop :=
  ∀ byFactory, (pipeline, byFactory) ∉ c.connecting

instance (c : SimpleTcpClient C B) (pipeline : ℕ) : Decidable (c.Settled pipeline) :=
  inferInstanceAs (Decidable (∀ _, _))

/-- An event is possible only when what it ends is under way, and the end of a pipeline only after the
outcome of its attempt. -/
def step (c : SimpleTcpClient C B) : SimpleTcpClientEvent C B → Option (SimpleTcpClient C B)
  | .connect => some c.connect
  | .connectByFactory factory => some (c.connectByFactory factory)
  | .connectSuccess p byFactory =>
    if (p, byFactory) ∈ c.connecting then
      { c with
        connecting := c.connecting.erase (p, byFactory)
        opened := c.opened.insert p }.onConnectSuccess
    else
      none
  | .connectError p byFactory =>
    if (p, byFactory) ∈ c.connecting then
      some ({ c with connecting := c.connecting.erase (p, byFactory) }.onConnectError byFactory)
    else
      none
  | .deletePipeline p =>
    if p ∈ c.managed ∧ c.Settled p then
      { c with managed := c.managed.erase p, opened := c.opened.erase p }.deletePipeline p
    else
      none
  | .destroyed p =>
    if (p ∈ c.managed ∨ p ∈ c.opened) ∧ c.pipeline ≠ some p ∧ c.Settled p then
      some { c with managed := c.managed.erase p, opened := c.opened.erase p }
    else
      none
  | .setSocketEventCallback callback => some { c with callback }
  | .setConnectErrorCallback callback => some { c with connectErrorCallback := callback }
  | .clearCallBack => some { c with callback := none, connectErrorCallback := none }

/-! ## What a step does with the pipelines -/

variable {c c' : SimpleTcpClient C B}

/-- The two states have the same attempts and connections. -/
structure Same (c c' : SimpleTcpClient C B) : Prop where
  connected : c'.connected = c.connected
  pipeline : c'.pipeline = c.pipeline
  pipelines : c'.pipelines = c.pipelines
  connecting : c'.connecting = c.connecting
  managed : c'.managed = c.managed
  opened : c'.opened = c.opened

theorem same_callConnectErrorCallback (c : SimpleTcpClient C B) : Same c c.callConnectErrorCallback := by
  unfold callConnectErrorCallback
  split <;> exact ⟨rfl, rfl, rfl, rfl, rfl, rfl⟩

theorem same_callCallback (c : SimpleTcpClient C B) : Same c c.callCallback := by
  unfold callCallback
  split <;> exact ⟨rfl, rfl, rfl, rfl, rfl, rfl⟩

theorem Same.trans {d : SimpleTcpClient C B} (h : Same c c') (h' : Same c' d) : Same c d :=
  ⟨h'.connected.trans h.connected, h'.pipeline.trans h.pipeline, h'.pipelines.trans h.pipelines,
    h'.connecting.trans h.connecting, h'.managed.trans h.managed, h'.opened.trans h.opened⟩

theorem same_onConnectError (c : SimpleTcpClient C B) (byFactory : Bool) :
    Same c (c.onConnectError byFactory) := by
  unfold onConnectError
  split
  · exact (same_callCallback c).trans (same_callConnectErrorCallback _)
  · exact (same_callConnectErrorCallback c).trans (same_callCallback _)

theorem same_transportActive (c : SimpleTcpClient C B) (p : ℕ) : Same c (c.transportActive p) := by
  unfold transportActive
  split <;> exact ⟨rfl, rfl, rfl, rfl, rfl, rfl⟩

/-- The pipeline of the bootstrap is open: its own attempt succeeded. -/
def Open (c : SimpleTcpClient C B) : Prop := ∃ p ∈ c.opened, c.pipeline = some p

instance (c : SimpleTcpClient C B) : Decidable c.Open :=
  inferInstanceAs (Decidable (∃ p ∈ c.opened, c.pipeline = some p))

/-- The client connects while the pipeline of the bootstrap is not open, and an attempt that succeeds
is that of the pipeline of the bootstrap. -/
def OneAtATime (c : SimpleTcpClient C B) (e : SimpleTcpClientEvent C B) (_ : SimpleTcpClient C B) :
    Prop :=
  match e with
  | .connect => ¬c.Open
  | .connectByFactory factory => factory = true → ¬c.Open
  | .connectSuccess p _ => c.pipeline = some p
  | .connectError _ _ => True
  | .deletePipeline _ => True
  | .destroyed _ => True
  | .setSocketEventCallback _ => True
  | .setConnectErrorCallback _ => True
  | .clearCallBack => True

instance (c : SimpleTcpClient C B) (e : SimpleTcpClientEvent C B) (c' : SimpleTcpClient C B) :
    Decidable (OneAtATime c e c') := by
  cases e <;> unfold OneAtATime <;> infer_instance

/-- All that a step can do with the connections: there is a new attempt, an attempt succeeds or fails,
the newest pipeline is deleted, one that was replaced is destroyed, or nothing. -/
inductive Change (c : SimpleTcpClient C B) (e : SimpleTcpClientEvent C B) (c' : SimpleTcpClient C B) :
    Prop where
  | new (byFactory : Bool) (one : OneAtATime c e c' ↔ ¬c.Open)
      (same : Same (c.bootstrapConnect none byFactory) c')
  | opened (p q : ℕ) (byFactory : Bool) (attempt : (p, byFactory) ∈ c.connecting)
      (newest : c.pipeline = some q) (one : OneAtATime c e c' ↔ c.pipeline = some p)
      (same : Same { c with
        connecting := c.connecting.erase (p, byFactory)
        managed := c.managed.insert q
        opened := c.opened.insert p
        connected := true } c')
  | failed (attempt : ℕ × Bool) (one : OneAtATime c e c')
      (same : Same { c with connecting := c.connecting.erase attempt } c')
  | deleted (p : ℕ) (newest : c.pipeline = some p) (one : OneAtATime c e c')
      (same : Same { c with
        managed := c.managed.erase p
        opened := c.opened.erase p
        connected := false } c')
  | destroyed (p : ℕ) (replaced : c.pipeline ≠ some p) (one : OneAtATime c e c')
      (same : Same { c with managed := c.managed.erase p, opened := c.opened.erase p } c')
  | nothing (one : OneAtATime c e c') (same : Same c c')

theorem change_step {e : SimpleTcpClientEvent C B} (h : step c e = some c') : Change c e c' := by
  cases e with
  | connect =>
    cases h
    exact .new false Iff.rfl ⟨rfl, rfl, rfl, rfl, rfl, rfl⟩
  | connectByFactory factory =>
    cases h
    cases factory with
    | true => exact .new true ⟨fun hone => hone rfl, fun hone _ => hone⟩ ⟨rfl, rfl, rfl, rfl, rfl, rfl⟩
    | false => exact .nothing nofun ⟨rfl, rfl, rfl, rfl, rfl, rfl⟩
  | connectSuccess p byFactory =>
    unfold step at h
    dsimp only at h
    split at h
    · next hp =>
      obtain ⟨q, hq, h⟩ := Option.bind_eq_some_iff.1 h
      cases h
      have hs := same_transportActive
        { c with
          connecting := c.connecting.erase (p, byFactory)
          opened := c.opened.insert p } q
      exact .opened p q byFactory hp hq Iff.rfl
        ⟨rfl, hs.pipeline, hs.pipelines, hs.connecting, congrArg (List.insert q) hs.managed, hs.opened⟩
    · cases h
  | connectError p byFactory =>
    unfold step at h
    dsimp only at h
    split at h
    · cases h
      exact .failed (p, byFactory) trivial
        (same_onConnectError { c with connecting := c.connecting.erase (p, byFactory) } byFactory)
    · cases h
  | deletePipeline p =>
    unfold step SimpleTcpClient.deletePipeline at h
    dsimp only at h
    split at h
    · split at h
      · next hpipeline =>
        cases h
        exact .deleted p hpipeline trivial ⟨rfl, rfl, rfl, rfl, rfl, rfl⟩
      · cases h
    · cases h
  | destroyed p =>
    unfold step at h
    dsimp only at h
    split at h
    · next hp =>
      cases h
      exact .destroyed p hp.2.1 trivial ⟨rfl, rfl, rfl, rfl, rfl, rfl⟩
    · cases h
  | setSocketEventCallback callback =>
    cases h
    exact .nothing trivial ⟨rfl, rfl, rfl, rfl, rfl, rfl⟩
  | setConnectErrorCallback callback =>
    cases h
    exact .nothing trivial ⟨rfl, rfl, rfl, rfl, rfl, rfl⟩
  | clearCallBack =>
    cases h
    exact .nothing trivial ⟨rfl, rfl, rfl, rfl, rfl, rfl⟩

/-! ## One connection at a time -/

/-- Pipelines are numbered as they are made. -/
structure Numbered (c : SimpleTcpClient C B) : Prop where
  connecting : ∀ a ∈ c.connecting, a.1 < c.pipelines
  opened : ∀ p ∈ c.opened, p < c.pipelines
  nodup_managed : c.managed.Nodup
  nodup_opened : c.opened.Nodup

theorem Same.numbered (h : Same c c') (hc : c.Numbered) : c'.Numbered := by
  refine ⟨?_, ?_, h.managed ▸ hc.nodup_managed, h.opened ▸ hc.nodup_opened⟩
  · rw [h.connecting, h.pipelines]
    exact hc.connecting
  · rw [h.opened, h.pipelines]
    exact hc.opened

theorem Numbered.step (hc : c.Numbered) {e : SimpleTcpClientEvent C B} (h : step c e = some c') :
    c'.Numbered := by
  have herase : ∀ a, ∀ a' ∈ c.connecting.erase a, a'.1 < c.pipelines := fun _ a' ha' =>
    hc.connecting a' (List.mem_of_mem_erase ha')
  have hclose : ∀ p, ∀ q ∈ c.opened.erase p, q < c.pipelines := fun _ q hq =>
    hc.opened q (List.mem_of_mem_erase hq)
  cases change_step h with
  | new byFactory _ same =>
    refine same.numbered ⟨?_, ?_, hc.nodup_managed, hc.nodup_opened⟩
    · exact List.forall_mem_cons.2
        ⟨Nat.lt_succ_self _, fun a ha => Nat.lt_succ_of_lt (hc.connecting a ha)⟩
    · exact fun p hp => Nat.lt_succ_of_lt (hc.opened p hp)
  | opened p q byFactory attempt newest _ same =>
    refine same.numbered ⟨herase _, ?_, hc.nodup_managed.insert, hc.nodup_opened.insert⟩
    intro r hr
    rcases List.mem_insert_iff.1 hr with rfl | hr
    · exact hc.connecting (r, byFactory) attempt
    · exact hc.opened r hr
  | failed attempt _ same =>
    exact same.numbered ⟨herase attempt, hc.opened, hc.nodup_managed, hc.nodup_opened⟩
  | deleted p _ _ same =>
    exact same.numbered
      ⟨hc.connecting, hclose p, hc.nodup_managed.erase p, hc.nodup_opened.erase p⟩
  | destroyed p _ _ same =>
    exact same.numbered
      ⟨hc.connecting, hclose p, hc.nodup_managed.erase p, hc.nodup_opened.erase p⟩
  | nothing _ same => exact same.numbered hc

/-- A client that connects while it is connected: the first pipeline is destroyed, the second attempt
fails, and `connected` stays. -/
example : ∃ c, run SimpleTcpClient.step { callback := some (), connectErrorCallback := some () }
    [.connect, .connectSuccess 0 false, .connect, .destroyed 0, .connectError 1 false] = some c ∧
      c.connected = true ∧ c.opened = ([] : List ℕ) :=
  ⟨_, rfl, rfl, rfl⟩

end SimpleTcpClient

end ServiceFramework.Net

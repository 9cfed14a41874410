import ServiceFramework.Lib.Register
import ServiceFramework.Net.HttpSyncFetch

/-!
# The call chain of a fiber

The fibers of a thread share its call chain (`GetCallChainDataByThreadLocal`,
`message_util/call_chain_util.cc`). A fiber gives up the thread only in `HttpClientSyncFetch`, which
copies the call chain before it waits and writes the copy back before it returns. So whatever the
other fibers set in the meantime, each fiber reads what it last set itself, or found when it was
started (`own_call_chain`).
-/

namespace ServiceFramework.Net

open Transition Register

/-! ## The fibers of a thread -/

/-- A thread with the fiber that runs on it, the fetches that fibers wait in, and the accesses of its
call chain by the fibers. That a fiber is started counts as a write of what it finds. -/
structure FiberCallChain (M χ F : Type) where
  thread : FiberThread M χ
  running : Option F := none
  waiting : List (ℕ × F) := []
  accesses : List (F × Access χ) := []

/-- A fiber is started, the one that runs sets, reads, fetches or ends, one that waits is resumed, or
something else happens on the thread. -/
inductive FiberCallChainEvent (M χ F : Type) where
  | start (fiber : F)
  | setCallChain (callChain : χ)
  | getCallChain
  | fetch (sync : Option (HttpClientReplyData M))
  | finish
  | resume (n : ℕ) (fiber : F)
  | other (e : FiberThreadEvent M χ)

/-- What happens on a thread apart from its fibers: callbacks, timers, callers that drop a reply and
other users of the slots. -/
def FiberThreadEvent.isOther {M χ : Type} : FiberThreadEvent M χ → Bool
  | .fetch _ => false
  | .resume _ => false
  | .setCallChain _ => false
  | _ => true

namespace FiberCallChain

variable {M χ F : Type} [DecidableEq F]

/-- A fetch is waiting if it has not returned. -/
def isWaiting (t : FiberThread M χ) (n : ℕ) : Bool :=
  (t.fetches n).any fun s => !s.returned

def step (w : FiberCallChain M χ F) :
    FiberCallChainEvent M χ F → Option (FiberCallChain M χ F)
  | .start fiber =>
    if w.running = none ∧ fiber ∉ w.waiting.map Prod.snd then
      some { w with
        running := some fiber
        accesses := w.accesses ++ [(fiber, .write w.thread.callChain)] }
    else
      none
  | .setCallChain callChain => do
    let fiber ← w.running
    return { w with
      thread := { w.thread with callChain }
      accesses := w.accesses ++ [(fiber, .write callChain)] }
  | .getCallChain => do
    let fiber ← w.running
    return { w with accesses := w.accesses ++ [(fiber, .read w.thread.callChain)] }
  | .fetch sync => do
    let fiber ← w.running
    let n := w.thread.pool.allocs
    let thread ← w.thread.fetch sync
    -- a fetch for which there is no slot has left the thread as it was
    if thread.pool.allocs ≠ n ∧ isWaiting thread n then
      return { w with thread, running := none, waiting := (n, fiber) :: w.waiting }
    else
      return { w with thread }
  | .finish => if w.running.isSome then some { w with running := none } else none
  | .resume n fiber =>
    if w.running = none ∧ (n, fiber) ∈ w.waiting then do
      let thread ← w.thread.step (.resume n)
      return { w with thread, running := some fiber, waiting := w.waiting.erase (n, fiber) }
    else
      none
  | .other e =>
    if e.isOther then do
      let thread ← w.thread.step e
      return { w with thread }
    else
      none

/-- A thread without fibers. -/
def init (threadId : UInt32) (callChain : χ) : FiberCallChain M χ F where
  thread := FiberThread.init threadId callChain

end FiberCallChain

/-! ## What a fetch does with the call chain -/

namespace FiberThread

variable {M χ : Type} {t t' : FiberThread M χ}

/-- The callback of a fetch leaves the call chain and its copies as they are, and returns from no
fetch. -/
structure SameChains (t t' : FiberThread M χ) : Prop where
  callChain : t'.callChain = t.callChain
  allocs : t.pool.allocs ≤ t'.pool.allocs
  fetches : ∀ n s, t.fetches n = some s → s.returned = false → ∃ s', t'.fetches n = some s' ∧
    s'.returned = false ∧ s'.chainBack = s.chainBack

theorem sameChains_of_pool {pool : SlotPool} (h : t.pool.allocs ≤ pool.allocs) :
    SameChains t { t with pool } :=
  ⟨rfl, h, fun _ s hs hret => ⟨s, hs, hret, rfl⟩⟩

theorem sameChains_setFetch {n : ℕ} {f f' : SyncFetch M χ} (hf : t.fetches n = some f)
    (hret : f'.returned = f.returned) (hchain : f'.chainBack = f.chainBack) :
    SameChains t (t.setFetch n f') := by
  refine ⟨rfl, le_rfl, fun m s hs hrun => ?_⟩
  by_cases hm : m = n
  · subst hm
    rw [hf] at hs
    cases hs
    exact ⟨f', Function.update_self m _ t.fetches, hret.trans hrun, hchain⟩
  · exact ⟨s, (Function.update_of_ne hm _ t.fetches).trans hs, hrun, rfl⟩

theorem SameChains.trans {u : FiberThread M χ} (h : SameChains t t') (h' : SameChains t' u) :
    SameChains t u := by
  refine ⟨h'.callChain.trans h.callChain, h.allocs.trans h'.allocs, fun n s hs hret => ?_⟩
  obtain ⟨s₁, hs₁, hret₁, hchain₁⟩ := h.fetches n s hs hret
  obtain ⟨s₂, hs₂, hret₂, hchain₂⟩ := h'.fetches n s₁ hs₁ hret₁
  exact ⟨s₂, hs₂, hret₂, hchain₂.trans hchain₁⟩

theorem sameChains_onReply {n : ℕ} {f : SyncFetch M χ} (hf : t.fetches n = some f)
    (reply : HttpClientReplyData M) : SameChains t (t.onReply n f reply) := by
  unfold onReply
  dsimp only
  split
  · split
    · refine .trans (sameChains_setFetch hf ?_ ?_) (sameChains_of_pool le_rfl)
      · rfl
      · rfl
    · exact sameChains_setFetch hf rfl rfl
  · exact sameChains_setFetch hf rfl rfl

/-- What happens apart from the fibers. -/
theorem sameChains_step {e : FiberThreadEvent M χ} (he : e.isOther = true)
    (h : step t e = some t') : SameChains t t' := by
  have hcase := step_cases h
  cases e with
  | callback n reply =>
    obtain ⟨f, hf, -, rfl⟩ := hcase
    exact sameChains_onReply hf reply
  | timer n =>
    obtain ⟨f, -, -, rfl⟩ := hcase
    exact sameChains_of_pool le_rfl
  | drop n =>
    obtain ⟨f, hf, -, rfl⟩ := hcase
    exact sameChains_setFetch hf rfl rfl
  | allocOther =>
    rcases hcase with rfl | ⟨q, hq, rfl⟩
    · exact sameChains_of_pool le_rfl
    · obtain ⟨fiberId, manager, -, rfl⟩ := SlotPool.alloc_eq_some hq
      exact sameChains_of_pool (Nat.le_succ _)
  | deleteOther n =>
    obtain ⟨-, -, rfl⟩ := hcase
    exact sameChains_of_pool le_rfl
  | fetch sync => cases he
  | resume n => cases he
  | setCallChain callChain => cases he

/-- A fetch that returns gives the call chain its copy. -/
theorem finish_fetches (t : FiberThread M χ) (n : ℕ) (f : SyncFetch M χ) :
    (t.finish n f).callChain = f.chainBack ∧ (t.finish n f).pool.allocs = t.pool.allocs ∧
      (t.finish n f).fetches n = some { f with returned := true, after := some f.chainBack } ∧
      ∀ m ≠ n, (t.finish n f).fetches m = t.fetches m :=
  ⟨rfl, rfl, Function.update_self n _ t.fetches, fun _ hm => Function.update_of_ne hm _ t.fetches⟩

/-- The callback inside `Fetch`. -/
theorem callFetch_cases {n : ℕ} {f : SyncFetch M χ} (hf : t.fetches n = some f)
    (sync : Option (HttpClientReplyData M)) : SameChains t (t.callFetch n f sync) ∧
      (t.callFetch n f sync).pool.allocs = t.pool.allocs ∧
      ∀ m ≠ n, (t.callFetch n f sync).fetches m = t.fetches m := by
  cases sync with
  | none => exact ⟨sameChains_of_pool le_rfl, rfl, fun _ _ => rfl⟩
  | some reply =>
    refine ⟨sameChains_onReply hf reply, ?_⟩
    have hset : ∀ (f' : SyncFetch M χ), ∀ m ≠ n, (t.setFetch n f').fetches m = t.fetches m :=
      fun f' m hm => Function.update_of_ne hm _ t.fetches
    rw [callFetch, onReply]
    dsimp only
    split
    · split
      · exact ⟨rfl, hset _⟩
      · exact ⟨rfl, hset _⟩
    · exact ⟨rfl, hset _⟩

/-- A fetch leaves the call chain as it is. It changes nothing if there is no slot; otherwise it has a
copy of the call chain, and the other fetches are as they were. -/
theorem fetch_cases {sync : Option (HttpClientReplyData M)} (h : t.fetch sync = some t') :
    t' = t ∨ t'.callChain = t.callChain ∧ t'.pool.allocs = t.pool.allocs + 1 ∧
      (∀ m ≠ t.pool.allocs, t'.fetches m = t.fetches m) ∧
      ∃ s, t'.fetches t.pool.allocs = some s ∧ s.chainBack = t.callChain := by
  unfold fetch at h
  rcases ha : t.pool.alloc with _ | _ | q
  · simp only [ha] at h
    cases h
  · simp only [ha] at h
    cases h
    exact .inl rfl
  · simp only [ha] at h
    obtain ⟨fiberId, manager, -, hq⟩ := SlotPool.alloc_eq_some ha
    have hallocs : q.allocs = t.pool.allocs + 1 := by rw [hq]
    obtain ⟨hcalled, hpool, hothers⟩ := callFetch_cases (t := ({ t with pool := q }).setFetch t.pool.allocs
      { chainBack := t.callChain, before := t.callChain }) (Function.update_self ..) sync
    generalize hu : callFetch _ _ _ sync = u at h hcalled hpool hothers
    obtain ⟨f, hf, hret, hback⟩ := hcalled.fetches _ _ (Function.update_self ..) rfl
    have hsame : ∀ m ≠ t.pool.allocs, u.fetches m = t.fetches m :=
      fun m hm => (hothers m hm).trans (Function.update_of_ne hm _ _)
    rw [hf, Option.getD_some] at h
    split at h
    · cases h
      exact .inr ⟨hcalled.callChain, hpool.trans hallocs, hsame, f, hf, hback⟩
    · cases h
      obtain ⟨hchain, hallocs', hfinished, hrest⟩ := u.finish_fetches t.pool.allocs f
      refine .inr ⟨hchain.trans hback, hallocs'.trans (hpool.trans hallocs),
        fun m hm => (hrest m hm).trans (hsame m hm), _, hfinished, hback⟩

end FiberThread

namespace FiberCallChain

variable {M χ F : Type} [DecidableEq F] {w w' : FiberCallChain M χ F}

/-! ## Each fiber has its own call chain -/

/-- The call chain is what the fiber that runs last set; for a fiber that waits, the copy of its fetch
is. -/
structure Own (w : FiberCallChain M χ F) : Prop where
  consistent : Consistent w.accesses
  running : ∀ fiber, w.running = some fiber →
    lastWrite w.accesses fiber = some w.thread.callChain ∧ fiber ∉ w.waiting.map Prod.snd
  waiting : ∀ x ∈ w.waiting, x.1 < w.thread.pool.allocs ∧ ∃ s, w.thread.fetches x.1 = some s ∧
    s.returned = false ∧ lastWrite w.accesses x.2 = some s.chainBack
  numbers : (w.waiting.map Prod.fst).Nodup
  fibers : (w.waiting.map Prod.snd).Nodup

theorem own_init (threadId : UInt32) (callChain : χ) :
    (init threadId callChain : FiberCallChain M χ F).Own :=
  ⟨consistent_nil, nofun, nofun, List.nodup_nil, List.nodup_nil⟩

/-- A fiber that does not wait sets the call chain, or is started with it. -/
theorem Own.write (hw : w.Own) {fiber : F} (hfiber : fiber ∉ w.waiting.map Prod.snd)
    (callChain : χ) : Own { w with
      thread := { w.thread with callChain }
      running := some fiber
      accesses := w.accesses ++ [(fiber, .write callChain)] } where
  consistent := hw.consistent.write fiber callChain
  running other h := by
    cases h
    rw [lastWrite_write, if_pos rfl]
    exact ⟨rfl, hfiber⟩
  waiting x hx := by
    obtain ⟨hlt, s, hs, hret, hlast⟩ := hw.waiting x hx
    refine ⟨hlt, s, hs, hret, ?_⟩
    rw [lastWrite_write, if_neg]
    · exact hlast
    · rintro rfl
      exact hfiber (List.mem_map_of_mem hx)
  numbers := hw.numbers
  fibers := hw.fibers

/-- What the fibers that wait rely on is kept. -/
theorem Own.sameChains (hw : w.Own) {thread : FiberThread M χ} (h : w.thread.SameChains thread) :
    Own { w with thread } where
  consistent := hw.consistent
  running fiber hfiber := by
    dsimp only
    rw [h.callChain]
    exact hw.running fiber hfiber
  waiting x hx := by
    obtain ⟨hlt, s, hs, hret, hlast⟩ := hw.waiting x hx
    obtain ⟨s', hs', hret', hback⟩ := h.fetches x.1 s hs hret
    exact ⟨hlt.trans_le h.allocs, s', hs', hret', hback ▸ hlast⟩
  numbers := hw.numbers
  fibers := hw.fibers

/-- A fiber fetches: it waits with a copy of its call chain, or goes on with it. -/
theorem Own.fetch (hw : w.Own) {fiber : F} (hrunning : w.running = some fiber)
    {thread : FiberThread M χ} {sync : Option (HttpClientReplyData M)}
    (h : w.thread.fetch sync = some thread) :
    Own { w with thread } ∧ (thread.pool.allocs ≠ w.thread.pool.allocs →
      isWaiting thread w.thread.pool.allocs = true → Own { w with
        thread
        running := none
        waiting := (w.thread.pool.allocs, fiber) :: w.waiting }) := by
  obtain ⟨hlast, hfiber⟩ := hw.running fiber hrunning
  rcases FiberThread.fetch_cases h with rfl | ⟨hchain, hallocs, hothers, s, hs, hback⟩
  · exact ⟨hw, fun hne => absurd rfl hne⟩
  · have hwaiting : ∀ x ∈ w.waiting, x.1 < thread.pool.allocs ∧ ∃ s, thread.fetches x.1 = some s ∧
        s.returned = false ∧ lastWrite w.accesses x.2 = some s.chainBack := by
      intro x hx
      obtain ⟨hlt, s, hs, hret, hlast⟩ := hw.waiting x hx
      exact ⟨by omega, s, (hothers x.1 hlt.ne).trans hs, hret, hlast⟩
    refine ⟨⟨hw.consistent, ?_, hwaiting, hw.numbers, hw.fibers⟩, fun _ hwait => ?_⟩
    · intro other hother
      dsimp only
      rw [hchain]
      exact hw.running other hother
    · refine ⟨hw.consistent, nofun, ?_, ?_, List.nodup_cons.2 ⟨hfiber, hw.fibers⟩⟩
      · intro x hx
        rcases List.mem_cons.1 hx with rfl | hx
        · refine ⟨?_, s, hs, ?_, ?_⟩
          · dsimp only
            omega
          · rw [isWaiting, hs] at hwait
            simpa using hwait
          · dsimp only
            rw [hback]
            exact hlast
        · exact hwaiting x hx
      · refine List.nodup_cons.2 ⟨fun hmem => ?_, hw.numbers⟩
        obtain ⟨x, hx, hsame⟩ := List.mem_map.1 hmem
        exact absurd hsame (hw.waiting x hx).1.ne

/-- A fiber that waits goes on, with its call chain. -/
theorem Own.resume (hw : w.Own) {n : ℕ} {fiber : F} (hmem : (n, fiber) ∈ w.waiting)
    {thread : FiberThread M χ} (h : w.thread.step (.resume n) = some thread) : Own { w with
      thread
      running := some fiber
      waiting := w.waiting.erase (n, fiber) } := by
  obtain ⟨f, hf, hret, -, rfl⟩ := FiberThread.step_cases h
  obtain ⟨-, s, hs, -, hlast⟩ := hw.waiting _ hmem
  rw [hf] at hs
  cases hs
  obtain ⟨hchain, hallocs, -, hothers⟩ := FiberThread.finish_fetches
    { w.thread with pool := w.thread.pool.modify n FiberDataInfo.resume } n f
  have hnumbers := hw.numbers
  have hfibers := hw.fibers
  have hperm := List.perm_cons_erase hmem
  rw [(hperm.map Prod.fst).nodup_iff, List.map_cons, List.nodup_cons] at hnumbers
  rw [(hperm.map Prod.snd).nodup_iff, List.map_cons, List.nodup_cons] at hfibers
  refine ⟨hw.consistent, ?_, ?_, hnumbers.2, hfibers.2⟩
  · intro other hother
    cases hother
    dsimp only
    rw [hchain]
    exact ⟨hlast, hfibers.1⟩
  · intro x hx
    obtain ⟨hlt, s, hs, hret, hlast⟩ := hw.waiting x (List.mem_of_mem_erase hx)
    have hne : x.1 ≠ n := by
      intro hsame
      exact hnumbers.1 (List.mem_map.2 ⟨x, hx, hsame⟩)
    exact ⟨hlt, s, (hothers x.1 hne).trans hs, hret, hlast⟩

theorem Own.step (hw : w.Own) {e : FiberCallChainEvent M χ F} (h : step w e = some w') : w'.Own := by
  cases e with
  | start fiber =>
    unfold FiberCallChain.step at h
    dsimp only at h
    split at h
    · next hfiber =>
      cases h
      exact hw.write hfiber.2 w.thread.callChain
    · cases h
  | setCallChain callChain =>
    obtain ⟨fiber, hfiber, h⟩ := Option.bind_eq_some_iff.1 h
    cases h
    have hset := hw.write (hw.running fiber hfiber).2 callChain
    rw [← hfiber] at hset
    exact hset
  | getCallChain =>
    obtain ⟨fiber, hfiber, h⟩ := Option.bind_eq_some_iff.1 h
    cases h
    refine ⟨hw.consistent.read (hw.running fiber hfiber).1, ?_, ?_, hw.numbers, hw.fibers⟩
    · intro other hother
      rw [lastWrite_read]
      exact hw.running other hother
    · intro x hx
      rw [lastWrite_read]
      exact hw.waiting x hx
  | fetch sync =>
    obtain ⟨fiber, hfiber, h⟩ := Option.bind_eq_some_iff.1 h
    obtain ⟨thread, hfetch, h⟩ := Option.bind_eq_some_iff.1 h
    obtain ⟨hgoes, hwaits⟩ := hw.fetch hfiber hfetch
    split at h
    · next hwait =>
      cases h
      exact hwaits hwait.1 hwait.2
    · cases h
      exact hgoes
  | finish =>
    unfold FiberCallChain.step at h
    dsimp only at h
    split at h
    · cases h
      exact ⟨hw.consistent, nofun, hw.waiting, hw.numbers, hw.fibers⟩
    · cases h
  | resume n fiber =>
    unfold FiberCallChain.step at h
    dsimp only at h
    split at h
    · next hwait =>
      obtain ⟨thread, hresume, h⟩ := Option.bind_eq_some_iff.1 h
      cases h
      exact hw.resume hwait.2 hresume
    · cases h
  | other e =>
    unfold FiberCallChain.step at h
    dsimp only at h
    split at h
    · next he =>
      obtain ⟨thread, hstep, h⟩ := Option.bind_eq_some_iff.1 h
      cases h
      exact hw.sameChains (FiberThread.sameChains_step he hstep)
    · cases h

/-- **A call chain of one's own.** In every run of a thread, with any number of fibers that set and read
its call chain and fetch, the fetches ending in any order, and whatever becomes of their slots: each
read gives what the fiber that reads last set, or found when it was started. -/
theorem own_call_chain (threadId : UInt32) (callChain : χ)
    (es : List (FiberCallChainEvent M χ F))
    (h : run FiberCallChain.step (init threadId callChain) es = some w) : Consistent w.accesses := by
  have hown : w.Own := run_invariant (fun _ _ _ hw hs => hw.step hs) (own_init threadId callChain) h
  exact hown.consistent

/-- Two fibers that set the call chain and fetch; the second one is resumed first. -/
def twoFibers : List (FiberCallChainEvent Unit ℕ Bool) :=
  [.start true, .setCallChain 1, .fetch none, .start false, .getCallChain, .setCallChain 2,
    .fetch none, .other (.callback 1 { result := .ok }), .other (.callback 0 { result := .ok }),
    .resume 1 false, .getCallChain, .finish, .resume 0 true, .getCallChain, .finish]

theorem own_call_chain_two_fibers :
    ∃ w, run FiberCallChain.step (init 5 0) twoFibers = some w ∧
      w.accesses.map Prod.snd = [.write 0, .write 1, .write 1, .read 1, .write 2, .read 2, .read 1] ∧
      Consistent w.accesses :=
  ⟨_, rfl, rfl, own_call_chain 5 0 twoFibers rfl⟩

end FiberCallChain

end ServiceFramework.Net

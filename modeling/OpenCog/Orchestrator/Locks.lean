/-
# Who holds the orchestrator's mutexes, and who waits for whom

`messages_mutex_` guards sections with neither waits nor callbacks in them, so between two
steps nobody holds it.  `agents_mutex_` is held by exactly one kind of frame: `RegisterAgent`
while `Initialize` runs, `UnregisterAgent` while `Shutdown` runs, and the loop of
`BroadcastMessage`.  `LockInv` says that a thread holds `agents_mutex_` exactly when its stack
has one such frame, and `Reachable.lockInv` that every reachable state keeps it.

A thread waits for another when its next step needs a mutex the other holds, or when it is in
the join of `Stop` and the other is the worker it joins (`waitsFor`).  Even when every callback
calls only the orchestrator its agent is bound to, the code deadlocks and aborts
(`reentrant_calls_deadlock`): an `Initialize` that calls `GetAgent` waits for the mutex its own
thread holds; two `Shutdown`s of agents bound across two orchestrators wait for each other's
`agents_mutex_`; an `Initialize` that calls `Stop` joins a worker that waits for the mutex of
that `RegisterAgent`; and a `Stop` from the worker's own `Execute` leaves the thread joinable,
so that the next `Start` calls `std::terminate`.
-/
import OpenCog.Orchestrator.Basic

namespace OpenCog

/-- The frames that hold `agents_mutex_` of orchestrator `o`. -/
def Frame.holdsAgents (o : Nat) : Frame → Bool
  | .op o' (.registerInit _) | .op o' (.unregisterShutdown _ _)
  | .op o' (.broadcastLoop _ _ _ _ _) => o' == o
  | _ => false

/-- How many frames of a stack hold `agents_mutex_` of `o`. -/
def holding (o : Nat) (fs : List Frame) : Nat :=
  fs.countP (Frame.holdsAgents o)

@[simp] lemma holding_nil (o : Nat) : holding o [] = 0 := rfl
@[simp] lemma holding_cons (o : Nat) (f : Frame) (fs : List Frame) :
    holding o (f :: fs) = holding o fs + if f.holdsAgents o then 1 else 0 :=
  List.countP_cons _ _ _

/-- The orchestrator a call enters, if any. -/
def Call.target (s : Sys) : Call → Option Nat
  | .registerAgent o _ | .unregisterAgent o _ | .getAgent o _ | .start o | .stop o
  | .routeMessage o _ | .broadcastMessage o _ _ _ | .scheduleAgent o _ => some o
  | .sendMessage a _ _ _ => s.bound a
  | .setState _ _ => none

/-- The frames that can stand under another: callbacks, and the methods waiting for them. -/
def Frame.waits : Frame → Bool
  | .user _ _ _ | .op _ (.registerInit _) | .op _ (.unregisterShutdown _ _) => true
  | _ => false

namespace Sys

/-- The mutex that thread `t`'s next step needs, with its orchestrator. -/
def wants (s : Sys) (t : Tid) : Option (Nat × Mutex) :=
  match s.stack t, t with
  | .op o pc :: _, _ => pc.needs.map (o, ·)
  | [], .worker o => ((s.orchs o).loop.bind LoopPc.needs).map (o, ·)
  | _, _ => none

/-- Thread `t` tries to acquire a mutex it already holds. -/
def SelfWait (s : Sys) (t : Tid) : Prop :=
  ∃ o m, s.wants t = some (o, m) ∧ (s.orchs o).holder m = some t

/-- Thread `t` waits for thread `t'`: its next step needs a mutex that `t'` holds, or it is in
the join of `Stop` on an orchestrator whose worker `t'` has not left its loop. -/
def waitsFor (s : Sys) (t t' : Tid) : Prop :=
  (∃ o m, s.wants t = some (o, m) ∧ (s.orchs o).holder m = some t') ∨
    ∃ o below, s.stack t = .op o .stopJoin :: below ∧ t ≠ .worker o ∧
      (s.orchs o).joinable = true ∧ (s.orchs o).loop.isSome = true ∧ t' = .worker o

/-- Two threads wait for each other. -/
def WaitCycle (s : Sys) (t₁ t₂ : Tid) : Prop :=
  t₁ ≠ t₂ ∧ s.waitsFor t₁ t₂ ∧ s.waitsFor t₂ t₁

/-! ### The lock invariant -/

/-- Nobody holds `messages_mutex_` between steps, and a thread holds `agents_mutex_` exactly
when its stack has one frame that holds it. -/
structure LockInv (s : Sys) : Prop where
  messages : ∀ o, (s.orchs o).messagesMutex = none
  agents : ∀ o t, holding o (s.stack t) = if (s.orchs o).agentsMutex = some t then 1 else 0

variable {s s' : Sys} {t : Tid} {ch : Choice}

lemma lockInv_init (ids : Nat → String) : (init ids).LockInv :=
  ⟨fun _ => rfl, fun _ _ => by simp [init, Orch.new]⟩

/-- The agents mutex of `o`, when the stack of `t` holds it. -/
lemma LockInv.holder_of_holding (hi : s.LockInv) {o : Nat} (h : 0 < holding o (s.stack t)) :
    (s.orchs o).agentsMutex = some t := by
  have := hi.agents o t
  split_ifs at this with hh
  · exact hh
  · omega

/-- When the mutex is free, no stack holds it. -/
lemma LockInv.holding_of_free (hi : s.LockInv) {o : Nat} (h : (s.orchs o).agentsMutex = none)
    (t : Tid) : holding o (s.stack t) = 0 := by
  simpa [h] using hi.agents o t

/-- Replacing a stack by one with the same frames holding mutexes. -/
lemma holding_update {st : Tid → List Frame} {fs : List Frame}
    (h : ∀ o, holding o fs = holding o (st t)) (o : Nat) (t' : Tid) :
    holding o (Function.update st t fs t') = holding o (st t') := by
  by_cases ht : t' = t
  · subst ht; simpa using h o
  · simp [ht]

/-- A step that changes neither mutex and leaves every stack with the frames that hold one. -/
lemma LockInv.keep (hi : s.LockInv) {o : Nat} {q : Orch}
    (hor : s'.orchs = Function.update s.orchs o q) (hq : q.agentsMutex = (s.orchs o).agentsMutex)
    (hq' : q.messagesMutex = (s.orchs o).messagesMutex)
    (hst : ∀ o t, holding o (s'.stack t) = holding o (s.stack t)) : s'.LockInv := by
  have hupd : ∀ o', (s'.orchs o').agentsMutex = (s.orchs o').agentsMutex ∧
      (s'.orchs o').messagesMutex = (s.orchs o').messagesMutex := fun o' => by
    rw [hor]
    by_cases ho : o' = o
    · subst ho; simp [hq, hq']
    · simp [ho]
  exact ⟨fun o => (hupd o).2.trans (hi.messages o),
    fun o t => by rw [hst, (hupd o).1]; exact hi.agents o t⟩

/-- A step that changes no orchestrator. -/
lemma LockInv.keepOrchs (hi : s.LockInv) (hor : s'.orchs = s.orchs)
    (hst : ∀ o t, holding o (s'.stack t) = holding o (s.stack t)) : s'.LockInv :=
  ⟨fun o => hor ▸ hi.messages o, fun o t => by rw [hst, hor]; exact hi.agents o t⟩

/-- A step that changes one thread's stack and one orchestrator's fields keeps the
invariant when the frames that hold a mutex move with the mutex. -/
lemma LockInv.update (hi : s.LockInv) {o : Nat} {q : Orch} {fs : List Frame}
    (hor : s'.orchs = Function.update s.orchs o q) (hst : s'.stack = Function.update s.stack t fs)
    (hmsg : q.messagesMutex = none)
    (hmut : ∀ t', t' ≠ t → (q.agentsMutex = some t' ↔ (s.orchs o).agentsMutex = some t'))
    (hother : ∀ o', o' ≠ o → holding o' fs = holding o' (s.stack t))
    (hself : holding o fs = if q.agentsMutex = some t then 1 else 0) : s'.LockInv := by
  refine ⟨fun o' => ?_, fun o' t' => ?_⟩
  · by_cases ho : o' = o
    · subst ho; simpa [hor] using hmsg
    · simpa [hor, ho] using hi.messages o'
  · by_cases ht : t' = t <;> by_cases ho : o' = o
    · subst ht ho; simpa [hor, hst] using hself
    · subst ht; simpa [hor, hst, ho, hother o' ho] using hi.agents o' t'
    · subst ho; simpa [hor, hst, ht, hmut t' ht] using hi.agents o' t'
    · simpa [hor, hst, ht, ho] using hi.agents o' t'

/-- A step that takes `agents_mutex_` of `o` for `t` and pushes the frame that holds it. -/
lemma LockInv.acquire (hi : s.LockInv) {o : Nat} {q : Orch} {fs : List Frame}
    (hor : s'.orchs = Function.update s.orchs o q) (hst : s'.stack = Function.update s.stack t fs)
    (hfree : (s.orchs o).agentsMutex = none) (hq : q.agentsMutex = some t)
    (hq' : q.messagesMutex = none) (hother : ∀ o', o' ≠ o → holding o' fs = holding o' (s.stack t))
    (hself : holding o fs = holding o (s.stack t) + 1) : s'.LockInv :=
  hi.update hor hst hq' (fun t' ht => by simp [hq, hfree, Ne.symm ht]) hother
    (by simp [hq, hself, hi.holding_of_free hfree])

/-- A step that releases `agents_mutex_` of `o` held by `t` and pops the frame that held it. -/
lemma LockInv.release (hi : s.LockInv) {o : Nat} {q : Orch} {fs : List Frame}
    (hor : s'.orchs = Function.update s.orchs o q) (hst : s'.stack = Function.update s.stack t fs)
    (hq : q.agentsMutex = none) (hq' : q.messagesMutex = none)
    (hother : ∀ o', o' ≠ o → holding o' fs = holding o' (s.stack t))
    (hself : holding o fs + 1 = holding o (s.stack t)) : s'.LockInv := by
  have hheld := hi.holder_of_holding (t := t) (o := o) (by omega)
  have hone := hi.agents o t
  rw [if_pos hheld] at hone
  refine hi.update hor hst hq' (fun t' ht => ?_) hother (by simp [hq]; omega)
  simp only [hq, hheld, Option.some.injEq, reduceCtorEq, false_iff]
  exact fun e => ht e.symm

lemma LockInv.call (hi : s.LockInv) (c : Call) : (s.call t c).LockInv := by
  refine hi.keepOrchs (call_orchs s t c) fun o t' => ?_
  unfold Sys.call
  split
  case h_9 => split <;> simp [holding_update, Frame.holdsAgents]
  case h_10 => rfl
  all_goals simp [holding_update, Frame.holdsAgents]

lemma LockInv.opStep (hi : s.LockInv) {o : Nat} {pc : OpPc} {below : List Frame}
    (hs : s.stack t = .op o pc :: below) (hh : s.heldOn o pc.needs = false)
    (h : OpMove s t o below pc s') : s'.LockInv := by
  have hfree : pc.needs = some .agents → (s.orchs o).agentsMutex = none := fun e => by
    simpa [heldOn, e, Orch.holder] using hh
  cases h with
  | registerEnter | unregisterFound | broadcastBegin =>
    -- the callback, or the loop of the broadcast, runs under the mutex just taken
    exact hi.acquire rfl rfl (hfree rfl) rfl (hi.messages o)
      (fun o' ho => by simp [hs, Frame.holdsAgents, Ne.symm ho]) (by simp [hs, Frame.holdsAgents])
  | broadcastEnd =>
    exact hi.release rfl rfl rfl (hi.messages o)
      (fun o' ho => by simp [hs, Frame.holdsAgents, Ne.symm ho]) (by simp [hs, Frame.holdsAgents])
  | startJoinable => exact hi.keepOrchs rfl fun _ _ => rfl
  | _ => first
    | exact hi.keep rfl rfl rfl (holding_update fun o' => by simp [hs, Frame.holdsAgents])
    | exact hi.keepOrchs rfl (holding_update fun o' => by simp [hs, Frame.holdsAgents])

lemma LockInv.loopStep (hi : s.LockInv) {o : Nat} {pc : LoopPc} (hs : s.stack (.worker o) = [])
    (h : LoopMove s o pc s') : s'.LockInv := by
  cases h <;> first
    | exact hi.keep rfl rfl rfl fun _ _ => rfl
    | exact hi.keep rfl rfl rfl (holding_update fun o' => by simp [hs, Frame.holdsAgents])

lemma LockInv.resume (hi : s.LockInv) {o a : Nat} {cb : Callback} {below : List Frame}
    {ok : Bool} (hs : s.stack t = .user o a cb :: below)
    (h : ResumeMove (s.callbackEffect a cb ok) t ok below s') : s'.LockInv := by
  have he : (s.callbackEffect a cb ok).LockInv :=
    hi.keepOrchs (callbackEffect_orchs s a cb ok) fun _ _ => by simp
  have hs' : (s.callbackEffect a cb ok).stack t = .user o a cb :: below := by simpa using hs
  generalize s.callbackEffect a cb ok = r at he hs' h
  cases h with
  | registerInit | unregisterShutdown =>
    exact he.release rfl rfl rfl (he.messages _)
      (fun o' ho => by simp [hs', Frame.holdsAgents, Ne.symm ho]) (by simp [hs', Frame.holdsAgents])
  | onMessageRaise => exact he.keepOrchs rfl fun _ _ => rfl
  | _ => first
    | exact he.keep rfl rfl rfl (holding_update fun o' => by simp [hs', Frame.holdsAgents])
    | exact he.keepOrchs rfl (holding_update fun o' => by simp [hs', Frame.holdsAgents])

lemma LockInv.step (hi : s.LockInv) {ch : Choice} (h : s.step t ch = some s') : s'.LockInv := by
  obtain ⟨-, ⟨c, -, rfl, -⟩ | ⟨o, a, cb, below, ok, hs, -, hm⟩ | ⟨o, pc, below, hs, hh, hm⟩ |
    ⟨o, pc, rfl, hs, -, -, hm⟩⟩ := step_cases h
  · exact hi.call c
  · exact hi.resume hs hm
  · exact hi.opStep hs hh hm
  · exact hi.loopStep hs hm

/-! ### The shape of the stacks -/

/-- What one step does to the stack of the thread that takes it: nothing; push the frame of
a call made by an idle client or a callback; pop frames; replace the method frame on top by
another of the same method, or by a callback other than `Execute` over the method waiting for
it; or start a callback of the worker, waiting for it if it is `Execute`. -/
lemma step_stack (h : s.step t ch = some s') :
    s'.stack t = s.stack t ∨
      (∃ c o pc, ch = .call c ∧ c.target s = some o ∧ s'.stack t = .op o pc :: s.stack t ∧
        (s.stack t = [] ∨ ∃ o' a cb below, s.stack t = .user o' a cb :: below)) ∨
      s'.stack t <:+ (s.stack t).tail ∨
      (∃ o pc pc' below, s.stack t = .op o pc :: below ∧ s'.stack t = .op o pc' :: below) ∨
      (∃ o pc a cb pc' below, s.stack t = .op o pc :: below ∧
        s'.stack t = .user o a cb :: .op o pc' :: below ∧ (Frame.op o pc').waits = true ∧
        cb ≠ .execute) ∨
      (∃ o a cb, t = .worker o ∧ s.stack t = [] ∧ s'.stack t = [.user o a cb] ∧
        (cb = .execute → (s'.orchs o).loop = some (.executeWait a))) := by
  obtain ⟨-, ⟨c, rfl, rfl, htop⟩ | ⟨o, a, cb, below, ok, hs, -, hm⟩ | ⟨o, pc, below, hs, -, hm⟩ |
    ⟨o, pc, rfl, hs, -, -, hm⟩⟩ := step_cases h
  · replace htop := htop.imp (fun ⟨_, _, h⟩ => h) id
    unfold Sys.call
    split
    case h_9 =>
      split
      case h_1 hb => exact .inr (.inl ⟨_, _, _, rfl, hb, Function.update_same _ _ _, htop⟩)
      case h_2 => exact .inl rfl
    case h_10 => exact .inl rfl
    all_goals exact .inr (.inl ⟨_, _, _, rfl, rfl, Function.update_same _ _ _, htop⟩)
  · -- a callback pops its frame, or ends the run
    have hs' : (s.callbackEffect a cb ok).stack t = .user o a cb :: below := by simpa using hs
    generalize s.callbackEffect a cb ok = r at hs' hm
    cases hm with
    | onMessageRaise => exact .inl (by simp [hs, hs'])
    | _ => exact .inr (.inr (.inl (by simp [hs, List.suffix_cons])))
  · cases hm with
    | startJoinable => exact .inl rfl
    | registerEnter | unregisterFound =>
      exact .inr (.inr (.inr (.inr (.inl
        ⟨o, _, _, _, _, below, hs, Function.update_same _ _ _, rfl, nofun⟩))))
    | startCheck | startSet | stopCheck | stopClear | broadcastBegin | broadcastSend =>
      exact .inr (.inr (.inr (.inl ⟨o, _, _, below, hs, Function.update_same _ _ _⟩)))
    | _ => exact .inr (.inr (.inl (by simp [hs])))
  · cases hm with
    | onMessage | execute =>
      exact .inr (.inr (.inr (.inr (.inr
        ⟨o, _, _, rfl, hs, Function.update_same _ _ _, fun h => by cases h <;> simp⟩))))
    | _ => exact .inl (by simp)

/-- Only callbacks and the methods waiting for them stand under the top of a stack. -/
def Shaped (s : Sys) : Prop :=
  ∀ t, ∀ f ∈ (s.stack t).tail, f.waits = true

lemma shaped_init (ids : Nat → String) : (init ids).Shaped := fun _ _ h => by
  simp [init] at h

lemma Shaped.step (hi : s.Shaped) (h : s.step t ch = some s') : s'.Shaped := by
  intro t' f hf
  by_cases ht : t' = t
  · subst ht
    rcases step_stack h with e | ⟨c, o, pc, -, -, e, htop⟩ | e | ⟨o, pc, pc', below, hs, e⟩ |
      ⟨o, pc, a, cb, pc', below, hs, e, hw, -⟩ | ⟨o, a, cb, -, -, e, -⟩
    · exact hi t' f (e ▸ hf)
    · rw [e] at hf
      rcases htop with htop | ⟨o', a, cb, below, htop⟩
      · simp [htop] at hf
      · rw [htop] at hf
        rcases List.mem_cons.1 hf with rfl | hf
        · rfl
        · exact hi t' f (by simpa [htop] using hf)
    · exact hi t' f ((List.IsSuffix.subset e) (List.mem_of_mem_tail hf))
    · exact hi t' f (by simpa [hs, e] using hf)
    · rw [e] at hf
      rcases List.mem_cons.1 hf with rfl | hf
      · exact hw
      · exact hi t' f (by simpa [hs] using hf)
    · simp [e] at hf
  · exact hi t' f (by rwa [stack_of_ne h ht] at hf)

end Sys

/-- Every reachable state keeps the lock invariant, whatever steps are admitted. -/
lemma Reachable.lockInv {adm : Tid → Choice → Sys → Prop} {s : Sys} (hs : Reachable adm s) :
    s.LockInv := by
  induction hs with
  | init ids => exact Sys.lockInv_init ids
  | step _ _ h ih => exact ih.step h

lemma Reachable.shaped {adm : Tid → Choice → Sys → Prop} {s : Sys} (hs : Reachable adm s) :
    s.Shaped := by
  induction hs with
  | init ids => exact Sys.shaped_init ids
  | step _ _ h ih => exact ih.step h

/-! ### Re-entrant calls -/

/-- The call that a step makes from a callback is on the orchestrator the callback's agent is
bound to. -/
def callsBound (t : Tid) (ch : Choice) (s : Sys) : Bool :=
  match s.stack t, ch with
  | .user _ a _ :: _, .call c => (c.target s).all fun o' => s.bound a == some o'
  | _, _ => true

/-- Every call that a callback makes is on the orchestrator its agent is bound to. -/
def boundOrch (t : Tid) (ch : Choice) (s : Sys) : Prop := callsBound t ch s = true

/-- A client registers agent 0, whose `Initialize` calls `GetAgent` on orchestrator 0, to which
`RegisterAgent` has just bound it. -/
def initializeCallsGetAgent : List (Tid × Choice) :=
  [(.client 0, .call (.registerAgent 0 0)), (.client 0, .step),
   (.client 0, .call (.getAgent 0 "a"))]

/-- Agent 0 (id `"a"`) is registered on orchestrator 0 and then on 1, which binds it to 1;
agent 1 (id `"b"`) on 1 and then on 0, which binds it to 0.  Client 1 unregisters `"a"` from 0
and client 2 unregisters `"b"` from 1; each `Shutdown` calls `GetAgent` on the orchestrator its
agent is bound to, whose `agents_mutex_` the other client holds. -/
def crossShutdowns : List (Tid × Choice) :=
  [(.client 0, .call (.registerAgent 0 0)), (.client 0, .step), (.client 0, .ret),
   (.client 0, .call (.registerAgent 1 0)), (.client 0, .step), (.client 0, .ret),
   (.client 0, .call (.registerAgent 1 1)), (.client 0, .step), (.client 0, .ret),
   (.client 0, .call (.registerAgent 0 1)), (.client 0, .step), (.client 0, .ret),
   (.client 1, .call (.unregisterAgent 0 "a")), (.client 1, .step),
   (.client 2, .call (.unregisterAgent 1 "b")), (.client 2, .step),
   (.client 1, .call (.getAgent 1 "b")), (.client 2, .call (.getAgent 0 "a"))]

/-- Orchestrator 0 is started and a message is routed; the worker drains it and is about to look
its target up.  Client 1 registers agent 0, whose `Initialize` calls `Stop` on orchestrator 0:
it clears `running_` and joins the worker, which waits for the `agents_mutex_` that client 1
holds. -/
def initializeStops : List (Tid × Choice) :=
  [(.client 0, .call (.start 0)), (.client 0, .step), (.client 0, .step), (.client 0, .step),
   (.client 0, .call (.routeMessage 0 ⟨"", "x", "", "", 0⟩)), (.client 0, .step),
   (.worker 0, .step), (.worker 0, .step),
   (.client 1, .call (.registerAgent 0 0)), (.client 1, .step),
   (.client 1, .call (.stop 0)), (.client 1, .step), (.client 1, .step)]

/-- Agent 0 is registered, scheduled and executed; its `Execute` calls `Stop` on orchestrator 0,
where the worker skips the join of its own thread; `Execute` returns, the worker leaves its loop,
and a client's next `Start` assigns a new thread over the joinable one. -/
def selfStopThenStart : List (Tid × Choice) :=
  [(.client 0, .call (.registerAgent 0 0)), (.client 0, .step), (.client 0, .ret),
   (.client 0, .call (.scheduleAgent 0 "a")), (.client 0, .step),
   (.client 0, .call (.start 0)), (.client 0, .step), (.client 0, .step), (.client 0, .step)] ++
  List.replicate 8 (.worker 0, .step) ++
  [(.worker 0, .call (.stop 0)), (.worker 0, .step), (.worker 0, .step), (.worker 0, .step),
   (.worker 0, .ret), (.worker 0, .step), (.worker 0, .step),
   (.client 0, .call (.start 0)), (.client 0, .step), (.client 0, .step), (.client 0, .step)]

/-- Re-entrant calls on the orchestrator an agent is bound to deadlock and abort.  An
`Initialize` that calls `GetAgent` asks for the mutex its own thread holds.  Two `Shutdown`s
wait for each other's `agents_mutex_`.  An `Initialize` that calls `Stop` waits for the worker,
which waits for the mutex of the `RegisterAgent`.  A `Stop` from the worker's own `Execute`
leaves the thread joinable, and the next `Start` calls `std::terminate`. -/
theorem reentrant_calls_deadlock :
    (∃ s, Reachable boundOrch s ∧ s.SelfWait (.client 0)) ∧
      (∃ s, Reachable boundOrch s ∧ s.WaitCycle (.client 1) (.client 2) ∧
        s.wants (.client 1) = some (1, .agents) ∧ s.wants (.client 2) = some (0, .agents)) ∧
      (∃ s, Reachable boundOrch s ∧ s.WaitCycle (.client 1) (.worker 0) ∧
        (s.stack (.client 1)).head? = some (.op 0 .stopJoin)) ∧
      ∃ s, Reachable boundOrch s ∧ s.aborted = true := by
  refine ⟨?_, ?_, ?_, ?_⟩
  · obtain ⟨s, hs, hp⟩ := @reach_of_runAdmitted boundOrch callsBound (fun _ _ _ h => h)
      (fun _ => "a") initializeCallsGetAgent
      (fun s => s.wants (.client 0) == some (0, .agents) &&
        (s.orchs 0).agentsMutex == some (.client 0)) (by decide)
    simp only [Bool.and_eq_true, beq_iff_eq] at hp
    exact ⟨s, hs, 0, .agents, hp.1, hp.2⟩
  · obtain ⟨s, hs, hp⟩ := @reach_of_runAdmitted boundOrch callsBound (fun _ _ _ h => h)
      (fun a => if a = 0 then "a" else "b") crossShutdowns
      (fun s => s.wants (.client 1) == some (1, .agents) &&
        s.wants (.client 2) == some (0, .agents) &&
        (s.orchs 1).agentsMutex == some (.client 2) && (s.orchs 0).agentsMutex == some (.client 1))
      (by decide)
    simp only [Bool.and_eq_true, beq_iff_eq] at hp
    obtain ⟨⟨⟨h₁, h₂⟩, h₃⟩, h₄⟩ := hp
    exact ⟨s, hs, ⟨by decide, .inl ⟨1, .agents, h₁, h₃⟩, .inl ⟨0, .agents, h₂, h₄⟩⟩, h₁, h₂⟩
  · obtain ⟨s, hs, hp⟩ := @reach_of_runAdmitted boundOrch callsBound (fun _ _ _ h => h)
      (fun _ => "a") initializeStops
      (fun s => s.stack (.client 1) == [.op 0 .stopJoin, .user 0 0 .init, .op 0 (.registerInit 0)] &&
        (s.orchs 0).joinable && (s.orchs 0).loop.isSome &&
        s.wants (.worker 0) == some (0, .agents) && (s.orchs 0).agentsMutex == some (.client 1))
      (by decide)
    simp only [Bool.and_eq_true, beq_iff_eq] at hp
    obtain ⟨⟨⟨⟨h₁, h₂⟩, h₃⟩, h₄⟩, h₅⟩ := hp
    exact ⟨s, hs, ⟨by decide, .inr ⟨0, _, h₁, by decide, h₂, h₃, rfl⟩, .inl ⟨0, .agents, h₄, h₅⟩⟩,
      by simp [h₁]⟩
  · exact @reach_of_runAdmitted boundOrch callsBound (fun _ _ _ h => h) (fun _ => "a")
      selfStopThenStart (fun s => s.aborted) (by decide)

end OpenCog

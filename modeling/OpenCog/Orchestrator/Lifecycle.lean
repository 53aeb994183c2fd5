/-
# Shutdown and failure

`UnregisterAgent` calls `Shutdown` (which sets `COMPLETED`) and erases the agent, but a worker
that looked the agent up and read `IDLE` before that still writes `RUNNING` and calls `Execute`
(`execute_after_shutdown`).  A raise of `Execute` makes the worker write `FAILED`, and no
`Execute` of the agent begins again until an `Initialize` of it returns; that `Initialize` may
belong to a `RegisterAgent` that began before the raise (`execute_after_raise`).  The ghost
history of the agent says when its last raise is still the latest event that matters
(`latched`), and `failed_until_initialized` is the property that holds.  The worker contains a
raise of `Execute`, but nothing catches a raise of `OnMessage`,
which leaves the worker's thread function and calls `std::terminate`
(`onMessage_raise_terminates`).  When no callback or client writes `RUNNING` itself, an agent is
`RUNNING` only while a worker executes it (`running_only_in_dispatch`).
-/
import OpenCog.Orchestrator.Dispatch

namespace OpenCog

/-- The step does not call `set_state` on agent `a`. -/
def Choice.keepsState (a : Nat) : Choice → Bool
  | .call (.setState a' _) => a' != a
  | _ => true

/-! ### Shutdown is not final -/

/-- Agent 0 is registered and scheduled; the worker looks it up and reads `IDLE`; then another
client unregisters it, whose `Shutdown` sets `COMPLETED`; the worker writes `RUNNING` and calls
`Execute`. -/
def dispatchRacesShutdown : List (Tid × Choice) :=
  [(.client 0, .call (.registerAgent 0 0)), (.client 0, .step), (.client 0, .ret),
   (.client 0, .call (.scheduleAgent 0 "a")), (.client 0, .step),
   (.client 0, .call (.start 0)), (.client 0, .step), (.client 0, .step),
   (.client 0, .step)] ++
  List.replicate 6 (.worker 0, .step) ++
  [(.client 1, .call (.unregisterAgent 0 "a")), (.client 1, .step), (.client 1, .ret),
   (.worker 0, .step), (.worker 0, .step)]

theorem execute_after_shutdown :
    ∃ s, Reachable anyStep s ∧
      s.history 0 = [.init, .initialized, .shutdown, .execute] ∧ s.state 0 = .running := by
  obtain ⟨s, hs, hp⟩ := @reach_of_run anyStep (fun _ => "a") dispatchRacesShutdown
    (fun s => s.history 0 == [.init, .initialized, .shutdown, .execute] &&
      s.state 0 == .running) (fun _ _ _ => trivial) (by decide)
  simp only [Bool.and_eq_true, beq_iff_eq] at hp
  exact ⟨s, hs, hp⟩

/-! ### The latch of a raise -/

/-- A raise of `Execute` sets the latch, a return of `Initialize` clears it. -/
def Event.latch (b : Bool) : Event → Bool
  | .raised => true
  | .initialized => false
  | _ => b

/-- Whether the latest raise of `Execute` in a history comes after the latest return of
`Initialize`. -/
def latched (h : List Event) : Bool :=
  h.foldl Event.latch false

@[simp] lemma latched_nil : latched [] = false := rfl

@[simp] lemma latched_concat (h : List Event) (e : Event) :
    latched (h ++ [e]) = Event.latch (latched h) e := by
  simp [latched, Event.latch]

/-- Without a return of `Initialize`, the latch stays set. -/
lemma foldl_latch_true {l : List Event} (hl : .initialized ∉ l) :
    l.foldl Event.latch true = true := by
  induction l with
  | nil => rfl
  | cons e l ih =>
    rw [List.mem_cons, not_or] at hl
    cases e <;> first | exact absurd rfl hl.1 | exact ih hl.2

/-- After a raise, the latch is clear only once an `Initialize` has returned. -/
lemma initialized_mem_of_latched {l₁ l₂ : List Event} (h : latched (l₁ ++ .raised :: l₂) = false) :
    .initialized ∈ l₂ := by
  by_contra hl
  rw [latched, List.foldl_append, List.foldl_cons] at h
  simp [Event.latch, foldl_latch_true hl] at h

/-- No `Execute` in a history comes after a raise without a return of `Initialize` between. -/
def ExecutesUnlatched (h : List Event) : Prop :=
  ∀ l₁ l₂ l₃, h = l₁ ++ .raised :: l₂ ++ .execute :: l₃ → .initialized ∈ l₂

lemma executesUnlatched_nil : ExecutesUnlatched [] := fun l₁ l₂ l₃ h => by
  simp at h

/-- Appending an event keeps the property when an `Execute` is appended only unlatched. -/
lemma ExecutesUnlatched.concat {h : List Event} (hh : ExecutesUnlatched h) {e : Event}
    (he : e = .execute → latched h = false) : ExecutesUnlatched (h ++ [e]) := by
  intro l₁ l₂ l₃ heq
  rcases List.eq_nil_or_concat l₃ with rfl | ⟨l₃, x, rfl⟩
  · obtain ⟨rfl, he'⟩ := List.append_inj' heq rfl
    exact initialized_mem_of_latched (he (List.singleton_inj.1 he'))
  · rw [List.concat_eq_append, ← List.cons_append, ← List.append_assoc] at heq
    obtain ⟨rfl, -⟩ := List.append_inj' heq rfl
    exact hh l₁ l₂ l₃ rfl

/-! ### What a step does to one agent -/

/-- `FAILED` or `COMPLETED`: states from which the worker does not dispatch. -/
def AgentState.settled : AgentState → Bool
  | .failed | .completed => true
  | _ => false

@[simp] lemma AgentState.settled_eq_true {st : AgentState} :
    st.settled = true ↔ st = .failed ∨ st = .completed := by
  cases st <;> simp [AgentState.settled]

/-- The positions of a worker inside a dispatch of `a`, past its check of `IDLE`. -/
def LoopPc.runs (a : Nat) : LoopPc → Bool
  | .dispatchSet a' | .dispatchExec a' | .executeWait a' | .dispatchEnd a' _ => a' == a
  | _ => false

lemma LoopPc.agent_of_runs {a : Nat} {pc : LoopPc} (h : pc.runs a = true) : pc.agent? = some a := by
  cases pc <;> simp_all [LoopPc.runs, LoopPc.agent?]

namespace Sys

variable {s s' : Sys} {t : Tid} {ch : Choice} {a : Nat}

lemma call_state_of_keeps {c : Call} (hk : (Choice.call c).keepsState a = true) :
    (s.call t c).state a = s.state a := by
  unfold Sys.call
  split <;> (try split) <;> try rfl
  simp only [Choice.keepsState, bne_iff_ne, ne_eq] at hk
  exact Function.update_noteq (Ne.symm hk) _ _

/-- The methods append to histories only `Initialize` and `Shutdown` begun. -/
lemma opStep_latched {o : Nat} {pc : OpPc} {below : List Frame} (h : OpMove s t o below pc s') :
    latched (s'.history a) = latched (s.history a) := by
  cases h <;> simp [Function.update_apply] <;> split_ifs with he <;> (try subst he) <;>
    simp [Event.latch]

/-- The worker appends to histories only `Execute` and `OnMessage` begun. -/
lemma loopStep_latched {o : Nat} {pc : LoopPc} (h : LoopMove s o pc s') :
    latched (s'.history a) = latched (s.history a) := by
  cases h <;> simp [Function.update_apply] <;> split_ifs with he <;> (try subst he) <;>
    simp [Event.latch]

/-- The worker writes the state of `a` only inside a dispatch of `a` past the check. -/
lemma loopStep_state {o : Nat} {pc : LoopPc} (h : LoopMove s o pc s') (ha : pc.runs a = false) :
    s'.state a = s.state a := by
  cases h <;> simp_all [Function.update_apply, LoopPc.runs, @eq_comm _ a]

/-- A callback's return or raise moves a worker only as the worker pops its last frame: after
`OnMessage` to the rest of its batch, after `Execute` to the handler. -/
lemma resume_loop {r : Sys} {ok : Bool} {below : List Frame} (h : ResumeMove r t ok below s')
    (o : Nat) :
    (s'.orchs o).loop = (r.orchs o).loop ∨
      (∃ rest, (r.orchs o).loop = some (.deliverWait rest) ∧ (s'.orchs o).loop = some (.deliver rest)) ∨
      ∃ a', (r.orchs o).loop = some (.executeWait a') ∧ (s'.orchs o).loop = some (.dispatchEnd a' ok) := by
  cases h with
  | onMessageReturn _ hl =>
    exact loop_update_or rfl fun ho hq => by subst ho; exact .inl ⟨_, hl, by rw [hq]⟩
  | executeEnd _ hl =>
    exact loop_update_or rfl fun ho hq => by subst ho; exact .inr ⟨_, hl, by rw [hq]⟩
  | _ => first | exact .inl rfl | exact .inl (orch_keep Orch.loop rfl rfl)

/-- Besides the raise of its `Execute`, a callback's return or raise keeps the latch of an
agent set only if it was set, and then writes only `COMPLETED`. -/
lemma callbackEffect_agent {a' : Nat} {cb : Callback} {ok : Bool}
    (hne : ¬ (a' = a ∧ cb = .execute ∧ ok = false))
    (hL : latched ((s.callbackEffect a' cb ok).history a) = true) :
    latched (s.history a) = true ∧
      ((s.callbackEffect a' cb ok).state a = s.state a ∨
        (s.callbackEffect a' cb ok).state a = .completed) := by
  by_cases ha : a' = a
  · subst ha
    cases cb <;> cases ok <;> simp_all [callbackEffect, Event.latch]
  · cases cb <;> cases ok <;>
      simp_all [callbackEffect, Function.update_apply, @eq_comm _ a]

/-- A callback's return writes `IDLE` for `Initialize` and `COMPLETED` for `Shutdown` of its own
agent, and no other state. -/
lemma callbackEffect_state (a' : Nat) (cb : Callback) (ok : Bool) :
    (s.callbackEffect a' cb ok).state a = s.state a ∨
      a' = a ∧ (cb = .init ∧ (s.callbackEffect a' cb ok).state a = .idle ∨
        cb = .shutdown ∧ (s.callbackEffect a' cb ok).state a = .completed) := by
  by_cases ha : a' = a
  · subst ha
    cases cb <;> cases ok <;> simp [callbackEffect]
  · cases cb <;> cases ok <;> simp [callbackEffect, Function.update_apply, @eq_comm _ a, ha]

lemma callbackEffect_ne_failed {a' : Nat} {cb : Callback} {ok : Bool} (h : s.state a ≠ .failed) :
    (s.callbackEffect a' cb ok).state a ≠ .failed := by
  rcases callbackEffect_state (s := s) (a := a) a' cb ok with e | ⟨-, ⟨-, e⟩ | ⟨-, e⟩⟩ <;>
    simp [e, h]

/-- Only the worker of `o₀` dispatches an agent confined to `o₀`. -/
lemma Confined.runs_of_ne {o₀ o : Nat} {pc : LoopPc} (hc : s.Confined a o₀)
    (hl : (s.orchs o).loop = some pc) (ho : o ≠ o₀) : pc.runs a = false :=
  Bool.eq_false_iff.2 fun hr => ho (hc.loop o (by simp [hl, LoopPc.agent_of_runs hr]))

/-- A step appends at most one event to a history, and `Execute` begun only as the worker of
some orchestrator leaves `dispatchExec` of the agent. -/
lemma history_step (h : s.step t ch = some s') (a : Nat) :
    s'.history a = s.history a ∨ ∃ e, s'.history a = s.history a ++ [e] ∧
      (e = .execute → ∃ o, t = .worker o ∧ (s.orchs o).loop = some (.dispatchExec a)) := by
  obtain ⟨-, ⟨c, -, rfl, -⟩ | ⟨o', a', cb, below, ok, -, -, hm⟩ | ⟨o', pc, below, -, -, hm⟩ |
    ⟨o', pc, rfl, -, hl, -, hm⟩⟩ := step_cases h
  · exact .inl (by simp)
  · rw [hm.history]
    unfold callbackEffect
    split <;> first
      | exact .inl rfl
      | (simp only [log_history, setState_history, Function.update_apply]
         split
         · subst_vars; exact .inr ⟨_, rfl, nofun⟩
         · exact .inl rfl)
  · cases hm <;> first
      | exact .inl rfl
      | (simp only [log_history, setStack_history, setOrch_history, Function.update_apply]
         split
         · subst_vars; exact .inr ⟨_, rfl, nofun⟩
         · exact .inl rfl)
  · cases hm <;> first
      | exact .inl rfl
      | (simp only [log_history, setStack_history, setOrch_history, setLoop_eq, Function.update_apply]
         split
         · subst_vars
           first | exact .inr ⟨_, rfl, fun _ => ⟨_, rfl, hl⟩⟩ | exact .inr ⟨_, rfl, by simp⟩
         · exact .inl rfl)

end Sys

/-! ### The latch holds the worker -/

/-- While a raise of `a`'s `Execute` is latched, the worker of `o₀` is at the handler of that
raise, or it is in no dispatch of `a` past the check and `a` is `FAILED` or `COMPLETED`. -/
def latchOk (a : Nat) (pc : Option LoopPc) (st : AgentState) : Bool :=
  pc == some (.dispatchEnd a false) || (!(pc.any (LoopPc.runs a)) && st.settled)

lemma latchOk_completed {a : Nat} {pc : Option LoopPc} {st st' : AgentState}
    (h : latchOk a pc st = true) (hst : st' = st ∨ st' = .completed) : latchOk a pc st' = true := by
  rcases hst with rfl | rfl
  · exact h
  · simp only [latchOk, Bool.or_eq_true, beq_iff_eq, Bool.and_eq_true, Bool.not_eq_true'] at h ⊢
    exact h.imp_right fun h => ⟨h.1, rfl⟩

namespace Sys

variable {s s' : Sys} {t : Tid} {ch : Choice} {a o₀ : Nat}

/-- The latch of `a` holds the worker of `o₀`. -/
def LatchInv (a o₀ : Nat) (s : Sys) : Prop :=
  latched (s.history a) = true → latchOk a (s.orchs o₀).loop (s.state a) = true

lemma latchInv_init (ids : Nat → String) : (init ids).LatchInv a o₀ := fun h => by
  simp [init] at h

lemma LatchInv.step (hi : s.LatchInv a o₀) (hx : s.ExecAt) (hn : s.ExecOnce)
    (hc : s.Confined a o₀) (hj : s.WorkerJoinable) (hk : ch.keepsState a = true)
    (h : s.step t ch = some s') : s'.LatchInv a o₀ := by
  obtain ⟨-, ⟨c, rfl, rfl, -⟩ | ⟨o', a', cb, below, ok, hs, -, hm⟩ | ⟨o', pc, below, -, -, hm⟩ |
    ⟨o', pc, rfl, hs, hl, -, hm⟩⟩ := step_cases h
  · intro hL
    rw [call_state_of_keeps hk, call_orchs]
    exact hi (by simpa using hL)
  · by_cases hraise : a' = a ∧ cb = .execute ∧ ok = false
    · -- the raise of `a`'s `Execute`: the worker of `o₀` goes to the handler
      obtain ⟨rfl, rfl, rfl⟩ := hraise
      obtain ⟨rfl, rfl, hl⟩ := hx.top_execute hn hs
      obtain rfl := hc.loop o' (by simp [hl, LoopPc.agent?])
      intro _
      rw [hm.of_executeWait (by rwa [callbackEffect_orchs])]
      simp [latchOk]
    · intro hL
      rw [hm.history] at hL
      obtain ⟨hL, hst⟩ := callbackEffect_agent hraise hL
      have hok := hi hL
      rw [hm.state]
      have hrl := resume_loop hm o₀
      simp only [callbackEffect_orchs] at hrl
      rcases hrl with e | ⟨rest, e₀, e⟩ | ⟨a'', e₀, e⟩ <;> rw [e]
      · exact latchOk_completed hok hst
      · rw [e₀] at hok
        refine latchOk_completed ?_ hst
        simpa [latchOk, LoopPc.runs] using hok
      · rw [e₀] at hok
        refine latchOk_completed ?_ hst
        cases ok <;> simp_all [latchOk, LoopPc.runs]
  · intro hL
    have hok := hi (opStep_latched hm ▸ hL)
    rw [hm.state]
    rcases loop_opStep hj hm o₀ with e | ⟨e₀, e⟩
    · rwa [e]
    · rw [e₀] at hok
      rw [e]
      simpa [latchOk, LoopPc.runs] using hok
  · intro hL
    have hok := hi (loopStep_latched hm ▸ hL)
    by_cases ho : o' = o₀
    · subst ho
      rw [hl] at hok
      cases hm <;> simp_all [latchOk, LoopPc.runs, Function.update_apply, @eq_comm _ a]
      · -- the check of `IDLE` does not pass for a settled `a`
        rintro rfl
        simp_all
      · -- the handler of a raise sets `FAILED`
        rcases hok with ⟨rfl, rfl⟩ | ⟨hne, hst⟩ <;> simp_all
    · rw [loopStep_state hm (hc.runs_of_ne hl ho), hm.orchs_of_ne (Ne.symm ho)]
      exact hok

/-- Inside a dispatch of `a` past the check of `IDLE`, the worker of `o₀` does not see `a`
`FAILED`. -/
def DispatchInv (a o₀ : Nat) (s : Sys) : Prop :=
  (s.orchs o₀).loop.any (LoopPc.runs a) = true → s.state a ≠ .failed

lemma dispatchInv_init (ids : Nat → String) : (init ids).DispatchInv a o₀ := fun h => by
  simp [init, Orch.new] at h

lemma DispatchInv.step (hi : s.DispatchInv a o₀) (hc : s.Confined a o₀) (hj : s.WorkerJoinable)
    (hk : ch.keepsState a = true) (h : s.step t ch = some s') : s'.DispatchInv a o₀ := by
  obtain ⟨-, ⟨c, rfl, rfl, -⟩ | ⟨o', a', cb, below, ok, -, -, hm⟩ | ⟨o', pc, below, -, -, hm⟩ |
    ⟨o', pc, rfl, -, hl, -, hm⟩⟩ := step_cases h
  · rw [DispatchInv, call_state_of_keeps hk, call_orchs]
    exact hi
  · intro hr
    rw [hm.state]
    refine callbackEffect_ne_failed (hi ?_)
    have hrl := resume_loop hm o₀
    simp only [callbackEffect_orchs] at hrl
    rcases hrl with e | ⟨rest, -, e⟩ | ⟨a'', e₀, e⟩ <;> rw [e] at hr
    · exact hr
    · simp [LoopPc.runs] at hr
    · simpa [e₀, LoopPc.runs] using hr
  · intro hr
    rw [hm.state]
    apply hi
    rcases loop_opStep hj hm o₀ with e | ⟨-, e⟩ <;> rw [e] at hr
    · exact hr
    · simp [LoopPc.runs] at hr
  · by_cases ho : o' = o₀
    · subst ho
      cases hm <;> simp_all [DispatchInv, LoopPc.runs, Function.update_apply, @eq_comm _ a]
      -- the check of `IDLE` has just passed
      rintro rfl
      simp_all
    · rw [DispatchInv, loopStep_state hm (hc.runs_of_ne hl ho), hm.orchs_of_ne (Ne.symm ho)]
      exact hi

/-- From `FAILED`, only the return of `a`'s `Initialize` or `Shutdown` moves `a`; no step of a
worker does. -/
lemma failed_step (hi : s.DispatchInv a o₀) (hc : s.Confined a o₀) (hk : ch.keepsState a = true)
    (h : s.step t ch = some s') (hf : s.state a = .failed) :
    s'.state a = .failed ∨ ∃ o below,
      (s.stack t = .user o a .init :: below ∧ s'.state a = .idle) ∨
        (s.stack t = .user o a .shutdown :: below ∧ s'.state a = .completed) := by
  obtain ⟨-, ⟨c, rfl, rfl, -⟩ | ⟨o', a', cb, below, ok, hs, -, hm⟩ | ⟨o', pc, below, -, -, hm⟩ |
    ⟨o', pc, rfl, -, hl, -, hm⟩⟩ := step_cases h
  · exact .inl (by rw [call_state_of_keeps hk, hf])
  · rw [hm.state]
    rcases callbackEffect_state (s := s) (a := a) a' cb ok with e | ⟨rfl, ⟨rfl, e⟩ | ⟨rfl, e⟩⟩
    · exact .inl (e.trans hf)
    · exact .inr ⟨o', below, .inl ⟨hs, e⟩⟩
    · exact .inr ⟨o', below, .inr ⟨hs, e⟩⟩
  · exact .inl (by rw [hm.state, hf])
  · by_cases ho : o' = o₀
    · subst ho
      cases hr : pc.runs a
      · exact .inl (by rw [loopStep_state hm hr, hf])
      · exact absurd hf (hi (by simp [hl, hr]))
    · exact .inl (by rw [loopStep_state hm (hc.runs_of_ne hl ho), hf])

end Sys

section Runs

variable {adm : Tid → Choice → Sys → Prop} {s : Sys} {a o₀ : Nat}
  (hadm : ∀ t ch s, adm t ch s → (ch.registersOnly a o₀ && ch.keepsState a) = true)
include hadm

lemma Reachable.confinedKeeping (hs : Reachable adm s) : s.Confined a o₀ :=
  hs.confined fun t ch s h => (Bool.and_eq_true _ _ ▸ hadm t ch s h).1

lemma Reachable.latchInv (hs : Reachable adm s) : s.LatchInv a o₀ := by
  induction hs with
  | init ids => exact Sys.latchInv_init ids
  | step hs ha h ih =>
    exact ih.step hs.execAt hs.execOnce (hs.confinedKeeping hadm) hs.workerJoinable
      (Bool.and_eq_true _ _ ▸ hadm _ _ _ ha).2 h

lemma Reachable.dispatchInv (hs : Reachable adm s) : s.DispatchInv a o₀ := by
  induction hs with
  | init ids => exact Sys.dispatchInv_init ids
  | step hs ha h ih =>
    exact ih.step (hs.confinedKeeping hadm) hs.workerJoinable
      (Bool.and_eq_true _ _ ▸ hadm _ _ _ ha).2 h

/-- Every `Execute` of `a` begins with no raise latched: the worker of `o₀` is past a check of
`IDLE`, which the latch rules out. -/
lemma Reachable.executesUnlatched (hs : Reachable adm s) : ExecutesUnlatched (s.history a) := by
  induction hs with
  | init ids => exact executesUnlatched_nil
  | step hs _ h ih =>
    rcases Sys.history_step h a with e | ⟨ev, e, hx⟩
    · rwa [e]
    rw [e]
    refine ih.concat fun he => Bool.eq_false_iff.2 fun hL => ?_
    obtain ⟨o, rfl, hl⟩ := hx he
    obtain rfl := (hs.confinedKeeping hadm).loop o (by simp [hl, LoopPc.agent?])
    simpa [latchOk, LoopPc.runs, hl] using hs.latchInv hadm hL

end Runs

/-! ### A raise is not final -/

/-- Agent 0 is registered, scheduled and dispatched; while its `Execute` runs, another client
unregisters it and calls `RegisterAgent` again, and before that `Initialize` returns the `Execute`
raises and the worker writes `FAILED`; the `Initialize` then writes `IDLE`, and the next
schedule runs `Execute` again. -/
def raiseDuringReregister : List (Tid × Choice) :=
  [(.client 0, .call (.registerAgent 0 0)), (.client 0, .step), (.client 0, .ret),
   (.client 0, .call (.scheduleAgent 0 "a")), (.client 0, .step),
   (.client 0, .call (.start 0)), (.client 0, .step), (.client 0, .step),
   (.client 0, .step)] ++
  List.replicate 8 (.worker 0, .step) ++
  [(.client 1, .call (.unregisterAgent 0 "a")), (.client 1, .step), (.client 1, .ret),
   (.client 1, .call (.registerAgent 0 0)), (.client 1, .step),
   (.worker 0, .raise), (.worker 0, .step), (.client 1, .ret),
   (.client 0, .call (.scheduleAgent 0 "a")), (.client 0, .step)] ++
  List.replicate 8 (.worker 0, .step)

theorem execute_after_raise :
    ¬ ∀ s, Reachable (fun _ ch _ => (ch.registersOnly 0 0 && ch.keepsState 0) = true) s →
      ∀ l₁ l₂ l₃, s.history 0 = l₁ ++ .raised :: l₂ ++ .execute :: l₃ →
        ∃ l₄ l₅ l₆, l₂ = l₄ ++ .shutdown :: l₅ ++ .init :: l₆ := by
  intro h
  obtain ⟨s, hs, hp⟩ := @reach_of_run
    (fun _ ch _ => (ch.registersOnly 0 0 && ch.keepsState 0) = true) (fun _ => "a")
    raiseDuringReregister
    (fun s => s.history 0 == [.init, .initialized, .execute, .shutdown, .init, .raised,
      .initialized, .execute])
    (fun _ q hq => (by decide : ∀ q ∈ raiseDuringReregister,
      (q.2.registersOnly 0 0 && q.2.keepsState 0) = true) q hq) (by decide)
  obtain ⟨l₄, l₅, l₆, e⟩ := h s hs [.init, .initialized, .execute, .shutdown, .init]
    [.initialized] [] (by simpa using hp)
  have : Event.shutdown ∈ [Event.initialized] := by simp [e]
  simp at this

/-- When every `RegisterAgent(a)` is on `o₀` and no callback sets `a`'s state: between a raise of
`a`'s `Execute` and any later `Execute` of `a`, an `Initialize` of `a` returns; while none has
returned since the raise, `a` is `FAILED` or `COMPLETED` once the worker has handled the raise;
and from `FAILED` only the return of an `Initialize` or a `Shutdown` of `a` moves `a`. -/
theorem failed_until_initialized {a o₀ : Nat} {s : Sys}
    (hs : Reachable (fun _ ch _ => (ch.registersOnly a o₀ && ch.keepsState a) = true) s) :
    (∀ l₁ l₂ l₃, s.history a = l₁ ++ .raised :: l₂ ++ .execute :: l₃ → .initialized ∈ l₂) ∧
      (latched (s.history a) = true → (s.orchs o₀).loop ≠ some (.dispatchEnd a false) →
        s.state a = .failed ∨ s.state a = .completed) ∧
      ∀ t ch s', s.step t ch = some s' → ch.keepsState a = true → s.state a = .failed →
        s'.state a = .failed ∨ ∃ o below,
          (s.stack t = .user o a .init :: below ∧ s'.state a = .idle) ∨
            (s.stack t = .user o a .shutdown :: below ∧ s'.state a = .completed) := by
  refine ⟨hs.executesUnlatched fun _ _ _ h => h, fun hL hne => ?_, fun t ch s' h hk hf =>
    Sys.failed_step (hs.dispatchInv fun _ _ _ h => h) (hs.confinedKeeping fun _ _ _ h => h) hk h hf⟩
  have hok := hs.latchInv (fun _ _ _ h => h) hL
  simp only [latchOk, Bool.or_eq_true, beq_iff_eq, Bool.and_eq_true] at hok
  exact (hok.resolve_left hne).2 |> AgentState.settled_eq_true.1

theorem failed_until_initialized_raiseDuringReregister :
    ∃ s, Reachable (fun _ ch _ => (ch.registersOnly 0 0 && ch.keepsState 0) = true) s ∧
      s.history 0 = [.init, .initialized, .execute, .shutdown, .init, .raised, .initialized,
        .execute] ∧
      (∀ l₁ l₂ l₃, s.history 0 = l₁ ++ .raised :: l₂ ++ .execute :: l₃ → .initialized ∈ l₂) ∧
      (latched (s.history 0) = true → (s.orchs 0).loop ≠ some (.dispatchEnd 0 false) →
        s.state 0 = .failed ∨ s.state 0 = .completed) ∧
      ∀ t ch s', s.step t ch = some s' → ch.keepsState 0 = true → s.state 0 = .failed →
        s'.state 0 = .failed ∨ ∃ o below,
          (s.stack t = .user o 0 .init :: below ∧ s'.state 0 = .idle) ∨
            (s.stack t = .user o 0 .shutdown :: below ∧ s'.state 0 = .completed) := by
  obtain ⟨s, hs, hp⟩ := @reach_of_run
    (fun _ ch _ => (ch.registersOnly 0 0 && ch.keepsState 0) = true) (fun _ => "a")
    raiseDuringReregister
    (fun s => s.history 0 == [.init, .initialized, .execute, .shutdown, .init, .raised,
      .initialized, .execute])
    (fun _ q hq => (by decide : ∀ q ∈ raiseDuringReregister,
      (q.2.registersOnly 0 0 && q.2.keepsState 0) = true) q hq) (by decide)
  exact ⟨s, hs, by simpa using hp, failed_until_initialized hs⟩

/-! ### Faults in callbacks -/

/-- Agent 0 is registered, two messages for it are routed, and the worker is started; it drains
both and calls `OnMessage` with the first, which raises. -/
def onMessageRaises : List (Tid × Choice) :=
  [(.client 0, .call (.registerAgent 0 0)), (.client 0, .step), (.client 0, .ret),
   (.client 0, .call (.routeMessage 0 ⟨"", "a", "", "", 0⟩)), (.client 0, .step),
   (.client 0, .call (.routeMessage 0 ⟨"", "a", "", "", 0⟩)), (.client 0, .step),
   (.client 0, .call (.start 0)), (.client 0, .step), (.client 0, .step),
   (.client 0, .step)] ++
  List.replicate 4 (.worker 0, .step) ++ [(.worker 0, .raise)]

/-- The raise of `OnMessage` is not contained: the run ends in `std::terminate`, no thread steps
again, and the second message of the drained batch is never looked up. -/
theorem onMessage_raise_terminates :
    ∃ s, run (Sys.init fun _ => "a") onMessageRaises = some s ∧ s.aborted = true ∧
      (∀ t ch, s.step t ch = none) ∧ (s.orchs 0).enqueued.length = 2 ∧
      (s.orchs 0).processed.length = 1 ∧ (s.orchs 0).onMessageCalls.length = 1 := by
  have h : (run (Sys.init fun _ => "a") onMessageRaises).map (fun s =>
      decide (s.aborted = true ∧ (s.orchs 0).enqueued.length = 2 ∧
        (s.orchs 0).processed.length = 1 ∧ (s.orchs 0).onMessageCalls.length = 1)) =
      some true := by decide
  obtain ⟨s, hs, hp⟩ := Option.map_eq_some'.1 h
  obtain ⟨ha, hrest⟩ := of_decide_eq_true hp
  exact ⟨s, hs, ha, fun _ => Sys.step_aborted ha, hrest⟩

/-- Agent 0 is registered and scheduled, and the worker runs until it waits on `Execute`. -/
def executeBegun : List (Tid × Choice) :=
  [(.client 0, .call (.registerAgent 0 0)), (.client 0, .step), (.client 0, .ret),
   (.client 0, .call (.scheduleAgent 0 "a")), (.client 0, .step),
   (.client 0, .call (.start 0)), (.client 0, .step), (.client 0, .step),
   (.client 0, .step)] ++
  List.replicate 8 (.worker 0, .step)

/-! ### `RUNNING` is a dispatch in progress -/

/-- The positions of a worker from its `set_state(RUNNING)` of `a` to its next write of the
state of `a`. -/
def LoopPc.executing (a : Nat) : LoopPc → Bool
  | .dispatchExec a' | .executeWait a' | .dispatchEnd a' _ => a' == a
  | _ => false

/-- The step is a call of `set_state(RUNNING)`. -/
def Choice.writesRunning : Choice → Bool
  | .call (.setState _ .running) => true
  | _ => false

namespace Sys

variable {s s' : Sys} {t : Tid} {ch : Choice}

/-- Every `RUNNING` agent is being executed by a worker, which has written `RUNNING` and has
not yet written the state after `Execute`. -/
def RunningInv (s : Sys) : Prop :=
  ∀ a, s.state a = .running → ∃ o, (s.orchs o).loop.any (LoopPc.executing a) = true

lemma runningInv_init (ids : Nat → String) : (init ids).RunningInv := fun _ h => by
  simp [init] at h

lemma call_state_running {c : Call} (hw : (Choice.call c).writesRunning = false) {a : Nat}
    (h : (s.call t c).state a = .running) : s.state a = .running := by
  unfold Sys.call at h
  split at h <;> (try split at h) <;> try exact h
  rename_i a' st
  by_cases ha : a = a'
  · subst ha
    cases st <;> simp_all [Choice.writesRunning]
  · simpa [Function.update_noteq ha] using h

lemma RunningInv.step (hi : s.RunningInv) (hj : s.WorkerJoinable) (hw : ch.writesRunning = false)
    (h : s.step t ch = some s') : s'.RunningInv := by
  intro a hr
  obtain ⟨-, ⟨c, rfl, rfl, -⟩ | ⟨o', a', cb, below, ok, -, -, hm⟩ | ⟨o', pc, below, -, -, hm⟩ |
    ⟨o', pc, rfl, -, hl, -, hm⟩⟩ := step_cases h
  · simpa using hi a (call_state_running hw hr)
  · -- a return writes `IDLE` or `COMPLETED`, and moves a worker only out of a wait
    rw [hm.state] at hr
    rcases callbackEffect_state (s := s) (a := a) a' cb ok with e | ⟨-, ⟨-, e⟩ | ⟨-, e⟩⟩ <;>
      rw [e] at hr <;> try cases hr
    obtain ⟨o, ho⟩ := hi a hr
    refine ⟨o, ?_⟩
    rcases resume_loop hm o with e | ⟨_, e, -⟩ | ⟨_, e, e'⟩ <;>
      simp only [callbackEffect_orchs] at e <;> simp_all [LoopPc.executing]
  · -- a method writes no state and begins a worker only where none is alive
    rw [hm.state] at hr
    obtain ⟨o, ho⟩ := hi a hr
    rcases loop_opStep hj hm o with e | ⟨e, -⟩
    · exact ⟨o, e ▸ ho⟩
    · simp [e] at ho
  · -- only `dispatchSet` writes `RUNNING`, and the worker's own dispatch is the only one it ends
    by_cases hst : s.state a = .running
    · obtain ⟨o, ho⟩ := hi a hst
      by_cases ho' : o = o'
      · subst ho'
        rw [hl] at ho
        cases hm <;> simp only [Option.any_some, LoopPc.executing, beq_iff_eq, reduceCtorEq] at ho
        · subst ho; exact ⟨o, by simp [LoopPc.executing]⟩
        · subst ho; cases ‹Bool› <;> simp at hr
      · exact ⟨o, by rwa [hm.orchs_of_ne ho']⟩
    · cases hm <;> simp [Function.update_apply, hst] at hr
      · exact ⟨o', by simp [hr, LoopPc.executing]⟩
      all_goals split_ifs at hr; exact absurd hr hst

end Sys

lemma Reachable.runningInv {s : Sys}
    (hs : Reachable (fun _ ch _ => ch.writesRunning = false) s) : s.RunningInv := by
  induction hs with
  | init ids => exact Sys.runningInv_init ids
  | step hs hw h ih => exact ih.step hs.workerJoinable hw h

/-- When no callback or client calls `set_state(RUNNING)`, an agent is `RUNNING` only while a
worker executes it: from the worker's `set_state(RUNNING)`, through `Execute`, to its write of
`IDLE` or `FAILED` after it. -/
theorem running_only_in_dispatch {s : Sys}
    (hs : Reachable (fun _ ch _ => ch.writesRunning = false) s) (a : Nat)
    (hr : s.state a = .running) :
    ∃ o, (s.orchs o).loop = some (.dispatchExec a) ∨ (s.orchs o).loop = some (.executeWait a) ∨
      ∃ ok, (s.orchs o).loop = some (.dispatchEnd a ok) := by
  obtain ⟨o, ho⟩ := hs.runningInv a hr
  refine ⟨o, ?_⟩
  rcases hl : (s.orchs o).loop with _ | (_ | _ | (_ | _) | _ | _ | _ | _ | _ | _ | _ | _ | _) <;>
    simp_all [LoopPc.executing]

theorem running_only_in_dispatch_executeBegun :
    ∃ s, Reachable (fun _ ch _ => ch.writesRunning = false) s ∧ s.state 0 = .running ∧
      ∃ o, (s.orchs o).loop = some (.dispatchExec 0) ∨ (s.orchs o).loop = some (.executeWait 0) ∨
        ∃ ok, (s.orchs o).loop = some (.dispatchEnd 0 ok) := by
  obtain ⟨s, hs, hp⟩ := @reach_of_run (fun _ ch _ => ch.writesRunning = false) (fun _ => "a")
    executeBegun (fun s => s.state 0 == .running)
    (fun _ q hq => (by decide : ∀ q ∈ executeBegun, q.2.writesRunning = false) q hq) (by decide)
  have hr : s.state 0 = .running := by simpa using hp
  exact ⟨s, hs, hr, running_only_in_dispatch hs 0 hr⟩

end OpenCog

/-
# Two workers can execute one agent

`OrchestratorLoop` reads `state() == IDLE`, writes `RUNNING` and calls `Execute` in three
steps, and `RegisterAgent` does not refuse an agent that another orchestrator holds.  Two
workers that hold the same agent both pass the check, and both run its `Execute`
(`concurrent_execute`).

What one orchestrator does to an agent that only it names is confined to it: when every
`RegisterAgent` of an agent is on one orchestrator, no other orchestrator ever names the agent
(`Confined`).  Every `Execute` in progress is the last frame of its orchestrator's worker, which
waits for it (`ExecAt`), and no stack holds two (`ExecOnce`); `Orchestrator/Lifecycle.lean`
builds on these.
-/
import OpenCog.Orchestrator.Messages

namespace OpenCog

/-- The step does not call `RegisterAgent(a)` on an orchestrator other than `o₀`. -/
def Choice.registersOnly (a o₀ : Nat) : Choice → Bool
  | .call (.registerAgent o a') => a' != a || o == o₀
  | _ => true

/-- An `Execute` callback. -/
def Frame.isExecute : Frame → Bool
  | .user _ _ .execute => true
  | _ => false

/-- The agent that a worker's position names. -/
def LoopPc.agent? : LoopPc → Option Nat
  | .deliverCall a _ _ | .dispatchCheck a | .dispatchSet a | .dispatchExec a | .executeWait a
  | .dispatchEnd a _ => some a
  | _ => none

namespace Sys

variable {s s' : Sys} {t : Tid} {ch : Choice}

/-! ### Who moves a worker -/

/-- A field of every orchestrator after a step that changes orchestrator `o'` to `q` and keeps
that field. -/
lemma orch_keep {β : Type} (f : Orch → β) {o o' : Nat} {q : Orch}
    (hor : s'.orchs = Function.update s.orchs o' q) (hq : f q = f (s.orchs o')) :
    f (s'.orchs o) = f (s.orchs o) := by
  rw [hor]
  by_cases ho : o = o'
  · subst ho; simpa using hq
  · simp [ho]

/-- A step that changes orchestrator `o'` to `q` leaves every other orchestrator. -/
lemma orch_update_or {o o' : Nat} {q : Orch} {P : Prop}
    (hor : s'.orchs = Function.update s.orchs o' q) (hP : o = o' → s'.orchs o = q → P) :
    s'.orchs o = s.orchs o ∨ P := by
  by_cases ho : o = o'
  · subst ho
    exact .inr (hP rfl (by simp [hor]))
  · exact .inl (by simp [hor, ho])

lemma loop_update_or {o o' : Nat} {q : Orch} {P : Prop}
    (hor : s'.orchs = Function.update s.orchs o' q) (hP : o = o' → s'.orchs o = q → P) :
    (s'.orchs o).loop = (s.orchs o).loop ∨ P :=
  (orch_update_or hor hP).imp_left (congrArg Orch.loop)

lemma agents_update_or {o o' : Nat} {q : Orch} {P : Prop}
    (hor : s'.orchs = Function.update s.orchs o' q) (hP : o = o' → s'.orchs o = q → P) :
    (s'.orchs o).agents = (s.orchs o).agents ∨ P :=
  (orch_update_or hor hP).imp_left (congrArg Orch.agents)

/-- The methods move no worker, but `Start` begins one where none is alive. -/
lemma loop_opStep (hj : s.WorkerJoinable) {o' : Nat} {pc : OpPc} {below : List Frame}
    (h : OpMove s t o' below pc s') (o : Nat) :
    (s'.orchs o).loop = (s.orchs o).loop ∨
      ((s.orchs o).loop = none ∧ (s'.orchs o).loop = some .top) := by
  by_cases ho : o = o'
  · subst ho
    cases h with
    | startThread hj' =>
      exact .inr ⟨Option.not_isSome_iff_eq_none.1 fun h' => by simp [hj o h'] at hj', by simp⟩
    | _ => exact .inl (by simp)
  · exact .inl (by rw [h.orchs_of_ne ho])

/-- The worker changes only its own orchestrator. -/
lemma loopStep_orchs {o : Nat} {pc : LoopPc} (h : LoopMove s o pc s') :
    s'.orchs = Function.update s.orchs o (s'.orchs o) := by
  funext o'
  by_cases ho : o' = o
  · subst ho; simp
  · simp [ho, h.orchs_of_ne ho]

/-- Only the worker of `o` moves its position, from an empty stack or as it pops its last
frame; and `Start` begins a worker where none is alive. -/
lemma loop_step (hj : s.WorkerJoinable) (h : s.step t ch = some s') (o : Nat) :
    (s'.orchs o).loop = (s.orchs o).loop ∨
      (t = .worker o ∧ (s.stack t = [] ∨ s'.stack t = [])) ∨
      ((s.orchs o).loop = none ∧ (s'.orchs o).loop = some .top) := by
  obtain ⟨-, ⟨c, -, rfl, -⟩ | ⟨o', a, cb, below, ok, -, -, hm⟩ | ⟨o', pc, below, -, -, hm⟩ |
    ⟨o', pc, rfl, hs, -, -, hm⟩⟩ := step_cases h
  · simp
  · rw [← callbackEffect_orchs s a cb ok]
    generalize s.callbackEffect a cb ok = r at hm ⊢
    cases hm with
    | onMessageReturn ht | executeEnd ht =>
      subst ht
      exact loop_update_or rfl fun ho _ => by subst ho; exact .inl ⟨rfl, .inr (by simp)⟩
    | _ => first
      | exact .inl rfl
      | exact .inl (orch_keep Orch.loop rfl rfl)
  · exact (loop_opStep hj hm o).imp_right .inr
  · exact loop_update_or (loopStep_orchs hm) fun ho _ => .inl ⟨ho ▸ rfl, .inl hs⟩

/-! ### An `Execute` in progress -/

/-- A nonempty suffix ends with the last frame of the stack. -/
lemma getLast?_of_suffix {l l' : List Frame} (h : l <:+ l') (hl : l ≠ []) :
    l.getLast? = l'.getLast? := by
  obtain ⟨pre, rfl⟩ := h
  obtain ⟨x, hx⟩ := Option.ne_none_iff_exists'.1 (mt List.getLast?_eq_none_iff.1 hl)
  rw [List.getLast?_append, hx]
  rfl

/-- Every `Execute` in progress is the last frame of its orchestrator's worker, which waits
for it. -/
def ExecAt (s : Sys) : Prop :=
  ∀ t o a, .user o a .execute ∈ s.stack t →
    t = .worker o ∧ (s.orchs o).loop = some (.executeWait a) ∧
      (s.stack t).getLast? = some (.user o a .execute)

/-- No stack holds two `Execute` frames. -/
def ExecOnce (s : Sys) : Prop :=
  ∀ t, (s.stack t).countP Frame.isExecute ≤ 1

lemma execAt_init (ids : Nat → String) : (init ids).ExecAt := fun _ _ _ h => by
  simp [init] at h

lemma execOnce_init (ids : Nat → String) : (init ids).ExecOnce := fun _ => by
  simp [init]

lemma ExecOnce.step (hi : s.ExecOnce) (h : s.step t ch = some s') : s'.ExecOnce := by
  intro t'
  by_cases ht : t' = t
  · subst ht
    have hc := hi t'
    rcases step_stack h with e | ⟨c, o, pc, -, -, e, -⟩ | e | ⟨o, pc, pc', below, hs, e⟩ |
      ⟨o, pc, a, cb, pc', below, hs, e, -, hcb⟩ | ⟨o, a, cb, -, -, e, -⟩
    · rwa [e]
    · simpa [e, Frame.isExecute] using hc
    · exact ((e.sublist.trans (List.tail_sublist _)).countP_le _).trans hc
    · simpa [e, hs, Frame.isExecute] using hc
    · cases cb <;> simp_all [Frame.isExecute]
    · rw [e, List.countP_singleton]
      split <;> decide
  · rw [stack_of_ne h ht]
    exact hi t'

lemma ExecAt.step (hi : s.ExecAt) (hj : s.WorkerJoinable) (h : s.step t ch = some s') :
    s'.ExecAt := by
  intro t' o a hE
  by_cases hold : Frame.user o a .execute ∈ s.stack t'
  · obtain ⟨rfl, hl, hlast⟩ := hi t' o a hold
    refine ⟨rfl, ?_, ?_⟩
    · rcases loop_step hj h o with e | ⟨rfl, e | e⟩ | ⟨e, -⟩
      · rw [e, hl]
      · simp [e] at hold
      · simp [e] at hE
      · simp [e] at hl
    · rw [← hlast]
      by_cases ht : Tid.worker o = t
      · subst ht
        -- the step keeps a nonempty suffix of the stack under its top
        have hne : ∀ l, l <:+ s.stack (.worker o) → .user o a .execute ∈ l →
            l.getLast? = (s.stack (.worker o)).getLast? := fun l hl hm =>
          getLast?_of_suffix hl (List.ne_nil_of_mem hm)
        rcases step_stack h with e | ⟨c, o', pc, -, -, e, -⟩ | e | ⟨o', pc, pc', below, hs, e⟩ |
          ⟨o', pc, a', cb, pc', below, hs, e, -, -⟩ | ⟨o', a', cb, -, hs, e, -⟩
        · rw [e]
        · rw [e]
          exact (getLast?_of_suffix (List.suffix_cons _ _) (List.ne_nil_of_mem hold)).symm
        · exact hne _ (e.trans (List.tail_suffix _)) hE
        · have hb : Frame.user o a .execute ∈ below := by simpa [hs] using hold
          rw [e, ← hne below (by rw [hs]; exact List.suffix_cons _ _) hb]
          exact (getLast?_of_suffix (List.suffix_cons _ _) (List.ne_nil_of_mem hb)).symm
        · have hb : Frame.user o a .execute ∈ below := by simpa [hs] using hold
          rw [e, ← hne below (by rw [hs]; exact List.suffix_cons _ _) hb]
          exact (getLast?_of_suffix ((List.suffix_cons _ _).trans (List.suffix_cons _ _))
            (List.ne_nil_of_mem hb)).symm
        · simp [hs] at hold
      · rw [stack_of_ne h ht]
  · have ht : t' = t := by
      by_contra ht
      exact hold (stack_of_ne h ht ▸ hE)
    subst ht
    rcases step_stack h with e | ⟨c, o', pc, -, -, e, -⟩ | e | ⟨o', pc, pc', below, hs, e⟩ |
      ⟨o', pc, a', cb, pc', below, hs, e, -, hcb⟩ | ⟨o', a', cb, rfl, -, e, hx⟩
    · exact absurd (e ▸ hE) hold
    · rw [e] at hE
      exact absurd ((List.mem_cons.1 hE).resolve_left nofun) hold
    · exact absurd (List.mem_of_mem_tail (e.subset hE)) hold
    · rw [e] at hE
      exact absurd (by simpa [hs] using hE) hold
    · rw [e] at hE
      rcases List.mem_cons.1 hE with he | hE
      · cases he
        exact absurd rfl hcb
      · exact absurd (by simpa [hs] using hE) hold
    · rw [e, List.mem_singleton] at hE
      cases hE
      exact ⟨rfl, hx rfl, by simp [e]⟩

/-- An `Execute` on top of a stack is the whole stack of its orchestrator's worker, which
waits for it. -/
lemma ExecAt.top_execute (hx : s.ExecAt) (hn : s.ExecOnce) {o a : Nat} {below : List Frame}
    (hs : s.stack t = .user o a .execute :: below) :
    t = .worker o ∧ below = [] ∧ (s.orchs o).loop = some (.executeWait a) := by
  obtain ⟨ht, hl, hlast⟩ := hx t o a (by simp [hs])
  refine ⟨ht, ?_, hl⟩
  by_contra hne
  have hm : Frame.user o a .execute ∈ below := List.mem_of_getLast?_eq_some
    ((getLast?_of_suffix (List.suffix_cons _ _) hne).trans (hs ▸ hlast))
  have hpos := List.countP_pos_iff.2 ⟨_, hm, (rfl : Frame.isExecute (.user o a .execute) = true)⟩
  have := hn t
  rw [hs, List.countP_cons] at this
  simp only [Frame.isExecute, if_true] at this
  omega

/-! ### An agent that one orchestrator holds -/

/-- Every registry after a step: kept, with one id erased, or with the insertion of the
`RegisterAgent` that the stepping thread is in. -/
lemma agents_cases (h : s.step t ch = some s') (o : Nat) :
    (s'.orchs o).agents = (s.orchs o).agents ∨
      (∃ id, (s'.orchs o).agents = (s.orchs o).agents.erase id) ∨
      ∃ a below, s.stack t = .op o (.registerAgent a) :: below ∧
        (s'.orchs o).agents = (s.orchs o).agents.insert (s.agentId a) a := by
  obtain ⟨-, ⟨c, -, rfl, -⟩ | ⟨o', a, cb, below, ok, -, -, hm⟩ | ⟨o', pc, below, hs, -, hm⟩ |
    ⟨o', pc, rfl, -, -, -, hm⟩⟩ := step_cases h
  · simp
  · rw [← callbackEffect_orchs s a cb ok]
    generalize s.callbackEffect a cb ok = r at hm ⊢
    cases hm with
    | @unregisterShutdown o'' _ id =>
      cases ok
      · exact .inl (orch_keep Orch.agents rfl (by simp))
      · exact agents_update_or rfl fun ho hq => by subst ho; exact .inl ⟨id, by rw [hq]; simp⟩
    | _ => first
      | exact .inl rfl
      | exact .inl (orch_keep Orch.agents rfl rfl)
  · by_cases ho : o = o'
    · subst ho
      cases hm with
      | registerEnter => exact .inr (.inr ⟨_, _, hs, by simp⟩)
      | _ => exact .inl (by simp)
    · exact .inl (by rw [hm.orchs_of_ne ho])
  · exact .inl (orch_keep Orch.agents (loopStep_orchs hm) (by cases hm <;> simp))

/-- Agent `a` is named by no orchestrator but `o₀`: no `RegisterAgent(a)` runs on another,
no other registry holds it, and no other worker is on its way to it. -/
structure Confined (a o₀ : Nat) (s : Sys) : Prop where
  register : ∀ t o, .op o (.registerAgent a) ∈ s.stack t → o = o₀
  agents : ∀ o id, (s.orchs o).agents.lookup id = some a → o = o₀
  loop : ∀ o, (s.orchs o).loop.bind LoopPc.agent? = some a → o = o₀

lemma confined_init (a o₀ : Nat) (ids : Nat → String) : (init ids).Confined a o₀ :=
  ⟨by simp [init], by simp [init, Orch.new], by simp [init, Orch.new]⟩

/-- The worker positions after a step that changes orchestrator `o'` to `q`. -/
lemma confinedLoop_of_update {a o₀ o' : Nat} {q : Orch}
    (hl : ∀ o, (s.orchs o).loop.bind LoopPc.agent? = some a → o = o₀)
    (hor : s'.orchs = Function.update s.orchs o' q)
    (hq : q.loop.bind LoopPc.agent? = some a → o' = o₀) :
    ∀ o, (s'.orchs o).loop.bind LoopPc.agent? = some a → o = o₀ := fun o h => by
  by_cases ho : o = o'
  · subst ho
    exact hq (by simpa [hor] using h)
  · exact hl o (by simpa [hor, ho] using h)

/-- After a step, a `RegisterAgent(a)` frame is an old one or the call just made, which the
admitted choices put on `o₀`. -/
lemma Confined.step_register {a o₀ : Nat} (hi : s.Confined a o₀)
    (hadm : ch.registersOnly a o₀ = true) (h : s.step t ch = some s') :
    ∀ t o, .op o (.registerAgent a) ∈ s'.stack t → o = o₀ := by
  intro t' o hF
  by_cases hold : Frame.op o (.registerAgent a) ∈ s.stack t'
  · exact hi.register t' o hold
  have ht : t' = t := by
    by_contra ht
    exact hold (stack_of_ne h ht ▸ hF)
  subst ht
  obtain ⟨-, ⟨c, rfl, rfl, -⟩ | ⟨o', a', cb, below, ok, hs, -, hm⟩ | ⟨o', pc, below, hs, -, hm⟩ |
    ⟨o', pc, rfl, hs, -, -, hm⟩⟩ := step_cases h
  · unfold Sys.call at hF
    split at hF <;> (try split at hF) <;> simp_all [Choice.registersOnly]
  · have hs' : (s.callbackEffect a' cb ok).stack t' = .user o' a' cb :: below := by simpa using hs
    generalize s.callbackEffect a' cb ok = r at hs' hm
    cases hm <;> simp_all
  · cases hm <;> simp_all
  · cases hm <;> simp_all

/-- After a step, a registry entry for `a` is an old one or the insertion of a
`RegisterAgent(a)`, which runs on `o₀`. -/
lemma Confined.step_agents {a o₀ : Nat} (hi : s.Confined a o₀) (h : s.step t ch = some s') :
    ∀ o id, (s'.orchs o).agents.lookup id = some a → o = o₀ := by
  intro o id hl
  rcases agents_cases h o with e | ⟨id', e⟩ | ⟨a', below, hs, e⟩
  · exact hi.agents o id (e ▸ hl)
  · rw [e] at hl
    by_cases hid : id = id'
    · subst hid
      rw [AList.lookup_erase] at hl
      cases hl
    · exact hi.agents o id (by rwa [AList.lookup_erase_ne hid] at hl)
  · rw [e] at hl
    by_cases hid : id = s.agentId a'
    · rw [hid, AList.lookup_insert] at hl
      cases hl
      exact hi.register t o (by simp [hs])
    · exact hi.agents o id (by rwa [AList.lookup_insert_ne hid] at hl)

/-- After a step, a worker on its way to `a` was on its way to it already, or has just looked
it up in its registry, which holds `a` only on `o₀`. -/
lemma Confined.step_loop {a o₀ : Nat} (hi : s.Confined a o₀) (h : s.step t ch = some s') :
    ∀ o, (s'.orchs o).loop.bind LoopPc.agent? = some a → o = o₀ := by
  obtain ⟨-, ⟨c, -, rfl, -⟩ | ⟨o', a', cb, below, ok, -, -, hm⟩ | ⟨o', pc, below, -, -, hm⟩ |
    ⟨o', pc, rfl, -, hl, -, hm⟩⟩ := step_cases h
  · simpa using hi.loop
  · have hl := hi.loop
    rw [← callbackEffect_orchs s a' cb ok] at hl
    generalize s.callbackEffect a' cb ok = r at hl hm
    cases hm with
    | executeEnd _ hx =>
      -- the handler of an `Execute` names the agent the worker was executing
      exact confinedLoop_of_update hl rfl fun e => hl _ (by
        rw [hx]; simpa [LoopPc.agent?] using e)
    | _ => first
      | exact hl
      | exact confinedLoop_of_update hl rfl (hl _)
      | exact confinedLoop_of_update hl rfl fun e => by simp [LoopPc.agent?] at e
  · cases hm <;> first
      | exact hi.loop
      | exact confinedLoop_of_update hi.loop rfl (hi.loop _)
      | exact confinedLoop_of_update hi.loop rfl fun e => by simp [LoopPc.agent?] at e
  · -- the worker names an agent it has found in its registry, or one it named already
    cases hm <;> refine confinedLoop_of_update hi.loop rfl fun e => ?_ <;>
      simp [LoopPc.agent?] at e <;> subst e
    all_goals first
      | exact hi.agents _ _ ‹_›
      | exact hi.loop _ (by simp [hl, LoopPc.agent?])

lemma Confined.step {a o₀ : Nat} (hi : s.Confined a o₀) (hadm : ch.registersOnly a o₀ = true)
    (h : s.step t ch = some s') : s'.Confined a o₀ :=
  ⟨hi.step_register hadm h, hi.step_agents h, hi.step_loop h⟩

end Sys

section Runs

variable {adm : Tid → Choice → Sys → Prop} {s : Sys}

lemma Reachable.execAt (hs : Reachable adm s) : s.ExecAt := by
  induction hs with
  | init ids => exact Sys.execAt_init ids
  | step hs _ h ih => exact ih.step hs.workerJoinable h

lemma Reachable.execOnce (hs : Reachable adm s) : s.ExecOnce := by
  induction hs with
  | init ids => exact Sys.execOnce_init ids
  | step _ _ h ih => exact ih.step h

lemma Reachable.confined {a o₀ : Nat} (hadm : ∀ t ch s, adm t ch s → ch.registersOnly a o₀ = true)
    (hs : Reachable adm s) : s.Confined a o₀ := by
  induction hs with
  | init ids => exact Sys.confined_init a o₀ ids
  | step _ ha h ih => exact ih.step (hadm _ _ _ ha) h

end Runs

/-! ### Two `Execute`s of one agent -/

/-- Agent 0 is registered on orchestrators 0 and 1 and scheduled on both; each worker looks
it up and reads `IDLE` before either writes `RUNNING`, and both call `Execute`. -/
def twoWorkersExecute : List (Tid × Choice) :=
  [(.client 0, .call (.registerAgent 0 0)), (.client 0, .step), (.client 0, .ret),
   (.client 0, .call (.registerAgent 1 0)), (.client 0, .step), (.client 0, .ret),
   (.client 0, .call (.scheduleAgent 0 "a")), (.client 0, .step),
   (.client 0, .call (.scheduleAgent 1 "a")), (.client 0, .step),
   (.client 0, .call (.start 0)), (.client 0, .step), (.client 0, .step), (.client 0, .step),
   (.client 0, .call (.start 1)), (.client 0, .step), (.client 0, .step), (.client 0, .step)] ++
  List.replicate 6 (.worker 0, .step) ++ List.replicate 6 (.worker 1, .step) ++
  List.replicate 2 (.worker 0, .step) ++ List.replicate 2 (.worker 1, .step)

theorem concurrent_execute :
    ¬ ∀ s, Reachable anyStep s → ∀ t₁ t₂ o₁ o₂, Frame.user o₁ 0 .execute ∈ s.stack t₁ →
      Frame.user o₂ 0 .execute ∈ s.stack t₂ → t₁ = t₂ := by
  intro h
  obtain ⟨s, hs, hp⟩ := @reach_of_run anyStep (fun _ => "a") twoWorkersExecute
    (fun s => s.stack (.worker 0) == [.user 0 0 .execute] &&
      s.stack (.worker 1) == [.user 1 0 .execute]) (fun _ _ _ => trivial) (by decide)
  simp only [Bool.and_eq_true, beq_iff_eq] at hp
  exact absurd (h s hs (.worker 0) (.worker 1) 0 1 (by simp [hp.1]) (by simp [hp.2])) (by decide)

end OpenCog

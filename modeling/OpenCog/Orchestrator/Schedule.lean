/-
# The dispatch law

`ScheduleAgent(id)` pushes `id` on `scheduled_agents_` under `messages_mutex_`, and each
iteration of `OrchestratorLoop` pops at most one entry and dispatches it: `GetAgent`, the check
`state() == IDLE`, `set_state(RUNNING)` and `Execute`.  The loop keeps the popped id in a local
`std::string` that starts empty, and reads the empty string as "nothing popped".

What a step shows of one orchestrator's dispatch is an observation (`DispatchObs`, read off the
state before the step by `Sys.dispatchObs`), and a run shows the list of them (`obsRun`).  The
worker's position refines a small automaton over observations (`Phase.next`): an iteration
begins, pops an entry or finds the queue empty, looks the entry up unless it is empty, checks
the agent found, and executes it iff it is `IDLE`.  `dispatch_step` says that one step of the
system is one move of the automaton and keeps the queue a FIFO of the scheduled ids;
`dispatch_law` lifts both to every run, with the `Execute`s counted against the checks passed.
`empty_id_skipped` runs the case the sentinel gets wrong: an agent whose id is empty, registered
and `IDLE`, is popped and never executed.
-/
import OpenCog.Orchestrator.Lifecycle

namespace OpenCog

/-- What a step shows of the dispatch of one orchestrator. -/
inductive DispatchObs where
  /-- `ScheduleAgent(id)` pushes `id`. -/
  | scheduled (id : String)
  /-- The worker begins an iteration of `while (running_)`. -/
  | began
  /-- The worker pops an entry, or finds the queue empty. -/
  | popped (entry : Option String)
  /-- `GetAgent(id)` in the worker finds an agent, or none. -/
  | found (id : String) (a : Option Nat)
  /-- The check `state() == IDLE` on agent `a`. -/
  | checked (a : Nat) (idle : Bool)
  /-- `agent->Execute()` begins. -/
  | executed (a : Nat)
  deriving DecidableEq, Repr

/-- The ids that observations push, in order. -/
def scheduledIds (obs : List DispatchObs) : List String :=
  obs.filterMap fun | .scheduled id => some id | _ => none

/-- The entries that observations pop, in order. -/
def poppedIds (obs : List DispatchObs) : List String :=
  obs.filterMap fun | .popped e => e | _ => none

/-- The agents whose check passes, in order. -/
def admittedAgents (obs : List DispatchObs) : List Nat :=
  obs.filterMap fun | .checked a true => some a | _ => none

/-- The agents whose `Execute` begins, in order. -/
def executedAgents (obs : List DispatchObs) : List Nat :=
  obs.filterMap fun | .executed a => some a | _ => none

/-! ### The dispatch automaton -/

/-- Where the worker's dispatch stands. -/
inductive Phase where
  /-- Between iterations, or in an iteration after its pop. -/
  | between
  /-- In an iteration, before its pop. -/
  | opened
  /-- An entry is popped and is looked up next. -/
  | popped (id : String)
  /-- Agent `a` is found and is checked next. -/
  | found (a : Nat)
  /-- Agent `a` has passed the check, and its `Execute` is next. -/
  | passed (a : Nat)
  deriving DecidableEq, Repr

/-- One move of the dispatch on an observation; `none` when it cannot come next.  An empty
entry is dropped as if nothing had been popped. -/
def Phase.next : Phase → DispatchObs → Option Phase
  | p, .scheduled _ => some p
  | .between, .began => some .opened
  | .opened, .popped none => some .between
  | .opened, .popped (some id) => some (if id = "" then .between else .popped id)
  | .popped id, .found id' r => if id' = id then some (r.elim .between .found) else none
  | .found a, .checked a' b => if a' = a then some (if b then .passed a else .between) else none
  | .passed a, .executed a' => if a' = a then some .between else none
  | _, _ => none

/-- The moves on a list of observations. -/
def Phase.run : Phase → List DispatchObs → Option Phase
  | p, [] => some p
  | p, x :: xs => (p.next x).bind fun p' => p'.run xs

/-- The `Execute` that a phase still owes. -/
def Phase.pending : Phase → List Nat
  | .passed a => [a]
  | _ => []

/-- The phase of a worker at a position. -/
def LoopPc.phase : LoopPc → Phase
  | .top | .executeWait _ | .dispatchEnd _ _ => .between
  | .dispatchGet id => .popped id
  | .dispatchCheck a => .found a
  | .dispatchSet a | .dispatchExec a => .passed a
  | _ => .opened

/-- The phase of a worker, `between` when no worker thread is alive. -/
def phaseOf (pc : Option LoopPc) : Phase :=
  pc.elim .between LoopPc.phase

@[simp] lemma scheduledIds_append (xs ys : List DispatchObs) :
    scheduledIds (xs ++ ys) = scheduledIds xs ++ scheduledIds ys := List.filterMap_append _ _ _

@[simp] lemma poppedIds_append (xs ys : List DispatchObs) :
    poppedIds (xs ++ ys) = poppedIds xs ++ poppedIds ys := List.filterMap_append _ _ _

lemma Phase.run_append (p : Phase) (xs ys : List DispatchObs) :
    p.run (xs ++ ys) = (p.run xs).bind fun p' => p'.run ys := by
  induction xs generalizing p with
  | nil => rfl
  | cons x xs ih =>
    simp only [List.cons_append, Phase.run]
    cases p.next x <;> simp [ih]

@[simp] lemma executedAgents_append (xs ys : List DispatchObs) :
    executedAgents (xs ++ ys) = executedAgents xs ++ executedAgents ys := List.filterMap_append _ _ _

@[simp] lemma admittedAgents_append (xs ys : List DispatchObs) :
    admittedAgents (xs ++ ys) = admittedAgents xs ++ admittedAgents ys := List.filterMap_append _ _ _

/-- One move: the `Execute` it begins is the one the phase owed, and a passed check is owed. -/
lemma Phase.next_pending {p p' : Phase} {x : DispatchObs} (h : p.next x = some p') :
    executedAgents [x] ++ p'.pending = p.pending ++ admittedAgents [x] := by
  rcases x with _ | _ | (_ | _) | ⟨_, _ | _⟩ | ⟨_, _ | _⟩ | _ <;> cases p <;>
    simp only [Phase.next] at h <;> (repeat' split at h) <;>
    simp only [Option.some.injEq, reduceCtorEq] at h <;> subst_vars <;>
    simp_all [executedAgents, admittedAgents, Phase.pending]

/-- Along accepted observations, the `Execute`s begun are the checks passed, in order, up to
the one owed at either end. -/
lemma Phase.executed_of_run {obs : List DispatchObs} :
    ∀ {p p' : Phase}, p.run obs = some p' →
      executedAgents obs ++ p'.pending = p.pending ++ admittedAgents obs := by
  induction obs with
  | nil => intro p p' h; cases h; simp [executedAgents, admittedAgents]
  | cons x xs ih =>
    intro p p' h
    obtain ⟨p₁, h₁, h₂⟩ := Option.bind_eq_some.1 h
    calc executedAgents ([x] ++ xs) ++ p'.pending
        = executedAgents [x] ++ (executedAgents xs ++ p'.pending) := by
          rw [executedAgents_append, List.append_assoc]
      _ = executedAgents [x] ++ p₁.pending ++ admittedAgents xs := by rw [ih h₂, List.append_assoc]
      _ = p.pending ++ admittedAgents ([x] ++ xs) := by
        rw [Phase.next_pending h₁, admittedAgents_append, List.append_assoc]

namespace Sys

/-- What the step of thread `t` from `s` shows of the dispatch of orchestrator `o`. -/
def dispatchObs (s : Sys) (t : Tid) (o : Nat) : Option DispatchObs :=
  match s.stack t with
  | .op o' (.scheduleAgent id) :: _ => if o' = o then some (.scheduled id) else none
  | [] =>
    if t = .worker o then
      match (s.orchs o).loop with
      | some .top => if (s.orchs o).running then some .began else none
      | some .pop => some (.popped (s.orchs o).scheduledAgents.head?)
      | some (.dispatchGet id) => some (.found id ((s.orchs o).agents.lookup id))
      | some (.dispatchCheck a) => some (.checked a (decide (s.state a = .idle)))
      | some (.dispatchExec a) => some (.executed a)
      | _ => none
    else none
  | _ => none

variable {s s' : Sys} {t : Tid} {ch : Choice}

/-! ### What a step does to the schedule queue -/

lemma scheduled_update_or {o o' : Nat} {q : Orch} {P : Prop}
    (hor : s'.orchs = Function.update s.orchs o' q) (hP : o = o' → s'.orchs o = q → P) :
    (s'.orchs o).scheduledAgents = (s.orchs o).scheduledAgents ∨ P :=
  (orch_update_or hor hP).imp_left (congrArg Orch.scheduledAgents)

/-- The frames under a callback leave every schedule queue. -/
lemma resume_scheduled {r : Sys} {ok : Bool} {below : List Frame} (h : ResumeMove r t ok below s')
    (o : Nat) : (s'.orchs o).scheduledAgents = (r.orchs o).scheduledAgents := by
  cases h <;> first | rfl | exact orch_keep Orch.scheduledAgents rfl rfl

/-- Of the methods, only `ScheduleAgent` changes a schedule queue: it pushes its id. -/
lemma scheduled_opStep {o' : Nat} {pc : OpPc} {below : List Frame}
    (h : OpMove s t o' below pc s') (o : Nat) :
    (s'.orchs o).scheduledAgents = (s.orchs o).scheduledAgents ∨
      ∃ id, pc = .scheduleAgent id ∧ o = o' ∧
        (s'.orchs o).scheduledAgents = (s.orchs o).scheduledAgents ++ [id] := by
  cases h <;> first
    | exact .inl rfl
    | exact .inl (orch_keep Orch.scheduledAgents rfl rfl)
    | exact scheduled_update_or rfl fun ho hq => ⟨_, rfl, ho, by rw [hq, ho]⟩

/-- Of the worker's steps, only the pop changes its schedule queue: it takes the head. -/
lemma scheduled_loopStep {o' : Nat} {pc : LoopPc} (h : LoopMove s o' pc s') (o : Nat) :
    (s'.orchs o).scheduledAgents = (s.orchs o).scheduledAgents ∨
      ∃ id, pc = .pop ∧ o = o' ∧
        (s.orchs o).scheduledAgents = id :: (s'.orchs o).scheduledAgents := by
  cases h <;> first
    | exact .inl rfl
    | exact .inl (orch_keep Orch.scheduledAgents rfl rfl)
    | exact scheduled_update_or rfl fun ho hq => ⟨_, rfl, ho, by
        subst ho; rw [hq]; exact ‹(s.orchs o).scheduledAgents = _ :: _›⟩

/-! ### One step is one move of the automaton -/

/-- One step of the system is one move of the dispatch automaton of `o`, and keeps the schedule
queue of `o` a FIFO: what was queued and is pushed is what is popped and what stays queued. -/
lemma dispatch_step (hj : s.WorkerJoinable) (h : s.step t ch = some s') (o : Nat) :
    Phase.run (phaseOf (s.orchs o).loop) (s.dispatchObs t o).toList =
        some (phaseOf (s'.orchs o).loop) ∧
      (s.orchs o).scheduledAgents ++ scheduledIds (s.dispatchObs t o).toList =
        poppedIds (s.dispatchObs t o).toList ++ (s'.orchs o).scheduledAgents := by
  obtain ⟨-, ⟨c, -, rfl, htop⟩ | ⟨o', a, cb, below, ok, hs, -, hm⟩ | ⟨o', pc, below, hs, -, hm⟩ |
    ⟨o', pc, rfl, hs, hl, -, hm⟩⟩ := step_cases h
  · -- a call begun: nothing shows, and no orchestrator changes
    have hobs : s.dispatchObs t o = none := by
      rcases htop with ⟨n, rfl, hs⟩ | ⟨o', a, cb, below, hs⟩ <;> simp [dispatchObs, hs]
    simp [hobs, Phase.run, scheduledIds, poppedIds]
  · -- a return or a raise: the worker moves only inside its phase
    have hobs : s.dispatchObs t o = none := by simp [dispatchObs, hs]
    have hrl := resume_loop hm o
    simp only [callbackEffect_orchs] at hrl
    refine ⟨?_, by simp [hobs, scheduledIds, poppedIds, resume_scheduled hm o]⟩
    rcases hrl with e | ⟨rest, e₀, e⟩ | ⟨a', e₀, e⟩
    · simp [hobs, Phase.run, e]
    all_goals simp [hobs, Phase.run, e, e₀, phaseOf, LoopPc.phase]
  · -- a step of a method: only `ScheduleAgent` shows, and `Start` moves no phase
    have hph : phaseOf (s'.orchs o).loop = phaseOf (s.orchs o).loop := by
      rcases loop_opStep hj hm o with e | ⟨e₀, e⟩
      · rw [e]
      · simp [e, e₀, phaseOf, LoopPc.phase]
    rw [hph]
    by_cases hsch : ∃ id, pc = .scheduleAgent id ∧ o' = o
    · obtain ⟨id, rfl, rfl⟩ := hsch
      cases hm
      simp [dispatchObs, hs, Phase.run, Phase.next, scheduledIds, poppedIds]
    · have hobs : s.dispatchObs t o = none := by
        cases pc <;> simp_all [dispatchObs]
      rcases scheduled_opStep hm o with e | ⟨id, rfl, rfl, -⟩
      · simp [hobs, e, Phase.run, scheduledIds, poppedIds]
      · exact absurd ⟨id, rfl, rfl⟩ hsch
  · by_cases ho : o' = o
    · -- a step of the worker of `o`
      subst ho
      cases hm <;>
        simp_all [dispatchObs, Phase.run, Phase.next, phaseOf, LoopPc.phase, scheduledIds,
          poppedIds]
    · -- a step of another worker
      have hobs : s.dispatchObs (.worker o') o = none := by simp [dispatchObs, hs, ho]
      rw [hm.orchs_of_ne (Ne.symm ho)]
      simp [hobs, Phase.run, scheduledIds, poppedIds]

end Sys

/-- The observations of orchestrator `o` along a run. -/
def obsRun (o : Nat) : Sys → List (Tid × Choice) → List DispatchObs
  | _, [] => []
  | s, (t, ch) :: rest =>
    match s.step t ch with
    | some s' => (s.dispatchObs t o).toList ++ obsRun o s' rest
    | none => []

/-- The dispatch observations along a run follow the automaton from the phase of the first
state's loop to that of the last, and the entries popped are the entries scheduled behind
those already queued. -/
lemma dispatch_run (o : Nat) : ∀ {s s' : Sys} (l : List (Tid × Choice)), s.WorkerJoinable →
    run s l = some s' →
      Phase.run (phaseOf (s.orchs o).loop) (obsRun o s l) = some (phaseOf (s'.orchs o).loop) ∧
        (s.orchs o).scheduledAgents ++ scheduledIds (obsRun o s l) =
          poppedIds (obsRun o s l) ++ (s'.orchs o).scheduledAgents
  | s, s', [], _, h => by
    simp only [run, Option.some.injEq] at h
    subst h
    simp [obsRun, Phase.run, scheduledIds, poppedIds]
  | s, s', (t, ch) :: rest, hj, h => by
    simp only [run] at h
    cases hst : s.step t ch with
    | none => simp [hst] at h
    | some s₁ =>
      simp only [hst, Option.some_bind] at h
      obtain ⟨hp₁, hq₁⟩ := Sys.dispatch_step hj hst o
      obtain ⟨hp, hq⟩ := dispatch_run o rest (hj.step hst) h
      simp only [obsRun, hst]
      refine ⟨by rw [Phase.run_append, hp₁, Option.some_bind, hp], ?_⟩
      rw [scheduledIds_append, poppedIds_append, ← List.append_assoc, hq₁, List.append_assoc, hq,
        List.append_assoc]

/-- The dispatch law of the code, over any run from any reachable state: the worker pops the
scheduled ids in the order they were scheduled; every step is a move of the automaton
`Phase.next` (an iteration opens, pops at most one entry, an empty entry or an unregistered id
ends it, and `Execute` begins only for the agent whose check found it `IDLE`); and the agents
whose `Execute` began are those admitted, in order, up to the one owed at either end. -/
theorem dispatch_law {adm : Tid → Choice → Sys → Prop} {s s' : Sys} (hs : Reachable adm s)
    {l : List (Tid × Choice)} (hl : run s l = some s') (o : Nat) :
    (s.orchs o).scheduledAgents ++ scheduledIds (obsRun o s l) =
        poppedIds (obsRun o s l) ++ (s'.orchs o).scheduledAgents ∧
      Phase.run (phaseOf (s.orchs o).loop) (obsRun o s l) = some (phaseOf (s'.orchs o).loop) ∧
      executedAgents (obsRun o s l) ++ (phaseOf (s'.orchs o).loop).pending =
        (phaseOf (s.orchs o).loop).pending ++ admittedAgents (obsRun o s l) := by
  obtain ⟨hp, hq⟩ := dispatch_run o l hs.workerJoinable hl
  exact ⟨hq, hp, Phase.executed_of_run hp⟩

/-! ### The empty id -/

/-- Every agent has the empty id, which `RegisterAgent` accepts.  Agent 0 is registered,
`""` is scheduled, the worker is started and runs one iteration. -/
def emptyIdSkipped : List (Tid × Choice) :=
  [(.client 0, .call (.registerAgent 0 0)), (.client 0, .step), (.client 0, .ret),
   (.client 0, .call (.scheduleAgent 0 "")), (.client 0, .step),
   (.client 0, .call (.start 0)), (.client 0, .step), (.client 0, .step),
   (.client 0, .step)] ++
  List.replicate 4 (.worker 0, .step)

theorem dispatch_law_emptyIdSkipped :
    ∃ s', run (Sys.init fun _ => "") emptyIdSkipped = some s' ∧
      ((Sys.init fun _ => "").orchs 0).scheduledAgents ++
          scheduledIds (obsRun 0 (Sys.init fun _ => "") emptyIdSkipped) =
        poppedIds (obsRun 0 (Sys.init fun _ => "") emptyIdSkipped) ++ (s'.orchs 0).scheduledAgents ∧
      Phase.run (phaseOf ((Sys.init fun _ => "").orchs 0).loop)
          (obsRun 0 (Sys.init fun _ => "") emptyIdSkipped) = some (phaseOf (s'.orchs 0).loop) ∧
      executedAgents (obsRun 0 (Sys.init fun _ => "") emptyIdSkipped) ++
          (phaseOf (s'.orchs 0).loop).pending =
        (phaseOf ((Sys.init fun _ => "").orchs 0).loop).pending ++
          admittedAgents (obsRun 0 (Sys.init fun _ => "") emptyIdSkipped) := by
  obtain ⟨s', hr⟩ := Option.isSome_iff_exists.1
    (by decide : (run (Sys.init fun _ => "") emptyIdSkipped).isSome = true)
  exact ⟨s', hr, dispatch_law (@Reachable.init anyStep _) hr 0⟩

/-- The worker pops the scheduled `""` of a registered, `IDLE` agent and takes it for "nothing
popped": the entry is gone, the iteration ends without looking the id up, and no `Execute`
began. -/
theorem empty_id_skipped :
    ∃ s, run (Sys.init fun _ => "") emptyIdSkipped = some s ∧
      obsRun 0 (Sys.init fun _ => "") emptyIdSkipped = [.scheduled "", .began, .popped (some "")] ∧
      (s.orchs 0).agents.lookup "" = some 0 ∧ s.state 0 = .idle ∧
      (s.orchs 0).scheduledAgents = [] ∧ (s.orchs 0).loop = some .top ∧
      s.history 0 = [.init, .initialized] := by
  have h : (run (Sys.init fun _ => "") emptyIdSkipped).map (fun s =>
      decide ((s.orchs 0).agents.lookup "" = some 0 ∧ s.state 0 = .idle ∧
        (s.orchs 0).scheduledAgents = [] ∧ (s.orchs 0).loop = some .top ∧
        s.history 0 = [.init, .initialized])) = some true := by decide
  obtain ⟨s, hs, hp⟩ := Option.map_eq_some'.1 h
  exact ⟨s, hs, by decide, of_decide_eq_true hp⟩

end OpenCog

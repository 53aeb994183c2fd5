/-
# RegisterAgent and UnregisterAgent

`AgentOrchestrator::RegisterAgent` (`agent-orchestrator.cc`) returns `false` for a null
pointer and for an id already in `agents_`.  Otherwise it binds the agent to the
orchestrator, enters it in `agents_`, and only then calls `Initialize`, whose result it
returns; an exception from `Initialize` leaves the call with the entry and the binding in
place, and the `lock_guard` releases `agents_mutex_` on either way out.  `UnregisterAgent`
returns `false` for an id not in `agents_`; otherwise it calls `Shutdown` under the lock and
erases the entry only if `Shutdown` returns, and it never clears the agent's binding.

`RegState` models one call as a function of what it reads and writes, for any `Initialize`
and `Shutdown`.  In the transition system of `Orchestrator/Basic.lean` each call records what
it decided at the step that decides it under `agents_mutex_` (`Orch.registryLog`).  Under any
interleaving the registry is the call-level model replayed on that log, every recorded result
the model's own (`registry_linearizable`): the calls are atomic at those steps.  Of the
`RegisterAgent` calls carrying one id, concurrent or not, the first to decide enters its agent
and every later one returns `false` while no `UnregisterAgent` erases the id (`register_once`);
a fresh id stays entered when its `Initialize` fails (`register_failure_keeps_agent`).  From any
state, an entry stays until an `UnregisterAgent` of its id ends (`registry_entry_kept`).
-/
import OpenCog.Orchestrator.Dispatch

namespace OpenCog

/-- What `RegisterAgent` reads and writes: the orchestrator's `agents_` and, of each agent
object, `agent_id_`, `state_` and `orchestrator_`. -/
structure RegState where
  agents : AList (fun _ : String => Nat)
  agentId : Nat → String
  state : Nat → AgentState
  bound : Nat → Option Nat

/-- An `Initialize`, as the call sees it: from its agent's state, the state it leaves and its
result, `none` when it raises. -/
def Initialize : Type := AgentState → AgentState × Option Bool

/-- `Agent::Initialize`: `state_ = AgentState::IDLE; return true;`. -/
def baseInitialize : Initialize := fun _ => (.idle, some true)

namespace RegState

variable (r : RegState) (o : Nat) (init : Nat → Initialize)

/-- `AgentOrchestrator::RegisterAgent(agent)` on orchestrator `o`: `agent = none` is a null
pointer, `init a` is the `Initialize` of agent `a`, and the result `none` is an exception that
leaves the call. -/
def registerAgent : Option Nat → RegState × Option Bool
  | none => (r, some false)
  | some a =>
    if r.agentId a ∈ r.agents then (r, some false)
    else
      ({ r with
          bound := Function.update r.bound a (some o)
          agents := r.agents.insert (r.agentId a) a
          state := Function.update r.state a (init a (r.state a)).1 },
        (init a (r.state a)).2)

/-! ### One call -/

variable {r o init} {a : Nat}

lemma registerAgent_of_mem (h : r.agentId a ∈ r.agents) :
    r.registerAgent o init (some a) = (r, some false) := by
  simp [registerAgent, h]

lemma registerAgent_fresh (h : r.agentId a ∉ r.agents) :
    r.registerAgent o init (some a) =
      ({ r with
          bound := Function.update r.bound a (some o)
          agents := r.agents.insert (r.agentId a) a
          state := Function.update r.state a (init a (r.state a)).1 },
        (init a (r.state a)).2) :=
  if_neg h

/-- A fresh id is entered and bound whatever `Initialize` does, and the call returns what
`Initialize` returns. -/
lemma registerAgent_of_not_mem (h : r.agentId a ∉ r.agents) :
    (r.registerAgent o init (some a)).1.agents.lookup (r.agentId a) = some a ∧
      (r.registerAgent o init (some a)).1.bound a = some o ∧
      (r.registerAgent o init (some a)).1.state a = (init a (r.state a)).1 ∧
      (r.registerAgent o init (some a)).2 = (init a (r.state a)).2 := by
  simp [registerAgent_fresh h, AList.lookup_insert]

end RegState

/-! ### UnregisterAgent -/

/-- A `Shutdown`, as the call sees it: from its agent's state, the state it leaves and whether
it returns (`false` when it raises). -/
def Shutdown : Type := AgentState → AgentState × Bool

/-- `Agent::Shutdown`: `state_ = AgentState::COMPLETED;`. -/
def baseShutdown : Shutdown := fun _ => (.completed, true)

/-- `AgentOrchestrator::UnregisterAgent(agent_id)`: `false` for an id not in `agents_`;
otherwise `Shutdown` of its agent, then `agents_.erase(it)` and `true`.  The result `none` is an
exception from `Shutdown`, which skips the erase.  The agent's `orchestrator_` is left as it
is. -/
def RegState.unregisterAgent (r : RegState) (shutdown : Nat → Shutdown) (id : String) :
    RegState × Option Bool :=
  match r.agents.lookup id with
  | none => (r, some false)
  | some a =>
    ({ r with
        state := Function.update r.state a (shutdown a (r.state a)).1
        agents := if (shutdown a (r.state a)).2 then r.agents.erase id else r.agents },
      if (shutdown a (r.state a)).2 then some true else none)

/-! ### The recorded calls -/

/-- `agents_`: id to agent. -/
abbrev AgentTable := AList (fun _ : String => Nat)

/-- A recorded call made alone on the registry `r`: the registry it leaves, `none` when its
recorded result is not the one it gives on `r`.  `RegisterAgent` enters its agent iff the id is
free; `UnregisterAgent` finds no entry and returns `false`, or calls `Shutdown` and erases the
entry iff `Shutdown` returns. -/
def RegCall.apply (agentId : Nat → String) (r : AgentTable) : RegCall → Option AgentTable
  | .register a entered =>
    if entered = decide (agentId a ∉ r) then some (if entered then r.insert (agentId a) a else r)
    else none
  | .unregister id result =>
    match r.lookup id, result with
    | none, some false => some r
    | some _, some true => some (r.erase id)
    | some _, none => some r
    | _, _ => none

/-- The recorded calls made one after the other from the registry `r`. -/
def replayRegistry (agentId : Nat → String) : AgentTable → List RegCall → Option AgentTable
  | r, [] => some r
  | r, c :: rest => (c.apply agentId r).bind fun r' => replayRegistry agentId r' rest

lemma replayRegistry_append (agentId : Nat → String) (r : AgentTable) (l l' : List RegCall) :
    replayRegistry agentId r (l ++ l') =
      (replayRegistry agentId r l).bind fun r' => replayRegistry agentId r' l' := by
  induction l generalizing r with
  | nil => rfl
  | cons c l ih =>
    rw [List.cons_append, replayRegistry, replayRegistry, Option.bind_assoc]
    simp only [ih]

namespace RegState

/-- A recorded `RegisterAgent` is the call-level model's, whatever the agent's `Initialize`: it
enters the agent exactly when the model does, and leaves the registry the model leaves. -/
lemma apply_register (r : RegState) (o : Nat) (init : Nat → Initialize) (a : Nat) (e : Bool) :
    RegCall.apply r.agentId r.agents (.register a e) =
      if e = decide (r.agentId a ∉ r.agents) then some (r.registerAgent o init (some a)).1.agents
      else none := by
  by_cases h : r.agentId a ∈ r.agents <;> cases e
  all_goals simp [RegCall.apply, registerAgent_of_mem, registerAgent_fresh, h]

/-- A recorded `UnregisterAgent` is the call-level model's, for the `Shutdown` that returned or
raised as recorded. -/
lemma apply_unregister (r : RegState) (shutdown : Nat → Shutdown) (id : String) :
    RegCall.apply r.agentId r.agents (.unregister id (r.unregisterAgent shutdown id).2) =
      some (r.unregisterAgent shutdown id).1.agents := by
  unfold unregisterAgent
  cases h : r.agents.lookup id with
  | none => simp [RegCall.apply, h]
  | some a => cases hb : (shutdown a (r.state a)).2 <;> simp [RegCall.apply, h, hb]

end RegState

/-- The recorded `RegisterAgent` calls of agents with the id `x`, each with whether it entered
its agent. -/
def registersOf (agentId : Nat → String) (x : String) (log : List RegCall) : List (Nat × Bool) :=
  log.filterMap fun
    | .register a e => if agentId a = x then some (a, e) else none
    | .unregister _ _ => none

section Replay

variable {agentId : Nat → String} {x : String}

lemma registersOf_cons (c : RegCall) (log : List RegCall) :
    registersOf agentId x (c :: log) = registersOf agentId x [c] ++ registersOf agentId x log :=
  List.filterMap_append [c] log _

/-- A call on a registry that holds `x`, unless it erases `x`, keeps the entry; a
`RegisterAgent` of `x` finds it and does not enter. -/
lemma RegCall.apply_of_lookup_some {r r₁ : AgentTable} {c : RegCall} {a : Nat}
    (hx : r.lookup x = some a) (hc : c ≠ .unregister x (some true))
    (h : c.apply agentId r = some r₁) :
    r₁.lookup x = some a ∧ ∀ p ∈ registersOf agentId x [c], p.2 = false := by
  have hmem : x ∈ r := AList.lookup_isSome.1 (by simp [hx])
  cases c with
  | register b e =>
    by_cases hb : agentId b = x
    · subst hb
      simp [RegCall.apply, hmem] at h
      obtain ⟨rfl, rfl⟩ := h
      simp [registersOf, hx]
    · simp only [RegCall.apply] at h
      split_ifs at h <;> cases h <;> simp [registersOf, hb, hx, AList.lookup_insert_ne (Ne.symm hb)]
  | unregister id res =>
    simp only [RegCall.apply] at h
    refine ⟨?_, by simp [registersOf]⟩
    split at h <;> cases h
    · exact hx
    · have hid : x ≠ id := by rintro rfl; exact hc rfl
      rw [AList.lookup_erase_ne hid, hx]
    · exact hx

/-- A call on a registry without `x` leaves it without `x`, unless it is a `RegisterAgent` of
`x`, which enters its agent. -/
lemma RegCall.apply_of_lookup_none {r r₁ : AgentTable} {c : RegCall} (hx : r.lookup x = none)
    (h : c.apply agentId r = some r₁) :
    registersOf agentId x [c] = [] ∧ r₁.lookup x = none ∨
      ∃ b, registersOf agentId x [c] = [(b, true)] ∧ r₁.lookup x = some b := by
  have hmem : x ∉ r := AList.lookup_eq_none.1 hx
  cases c with
  | register b e =>
    by_cases hb : agentId b = x
    · subst hb
      simp [RegCall.apply, hmem] at h
      obtain ⟨rfl, rfl⟩ := h
      exact .inr ⟨b, by simp [registersOf], by simp⟩
    · simp only [RegCall.apply] at h
      split_ifs at h <;> cases h <;>
        exact .inl ⟨by simp [registersOf, hb], by simp [hx, AList.lookup_insert_ne (Ne.symm hb)]⟩
  | unregister id res =>
    simp only [RegCall.apply] at h
    refine .inl ⟨by simp [registersOf], ?_⟩
    split at h <;> cases h
    · exact hx
    · by_cases hid : x = id
      · subst hid; simp
      · rw [AList.lookup_erase_ne hid, hx]
    · exact hx

/-- From a registry that holds `x`, calls that erase no entry of `x` keep it, and every
`RegisterAgent` of `x` among them returns `false`. -/
lemma replay_kept : ∀ {r r' : AgentTable} {log : List RegCall} {a : Nat}, r.lookup x = some a →
    RegCall.unregister x (some true) ∉ log → replayRegistry agentId r log = some r' →
    r'.lookup x = some a ∧ ∀ p ∈ registersOf agentId x log, p.2 = false
  | _, _, [], _, hx, _, h => by cases h; exact ⟨hx, by simp [registersOf]⟩
  | r, r', c :: log, a, hx, hu, h => by
    obtain ⟨r₁, h₁, h⟩ := Option.bind_eq_some.1 h
    rw [List.mem_cons, not_or] at hu
    obtain ⟨hx₁, hc⟩ := RegCall.apply_of_lookup_some hx (Ne.symm hu.1) h₁
    obtain ⟨hx', hrest⟩ := replay_kept hx₁ hu.2 h
    refine ⟨hx', fun p hp => ?_⟩
    rw [registersOf_cons, List.mem_append] at hp
    exact hp.elim (hc p) (hrest p)

/-- From a registry without `x`, along calls that erase no entry of `x`: no `RegisterAgent` of
`x` comes and `x` stays free, or the first one enters its agent, every later one returns
`false`, and the first one's agent is the entry of `x` at the end. -/
lemma replay_first : ∀ {r r' : AgentTable} {log : List RegCall}, r.lookup x = none →
    RegCall.unregister x (some true) ∉ log → replayRegistry agentId r log = some r' →
    registersOf agentId x log = [] ∧ r'.lookup x = none ∨
      ∃ a rest, registersOf agentId x log = (a, true) :: rest ∧ (∀ p ∈ rest, p.2 = false) ∧
        r'.lookup x = some a
  | _, _, [], hx, _, h => by cases h; exact .inl ⟨rfl, hx⟩
  | r, r', c :: log, hx, hu, h => by
    obtain ⟨r₁, h₁, h⟩ := Option.bind_eq_some.1 h
    rw [List.mem_cons, not_or] at hu
    rw [registersOf_cons]
    rcases RegCall.apply_of_lookup_none hx h₁ with ⟨hc, hx₁⟩ | ⟨b, hc, hx₁⟩
    · rw [hc, List.nil_append]
      exact replay_first hx₁ hu.2 h
    · obtain ⟨hx', hrest⟩ := replay_kept hx₁ hu.2 h
      exact .inr ⟨b, _, by rw [hc]; rfl, hrest, hx'⟩

end Replay

/-! ### The calls under any interleaving -/

namespace Sys

variable {s s' : Sys} {t : Tid} {ch : Choice}

/-- Every registry is its log replayed, and a thread in `Shutdown` under
`UnregisterAgent(id)` finds the entry its call looked up. -/
structure RegInv (s : Sys) : Prop where
  replay : ∀ o, replayRegistry s.agentId ∅ (s.orchs o).registryLog = some (s.orchs o).agents
  shutdown : ∀ t o id a, Frame.op o (.unregisterShutdown id a) ∈ s.stack t →
    (s.orchs o).agents.lookup id = some a

lemma regInv_init (ids : Nat → String) : (init ids).RegInv :=
  ⟨fun _ => rfl, fun _ _ _ _ h => by simp [init] at h⟩

/-- A thread with a frame that holds `agents_mutex_` of `o` holds it. -/
lemma LockInv.holder_of_mem (hi : s.LockInv) {o : Nat} {f : Frame} (hf : f.holdsAgents o = true)
    (h : f ∈ s.stack t) : (s.orchs o).agentsMutex = some t :=
  hi.holder_of_holding (List.countP_pos_iff.2 ⟨f, h, hf⟩)

/-- A change of one orchestrator to one whose registry is its log replayed. -/
lemma RegInv.replay_update (hi : s.RegInv) (hid : s'.agentId = s.agentId) {o' : Nat} {q : Orch}
    (hor : s'.orchs = Function.update s.orchs o' q)
    (hq : replayRegistry s.agentId ∅ q.registryLog = some q.agents) (o : Nat) :
    replayRegistry s'.agentId ∅ (s'.orchs o).registryLog = some (s'.orchs o).agents := by
  rw [hor, hid]
  by_cases ho : o = o'
  · subst ho
    simpa using hq
  · simpa [ho] using hi.replay o

/-- A call recorded as it did on the registry. -/
lemma RegInv.replay_concat (hi : s.RegInv) {o : Nat} {c : RegCall} {r : AgentTable}
    (h : c.apply s.agentId (s.orchs o).agents = some r) :
    replayRegistry s.agentId ∅ ((s.orchs o).registryLog ++ [c]) = some r := by
  simpa [replayRegistry_append, hi.replay o, replayRegistry] using h

/-- Each step records the call it decides, as that call does on the registry. -/
lemma RegInv.step_replay (hi : s.RegInv) (h : s.step t ch = some s') (o : Nat) :
    replayRegistry s'.agentId ∅ (s'.orchs o).registryLog = some (s'.orchs o).agents := by
  obtain ⟨-, ⟨c, -, rfl, -⟩ | ⟨o', a, cb, below, ok, hs, -, hm⟩ | ⟨o', pc, below, -, -, hm⟩ |
    ⟨o', pc, rfl, -, -, -, hm⟩⟩ := step_cases h
  · simpa using hi.replay o
  · have hr : (s.callbackEffect a cb ok).RegInv := ⟨by simpa using hi.replay, by simpa using hi.shutdown⟩
    have hs' : (s.callbackEffect a cb ok).stack t = .user o' a cb :: below := by simpa using hs
    generalize s.callbackEffect a cb ok = r at hr hs' hm
    cases hm with
    | @unregisterShutdown o'' a' id below' =>
      -- `UnregisterAgent` ends: the entry its `Shutdown` was called for is still there
      have hx := hr.shutdown t o'' id a' (by simp [hs'])
      refine hr.replay_update (by rfl) (by rfl) (hr.replay_concat ?_) o
      cases ok <;> simp [RegCall.apply, hx]
    | _ => first | exact hr.replay o | exact hr.replay_update (by rfl) (by rfl) (by exact hr.replay _) o
  · cases hm with
    | registerTaken hx | registerEnter hx | unregisterAbsent hx =>
      exact hi.replay_update (by rfl) (by rfl)
        (by exact hi.replay_concat (by simp [RegCall.apply, hx])) o
    | _ => first | exact hi.replay o | exact hi.replay_update (by rfl) (by rfl) (by exact hi.replay _) o
  · cases hm <;> first | exact hi.replay o | exact hi.replay_update (by rfl) (by rfl) (by exact hi.replay _) o

/-- The `Shutdown` frames after a step: those that were there, over a registry that only their
own thread may change, and the one the step calls, over the entry it found. -/
lemma RegInv.step_shutdown (hi : s.RegInv) (hl : s.LockInv) (h : s.step t ch = some s') :
    ∀ t o id a, Frame.op o (.unregisterShutdown id a) ∈ s'.stack t →
      (s'.orchs o).agents.lookup id = some a := by
  intro t₀ o id a hF
  by_cases hold : Frame.op o (.unregisterShutdown id a) ∈ s.stack t₀
  · have hf : (Frame.op o (.unregisterShutdown id a)).holdsAgents o = true := by
      simp [Frame.holdsAgents]
    rcases agents_step h o with e | e | e
    · rw [e]
      exact hi.shutdown _ _ _ _ hold
    · simp [hl.holder_of_mem hf hold] at e
    · simp [(hl.step h).holder_of_mem hf hF] at e
  have ht : t₀ = t := by
    by_contra ht
    exact hold (stack_of_ne h ht ▸ hF)
  subst ht
  obtain ⟨-, ⟨c, -, rfl, -⟩ | ⟨o', b, cb, below, ok, hs, -, hm⟩ | ⟨o', pc, below, hs, -, hm⟩ |
    ⟨o', pc, rfl, hs, -, -, hm⟩⟩ := step_cases h
  · unfold Sys.call at hF
    split at hF <;> (try split at hF) <;> simp_all
  · have hs' : (s.callbackEffect b cb ok).stack t₀ = .user o' b cb :: below := by simpa using hs
    generalize s.callbackEffect b cb ok = r at hs' hm
    cases hm <;> simp_all
  · cases hm with
    | unregisterFound hx =>
      simp only [log_stack, setStack_stack, Function.update_same, List.mem_cons, Frame.op.injEq,
        OpPc.unregisterShutdown.injEq, reduceCtorEq, false_or] at hF
      rcases hF with ⟨rfl, rfl, rfl⟩ | hF
      · simpa using hx
      · exact absurd (by simp [hs, hF]) hold
    | _ => simp_all
  · cases hm <;> simp_all

lemma RegInv.step (hi : s.RegInv) (hl : s.LockInv) (h : s.step t ch = some s') : s'.RegInv :=
  ⟨hi.step_replay h, hi.step_shutdown hl h⟩

end Sys

lemma Reachable.regInv {adm : Tid → Choice → Sys → Prop} {s : Sys} (hs : Reachable adm s) :
    s.RegInv := by
  induction hs with
  | init ids => exact Sys.regInv_init ids
  | step hs _ h ih => exact ih.step hs.lockInv h

/-- `RegisterAgent` and `UnregisterAgent` are atomic at the steps that decide them, under any
interleaving of threads: the registry of every orchestrator is the call-level model's, made one
call at a time on the calls recorded in the order they decided, every recorded result the
model's own; and each `Initialize` and `Shutdown` that these calls make runs while its thread
holds `agents_mutex_`, `Shutdown` with the entry its call found still in place. -/
theorem registry_linearizable {adm : Tid → Choice → Sys → Prop} {s : Sys} (hs : Reachable adm s)
    (o : Nat) :
    replayRegistry s.agentId ∅ (s.orchs o).registryLog = some (s.orchs o).agents ∧
      (∀ t a, Frame.op o (.registerInit a) ∈ s.stack t → (s.orchs o).agentsMutex = some t) ∧
      ∀ t id a, Frame.op o (.unregisterShutdown id a) ∈ s.stack t →
        (s.orchs o).agentsMutex = some t ∧ (s.orchs o).agents.lookup id = some a :=
  ⟨hs.regInv.replay o, fun _ _ hF => hs.lockInv.holder_of_mem (by simp [Frame.holdsAgents]) hF,
    fun t id a hF => ⟨hs.lockInv.holder_of_mem (by simp [Frame.holdsAgents]) hF,
      hs.regInv.shutdown t o id a hF⟩⟩

/-- Agent 0 (`"a"`) is registered; client 1 calls `UnregisterAgent("a")`, whose `Shutdown`
runs, and client 2 calls `RegisterAgent` with agent 1 of the same id, which waits for the
mutex. -/
def unregisterPending : List (Tid × Choice) :=
  [(.client 0, .call (.registerAgent 0 0)), (.client 0, .step), (.client 0, .ret),
   (.client 1, .call (.unregisterAgent 0 "a")), (.client 1, .step),
   (.client 2, .call (.registerAgent 0 1))]

theorem registry_linearizable_unregisterPending :
    ∃ s, Reachable anyStep s ∧ (s.orchs 0).registryLog = [.register 0 true] ∧
      s.stack (.client 1) = [.user 0 0 .shutdown, .op 0 (.unregisterShutdown "a" 0)] ∧
      replayRegistry s.agentId ∅ (s.orchs 0).registryLog = some (s.orchs 0).agents ∧
      (∀ t a, Frame.op 0 (.registerInit a) ∈ s.stack t → (s.orchs 0).agentsMutex = some t) ∧
      ∀ t id a, Frame.op 0 (.unregisterShutdown id a) ∈ s.stack t →
        (s.orchs 0).agentsMutex = some t ∧ (s.orchs 0).agents.lookup id = some a := by
  obtain ⟨s, hs, hp⟩ := @reach_of_run anyStep (fun _ => "a") unregisterPending
    (fun s => (s.orchs 0).registryLog == [.register 0 true] &&
      s.stack (.client 1) == [.user 0 0 .shutdown, .op 0 (.unregisterShutdown "a" 0)])
    (fun _ _ _ => trivial) (by decide)
  simp only [Bool.and_eq_true, beq_iff_eq] at hp
  exact ⟨s, hs, hp.1, hp.2, registry_linearizable hs 0⟩

/-- `RegisterAgent`, alone and under any interleaving.  Alone, as the call-level model says:
for a null pointer or a taken id it returns `false` and changes nothing; for a fresh id it
enters and binds the agent whatever `Initialize` does, leaves the agent's state as `Initialize`
leaves it, and returns what `Initialize` returns.  Under any interleaving of threads, from any
reachable state: of the `RegisterAgent` calls carrying one id `x` that decide on the registry
of `o` after a point where `x` is free, with no `UnregisterAgent(x)` erasing it between them,
the first enters its agent and every later one returns `false`, and the first one's agent is
the entry of `x`. -/
theorem register_once :
    (∀ (r : RegState) (o : Nat) (init : Nat → Initialize) (agent : Option Nat),
      (agent = none ∨ ∃ a, agent = some a ∧ r.agentId a ∈ r.agents) →
        r.registerAgent o init agent = (r, some false)) ∧
    (∀ (r : RegState) (o : Nat) (init : Nat → Initialize) (a : Nat), r.agentId a ∉ r.agents →
      (r.registerAgent o init (some a)).1.agents.lookup (r.agentId a) = some a ∧
        (r.registerAgent o init (some a)).1.bound a = some o ∧
        (r.registerAgent o init (some a)).1.state a = (init a (r.state a)).1 ∧
        (r.registerAgent o init (some a)).2 = (init a (r.state a)).2) ∧
    ∀ {adm : Tid → Choice → Sys → Prop} {s : Sys}, Reachable adm s →
      ∀ (o : Nat) (x : String) (pre post : List RegCall), (s.orchs o).registryLog = pre ++ post →
        (replayRegistry s.agentId ∅ pre).bind (fun r => r.lookup x) = none →
        RegCall.unregister x (some true) ∉ post →
        registersOf s.agentId x post = [] ∧ (s.orchs o).agents.lookup x = none ∨
          ∃ a rest, registersOf s.agentId x post = (a, true) :: rest ∧ (∀ p ∈ rest, p.2 = false) ∧
            (s.orchs o).agents.lookup x = some a := by
  refine ⟨?_, fun r o init a => RegState.registerAgent_of_not_mem, ?_⟩
  · rintro r o init agent (rfl | ⟨a, rfl, h⟩)
    · rfl
    · exact RegState.registerAgent_of_mem h
  · intro adm s hs o x pre post hlog hfree hnu
    have h := hs.regInv.replay o
    rw [hlog, replayRegistry_append] at h
    obtain ⟨r, hr, h⟩ := Option.bind_eq_some.1 h
    rw [hr, Option.some_bind] at hfree
    exact replay_first hfree hnu h

/-- Clients 0 and 1 call `RegisterAgent` with agents 0 and 1, both of id `"a"`, at once;
client 1 decides first and enters agent 1, whose `Initialize` raises; client 0 then finds the
id taken. -/
def concurrentRegisters : List (Tid × Choice) :=
  [(.client 0, .call (.registerAgent 0 0)), (.client 1, .call (.registerAgent 0 1)),
   (.client 1, .step), (.client 1, .raise), (.client 0, .step)]

theorem register_once_concurrentRegisters :
    ∃ s, Reachable anyStep s ∧ (s.orchs 0).registryLog = [.register 1 true, .register 0 false] ∧
      (replayRegistry s.agentId ∅ []).bind (fun r => r.lookup "a") = none ∧
      RegCall.unregister "a" (some true) ∉ (s.orchs 0).registryLog ∧
      (registersOf s.agentId "a" (s.orchs 0).registryLog = [] ∧ (s.orchs 0).agents.lookup "a" = none ∨
        ∃ a rest, registersOf s.agentId "a" (s.orchs 0).registryLog = (a, true) :: rest ∧
          (∀ p ∈ rest, p.2 = false) ∧ (s.orchs 0).agents.lookup "a" = some a) := by
  obtain ⟨s, hs, hp⟩ := @reach_of_run anyStep (fun _ => "a") concurrentRegisters
    (fun s => (s.orchs 0).registryLog == [.register 1 true, .register 0 false])
    (fun _ _ _ => trivial) (by decide)
  have hlog : (s.orchs 0).registryLog = [.register 1 true, .register 0 false] := by simpa using hp
  exact ⟨s, hs, hlog, rfl, by simp [hlog],
    register_once.2.2 hs 0 "a" [] _ (by rw [hlog]; rfl) rfl (by simp [hlog])⟩

/-! ### A failed `Initialize` -/

namespace Sys

/-- The part of the system that `RegisterAgent` on orchestrator `o` reads and writes. -/
def regState (s : Sys) (o : Nat) : RegState :=
  ⟨(s.orchs o).agents, s.agentId, s.state, s.bound⟩

end Sys

/-- Agent 0 has the id `"a"`, which orchestrator 0 does not hold.  With an `Initialize` that
returns `false`, `RegisterAgent` returns `false` and leaves the agent registered and bound; and
in the transition system, an `Initialize` that raises ends the call with the same entry and
binding in place. -/
theorem register_failure_keeps_agent :
    let r := (Sys.init fun _ => "a").regState 0
    let q := r.registerAgent 0 (fun _ st => (st, some false)) (some 0)
    r.agents.lookup "a" = none ∧ q.2 = some false ∧ q.1.agents.lookup "a" = some 0 ∧
      q.1.bound 0 = some 0 ∧
      ∃ s, run (Sys.init fun _ => "a")
          [(.client 0, .call (.registerAgent 0 0)), (.client 0, .step), (.client 0, .raise)] =
          some s ∧
        s.stack (.client 0) = [] ∧ (s.orchs 0).agents.lookup "a" = some 0 ∧ s.bound 0 = some 0 := by
  refine ⟨rfl, rfl, by decide, rfl, ?_⟩
  have h : (run (Sys.init fun _ => "a")
      [(.client 0, .call (.registerAgent 0 0)), (.client 0, .step), (.client 0, .raise)]).map
      (fun s => decide (s.stack (.client 0) = [] ∧ (s.orchs 0).agents.lookup "a" = some 0 ∧
        s.bound 0 = some 0)) = some true := by decide
  obtain ⟨s, hs, hp⟩ := Option.map_eq_some'.1 h
  exact ⟨s, hs, of_decide_eq_true hp⟩


/-! ### An entry stays -/

namespace Sys

/-- The step of thread `t` with choice `ch` ends an `UnregisterAgent(x)` on `o`: the `Shutdown`
it called returns, and the entry of `x` is erased. -/
def unregisters (s : Sys) (o : Nat) (x : String) (t : Tid) (ch : Choice) : Bool :=
  match s.stack t, ch with
  | .user _ _ _ :: .op o' (.unregisterShutdown id _) :: _, .ret => o' == o && id == x
  | _, _ => false

variable {s s' : Sys} {t : Tid} {ch : Choice}

/-- Of the methods, only `RegisterAgent` changes a registry, by entering a fresh id. -/
lemma agents_opStep {o' : Nat} {pc : OpPc} {below : List Frame} (h : OpMove s t o' below pc s')
    (o : Nat) :
    (s'.orchs o).agents = (s.orchs o).agents ∨
      ∃ a, pc = .registerAgent a ∧ o = o' ∧ s.agentId a ∉ (s.orchs o).agents ∧
        (s'.orchs o).agents = (s.orchs o).agents.insert (s.agentId a) a := by
  cases h <;> first
    | exact .inl rfl
    | exact .inl (orch_keep Orch.agents rfl rfl)
    | exact agents_update_or rfl fun ho hq => ⟨_, rfl, ho, by subst ho; assumption, by rw [hq, ho]⟩

/-- The worker changes no registry. -/
lemma agents_loopStep {o' : Nat} {pc : LoopPc} (h : LoopMove s o' pc s') (o : Nat) :
    (s'.orchs o).agents = (s.orchs o).agents := by
  cases h <;> exact orch_keep Orch.agents rfl rfl

/-- The frames under a callback change a registry only as `UnregisterAgent` erases its id once
`Shutdown` returns. -/
lemma agents_resume {r : Sys} {ok : Bool} {below : List Frame} (h : ResumeMove r t ok below s')
    (o : Nat) :
    (s'.orchs o).agents = (r.orchs o).agents ∨
      ∃ id a rest, below = .op o (.unregisterShutdown id a) :: rest ∧ ok = true ∧
        (s'.orchs o).agents = (r.orchs o).agents.erase id := by
  cases h with
  | unregisterShutdown =>
    cases ok
    · exact .inl (orch_keep Orch.agents rfl (by simp))
    · exact agents_update_or rfl fun ho hq => ⟨_, _, _, by rw [ho], rfl, by rw [hq, ho]; rfl⟩
  | _ => first | exact .inl rfl | exact .inl (orch_keep Orch.agents rfl rfl)

/-- One step and the entry of `x` in the registry of `o`: unless the step ends an
`UnregisterAgent(x)` on `o`, the entry stays as it is, or it is made, for a free `x`, by the
`RegisterAgent` of an agent with the id `x`. -/
lemma lookup_step (h : s.step t ch = some s') (o : Nat) (x : String)
    (hu : s.unregisters o x t ch = false) :
    (s'.orchs o).agents.lookup x = (s.orchs o).agents.lookup x ∨
      (s.orchs o).agents.lookup x = none ∧ ∃ a below, s.stack t = .op o (.registerAgent a) :: below ∧
        s.agentId a = x ∧ (s'.orchs o).agents.lookup x = some a := by
  obtain ⟨-, ⟨c, -, rfl, -⟩ | ⟨o', b, cb, below, ok, hs, hch, hm⟩ | ⟨o', pc, below, hs, -, hm⟩ |
    ⟨o', pc, rfl, -, -, -, hm⟩⟩ := step_cases h
  · exact .inl (by simp)
  · rcases agents_resume hm o with e | ⟨id, a', rest, rfl, rfl, e⟩
    · exact .inl (by rw [e, callbackEffect_orchs])
    · have hid : x ≠ id := by rintro rfl; simp [unregisters, hs, hch] at hu
      exact .inl (by rw [e, callbackEffect_orchs, AList.lookup_erase_ne hid])
  · rcases agents_opStep hm o with e | ⟨b, rfl, rfl, hb, e⟩
    · exact .inl (by rw [e])
    by_cases hx : x = s.agentId b
    · subst hx
      exact .inr ⟨AList.lookup_eq_none.2 hb, b, below, hs, rfl, by rw [e, AList.lookup_insert]⟩
    · exact .inl (by rw [e, AList.lookup_insert_ne hx])
  · exact .inl (by rw [agents_loopStep hm o])

end Sys

/-- No step of a run from `s` ends an `UnregisterAgent(x)` on `o`. -/
def avoidsUnregister (o : Nat) (x : String) : Sys → List (Tid × Choice) → Bool
  | _, [] => true
  | s, (t, ch) :: rest =>
    !(s.unregisters o x t ch) &&
      match s.step t ch with
      | some s' => avoidsUnregister o x s' rest
      | none => true

/-- Under any interleaving of the threads, from any state, an entry of the registry stays
until an `UnregisterAgent` of its id ends: no `RegisterAgent` of the same id, however its steps
fall among the others', replaces it. -/
theorem registry_entry_kept {o : Nat} {x : String} :
    ∀ {s s' : Sys} (l : List (Tid × Choice)), run s l = some s' →
      avoidsUnregister o x s l = true → ∀ {a : Nat}, (s.orchs o).agents.lookup x = some a →
        (s'.orchs o).agents.lookup x = some a
  | s, s', [], hl, _, a, hx => by
    simp only [run, Option.some.injEq] at hl
    exact hl ▸ hx
  | s, s', (t, ch) :: rest, hl, hav, a, hx => by
    simp only [avoidsUnregister, Bool.and_eq_true, Bool.not_eq_true'] at hav
    simp only [run] at hl
    cases hst : s.step t ch with
    | none => simp [hst] at hl
    | some s₁ =>
      simp only [hst, Option.some_bind] at hl hav
      refine registry_entry_kept rest hl hav.2 ?_
      rcases Sys.lookup_step hst o x hav.1 with e | ⟨e, -⟩
      · rw [e, hx]
      · rw [hx] at e; cases e

/-- Client 1 calls `RegisterAgent` with agent 1, whose id is that of agent 0, while the
`Initialize` of client 0's `RegisterAgent` of agent 0 runs; client 1 waits for the mutex,
then finds the id. -/
def concurrentRegister : List (Tid × Choice) :=
  [(.client 1, .call (.registerAgent 0 1)), (.client 0, .ret), (.client 1, .step)]

theorem registry_entry_kept_concurrent :
    ∃ s, run (Sys.init fun _ => "a")
        [(.client 0, .call (.registerAgent 0 0)), (.client 0, .step)] = some s ∧
      ∃ s', run s concurrentRegister = some s' ∧
        (avoidsUnregister 0 "a" s concurrentRegister = true ∧
          (s.orchs 0).agents.lookup "a" = some 0) ∧
        (s'.orchs 0).agents.lookup "a" = some 0 := by
  have h : (run (Sys.init fun _ => "a")
      [(.client 0, .call (.registerAgent 0 0)), (.client 0, .step)]).bind (fun s =>
        (run s concurrentRegister).map fun _ =>
          decide (avoidsUnregister 0 "a" s concurrentRegister = true ∧
            (s.orchs 0).agents.lookup "a" = some 0)) = some true := by decide
  obtain ⟨s, hs, h'⟩ := Option.bind_eq_some.1 h
  obtain ⟨s', hs', hp⟩ := Option.map_eq_some'.1 h'
  obtain ⟨hav, hx⟩ := of_decide_eq_true hp
  exact ⟨s, hs, s', hs', ⟨hav, hx⟩, registry_entry_kept concurrentRegister hs' hav hx⟩

end OpenCog

/-
# One iteration of the worker

An iteration of `OrchestratorLoop` drains `message_queue_` into a local batch, delivers or drops
each message of it (`ProcessMessageQueue`), then pops at most one entry of `scheduled_agents_`
and dispatches it.  The loop catches what `Execute` raises and writes `FAILED`; nothing catches
what `OnMessage` raises, which calls `std::terminate` (`onMessage_raise_terminates`).

`WorkerRun` is a run of steps of the worker alone, and `Sys.Moved` says what such a run may
change: the worker's own orchestrator, the agents' states and the ghost histories.  One lemma per
phase of the loop runs that phase to its end and says what it leaves; they compose into a whole
iteration (`iteration_contains_execute_fault`), and into the worker's way out of its loop once
`running_` is clear, which `Orchestrator/Thread.lean` uses for the end of `Stop`.
-/
import OpenCog.Orchestrator.Lifecycle

namespace OpenCog

/-! ### Runs -/

/-- Two lists of steps run one after the other. -/
lemma run_append (s : Sys) (l₁ l₂ : List (Tid × Choice)) :
    run s (l₁ ++ l₂) = (run s l₁).bind (run · l₂) := by
  induction l₁ generalizing s with
  | nil => rfl
  | cons p l₁ ih =>
    simp only [List.cons_append, run]
    cases s.step p.1 p.2 <;> simp [ih]

/-- A run of steps of other threads leaves the stack of `t` as it is. -/
lemma run_stack_of_ne {t : Tid} : ∀ {s s' : Sys} {l : List (Tid × Choice)},
    (∀ p ∈ l, p.1 ≠ t) → run s l = some s' → s'.stack t = s.stack t
  | s, s', [], _, h => by cases h; rfl
  | s, s', (t', ch) :: l, hl, h => by
    simp only [run] at h
    cases hs : s.step t' ch with
    | none => simp [hs] at h
    | some s₁ =>
      rw [hs, Option.some_bind] at h
      rw [run_stack_of_ne (fun p hp => hl p (.tail _ hp)) h,
        Sys.stack_of_ne hs (hl _ (.head _)).symm]

/-! ### What an iteration does -/

/-- The messages of a batch, each with the agent that the registry `agents` gives its target:
`ProcessMessageQueue` delivers a message to that agent, and drops it when there is none. -/
def routeBatch (agents : AList (fun _ : String => Nat)) (b : List AgentMessage) :
    List (AgentMessage × Option Nat) :=
  b.map fun m => (m, agents.lookup m.toAgentId)

/-- The agent whose `Execute` an iteration calls: the popped id, unless it is empty, when the
registry gives it an agent that is `IDLE`. -/
def dispatched (q : Orch) (state : Nat → AgentState) : Option Nat :=
  match q.scheduledAgents with
  | [] => none
  | id :: _ =>
    if id = "" then none
    else (q.agents.lookup id).bind fun a => if state a = .idle then some a else none

@[simp] lemma routeBatch_nil (agents : AList (fun _ : String => Nat)) : routeBatch agents [] = [] :=
  rfl

@[simp] lemma routeBatch_cons (agents : AList (fun _ : String => Nat)) (m : AgentMessage)
    (b : List AgentMessage) :
    routeBatch agents (m :: b) = (m, agents.lookup m.toAgentId) :: routeBatch agents b := rfl

@[simp] lemma deliveredOf_nil : deliveredOf [] = [] := rfl

@[simp] lemma deliveredOf_cons_none (m : AgentMessage) (l : List (AgentMessage × Option Nat)) :
    deliveredOf ((m, none) :: l) = deliveredOf l := rfl

@[simp] lemma deliveredOf_cons_some (m : AgentMessage) (a : Nat)
    (l : List (AgentMessage × Option Nat)) :
    deliveredOf ((m, some a) :: l) = (m, a) :: deliveredOf l := rfl

/-- The positions at which the worker waits for a callback it called. -/
def LoopPc.waitsCallback : LoopPc → Bool
  | .deliverWait _ | .executeWait _ => true
  | _ => false

namespace Sys

variable {s s' s₁ : Sys} {o : Nat} {ok : Bool}

/-! ### Runs of the worker -/

/-- `s'` follows from `s` by steps of the worker of `o` alone: steps of its loop, returns of the
callbacks it calls, and, when `ok` is false, raises. -/
def WorkerRun (o : Nat) (ok : Bool) (s s' : Sys) : Prop :=
  ∃ l, (∀ p ∈ l, p.1 = .worker o ∧ (p.2 = .step ∨ p.2 = .ret ∨ (p.2 = .raise ∧ ok = false))) ∧
    run s l = some s'

lemma WorkerRun.refl (s : Sys) : WorkerRun o ok s s := ⟨[], by simp, rfl⟩

lemma WorkerRun.head {ch : Choice} (h : s.step (.worker o) ch = some s₁)
    (hch : ch = .step ∨ ch = .ret ∨ (ch = .raise ∧ ok = false)) (hr : WorkerRun o ok s₁ s') :
    WorkerRun o ok s s' := by
  obtain ⟨l, hl, hrun⟩ := hr
  exact ⟨(.worker o, ch) :: l, List.forall_mem_cons.2 ⟨⟨rfl, hch⟩, hl⟩, by simp [run, h, hrun]⟩

lemma WorkerRun.trans (h₁ : WorkerRun o ok s s₁) (h₂ : WorkerRun o ok s₁ s') :
    WorkerRun o ok s s' := by
  obtain ⟨l₁, hl₁, hr₁⟩ := h₁
  obtain ⟨l₂, hl₂, hr₂⟩ := h₂
  exact ⟨l₁ ++ l₂, fun p hp => (List.mem_append.1 hp).elim (hl₁ p) (hl₂ p),
    by rw [run_append, hr₁, Option.some_bind, hr₂]⟩

/-- Nobody holds the mutexes of `o` and the run goes on: the worker of `o` never waits. -/
structure Free (s : Sys) (o : Nat) : Prop where
  aborted : s.aborted = false
  agentsMutex : (s.orchs o).agentsMutex = none
  messagesMutex : (s.orchs o).messagesMutex = none

lemma Free.heldOn (hf : s.Free o) (m : Option Mutex) : s.heldOn o m = false := by
  rcases m with _ | _ | _ <;> simp [Sys.heldOn, Orch.holder, hf.agentsMutex, hf.messagesMutex]

/-- A step of the worker of `o` at `pc`, from an empty stack, while nobody holds its mutexes. -/
lemma Free.step (hf : s.Free o) (hs : s.stack (.worker o) = []) {pc : LoopPc}
    (hl : (s.orchs o).loop = some pc) : s.step (.worker o) .step = s.loopStep o pc :=
  step_worker hf.aborted hs hl (hf.heldOn _)

/-- `s'` differs from `s` at most in orchestrator `o`, which is `q`, in the agents' states,
which are `st`, and in the ghost histories: what the worker of `o` may write. -/
structure Moved (s s' : Sys) (o : Nat) (q : Orch) (st : Nat → AgentState) : Prop where
  orchs : s'.orchs = Function.update s.orchs o q
  state : s'.state = st
  stack : s'.stack = s.stack
  bound : s'.bound = s.bound
  agentId : s'.agentId = s.agentId
  aborted : s'.aborted = s.aborted

lemma Moved.trans {q₁ q : Orch} {st₁ st : Nat → AgentState} (h₁ : s.Moved s₁ o q₁ st₁)
    (h₂ : s₁.Moved s' o q st) : s.Moved s' o q st :=
  ⟨by rw [h₂.orchs, h₁.orchs, Function.update_idem], h₂.state, h₂.stack.trans h₁.stack,
    h₂.bound.trans h₁.bound, h₂.agentId.trans h₁.agentId, h₂.aborted.trans h₁.aborted⟩

lemma Moved.orch {q : Orch} {st : Nat → AgentState} (h : s.Moved s' o q st) : s'.orchs o = q := by
  simp [h.orchs]

/-- A worker's move that leaves its orchestrator's mutexes keeps them free. -/
lemma Moved.loop {q : Orch} {st : Nat → AgentState} {pc : LoopPc} (h : s.Moved s' o q st)
    (hq : q.loop = some pc) : (s'.orchs o).loop = some pc := by
  rw [h.orch, hq]

lemma Moved.free {q : Orch} {st : Nat → AgentState} (hf : s.Free o) (h : s.Moved s' o q st)
    (ha : q.agentsMutex = none) (hm : q.messagesMutex = none) : s'.Free o :=
  ⟨h.aborted.trans hf.aborted, by rw [h.orch, ha], by rw [h.orch, hm]⟩

lemma Moved.stack_worker {q : Orch} {st : Nat → AgentState} (hs : s.stack (.worker o) = [])
    (h : s.Moved s' o q st) : s'.stack (.worker o) = [] := by
  rw [h.stack, hs]

/-- One step of the loop that writes only the worker's orchestrator and the agents' states. -/
lemma Free.stepMoved (hf : s.Free o) (hs : s.stack (.worker o) = []) {pc : LoopPc}
    (hl : (s.orchs o).loop = some pc) {q : Orch} {st : Nat → AgentState}
    (h : s.loopStep o pc = some s₁) (hm : s.Moved s₁ o q st) {s' : Sys} {q' : Orch}
    {st' : Nat → AgentState} (hr : WorkerRun o ok s₁ s' ∧ s₁.Moved s' o q' st') :
    WorkerRun o ok s s' ∧ s.Moved s' o q' st' :=
  ⟨.head (by rw [hf.step hs hl, h]) (.inl rfl) hr.1, hm.trans hr.2⟩

lemma Moved.congr {q q' : Orch} {st st' : Nat → AgentState} (h : s.Moved s' o q st) (hq : q = q')
    (hst : st = st') : s.Moved s' o q' st' :=
  hq ▸ hst ▸ h

lemma Moved.refl (s : Sys) (o : Nat) : s.Moved s o (s.orchs o) s.state :=
  ⟨by simp, rfl, rfl, rfl, rfl, rfl⟩

/-! ### The dispatch, from the end backwards -/

variable (ok)

/-- The handler after `Execute` writes `IDLE` for a return and `FAILED` for a raise. -/
lemma Free.dispatchEnd_run (hf : s.Free o) (hs : s.stack (.worker o) = []) {a : Nat} {ok' : Bool}
    (hl : (s.orchs o).loop = some (.dispatchEnd a ok')) :
    ∃ s', WorkerRun o ok s s' ∧ s.Moved s' o { s.orchs o with loop := some .top }
      (Function.update s.state a (if ok' then .idle else .failed)) :=
  ⟨(s.setState a (if ok' then .idle else .failed)).setLoop o .top,
    .head (by rw [hf.step hs hl]; rfl) (.inl rfl) (.refl _), ⟨rfl, rfl, rfl, rfl, rfl, rfl⟩⟩

/-- `Execute` of `a` begins, returns (`ok`) or raises, and the handler writes `IDLE` or
`FAILED`. -/
lemma Free.dispatchExec_run (hf : s.Free o) (hs : s.stack (.worker o) = []) {a : Nat}
    (hl : (s.orchs o).loop = some (.dispatchExec a)) :
    ∃ s', WorkerRun o ok s s' ∧ s.Moved s' o { s.orchs o with loop := some .top }
      (Function.update s.state a (if ok then .idle else .failed)) := by
  let s₁ := ((s.setLoop o (.executeWait a)).setStack (.worker o) [.user o a .execute]).log a .execute
  let s₂ := ((s₁.callbackEffect a .execute ok).setLoop o (.dispatchEnd a ok)).setStack (.worker o) []
  have h₂ : s₁.step (.worker o) (if ok then .ret else .raise) = some s₂ := by
    have hs₁ : s₁.stack (.worker o) = [.user o a .execute] := by simp [s₁]
    rw [step_user (by simpa [s₁] using hf.aborted) hs₁ ok]
    exact congrArg some ((resume_move _ _ _ _).of_executeWait (by simp [s₁]))
  have hm : s.Moved s₂ o { s.orchs o with loop := some (.dispatchEnd a ok) } s.state := by
    constructor <;> cases ok <;> simp [s₁, s₂, callbackEffect, hs]
  obtain ⟨s', hr, hm'⟩ :=
    (hm.free hf hf.agentsMutex hf.messagesMutex).dispatchEnd_run ok (hm.stack_worker hs) (hm.loop rfl)
  refine ⟨s', .head (by rw [hf.step hs hl]; rfl) (.inl rfl) (.head h₂ ?_ hr), ?_⟩
  · by_cases h : ok <;> simp [h]
  · exact (hm.trans hm').congr (by simp [hm.orch]) (by rw [hm.state])

/-- `set_state(RUNNING)`, then `Execute` and its handler. -/
lemma Free.dispatchSet_run (hf : s.Free o) (hs : s.stack (.worker o) = []) {a : Nat}
    (hl : (s.orchs o).loop = some (.dispatchSet a)) :
    ∃ s', WorkerRun o ok s s' ∧ s.Moved s' o { s.orchs o with loop := some .top }
      (Function.update s.state a (if ok then .idle else .failed)) := by
  have hm : s.Moved ((s.setState a .running).setLoop o (.dispatchExec a)) o
      { s.orchs o with loop := some (.dispatchExec a) } (Function.update s.state a .running) :=
    ⟨rfl, rfl, rfl, rfl, rfl, rfl⟩
  obtain ⟨s', hr, hm'⟩ := (hm.free hf hf.agentsMutex hf.messagesMutex).dispatchExec_run ok
    (hm.stack_worker hs) (hm.loop rfl)
  exact ⟨s', .head (by rw [hf.step hs hl]; rfl) (.inl rfl) hr,
    (hm.trans hm').congr (by simp [hm.orch]) (by simp [hm.state])⟩

/-- The check `state() == IDLE` of `a`: the dispatch goes on only for an `IDLE` agent. -/
lemma Free.dispatchCheck_run (hf : s.Free o) (hs : s.stack (.worker o) = []) {a : Nat}
    (hl : (s.orchs o).loop = some (.dispatchCheck a)) :
    ∃ s', WorkerRun o ok s s' ∧ s.Moved s' o { s.orchs o with loop := some .top }
      (if s.state a = .idle then Function.update s.state a (if ok then .idle else .failed)
        else s.state) := by
  by_cases hi : s.state a = .idle
  · have hm : s.Moved (s.setLoop o (.dispatchSet a)) o
        { s.orchs o with loop := some (.dispatchSet a) } s.state := ⟨rfl, rfl, rfl, rfl, rfl, rfl⟩
    obtain ⟨s', hr, hm'⟩ := (hm.free hf hf.agentsMutex hf.messagesMutex).dispatchSet_run ok
      (hm.stack_worker hs) (hm.loop rfl)
    exact ⟨s', .head (by rw [hf.step hs hl]; simp [loopStep, hi]) (.inl rfl) hr,
      (hm.trans hm').congr (by simp [hm.orch]) (by simp [hi])⟩
  · exact ⟨s.setLoop o .top, .head (by rw [hf.step hs hl]; simp [loopStep, hi]) (.inl rfl)
      (.refl _), ⟨rfl, by simp [hi], rfl, rfl, rfl, rfl⟩⟩

/-- `GetAgent(id)` in the worker: an id with no entry ends the dispatch. -/
lemma Free.dispatchGet_run (hf : s.Free o) (hs : s.stack (.worker o) = []) {id : String}
    (hl : (s.orchs o).loop = some (.dispatchGet id)) :
    ∃ s', WorkerRun o ok s s' ∧ s.Moved s' o { s.orchs o with loop := some .top }
      ((((s.orchs o).agents.lookup id).bind fun a => if s.state a = .idle then some a else none).elim
        s.state fun a => Function.update s.state a (if ok then .idle else .failed)) := by
  cases hx : (s.orchs o).agents.lookup id with
  | none =>
    exact ⟨s.setLoop o .top, .head (by rw [hf.step hs hl]; simp [loopStep, hx]) (.inl rfl)
      (.refl _), ⟨rfl, rfl, rfl, rfl, rfl, rfl⟩⟩
  | some a =>
    have hm : s.Moved (s.setLoop o (.dispatchCheck a)) o
        { s.orchs o with loop := some (.dispatchCheck a) } s.state := ⟨rfl, rfl, rfl, rfl, rfl, rfl⟩
    obtain ⟨s', hr, hm'⟩ := (hm.free hf hf.agentsMutex hf.messagesMutex).dispatchCheck_run ok
      (hm.stack_worker hs) (hm.loop rfl)
    refine ⟨s', .head (by rw [hf.step hs hl]; simp [loopStep, hx]) (.inl rfl) hr,
      (hm.trans hm').congr (by simp [hm.orch]) ?_⟩
    by_cases hi : s.state a = .idle <;> simp [hi]

/-- The pop of `scheduled_agents_` and the dispatch of the popped id, an empty one read as
nothing popped. -/
lemma Free.pop_run (hf : s.Free o) (hs : s.stack (.worker o) = [])
    (hl : (s.orchs o).loop = some .pop) :
    ∃ s', WorkerRun o ok s s' ∧
      s.Moved s' o
        { s.orchs o with
          loop := some .top
          scheduledAgents := (s.orchs o).scheduledAgents.tail }
        ((dispatched (s.orchs o) s.state).elim s.state
          fun a => Function.update s.state a (if ok then .idle else .failed)) := by
  cases hq : (s.orchs o).scheduledAgents with
  | nil =>
    exact ⟨s.setLoop o .top, .head (by rw [hf.step hs hl]; simp [loopStep, hq]) (.inl rfl)
      (.refl _), ⟨by simp [hq], by simp [dispatched, hq], rfl, rfl, rfl, rfl⟩⟩
  | cons id rest =>
    by_cases he : id = ""
    · exact ⟨s.setOrch o fun q => { q with scheduledAgents := rest, loop := some .top },
        .head (by rw [hf.step hs hl]; simp [loopStep, hq, he]) (.inl rfl) (.refl _),
        ⟨rfl, by simp [dispatched, hq, he], rfl, rfl, rfl, rfl⟩⟩
    have hm : s.Moved
        (s.setOrch o fun q => { q with scheduledAgents := rest, loop := some (.dispatchGet id) }) o
        { s.orchs o with scheduledAgents := rest, loop := some (.dispatchGet id) } s.state :=
      ⟨rfl, rfl, rfl, rfl, rfl, rfl⟩
    obtain ⟨s', hr, hm'⟩ := (hm.free hf hf.agentsMutex hf.messagesMutex).dispatchGet_run ok
      (hm.stack_worker hs) (hm.loop rfl)
    exact ⟨s', .head (by rw [hf.step hs hl]; simp [loopStep, hq, he]) (.inl rfl) hr,
      (hm.trans hm').congr (by simp [hm.orch]) (by simp [dispatched, hq, he, hm.orch])⟩

/-! ### `ProcessMessageQueue` -/

/-- `OnMessage` of `a` with `m` begins and returns; the rest of the batch is next. -/
lemma Free.deliverCall_run (hf : s.Free o) (hs : s.stack (.worker o) = []) {a : Nat}
    {m : AgentMessage} {rest : List AgentMessage}
    (hl : (s.orchs o).loop = some (.deliverCall a m rest)) :
    ∃ s', WorkerRun o ok s s' ∧ s.Moved s' o
      { s.orchs o with
        onMessageCalls := (s.orchs o).onMessageCalls ++ [(m, a)]
        loop := some (.deliver rest) } s.state := by
  let s₁ := ((s.setOrch o fun q =>
    { q with onMessageCalls := q.onMessageCalls ++ [(m, a)], loop := some (.deliverWait rest) }
    ).setStack (.worker o) [.user o a (.onMessage m)]).log a .onMessage
  have hs₁ : s₁.stack (.worker o) = [.user o a (.onMessage m)] := by simp [s₁]
  have h₂ := step_user (by simpa [s₁] using hf.aborted) hs₁ true
  rw [(resume_move _ _ _ _).of_deliverWait
    (by simp [s₁] : ((s₁.callbackEffect a (.onMessage m) true).orchs o).loop =
      some (.deliverWait rest))] at h₂
  refine ⟨_, .head (by rw [hf.step hs hl]; rfl) (.inl rfl) (.head h₂ (.inr (.inl rfl)) (.refl _)),
    ?_⟩
  constructor <;> simp [s₁, callbackEffect, hs]

/-- Each message of the batch is looked up in the registry and delivered to the agent found, or
dropped when there is none; each `OnMessage` returns.  The pop is next. -/
lemma Free.deliver_run (b : List AgentMessage) : ∀ {s : Sys}, s.Free o →
    s.stack (.worker o) = [] → (s.orchs o).loop = some (.deliver b) →
    ∃ s', WorkerRun o ok s s' ∧ s.Moved s' o
      { s.orchs o with
        loop := some .pop
        processed := (s.orchs o).processed ++ routeBatch (s.orchs o).agents b
        onMessageCalls :=
          (s.orchs o).onMessageCalls ++ deliveredOf (routeBatch (s.orchs o).agents b) }
      s.state := by
  induction b with
  | nil =>
    intro s hf hs hl
    exact ⟨s.setLoop o .pop, .head (by rw [hf.step hs hl]; rfl) (.inl rfl) (.refl _),
      ⟨by simp, rfl, rfl, rfl, rfl, rfl⟩⟩
  | cons m rest ih =>
    intro s hf hs hl
    cases hx : (s.orchs o).agents.lookup m.toAgentId with
    | none =>
      -- no agent: the message is dropped
      have hm : s.Moved (s.setOrch o fun q =>
          { q with processed := q.processed ++ [(m, none)], loop := some (.deliver rest) }) o
          { s.orchs o with
            processed := (s.orchs o).processed ++ [(m, none)]
            loop := some (.deliver rest) } s.state := ⟨rfl, rfl, rfl, rfl, rfl, rfl⟩
      obtain ⟨s', hr, hm'⟩ := ih (hm.free hf hf.agentsMutex hf.messagesMutex) (hm.stack_worker hs)
        (hm.loop rfl)
      exact ⟨s', .head (by rw [hf.step hs hl]; simp [loopStep, hx]) (.inl rfl) hr,
        (hm.trans hm').congr (by simp [hm.orch, hx]) rfl⟩
    | some a =>
      -- agent `a`: its `OnMessage` is called with the message
      have hm : s.Moved (s.setOrch o fun q =>
          { q with processed := q.processed ++ [(m, some a)], loop := some (.deliverCall a m rest) })
          o { s.orchs o with
            processed := (s.orchs o).processed ++ [(m, some a)]
            loop := some (.deliverCall a m rest) } s.state := ⟨rfl, rfl, rfl, rfl, rfl, rfl⟩
      obtain ⟨s₁, hr₁, hm₁⟩ := (hm.free hf hf.agentsMutex hf.messagesMutex).deliverCall_run ok
        (hm.stack_worker hs) (hm.loop rfl)
      have hm₁' := hm.trans hm₁
      simp only [setOrch_orchs, setOrch_state, Function.update_same] at hm₁'
      obtain ⟨s', hr, hm'⟩ := ih (hm₁'.free hf hf.agentsMutex hf.messagesMutex)
        (hm₁'.stack_worker hs) (hm₁'.loop rfl)
      exact ⟨s', .head (by rw [hf.step hs hl]; simp [loopStep, hx]) (.inl rfl) (hr₁.trans hr),
        (hm₁'.trans hm').congr (by simp [hm₁'.orch, hx]) hm₁'.state⟩

/-! ### The iteration -/

/-- The drain of `message_queue_`, its batch, and the pop and its dispatch: the top is next. -/
lemma Free.drain_run (hf : s.Free o) (hs : s.stack (.worker o) = [])
    (hl : (s.orchs o).loop = some .drain) :
    ∃ s', WorkerRun o ok s s' ∧ s.Moved s' o
      { s.orchs o with
        loop := some .top
        messageQueue := []
        scheduledAgents := (s.orchs o).scheduledAgents.tail
        processed := (s.orchs o).processed ++ routeBatch (s.orchs o).agents (s.orchs o).messageQueue
        onMessageCalls := (s.orchs o).onMessageCalls ++
          deliveredOf (routeBatch (s.orchs o).agents (s.orchs o).messageQueue) }
      ((dispatched (s.orchs o) s.state).elim s.state
        fun a => Function.update s.state a (if ok then .idle else .failed)) := by
  have hm : s.Moved (s.setOrch o fun q =>
      { q with messageQueue := [], loop := some (.deliver q.messageQueue) }) o
      { s.orchs o with messageQueue := [], loop := some (.deliver (s.orchs o).messageQueue) }
      s.state := ⟨rfl, rfl, rfl, rfl, rfl, rfl⟩
  obtain ⟨s₁, hr₁, hm₁⟩ := Free.deliver_run ok _ (hm.free hf hf.agentsMutex hf.messagesMutex)
    (hm.stack_worker hs) (hm.loop rfl)
  have hm₁' := hm.trans hm₁
  simp only [setOrch_orchs, setOrch_state, Function.update_same] at hm₁'
  obtain ⟨s', hr, hm'⟩ := (hm₁'.free hf hf.agentsMutex hf.messagesMutex).pop_run ok
    (hm₁'.stack_worker hs) (hm₁'.loop rfl)
  exact ⟨s', .head (by rw [hf.step hs hl]; rfl) (.inl rfl) (hr₁.trans hr),
    (hm₁'.trans hm').congr (by simp [hm₁'.orch]) (by rw [hm₁'.state, hm₁'.orch]; rfl)⟩

/-- Once `running_` is clear, a worker back at the top of its loop leaves it. -/
lemma Free.exit_run (hf : s.Free o) (hs : s.stack (.worker o) = []) {q : Orch} {st : Nat → AgentState}
    (h : ∃ s₁, WorkerRun o ok s s₁ ∧ s.Moved s₁ o q st) (hq : q.loop = some .top)
    (hqr : q.running = false) (ha : q.agentsMutex = none) (hm : q.messagesMutex = none) :
    ∃ s', WorkerRun o ok s s' ∧ s'.aborted = false ∧ (s'.orchs o).loop = none := by
  obtain ⟨s₁, hr₁, hm₁⟩ := h
  have hf₁ := hm₁.free hf ha hm
  refine ⟨s₁.setOrch o fun q => { q with loop := none },
    hr₁.trans (.head (by rw [hf₁.step (hm₁.stack_worker hs) (hm₁.loop hq)]; simp [loopStep, hm₁.orch, hqr])
    (.inl rfl) (.refl _)), hf₁.aborted, by simp⟩

/-! ### The way out of the loop -/

/-- Once `running_` is clear, the worker at the pop leaves its loop. -/
lemma Free.exits_pop (hf : s.Free o) (hs : s.stack (.worker o) = [])
    (hl : (s.orchs o).loop = some .pop) (hr : (s.orchs o).running = false) :
    ∃ s', WorkerRun o true s s' ∧ s'.aborted = false ∧ (s'.orchs o).loop = none :=
  hf.exit_run true hs (hf.pop_run true hs hl) rfl hr hf.agentsMutex hf.messagesMutex

/-- Once `running_` is clear, the worker in `ProcessMessageQueue` leaves its loop. -/
lemma Free.exits_deliver (hf : s.Free o) (hs : s.stack (.worker o) = []) {b : List AgentMessage}
    (hl : (s.orchs o).loop = some (.deliver b)) (hr : (s.orchs o).running = false) :
    ∃ s', WorkerRun o true s s' ∧ s'.aborted = false ∧ (s'.orchs o).loop = none := by
  obtain ⟨s₁, hr₁, hm₁⟩ := hf.deliver_run true b hs hl
  obtain ⟨s', hr', h'⟩ := (hm₁.free hf hf.agentsMutex hf.messagesMutex).exits_pop
    (hm₁.stack_worker hs) (hm₁.loop rfl) (by rw [hm₁.orch]; exact hr)
  exact ⟨s', hr₁.trans hr', h'⟩

/-- The return of the only callback of the worker, which waits for it: its stack is empty
again. -/
lemma Free.ret_run (hf : s.Free o) {o' a : Nat} {cb : Callback}
    (hs : s.stack (.worker o) = [.user o' a cb]) {pc : LoopPc}
    (hw : (∃ rest, (s.orchs o).loop = some (.deliverWait rest) ∧ pc = .deliver rest) ∨
      ∃ a', (s.orchs o).loop = some (.executeWait a') ∧ pc = .dispatchEnd a' true) :
    ∃ s', WorkerRun o true s s' ∧ s'.Free o ∧ s'.stack (.worker o) = [] ∧
      s'.orchs o = { s.orchs o with loop := some pc } := by
  have h := step_user hf.aborted hs true
  rcases hw with ⟨rest, hl, rfl⟩ | ⟨a', hl, rfl⟩
  · rw [(resume_move _ _ _ _).of_deliverWait (by simpa using hl)] at h
    exact ⟨_, .head h (.inr (.inl rfl)) (.refl _),
      ⟨by simpa using hf.aborted, by simpa using hf.agentsMutex, by simpa using hf.messagesMutex⟩,
      by simp, by simp⟩
  · rw [(resume_move _ _ _ _).of_executeWait (by simpa using hl)] at h
    exact ⟨_, .head h (.inr (.inl rfl)) (.refl _),
      ⟨by simpa using hf.aborted, by simpa using hf.agentsMutex, by simpa using hf.messagesMutex⟩,
      by simp, by simp⟩

/-- Once `running_` is clear, the worker, at any position of its loop with an empty stack or
inside the one callback it waits for there, leaves its loop by steps of its own, each callback
returning. -/
lemma Free.workerExits (hf : s.Free o) (hr : (s.orchs o).running = false)
    (hw : (s.stack (.worker o) = [] ∧ (s.orchs o).loop.any LoopPc.waitsCallback = false) ∨
      ∃ o' a cb, s.stack (.worker o) = [.user o' a cb] ∧
        (s.orchs o).loop.any LoopPc.waitsCallback = true) :
    ∃ s', WorkerRun o true s s' ∧ s'.aborted = false ∧ (s'.orchs o).loop = none := by
  rcases hl : (s.orchs o).loop with _ | pc
  · exact ⟨s, .refl _, hf.aborted, hl⟩
  rw [hl] at hw
  rcases hw with ⟨hs, hw⟩ | ⟨o', a, cb, hs, hw⟩
  · have exit := fun {q st} (h : ∃ s₁, WorkerRun o true s s₁ ∧ s.Moved s₁ o q st)
        (hq : q.loop = some .top) (hqr : q.running = false) (ha : q.agentsMutex = none)
        (hm : q.messagesMutex = none) => hf.exit_run true hs h hq hqr ha hm
    cases pc with
    | top => exact exit ⟨s, .refl _, .refl s o⟩ hl hr hf.agentsMutex hf.messagesMutex
    | drain => exact exit (hf.drain_run true hs hl) rfl hr hf.agentsMutex hf.messagesMutex
    | deliver b => exact hf.exits_deliver hs hl hr
    | deliverCall a m rest =>
      obtain ⟨s₁, hr₁, hm₁⟩ := hf.deliverCall_run true hs hl
      obtain ⟨s', hr', h'⟩ := (hm₁.free hf hf.agentsMutex hf.messagesMutex).exits_deliver
        (hm₁.stack_worker hs) (hm₁.loop rfl) (by rw [hm₁.orch]; exact hr)
      exact ⟨s', hr₁.trans hr', h'⟩
    | pop => exact hf.exits_pop hs hl hr
    | dispatchGet id =>
      exact exit (hf.dispatchGet_run true hs hl) rfl hr hf.agentsMutex hf.messagesMutex
    | dispatchCheck a =>
      exact exit (hf.dispatchCheck_run true hs hl) rfl hr hf.agentsMutex hf.messagesMutex
    | dispatchSet a =>
      exact exit (hf.dispatchSet_run true hs hl) rfl hr hf.agentsMutex hf.messagesMutex
    | dispatchExec a =>
      exact exit (hf.dispatchExec_run true hs hl) rfl hr hf.agentsMutex hf.messagesMutex
    | dispatchEnd a ok' =>
      exact exit (hf.dispatchEnd_run true hs hl) rfl hr hf.agentsMutex hf.messagesMutex
    | deliverWait _ | executeWait _ => simp [LoopPc.waitsCallback] at hw
  · cases pc with
    | deliverWait rest =>
      obtain ⟨s₁, hr₁, hf₁, hs₁, hq₁⟩ := hf.ret_run hs (.inl ⟨rest, hl, rfl⟩)
      obtain ⟨s', hr', h'⟩ := hf₁.exits_deliver hs₁ (by rw [hq₁]) (by rw [hq₁]; exact hr)
      exact ⟨s', hr₁.trans hr', h'⟩
    | executeWait a' =>
      obtain ⟨s₁, hr₁, hf₁, hs₁, hq₁⟩ := hf.ret_run hs (.inr ⟨a', hl, rfl⟩)
      obtain ⟨s', hr', h'⟩ := hf₁.exit_run true hs₁ (hf₁.dispatchEnd_run true hs₁ (by rw [hq₁])) rfl
        (by rw [hq₁]; exact hr) (by rw [hq₁]; exact hf.agentsMutex)
        (by rw [hq₁]; exact hf.messagesMutex)
      exact ⟨s', hr₁.trans hr', h'⟩
    | _ => simp [LoopPc.waitsCallback] at hw

end Sys

/-- One iteration of `OrchestratorLoop`, from the top of the loop while `running_` holds and
nobody holds the orchestrator's mutexes, with every `OnMessage` returning and `Execute`
returning (`ok`) or raising: the worker's own steps drain `message_queue_`, deliver each message
of the batch to the agent the registry gives its target or drop it when there is none, pop one
entry of `scheduled_agents_`, and, for an `IDLE` agent registered under a nonempty popped id,
run `Execute` and write `IDLE` after a return and `FAILED` after a raise.  Nothing else changes
but the ghost histories, the run goes on, and the next step begins the next iteration. -/
theorem iteration_contains_execute_fault {s : Sys} {o : Nat} (ha : s.aborted = false)
    (hm : (s.orchs o).agentsMutex = none ∧ (s.orchs o).messagesMutex = none)
    (hs : s.stack (.worker o) = []) (hl : (s.orchs o).loop = some .top)
    (hr : (s.orchs o).running = true) (ok : Bool) :
    ∃ l s', (∀ p ∈ l, p.1 = .worker o ∧ (p.2 = .step ∨ p.2 = .ret ∨ (p.2 = .raise ∧ ok = false))) ∧
      run s l = some s' ∧ s'.aborted = false ∧ s'.stack = s.stack ∧ s'.bound = s.bound ∧
      s'.orchs = Function.update s.orchs o
        { s.orchs o with
          messageQueue := []
          scheduledAgents := (s.orchs o).scheduledAgents.tail
          processed :=
            (s.orchs o).processed ++ routeBatch (s.orchs o).agents (s.orchs o).messageQueue
          onMessageCalls := (s.orchs o).onMessageCalls ++
            deliveredOf (routeBatch (s.orchs o).agents (s.orchs o).messageQueue) } ∧
      s'.state = (dispatched (s.orchs o) s.state).elim s.state
        (fun a => Function.update s.state a (if ok then .idle else .failed)) ∧
      ∃ s'', s'.step (.worker o) .step = some s'' ∧ (s''.orchs o).loop = some .drain := by
  have hf : s.Free o := ⟨ha, hm.1, hm.2⟩
  have hm₀ : s.Moved (s.setLoop o .drain) o { s.orchs o with loop := some .drain } s.state :=
    ⟨rfl, rfl, rfl, rfl, rfl, rfl⟩
  obtain ⟨s', ⟨l, hl', hrun⟩, hm'⟩ := (hm₀.free hf hm.1 hm.2).drain_run ok (hm₀.stack_worker hs)
    (hm₀.loop rfl)
  have hm₁ := hm₀.trans hm'
  simp only [Sys.setLoop_eq, Sys.setOrch_orchs, Sys.setOrch_state, Function.update_same, ← hl] at hm₁
  have hf' := hm₁.free hf hm.1 hm.2
  refine ⟨(.worker o, .step) :: l, s', List.forall_mem_cons.2 ⟨⟨rfl, .inl rfl⟩, hl'⟩,
    by rw [run, hf.step hs hl, Sys.loopStep, if_pos hr]; exact hrun, hf'.aborted,
    hm₁.stack, hm₁.bound, hm₁.orchs, hm₁.state, s'.setLoop o .drain, ?_, by simp⟩
  rw [hf'.step (hm₁.stack_worker hs) (hm₁.loop hl), Sys.loopStep, if_pos (by simp [hm₁.orch, hr])]

/-- Agent 0 is registered under `"a"`, a message for `"a"` and one for the unregistered `"b"` are
routed, `"a"` is scheduled, and orchestrator 0 is started: its worker stands at the top of its
loop. -/
def iterationReady : List (Tid × Choice) :=
  [(.client 0, .call (.registerAgent 0 0)), (.client 0, .step), (.client 0, .ret),
   (.client 0, .call (.routeMessage 0 ⟨"", "a", "", "", 0⟩)), (.client 0, .step),
   (.client 0, .call (.routeMessage 0 ⟨"", "b", "", "", 1⟩)), (.client 0, .step),
   (.client 0, .call (.scheduleAgent 0 "a")), (.client 0, .step),
   (.client 0, .call (.start 0)), (.client 0, .step), (.client 0, .step), (.client 0, .step)]

/-- The iteration with `Execute` raising: the message for `"a"` is delivered, the other dropped,
agent 0 is `FAILED`, and the worker begins its next iteration. -/
theorem iteration_contains_execute_fault_iterationReady :
    ∃ s, run (Sys.init fun _ => "a") iterationReady = some s ∧
      dispatched (s.orchs 0) s.state = some 0 ∧ (s.orchs 0).messageQueue.length = 2 ∧
      ∃ l s', (∀ p ∈ l, p.1 = .worker 0 ∧
          (p.2 = .step ∨ p.2 = .ret ∨ (p.2 = .raise ∧ false = false))) ∧
        run s l = some s' ∧ s'.aborted = false ∧ s'.state 0 = .failed ∧
        (s'.orchs 0).messageQueue = [] ∧ (s'.orchs 0).scheduledAgents = [] ∧
        (s'.orchs 0).processed =
          [(⟨"", "a", "", "", 0⟩, some 0), (⟨"", "b", "", "", 1⟩, none)] ∧
        (s'.orchs 0).onMessageCalls = [(⟨"", "a", "", "", 0⟩, 0)] ∧
        ∃ s'', s'.step (.worker 0) .step = some s'' ∧ (s''.orchs 0).loop = some .drain := by
  have h : (run (Sys.init fun _ => "a") iterationReady).map (fun s =>
      decide (s.aborted = false ∧
        ((s.orchs 0).agentsMutex = none ∧ (s.orchs 0).messagesMutex = none) ∧
        s.stack (.worker 0) = [] ∧ (s.orchs 0).loop = some .top ∧ (s.orchs 0).running = true ∧
        dispatched (s.orchs 0) s.state = some 0 ∧ (s.orchs 0).messageQueue.length = 2 ∧
        (s.orchs 0).scheduledAgents = ["a"] ∧
        (s.orchs 0).processed ++ routeBatch (s.orchs 0).agents (s.orchs 0).messageQueue =
          [(⟨"", "a", "", "", 0⟩, some 0), (⟨"", "b", "", "", 1⟩, none)] ∧
        (s.orchs 0).onMessageCalls ++
            deliveredOf (routeBatch (s.orchs 0).agents (s.orchs 0).messageQueue) =
          [(⟨"", "a", "", "", 0⟩, 0)])) = some true := by decide
  obtain ⟨s, hs, hp⟩ := Option.map_eq_some'.1 h
  obtain ⟨ha, hm, hw, hl, hr, hd, hq, hsa, hp, hc⟩ := of_decide_eq_true hp
  obtain ⟨l, s', hl', hrun, ha', -, -, ho, hst, hnext⟩ :=
    iteration_contains_execute_fault ha hm hw hl hr false
  exact ⟨s, hs, hd, hq, l, s', hl', hrun, ha', by simp [hst, hd], by simp [ho],
    by simp [ho, hsa], by simp [ho, hp], by simp [ho, hc], hnext⟩

end OpenCog

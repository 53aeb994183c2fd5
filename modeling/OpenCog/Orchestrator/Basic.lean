/-
# The agent orchestrator as a transition system

`AgentOrchestrator` (`agent-orchestrator.cc`) keeps a registry of agents under
`agents_mutex_`, two FIFO queues under `messages_mutex_`, a `running_` flag and one worker
thread that runs `OrchestratorLoop`.  The agents' callbacks (`Initialize`, `Shutdown`,
`Execute`, `OnMessage`) are user code, and the orchestrator calls them on client threads
(`RegisterAgent`, `UnregisterAgent`) and on the worker.

The model is a set of threads, each with a stack of frames, and one step function.

* A client thread with an empty stack may start any public call (`Call`).  The call pushes a
  frame (`Frame.op`) whose program counter (`OpPc`) walks through the method's code.
* The position of each orchestrator's worker in `OrchestratorLoop` and
  `ProcessMessageQueue` is the field `loop` of the orchestrator (`LoopPc`); `none` when no
  worker thread is alive.  A worker is only started on an orchestrator whose thread is not
  joinable (otherwise `std::thread`'s move assignment calls `std::terminate`), so one field is
  enough.
* A callback is a frame `Frame.user`.  Its code is arbitrary: at each step it calls any
  public method (`Choice.call`), returns (`Choice.ret`) or raises (`Choice.raise`).  An
  exception that a method throws into a callback is one more input that arbitrary code may
  react to in any of these ways, so it needs no frame of its own.  `Initialize` and
  `Shutdown` end with the base class bodies (`state_ = IDLE`, `state_ = COMPLETED`) when they
  return.
* A frame that needs a mutex steps only when the mutex is free; a thread whose next frame
  needs a mutex it holds never steps again.  `messages_mutex_` guards sections with neither
  waits nor user code in them, and each of those sections is one step.  `agents_mutex_` stays
  held across the callbacks that `RegisterAgent` and `UnregisterAgent` run, and across the
  enqueues of `BroadcastMessage`.
* `running_` is a plain `bool` that `Start`, `Stop` and the worker read and write with no lock
  held, each read and each write a step of its own.  `Start` is three steps: the check of
  `running_`, its write, and the construction of the thread with its move assignment to
  `orchestrator_thread_`, which is taken as one step (steps of the new thread before the
  assignment are left out).  `Stop` is three as well: the check, the write and the join.
* An exception that leaves the worker's `OnMessage`, and a `Start` that assigns over a thread
  that was never joined, call `std::terminate`: the flag `aborted` ends the run.

Ghost state, written by the steps and read by no step: every message enqueued, every message
processed with the result of its lookup, every `OnMessage` begun, every `BroadcastMessage`
that has returned with the messages it sent, every `RegisterAgent` and `UnregisterAgent` with
what it decided, and for each agent the callbacks begun on it, the returns of its
`Initialize` and the raises of its `Execute`.  A message carries its position in the enqueue
order in place of its timestamp, so that two messages with equal fields are told apart.

`step_cases` says once what a step can do.  Each branch of `opStep`, `loopStep` and `resume` is
a constructor of `OpMove`, `LoopMove` and `ResumeMove`, and the other modules argue from these
moves, never from the step functions.
-/
import Mathlib.Data.List.AList
import Mathlib.Data.List.Sort
import Mathlib.Data.String.Basic

namespace OpenCog

/-- `AgentState`. -/
inductive AgentState where
  | idle
  | running
  | paused
  | completed
  | failed
  deriving DecidableEq, Repr

/-- `AgentMessage`; `seq` is the ghost position of the message in its queue's enqueue order. -/
structure AgentMessage where
  fromAgentId : String
  toAgentId : String
  type : String
  payload : String
  seq : Nat
  deriving DecidableEq, Repr

/-- A thread: a client, or the worker of an orchestrator. -/
inductive Tid where
  | client (n : Nat)
  | worker (o : Nat)
  deriving DecidableEq, Repr

/-- The two mutexes of an orchestrator. -/
inductive Mutex where
  | agents
  | messages
  deriving DecidableEq, Repr

/-- The four callbacks of an agent. -/
inductive Callback where
  /-- `Initialize`. -/
  | init
  | execute
  | shutdown
  | onMessage (m : AgentMessage)
  deriving DecidableEq, Repr

/-- What the ghost history of an agent records: a callback begun on it, the return of its
`Initialize`, or a raise of its `Execute`. -/
inductive Event where
  /-- `Initialize` begun. -/
  | init
  | execute
  | shutdown
  | onMessage
  /-- `Initialize` returned, its base class body having set `IDLE`. -/
  | initialized
  | raised
  deriving DecidableEq, Repr

/-- What a `RegisterAgent` or `UnregisterAgent` call decided, at the step that decided it. -/
inductive RegCall where
  /-- `RegisterAgent(agent)` entered the agent, and returns what its `Initialize` returns
  (`true`), or found its id taken and returns `false` (`false`). -/
  | register (a : Nat) (entered : Bool)
  /-- `UnregisterAgent(agent_id)` found no entry and returns `false` (`some false`), or its
  `Shutdown` returned and it erased the entry and returns `true` (`some true`), or its
  `Shutdown` raised (`none`). -/
  | unregister (id : String) (result : Option Bool)
  deriving DecidableEq, Repr

/-- A `BroadcastMessage(from_agent_id, type, payload)` that has returned: the ids it sent to,
as the registry it locked gives them, and each message it sent, by recipient and position in
the enqueue order. -/
structure Broadcast where
  fromId : String
  type : String
  payload : String
  recipients : List String
  sent : List (String × Nat)
  deriving DecidableEq, Repr

/-- Where the worker is in `OrchestratorLoop` and `ProcessMessageQueue`. -/
inductive LoopPc where
  /-- `while (running_)`. -/
  | top
  /-- Lock `messages_mutex_` and move `message_queue_` into the local batch. -/
  | drain
  /-- `GetAgent(message.to_agent_id)` for the head of the batch; to `pop` when it is empty. -/
  | deliver (batch : List AgentMessage)
  /-- `agent->OnMessage(message)` is next. -/
  | deliverCall (a : Nat) (m : AgentMessage) (rest : List AgentMessage)
  /-- `OnMessage` runs. -/
  | deliverWait (rest : List AgentMessage)
  /-- Lock `messages_mutex_` and pop a scheduled id, if any. -/
  | pop
  /-- `GetAgent(agent_id)`. -/
  | dispatchGet (id : String)
  /-- `agent->state() == AgentState::IDLE`. -/
  | dispatchCheck (a : Nat)
  /-- `agent->set_state(AgentState::RUNNING)`. -/
  | dispatchSet (a : Nat)
  /-- `agent->Execute()` is next. -/
  | dispatchExec (a : Nat)
  /-- `Execute` runs. -/
  | executeWait (a : Nat)
  /-- `set_state(IDLE)` after a return, or `set_state(FAILED)` in the handler. -/
  | dispatchEnd (a : Nat) (ok : Bool)
  deriving DecidableEq, Repr

/-- Where a thread is in a public method of an orchestrator. -/
inductive OpPc where
  /-- `RegisterAgent(agent)`: lock, check, bind, insert, then `Initialize`. -/
  | registerAgent (a : Nat)
  /-- `Initialize` runs under `agents_mutex_`. -/
  | registerInit (a : Nat)
  /-- `UnregisterAgent(agent_id)`: lock, find, then `Shutdown`. -/
  | unregisterAgent (id : String)
  /-- `Shutdown` runs under `agents_mutex_`; `agents_.erase(it)` follows. -/
  | unregisterShutdown (id : String) (a : Nat)
  /-- `GetAgent` and `GetAgentsByTenant`: lock, read. -/
  | getAgent (id : String)
  /-- `if (running_) return;` in `Start`. -/
  | start
  /-- `running_ = true;`. -/
  | startSet
  /-- `orchestrator_thread_ = std::thread(&AgentOrchestrator::OrchestratorLoop, this);`. -/
  | startThread
  /-- `if (!running_) return;` in `Stop`. -/
  | stop
  /-- `running_ = false;`. -/
  | stopClear
  /-- `if (orchestrator_thread_.joinable()) orchestrator_thread_.join();`. -/
  | stopJoin
  | routeMessage (m : AgentMessage)
  /-- `BroadcastMessage`: lock `agents_mutex_` and enumerate the registry. -/
  | broadcastMessage (fromId type payload : String)
  /-- The loop of `BroadcastMessage`, with the ids still to send to and, as ghost state, the
  messages sent so far. -/
  | broadcastLoop (fromId type payload : String) (rest : List String) (sent : List (String × Nat))
  | scheduleAgent (id : String)
  deriving DecidableEq, Repr

/-- A frame of a thread's stack. -/
inductive Frame where
  /-- In a public method of orchestrator `o`. -/
  | op (o : Nat) (pc : OpPc)
  /-- In callback `cb` of agent `a`, called by orchestrator `o`. -/
  | user (o : Nat) (a : Nat) (cb : Callback)
  deriving DecidableEq, Repr

/-- A public call: of an orchestrator, or of an agent (`SendMessage`, `set_state`). -/
inductive Call where
  | registerAgent (o a : Nat)
  | unregisterAgent (o : Nat) (id : String)
  | getAgent (o : Nat) (id : String)
  | start (o : Nat)
  | stop (o : Nat)
  | routeMessage (o : Nat) (m : AgentMessage)
  | broadcastMessage (o : Nat) (fromId type payload : String)
  | scheduleAgent (o : Nat) (id : String)
  | sendMessage (a : Nat) (toId type payload : String)
  | setState (a : Nat) (st : AgentState)
  deriving DecidableEq, Repr

/-- What a thread does next where its code leaves a choice. -/
inductive Choice where
  /-- The code in a callback, or a client, calls a public method. -/
  | call (c : Call)
  /-- The callback returns. -/
  | ret
  /-- The callback raises. -/
  | raise
  /-- A step of the orchestrator's own code. -/
  | step
  deriving DecidableEq, Repr

/-- An `AgentOrchestrator` object. -/
structure Orch where
  running : Bool
  /-- `orchestrator_thread_.joinable()`. -/
  joinable : Bool
  /-- The worker's position, while its thread is alive. -/
  loop : Option LoopPc
  /-- `agents_`: id to agent. -/
  agents : AList (fun _ : String => Nat)
  messageQueue : List AgentMessage
  scheduledAgents : List String
  agentsMutex : Option Tid
  messagesMutex : Option Tid
  /-- Ghost: every message enqueued, in order. -/
  enqueued : List AgentMessage
  /-- Ghost: every message the worker has looked up, with the agent it found. -/
  processed : List (AgentMessage × Option Nat)
  /-- Ghost: every `OnMessage` the worker has begun, with its agent. -/
  onMessageCalls : List (AgentMessage × Nat)
  /-- Ghost: every `RegisterAgent` and `UnregisterAgent`, with what it decided, in order. -/
  registryLog : List RegCall
  /-- Ghost: every `BroadcastMessage` that has returned, in order. -/
  broadcasts : List Broadcast

/-- A new orchestrator. -/
def Orch.new : Orch := ⟨false, false, none, ∅, [], [], none, none, [], [], [], [], []⟩

/-- The holder of a mutex. -/
def Orch.holder (q : Orch) : Mutex → Option Tid
  | .agents => q.agentsMutex
  | .messages => q.messagesMutex

/-- The agents, the orchestrators and the threads. -/
structure Sys where
  /-- `agent_id_` of each agent object. -/
  agentId : Nat → String
  /-- `state_` of each agent object. -/
  state : Nat → AgentState
  /-- `orchestrator_` of each agent object. -/
  bound : Nat → Option Nat
  orchs : Nat → Orch
  stack : Tid → List Frame
  /-- Ghost: for each agent, what `Event` records. -/
  history : Nat → List Event
  /-- `std::terminate` has been called. -/
  aborted : Bool

/-- The ids a broadcast from `fromId` goes to: `std::map<std::string, …>` iterates in key
order, the lexicographic order of the ids' characters. -/
def recipients (agents : AList (fun _ : String => Nat)) (fromId : String) : List String :=
  (agents.keys.insertionSort fun a b : String => a.data ≤ b.data).filter fun k => k ≠ fromId

/-- The mutex a method's next step needs. -/
def OpPc.needs : OpPc → Option Mutex
  | .registerAgent _ | .unregisterAgent _ | .getAgent _ | .broadcastMessage _ _ _ => some .agents
  | .routeMessage _ | .scheduleAgent _ | .broadcastLoop _ _ _ (_ :: _) _ => some .messages
  | _ => none

/-- The mutex the worker's next step needs. -/
def LoopPc.needs : LoopPc → Option Mutex
  | .drain | .pop => some .messages
  | .deliver (_ :: _) | .dispatchGet _ => some .agents
  | _ => none

namespace Sys

/-- Agents constructed with ids `ids`, all `IDLE` and unbound; no thread in any call. -/
def init (ids : Nat → String) : Sys :=
  ⟨ids, fun _ => .idle, fun _ => none, fun _ => Orch.new, fun _ => [], fun _ => [], false⟩

/-! ### Updates -/

def setOrch (s : Sys) (o : Nat) (f : Orch → Orch) : Sys :=
  { s with orchs := Function.update s.orchs o (f (s.orchs o)) }

def setStack (s : Sys) (t : Tid) (fs : List Frame) : Sys :=
  { s with stack := Function.update s.stack t fs }

def setState (s : Sys) (a : Nat) (st : AgentState) : Sys :=
  { s with state := Function.update s.state a st }

def setLoop (s : Sys) (o : Nat) (pc : LoopPc) : Sys :=
  s.setOrch o fun q => { q with loop := some pc }

/-- Append an event to the ghost history of agent `a`. -/
def log (s : Sys) (a : Nat) (e : Event) : Sys :=
  { s with history := Function.update s.history a (s.history a ++ [e]) }

/-- `message_queue_.push(message)` under `messages_mutex_`, with the message's ghost
position. -/
def enqueue (s : Sys) (o : Nat) (m : AgentMessage) : Sys :=
  s.setOrch o fun q =>
    { q with
      messageQueue := q.messageQueue ++ [{ m with seq := q.enqueued.length }]
      enqueued := q.enqueued ++ [{ m with seq := q.enqueued.length }] }

/-- Whether the mutex `m` of orchestrator `o` is held, so that a frame needing it waits. -/
def heldOn (s : Sys) (o : Nat) : Option Mutex → Bool
  | some m => ((s.orchs o).holder m).isSome
  | none => false

/-! ### The steps -/

/-- Thread `t` starts the call `c`. -/
def call (s : Sys) (t : Tid) : Call → Sys
  | .registerAgent o a => s.setStack t (.op o (.registerAgent a) :: s.stack t)
  | .unregisterAgent o id => s.setStack t (.op o (.unregisterAgent id) :: s.stack t)
  | .getAgent o id => s.setStack t (.op o (.getAgent id) :: s.stack t)
  | .start o => s.setStack t (.op o .start :: s.stack t)
  | .stop o => s.setStack t (.op o .stop :: s.stack t)
  | .routeMessage o m => s.setStack t (.op o (.routeMessage m) :: s.stack t)
  | .broadcastMessage o f ty p =>
    s.setStack t (.op o (.broadcastMessage f ty p) :: s.stack t)
  | .scheduleAgent o id => s.setStack t (.op o (.scheduleAgent id) :: s.stack t)
  | .sendMessage a toId ty p =>
    match s.bound a with
    | some o => s.setStack t (.op o (.routeMessage ⟨s.agentId a, toId, ty, p, 0⟩) :: s.stack t)
    | none => s
  | .setState a st => s.setState a st

/-- One step of thread `t` in a public method of orchestrator `o`, with its mutex (if it
needs one) free; `below` is the rest of the stack.  `none` while the method waits for a
callback or for the worker's thread to end. -/
def opStep (s : Sys) (t : Tid) (o : Nat) (below : List Frame) : OpPc → Option Sys
  | .registerAgent a =>
    if s.agentId a ∈ (s.orchs o).agents then
      some ((s.setOrch o fun q => { q with registryLog := q.registryLog ++ [RegCall.register a false] }
        ).setStack t below)
    else
      some ((({ s with bound := Function.update s.bound a (some o) }.setOrch o fun q =>
        { q with agents := q.agents.insert (s.agentId a) a, agentsMutex := some t,
                 registryLog := q.registryLog ++ [RegCall.register a true] }).setStack t
          (.user o a .init :: .op o (.registerInit a) :: below)).log a .init)
  | .unregisterAgent id =>
    match (s.orchs o).agents.lookup id with
    | none =>
      some ((s.setOrch o fun q =>
        { q with registryLog := q.registryLog ++ [RegCall.unregister id (some false)] }).setStack t below)
    | some a =>
      some (((s.setOrch o fun q => { q with agentsMutex := some t }).setStack t
        (.user o a .shutdown :: .op o (.unregisterShutdown id a) :: below)).log a .shutdown)
  | .getAgent _ => some (s.setStack t below)
  | .start =>
    if (s.orchs o).running then some (s.setStack t below)
    else some (s.setStack t (.op o .startSet :: below))
  | .startSet =>
    some ((s.setOrch o fun q => { q with running := true }).setStack t
      (.op o .startThread :: below))
  | .startThread =>
    if (s.orchs o).joinable then some { s with aborted := true }
    else
      some ((s.setOrch o fun q => { q with joinable := true, loop := some .top }).setStack t below)
  | .stop =>
    if (s.orchs o).running then some (s.setStack t (.op o .stopClear :: below))
    else some (s.setStack t below)
  | .stopClear =>
    some ((s.setOrch o fun q => { q with running := false }).setStack t (.op o .stopJoin :: below))
  | .stopJoin =>
    if !(s.orchs o).joinable || t = .worker o then some (s.setStack t below)
    else if (s.orchs o).loop = none then
      some ((s.setOrch o fun q => { q with joinable := false }).setStack t below)
    else none
  | .routeMessage m => some ((s.enqueue o m).setStack t below)
  | .broadcastMessage f ty p =>
    some ((s.setOrch o fun q => { q with agentsMutex := some t }).setStack t
      (.op o (.broadcastLoop f ty p (recipients (s.orchs o).agents f) []) :: below))
  | .broadcastLoop f ty p [] sent =>
    some ((s.setOrch o fun q =>
      { q with agentsMutex := none,
               broadcasts := q.broadcasts ++ [⟨f, ty, p, recipients q.agents f, sent⟩] }).setStack
      t below)
  | .broadcastLoop f ty p (r :: rest) sent =>
    some ((s.enqueue o ⟨f, r, ty, p, 0⟩).setStack t
      (.op o (.broadcastLoop f ty p rest (sent ++ [(r, (s.orchs o).enqueued.length)])) :: below))
  | .scheduleAgent id =>
    some ((s.setOrch o fun q => { q with scheduledAgents := q.scheduledAgents ++ [id] }).setStack
      t below)
  | .registerInit _ | .unregisterShutdown _ _ => none

/-- One step of the worker of orchestrator `o`, with its mutex (if it needs one) free. -/
def loopStep (s : Sys) (o : Nat) : LoopPc → Option Sys
  | .top =>
    if (s.orchs o).running then some (s.setLoop o .drain)
    else some (s.setOrch o fun q => { q with loop := none })
  | .drain =>
    some (s.setOrch o fun q =>
      { q with messageQueue := [], loop := some (.deliver q.messageQueue) })
  | .deliver [] => some (s.setLoop o .pop)
  | .deliver (m :: rest) =>
    match (s.orchs o).agents.lookup m.toAgentId with
    | none =>
      some (s.setOrch o fun q =>
        { q with processed := q.processed ++ [(m, none)], loop := some (.deliver rest) })
    | some a =>
      some (s.setOrch o fun q =>
        { q with processed := q.processed ++ [(m, some a)], loop := some (.deliverCall a m rest) })
  | .deliverCall a m rest =>
    some (((s.setOrch o fun q =>
      { q with onMessageCalls := q.onMessageCalls ++ [(m, a)], loop := some (.deliverWait rest) }
      ).setStack (.worker o) [.user o a (.onMessage m)]).log a .onMessage)
  | .pop =>
    match (s.orchs o).scheduledAgents with
    | [] => some (s.setLoop o .top)
    | id :: rest =>
      some (s.setOrch o fun q =>
        { q with scheduledAgents := rest,
                 loop := some (if id = "" then .top else .dispatchGet id) })
  | .dispatchGet id =>
    some (s.setLoop o (match (s.orchs o).agents.lookup id with
      | none => .top
      | some a => .dispatchCheck a))
  | .dispatchCheck a => some (s.setLoop o (if s.state a = .idle then .dispatchSet a else .top))
  | .dispatchSet a => some ((s.setState a .running).setLoop o (.dispatchExec a))
  | .dispatchExec a =>
    some (((s.setLoop o (.executeWait a)).setStack (.worker o) [.user o a .execute]).log a .execute)
  | .dispatchEnd a ok => some ((s.setState a (if ok then .idle else .failed)).setLoop o .top)
  | .deliverWait _ | .executeWait _ => none

/-- The base class's part of a callback that returns (`ok`) or raises. -/
def callbackEffect (s : Sys) (a : Nat) : Callback → Bool → Sys
  | .init, true => (s.setState a .idle).log a .initialized
  | .shutdown, true => s.setState a .completed
  | .execute, false => s.log a .raised
  | _, _ => s

/-- The frame under a callback of thread `t` takes the callback's return (`ok`) or raise. -/
def resume (s : Sys) (t : Tid) (ok : Bool) : List Frame → Sys
  | .op o (.registerInit _) :: below =>
    (s.setOrch o fun q => { q with agentsMutex := none }).setStack t below
  | .op o (.unregisterShutdown id _) :: below =>
    (s.setOrch o fun q =>
      { q with agentsMutex := none, agents := if ok then q.agents.erase id else q.agents,
               registryLog := q.registryLog ++ [RegCall.unregister id (if ok then some true else none)] }
      ).setStack t below
  | [] =>
    match t with
    | .worker o =>
      match (s.orchs o).loop with
      | some (.deliverWait rest) =>
        if ok then (s.setLoop o (.deliver rest)).setStack t [] else { s with aborted := true }
      | some (.executeWait a) => (s.setLoop o (.dispatchEnd a ok)).setStack t []
      | _ => s.setStack t []
    | .client _ => s.setStack t []
  | below => s.setStack t below

/-- One step of thread `t` with choice `ch`; `none` if the thread cannot take it. -/
def step (s : Sys) (t : Tid) (ch : Choice) : Option Sys :=
  if s.aborted then none
  else
    match s.stack t, ch with
    | .user _ _ _ :: _, .call c => some (s.call t c)
    | .user _ a cb :: below, .ret => some ((s.callbackEffect a cb true).resume t true below)
    | .user _ a cb :: below, .raise => some ((s.callbackEffect a cb false).resume t false below)
    | .op o pc :: below, _ => if s.heldOn o pc.needs then none else s.opStep t o below pc
    | [], .call c =>
      match t with
      | .client _ => some (s.call t c)
      | .worker _ => none
    | [], _ =>
      match t with
      | .worker o =>
        match (s.orchs o).loop with
        | some pc => if s.heldOn o pc.needs then none else s.loopStep o pc
        | none => none
      | .client _ => none
    | _, _ => none

/-! ### What the updates change -/

section Updates

variable (s : Sys) (o : Nat) (f : Orch → Orch) (t : Tid) (fs : List Frame) (a : Nat)

@[simp] lemma setOrch_orchs : (s.setOrch o f).orchs = Function.update s.orchs o (f (s.orchs o)) :=
  rfl
@[simp] lemma setOrch_stack : (s.setOrch o f).stack = s.stack := rfl
@[simp] lemma setOrch_state : (s.setOrch o f).state = s.state := rfl
@[simp] lemma setOrch_history : (s.setOrch o f).history = s.history := rfl
@[simp] lemma setOrch_aborted : (s.setOrch o f).aborted = s.aborted := rfl
@[simp] lemma setOrch_bound : (s.setOrch o f).bound = s.bound := rfl
@[simp] lemma setOrch_agentId : (s.setOrch o f).agentId = s.agentId := rfl

@[simp] lemma setStack_orchs : (s.setStack t fs).orchs = s.orchs := rfl
@[simp] lemma setStack_stack : (s.setStack t fs).stack = Function.update s.stack t fs := rfl
@[simp] lemma setStack_state : (s.setStack t fs).state = s.state := rfl
@[simp] lemma setStack_history : (s.setStack t fs).history = s.history := rfl
@[simp] lemma setStack_aborted : (s.setStack t fs).aborted = s.aborted := rfl
@[simp] lemma setStack_bound : (s.setStack t fs).bound = s.bound := rfl
@[simp] lemma setStack_agentId : (s.setStack t fs).agentId = s.agentId := rfl

@[simp] lemma setState_orchs (st : AgentState) : (s.setState a st).orchs = s.orchs := rfl
@[simp] lemma setState_stack (st : AgentState) : (s.setState a st).stack = s.stack := rfl
@[simp] lemma setState_state (st : AgentState) :
    (s.setState a st).state = Function.update s.state a st := rfl
@[simp] lemma setState_history (st : AgentState) : (s.setState a st).history = s.history := rfl
@[simp] lemma setState_aborted (st : AgentState) : (s.setState a st).aborted = s.aborted := rfl
@[simp] lemma setState_bound (st : AgentState) : (s.setState a st).bound = s.bound := rfl
@[simp] lemma setState_agentId (st : AgentState) : (s.setState a st).agentId = s.agentId := rfl

@[simp] lemma log_orchs (e : Event) : (s.log a e).orchs = s.orchs := rfl
@[simp] lemma log_stack (e : Event) : (s.log a e).stack = s.stack := rfl
@[simp] lemma log_state (e : Event) : (s.log a e).state = s.state := rfl
@[simp] lemma log_history (e : Event) :
    (s.log a e).history = Function.update s.history a (s.history a ++ [e]) := rfl
@[simp] lemma log_aborted (e : Event) : (s.log a e).aborted = s.aborted := rfl
@[simp] lemma log_bound (e : Event) : (s.log a e).bound = s.bound := rfl
@[simp] lemma log_agentId (e : Event) : (s.log a e).agentId = s.agentId := rfl

@[simp] lemma setLoop_eq (pc : LoopPc) :
    s.setLoop o pc = s.setOrch o fun q => { q with loop := some pc } := rfl
@[simp] lemma enqueue_eq (m : AgentMessage) :
    s.enqueue o m = s.setOrch o fun q =>
      { q with
        messageQueue := q.messageQueue ++ [{ m with seq := q.enqueued.length }]
        enqueued := q.enqueued ++ [{ m with seq := q.enqueued.length }] } := rfl

/-- A call only pushes a frame, or writes an agent's state. -/
@[simp] lemma call_orchs (c : Call) : (s.call t c).orchs = s.orchs := by
  unfold call; split <;> (try split) <;> rfl
@[simp] lemma call_history (c : Call) : (s.call t c).history = s.history := by
  unfold call; split <;> (try split) <;> rfl
@[simp] lemma call_aborted (c : Call) : (s.call t c).aborted = s.aborted := by
  unfold call; split <;> (try split) <;> rfl
@[simp] lemma call_agentId (c : Call) : (s.call t c).agentId = s.agentId := by
  unfold call; split <;> (try split) <;> rfl

@[simp] lemma callbackEffect_orchs (cb : Callback) (ok : Bool) :
    (s.callbackEffect a cb ok).orchs = s.orchs := by
  unfold callbackEffect; split <;> rfl
@[simp] lemma callbackEffect_stack (cb : Callback) (ok : Bool) :
    (s.callbackEffect a cb ok).stack = s.stack := by
  unfold callbackEffect; split <;> rfl
@[simp] lemma callbackEffect_aborted (cb : Callback) (ok : Bool) :
    (s.callbackEffect a cb ok).aborted = s.aborted := by
  unfold callbackEffect; split <;> rfl
@[simp] lemma callbackEffect_agentId (cb : Callback) (ok : Bool) :
    (s.callbackEffect a cb ok).agentId = s.agentId := by
  unfold callbackEffect; split <;> rfl

end Updates

/-! ### The moves -/

/-- The moves of thread `t` in a method of orchestrator `o` over the frames `below`: one
constructor for each branch of `opStep`. -/
inductive OpMove (s : Sys) (t : Tid) (o : Nat) (below : List Frame) : OpPc → Sys → Prop
  /-- `RegisterAgent` finds the id taken and returns `false`. -/
  | registerTaken {a : Nat} : s.agentId a ∈ (s.orchs o).agents →
      OpMove s t o below (.registerAgent a)
        ((s.setOrch o fun q => { q with registryLog := q.registryLog ++ [RegCall.register a false] }
          ).setStack t below)
  /-- `RegisterAgent` binds and enters the agent, and calls `Initialize` under the mutex. -/
  | registerEnter {a : Nat} : s.agentId a ∉ (s.orchs o).agents →
      OpMove s t o below (.registerAgent a)
        ((({ s with bound := Function.update s.bound a (some o) }.setOrch o fun q =>
          { q with agents := q.agents.insert (s.agentId a) a, agentsMutex := some t,
                   registryLog := q.registryLog ++ [RegCall.register a true] }).setStack t
            (.user o a .init :: .op o (.registerInit a) :: below)).log a .init)
  /-- `UnregisterAgent` finds no entry and returns `false`. -/
  | unregisterAbsent {id : String} : (s.orchs o).agents.lookup id = none →
      OpMove s t o below (.unregisterAgent id)
        ((s.setOrch o fun q =>
          { q with registryLog := q.registryLog ++ [RegCall.unregister id (some false)] }).setStack t below)
  /-- `UnregisterAgent` finds the entry and calls `Shutdown` under the mutex. -/
  | unregisterFound {id : String} {a : Nat} : (s.orchs o).agents.lookup id = some a →
      OpMove s t o below (.unregisterAgent id)
        (((s.setOrch o fun q => { q with agentsMutex := some t }).setStack t
          (.user o a .shutdown :: .op o (.unregisterShutdown id a) :: below)).log a .shutdown)
  | getAgent {id : String} : OpMove s t o below (.getAgent id) (s.setStack t below)
  | startRunning : (s.orchs o).running = true → OpMove s t o below .start (s.setStack t below)
  | startCheck : (s.orchs o).running = false →
      OpMove s t o below .start (s.setStack t (.op o .startSet :: below))
  | startSet : OpMove s t o below .startSet
      ((s.setOrch o fun q => { q with running := true }).setStack t (.op o .startThread :: below))
  /-- The move assignment over a joinable thread calls `std::terminate`. -/
  | startJoinable : (s.orchs o).joinable = true →
      OpMove s t o below .startThread { s with aborted := true }
  | startThread : (s.orchs o).joinable = false →
      OpMove s t o below .startThread
        ((s.setOrch o fun q => { q with joinable := true, loop := some .top }).setStack t below)
  | stopIdle : (s.orchs o).running = false → OpMove s t o below .stop (s.setStack t below)
  | stopCheck : (s.orchs o).running = true →
      OpMove s t o below .stop (s.setStack t (.op o .stopClear :: below))
  | stopClear : OpMove s t o below .stopClear
      ((s.setOrch o fun q => { q with running := false }).setStack t (.op o .stopJoin :: below))
  /-- No join: the thread is not joinable, or it is the caller's own. -/
  | joinSkip : (s.orchs o).joinable = false ∨ t = .worker o →
      OpMove s t o below .stopJoin (s.setStack t below)
  /-- The join returns once the worker has left its loop. -/
  | join : (s.orchs o).joinable = true → t ≠ .worker o → (s.orchs o).loop = none →
      OpMove s t o below .stopJoin
        ((s.setOrch o fun q => { q with joinable := false }).setStack t below)
  | routeMessage {m : AgentMessage} :
      OpMove s t o below (.routeMessage m) ((s.enqueue o m).setStack t below)
  | broadcastBegin {f ty p : String} :
      OpMove s t o below (.broadcastMessage f ty p)
        ((s.setOrch o fun q => { q with agentsMutex := some t }).setStack t
          (.op o (.broadcastLoop f ty p (recipients (s.orchs o).agents f) []) :: below))
  | broadcastEnd {f ty p : String} {sent : List (String × Nat)} :
      OpMove s t o below (.broadcastLoop f ty p [] sent)
        ((s.setOrch o fun q =>
          { q with agentsMutex := none,
                   broadcasts := q.broadcasts ++ [⟨f, ty, p, recipients q.agents f, sent⟩] }
          ).setStack t below)
  | broadcastSend {f ty p r : String} {rest : List String} {sent : List (String × Nat)} :
      OpMove s t o below (.broadcastLoop f ty p (r :: rest) sent)
        ((s.enqueue o ⟨f, r, ty, p, 0⟩).setStack t
          (.op o (.broadcastLoop f ty p rest (sent ++ [(r, (s.orchs o).enqueued.length)])) :: below))
  | scheduleAgent {id : String} :
      OpMove s t o below (.scheduleAgent id)
        ((s.setOrch o fun q => { q with scheduledAgents := q.scheduledAgents ++ [id] }).setStack
          t below)

/-- The moves of the worker of orchestrator `o`: one constructor for each branch of
`loopStep`. -/
inductive LoopMove (s : Sys) (o : Nat) : LoopPc → Sys → Prop
  | begin : (s.orchs o).running = true → LoopMove s o .top (s.setLoop o .drain)
  | exit : (s.orchs o).running = false →
      LoopMove s o .top (s.setOrch o fun q => { q with loop := none })
  | drain : LoopMove s o .drain
      (s.setOrch o fun q => { q with messageQueue := [], loop := some (.deliver q.messageQueue) })
  | batchDone : LoopMove s o (.deliver []) (s.setLoop o .pop)
  | drop {m : AgentMessage} {rest : List AgentMessage} :
      (s.orchs o).agents.lookup m.toAgentId = none →
      LoopMove s o (.deliver (m :: rest))
        (s.setOrch o fun q =>
          { q with processed := q.processed ++ [(m, none)], loop := some (.deliver rest) })
  | found {m : AgentMessage} {rest : List AgentMessage} {a : Nat} :
      (s.orchs o).agents.lookup m.toAgentId = some a →
      LoopMove s o (.deliver (m :: rest))
        (s.setOrch o fun q =>
          { q with processed := q.processed ++ [(m, some a)], loop := some (.deliverCall a m rest) })
  | onMessage {a : Nat} {m : AgentMessage} {rest : List AgentMessage} :
      LoopMove s o (.deliverCall a m rest)
        (((s.setOrch o fun q =>
          { q with onMessageCalls := q.onMessageCalls ++ [(m, a)], loop := some (.deliverWait rest) }
          ).setStack (.worker o) [.user o a (.onMessage m)]).log a .onMessage)
  | popEmpty : (s.orchs o).scheduledAgents = [] → LoopMove s o .pop (s.setLoop o .top)
  /-- The popped id is empty, which the loop reads as nothing popped. -/
  | popEmptyId {rest : List String} : (s.orchs o).scheduledAgents = "" :: rest →
      LoopMove s o .pop (s.setOrch o fun q => { q with scheduledAgents := rest, loop := some .top })
  | popEntry {id : String} {rest : List String} : (s.orchs o).scheduledAgents = id :: rest →
      id ≠ "" →
      LoopMove s o .pop
        (s.setOrch o fun q => { q with scheduledAgents := rest, loop := some (.dispatchGet id) })
  | getMissing {id : String} : (s.orchs o).agents.lookup id = none →
      LoopMove s o (.dispatchGet id) (s.setLoop o .top)
  | getFound {id : String} {a : Nat} : (s.orchs o).agents.lookup id = some a →
      LoopMove s o (.dispatchGet id) (s.setLoop o (.dispatchCheck a))
  | checkIdle {a : Nat} : s.state a = .idle →
      LoopMove s o (.dispatchCheck a) (s.setLoop o (.dispatchSet a))
  | checkBusy {a : Nat} : s.state a ≠ .idle → LoopMove s o (.dispatchCheck a) (s.setLoop o .top)
  | setRunning {a : Nat} :
      LoopMove s o (.dispatchSet a) ((s.setState a .running).setLoop o (.dispatchExec a))
  | execute {a : Nat} :
      LoopMove s o (.dispatchExec a)
        (((s.setLoop o (.executeWait a)).setStack (.worker o) [.user o a .execute]).log a .execute)
  | dispatchEnd {a : Nat} {ok : Bool} :
      LoopMove s o (.dispatchEnd a ok) ((s.setState a (if ok then .idle else .failed)).setLoop o .top)

/-- What the frames under a callback of thread `t` do with its return (`ok`) or raise: one
constructor for each branch of `resume`. -/
inductive ResumeMove (s : Sys) (t : Tid) (ok : Bool) : List Frame → Sys → Prop
  /-- `RegisterAgent` returns, releasing the mutex. -/
  | registerInit {o a : Nat} {below : List Frame} :
      ResumeMove s t ok (.op o (.registerInit a) :: below)
        ((s.setOrch o fun q => { q with agentsMutex := none }).setStack t below)
  /-- `UnregisterAgent` erases the entry if `Shutdown` returned, and releases the mutex. -/
  | unregisterShutdown {o a : Nat} {id : String} {below : List Frame} :
      ResumeMove s t ok (.op o (.unregisterShutdown id a) :: below)
        ((s.setOrch o fun q =>
          { q with agentsMutex := none, agents := if ok then q.agents.erase id else q.agents,
                   registryLog := q.registryLog ++ [RegCall.unregister id (if ok then some true else none)] }
          ).setStack t below)
  | onMessageReturn {o : Nat} {rest : List AgentMessage} : t = .worker o →
      (s.orchs o).loop = some (.deliverWait rest) → ok = true →
      ResumeMove s t ok [] ((s.setLoop o (.deliver rest)).setStack t [])
  /-- Nothing catches an exception of `OnMessage`: `std::terminate`. -/
  | onMessageRaise {o : Nat} {rest : List AgentMessage} : t = .worker o →
      (s.orchs o).loop = some (.deliverWait rest) → ok = false →
      ResumeMove s t ok [] { s with aborted := true }
  | executeEnd {o a : Nat} : t = .worker o → (s.orchs o).loop = some (.executeWait a) →
      ResumeMove s t ok [] ((s.setLoop o (.dispatchEnd a ok)).setStack t [])
  /-- Back to a callback that made the call. -/
  | popFrame {f : Frame} {below : List Frame} : (∀ o a, f ≠ .op o (.registerInit a)) →
      (∀ o id a, f ≠ .op o (.unregisterShutdown id a)) →
      ResumeMove s t ok (f :: below) (s.setStack t (f :: below))
  /-- Back to the client, or to a worker that waits for no callback. -/
  | popLast : (∀ o, t = .worker o →
        (∀ rest, (s.orchs o).loop ≠ some (.deliverWait rest)) ∧
          ∀ a, (s.orchs o).loop ≠ some (.executeWait a)) →
      ResumeMove s t ok [] (s.setStack t [])

section Moves

variable {s s' : Sys} {t : Tid} {o : Nat} {below : List Frame}

lemma opStep_move {pc : OpPc} (h : s.opStep t o below pc = some s') : OpMove s t o below pc s' := by
  cases pc with
  | registerAgent a =>
    simp only [opStep] at h
    split at h <;> cases h
    · exact .registerTaken ‹_›
    · exact .registerEnter ‹_›
  | unregisterAgent id =>
    simp only [opStep] at h
    split at h <;> cases h
    · exact .unregisterAbsent ‹_›
    · exact .unregisterFound ‹_›
  | start =>
    simp only [opStep] at h
    split at h <;> cases h
    · exact .startRunning ‹_›
    · exact .startCheck (Bool.eq_false_iff.2 ‹_›)
  | startThread =>
    simp only [opStep] at h
    split at h <;> cases h
    · exact .startJoinable ‹_›
    · exact .startThread (Bool.eq_false_iff.2 ‹_›)
  | stop =>
    simp only [opStep] at h
    split at h <;> cases h
    · exact .stopCheck ‹_›
    · exact .stopIdle (Bool.eq_false_iff.2 ‹_›)
  | stopJoin =>
    simp only [opStep] at h
    split at h
    · cases h
      rename_i hj
      exact .joinSkip (by simpa using hj)
    · split at h <;> cases h
      rename_i hj hl
      simp only [Bool.or_eq_true, Bool.not_eq_true', decide_eq_true_eq, not_or] at hj
      exact .join (by simpa using hj.1) hj.2 hl
  | broadcastLoop f ty p rest sent =>
    cases rest <;> cases h
    · exact .broadcastEnd
    · exact .broadcastSend
  | registerInit | unregisterShutdown => cases h
  | getAgent | startSet | stopClear | routeMessage | broadcastMessage | scheduleAgent =>
    cases h; constructor

lemma loopStep_move {pc : LoopPc} (h : s.loopStep o pc = some s') : LoopMove s o pc s' := by
  cases pc with
  | top =>
    simp only [loopStep] at h
    split at h <;> cases h
    · exact .begin ‹_›
    · exact .exit (Bool.eq_false_iff.2 ‹_›)
  | deliver b =>
    rcases b with _ | ⟨m, rest⟩
    · cases h; exact .batchDone
    simp only [loopStep] at h
    split at h <;> cases h
    · exact .drop ‹_›
    · exact .found ‹_›
  | pop =>
    simp only [loopStep] at h
    split at h <;> cases h
    · exact .popEmpty ‹_›
    · rename_i id rest hq
      by_cases he : id = ""
      · subst he; simpa using LoopMove.popEmptyId hq
      · simpa [he] using LoopMove.popEntry hq he
  | dispatchGet id =>
    simp only [loopStep] at h
    cases h
    cases hl : (s.orchs o).agents.lookup id
    · simpa [hl] using LoopMove.getMissing hl
    · simpa [hl] using LoopMove.getFound hl
  | dispatchCheck a =>
    simp only [loopStep] at h
    cases h
    by_cases hi : s.state a = .idle
    · simpa [hi] using LoopMove.checkIdle hi
    · simpa [hi] using LoopMove.checkBusy hi
  | deliverWait | executeWait => cases h
  | drain | deliverCall | dispatchSet | dispatchExec | dispatchEnd => cases h; constructor

lemma resume_move (s : Sys) (t : Tid) (ok : Bool) (below : List Frame) :
    ResumeMove s t ok below (s.resume t ok below) := by
  unfold resume
  split
  · exact .registerInit
  · exact .unregisterShutdown
  · split
    · rename_i o
      split
      · rename_i rest hl
        split
        · exact .onMessageReturn rfl hl ‹_›
        · exact .onMessageRaise rfl hl (Bool.eq_false_iff.2 ‹_›)
      · exact .executeEnd rfl ‹_›
      · rename_i hw he
        exact .popLast fun o' e => by cases e; exact ⟨hw, he⟩
    · exact .popLast nofun
  · rename_i below h₁ h₂ h₃
    obtain ⟨f, below, rfl⟩ := List.exists_cons_of_ne_nil h₃
    exact .popFrame (fun o a e => h₁ o a below (by rw [e])) fun o id a e => h₂ o id a below (by rw [e])

/-- The return or raise of the `Execute` that the worker of `o` waits for: the handler is
next. -/
lemma ResumeMove.of_executeWait {ok : Bool} {a : Nat} (h : ResumeMove s (.worker o) ok [] s')
    (hl : (s.orchs o).loop = some (.executeWait a)) :
    s' = (s.setLoop o (.dispatchEnd a ok)).setStack (.worker o) [] := by
  cases h with
  | onMessageReturn ht hl' | onMessageRaise ht hl' => cases ht; rw [hl] at hl'; cases hl'
  | executeEnd ht hl' => cases ht; rw [hl] at hl'; cases hl'; rfl
  | popLast hw => exact absurd hl ((hw o rfl).2 a)

/-- The return or raise of the `OnMessage` that the worker of `o` waits for: the rest of the
batch is next, or `std::terminate`. -/
lemma ResumeMove.of_deliverWait {ok : Bool} {rest : List AgentMessage}
    (h : ResumeMove s (.worker o) ok [] s') (hl : (s.orchs o).loop = some (.deliverWait rest)) :
    s' = if ok then (s.setLoop o (.deliver rest)).setStack (.worker o) [] else { s with aborted := true } := by
  cases h with
  | onMessageReturn ht hl' hok => cases ht; rw [hl] at hl'; cases hl'; simp [hok]
  | onMessageRaise ht hl' hok => cases ht; rw [hl] at hl'; cases hl'; simp [hok]
  | executeEnd ht hl' => cases ht; rw [hl] at hl'; cases hl'
  | popLast hw => exact absurd hl ((hw o rfl).1 rest)

end Moves

/-- What one step can be: a call begun by an idle client or by a callback, the return or
raise of a callback, a move of a method, or a move of a worker. -/
lemma step_cases {s s' : Sys} {t : Tid} {ch : Choice} (h : s.step t ch = some s') :
    s.aborted = false ∧
      ((∃ c, ch = .call c ∧ s' = s.call t c ∧
          ((∃ n, t = .client n ∧ s.stack t = []) ∨
            ∃ o a cb below, s.stack t = .user o a cb :: below)) ∨
        (∃ o a cb below ok, s.stack t = .user o a cb :: below ∧ ch = (if ok then .ret else .raise) ∧
          ResumeMove (s.callbackEffect a cb ok) t ok below s') ∨
        (∃ o pc below, s.stack t = .op o pc :: below ∧ s.heldOn o pc.needs = false ∧
          OpMove s t o below pc s') ∨
        (∃ o pc, t = .worker o ∧ s.stack t = [] ∧ (s.orchs o).loop = some pc ∧
          s.heldOn o pc.needs = false ∧ LoopMove s o pc s')) := by
  unfold step at h
  by_cases hab : s.aborted
  · simp [hab] at h
  refine ⟨by simpa using hab, ?_⟩
  rw [if_neg hab] at h
  cases hs : s.stack t with
  | nil =>
    rw [hs] at h
    cases t with
    | client n =>
      cases ch <;> simp only [Option.some.injEq, reduceCtorEq] at h
      exact .inl ⟨_, rfl, h.symm, .inl ⟨n, rfl, rfl⟩⟩
    | worker o =>
      cases hl : (s.orchs o).loop with
      | none => cases ch <;> simp [hl] at h
      | some pc =>
        have h' : (if s.heldOn o pc.needs = true then none else s.loopStep o pc) = some s' := by
          cases ch <;> simp only [hl] at h <;> first | exact h | cases h
        split at h'
        · cases h'
        · rename_i hh
          exact .inr (.inr (.inr ⟨o, pc, rfl, rfl, hl, by simpa using hh, loopStep_move h'⟩))
  | cons f below =>
    rw [hs] at h
    cases f with
    | op o pc =>
      have h' : (if s.heldOn o pc.needs = true then none else s.opStep t o below pc) = some s' := by
        cases ch <;> exact h
      split at h'
      · cases h'
      · rename_i hh
        exact .inr (.inr (.inl ⟨o, pc, below, rfl, by simpa using hh, opStep_move h'⟩))
    | user o a cb =>
      cases ch <;> simp only [Option.some.injEq, reduceCtorEq] at h <;> subst h
      · exact .inl ⟨_, rfl, rfl, .inr ⟨_, _, _, _, rfl⟩⟩
      · exact .inr (.inl ⟨_, _, _, _, true, rfl, rfl, resume_move _ _ _ _⟩)
      · exact .inr (.inl ⟨_, _, _, _, false, rfl, rfl, resume_move _ _ _ _⟩)

/-! ### What a move leaves alone -/

section Frames

variable {s s' : Sys} {t : Tid} {o : Nat} {below : List Frame}

/-- A method writes no agent's state. -/
lemma OpMove.state {pc : OpPc} (h : OpMove s t o below pc s') : s'.state = s.state := by
  cases h <;> rfl

/-- A method changes no orchestrator but its own. -/
lemma OpMove.orchs_of_ne {pc : OpPc} (h : OpMove s t o below pc s') {o' : Nat} (ho : o' ≠ o) :
    s'.orchs o' = s.orchs o' := by
  cases h <;> simp [ho]

/-- A method changes no stack but its thread's. -/
lemma OpMove.stack_of_ne {pc : OpPc} (h : OpMove s t o below pc s') {t' : Tid} (ht : t' ≠ t) :
    s'.stack t' = s.stack t' := by
  cases h <;> simp [ht]

lemma OpMove.agentId {pc : OpPc} (h : OpMove s t o below pc s') : s'.agentId = s.agentId := by
  cases h <;> rfl

/-- The worker of `o` changes no orchestrator but its own. -/
lemma LoopMove.orchs_of_ne {pc : LoopPc} (h : LoopMove s o pc s') {o' : Nat} (ho : o' ≠ o) :
    s'.orchs o' = s.orchs o' := by
  cases h <;> simp [ho]

/-- The worker of `o` changes no stack but its own. -/
lemma LoopMove.stack_of_ne {pc : LoopPc} (h : LoopMove s o pc s') {t' : Tid}
    (ht : t' ≠ .worker o) : s'.stack t' = s.stack t' := by
  cases h <;> simp [ht]

lemma LoopMove.agentId {pc : LoopPc} (h : LoopMove s o pc s') : s'.agentId = s.agentId := by
  cases h <;> rfl

/-- The frames under a callback write no agent's state. -/
lemma ResumeMove.state {ok : Bool} (h : ResumeMove s t ok below s') : s'.state = s.state := by
  cases h <;> rfl

lemma ResumeMove.history {ok : Bool} (h : ResumeMove s t ok below s') : s'.history = s.history := by
  cases h <;> rfl

lemma ResumeMove.stack_of_ne {ok : Bool} (h : ResumeMove s t ok below s') {t' : Tid}
    (ht : t' ≠ t) : s'.stack t' = s.stack t' := by
  cases h <;> simp [ht]

lemma ResumeMove.agentId {ok : Bool} (h : ResumeMove s t ok below s') : s'.agentId = s.agentId := by
  cases h <;> rfl

end Frames

section Forward

variable {s : Sys} {t : Tid} {o : Nat} {below : List Frame}

lemma step_aborted (ha : s.aborted = true) (ch : Choice) : s.step t ch = none := by
  simp [step, ha]

lemma step_op {pc : OpPc} (ha : s.aborted = false) (hs : s.stack t = .op o pc :: below)
    (hfree : s.heldOn o pc.needs = false) (ch : Choice) : s.step t ch = s.opStep t o below pc := by
  cases ch <;> simp [step, ha, hs, hfree]

lemma step_user {a : Nat} {cb : Callback} (ha : s.aborted = false)
    (hs : s.stack t = .user o a cb :: below) (ok : Bool) :
    s.step t (if ok then .ret else .raise) = some ((s.callbackEffect a cb ok).resume t ok below) := by
  cases ok <;> simp [step, ha, hs]

lemma step_worker {pc : LoopPc} (ha : s.aborted = false) (hs : s.stack (.worker o) = [])
    (hl : (s.orchs o).loop = some pc) (hfree : s.heldOn o pc.needs = false) :
    s.step (.worker o) .step = s.loopStep o pc := by
  simp [step, ha, hs, hl, hfree]

end Forward

/-- A step changes no other thread's stack. -/
lemma stack_of_ne {s s' : Sys} {t t' : Tid} {ch : Choice} (h : s.step t ch = some s')
    (ht : t' ≠ t) : s'.stack t' = s.stack t' := by
  obtain ⟨-, ⟨c, -, rfl, -⟩ | ⟨o, a, cb, below, ok, -, -, hm⟩ | ⟨o, pc, below, -, -, hm⟩ |
    ⟨o, pc, rfl, -, -, -, hm⟩⟩ := step_cases h
  · unfold call; split <;> (try split) <;> simp [ht]
  · simpa using hm.stack_of_ne ht
  · exact hm.stack_of_ne ht
  · exact hm.stack_of_ne ht

/-- No step changes an agent's id. -/
lemma step_agentId {s s' : Sys} {t : Tid} {ch : Choice} (h : s.step t ch = some s') :
    s'.agentId = s.agentId := by
  obtain ⟨-, ⟨c, -, rfl, -⟩ | ⟨o, a, cb, below, ok, -, -, hm⟩ | ⟨o, pc, below, -, -, hm⟩ |
    ⟨o, pc, rfl, -, -, -, hm⟩⟩ := step_cases h
  · simp
  · simpa using hm.agentId
  · exact hm.agentId
  · exact hm.agentId

end Sys

/-- The states reached from `Sys.init ids` by steps that `adm` admits: `adm t ch s` says
that thread `t` may take choice `ch` in state `s`. -/
inductive Reachable (adm : Tid → Choice → Sys → Prop) : Sys → Prop
  | init (ids : Nat → String) : Reachable adm (Sys.init ids)
  | step {s s' : Sys} {t : Tid} {ch : Choice} :
      Reachable adm s → adm t ch s → s.step t ch = some s' → Reachable adm s'

/-- Every step is admitted. -/
def anyStep : Tid → Choice → Sys → Prop := fun _ _ _ => True

/-- Run the steps of a list in order. -/
def run : Sys → List (Tid × Choice) → Option Sys
  | s, [] => some s
  | s, (t, ch) :: rest => (s.step t ch).bind (run · rest)

lemma Reachable.run {adm : Tid → Choice → Sys → Prop} :
    ∀ {s s' : Sys} {l : List (Tid × Choice)}, Reachable adm s →
      (∀ s₁ p, p ∈ l → adm p.1 p.2 s₁) → OpenCog.run s l = some s' → Reachable adm s'
  | s, s', [], hs, _, h => by simp only [OpenCog.run, Option.some.injEq] at h; exact h ▸ hs
  | s, s', (t, ch) :: rest, hs, hl, h => by
    simp only [OpenCog.run] at h
    cases hn : s.step t ch with
    | none => simp [hn] at h
    | some s₁ =>
      simp only [hn, Option.bind_some] at h
      exact Reachable.run (hs.step (hl s (t, ch) (.head _)) hn)
        (fun s₂ p hp => hl s₂ p (.tail _ hp)) h

/-- A trace from `Sys.init ids` whose last state satisfies `p`. -/
theorem reach_of_run {adm : Tid → Choice → Sys → Prop} {ids : Nat → String}
    {l : List (Tid × Choice)} {p : Sys → Bool} (hl : ∀ s₁ q, q ∈ l → adm q.1 q.2 s₁)
    (h : (run (Sys.init ids) l).map p = some true) : ∃ s, Reachable adm s ∧ p s = true := by
  cases hr : run (Sys.init ids) l with
  | none => simp [hr] at h
  | some s =>
    simp only [hr, Option.map_some', Option.some.injEq] at h
    exact ⟨s, (Reachable.init ids).run hl hr, h⟩

/-- Run the steps of a list in order while `p` admits each; `none` at the first step that `p`
refuses or that cannot be taken. -/
def runAdmitted (p : Tid → Choice → Sys → Bool) : Sys → List (Tid × Choice) → Option Sys
  | s, [] => some s
  | s, (t, ch) :: rest => if p t ch s then (s.step t ch).bind (runAdmitted p · rest) else none

lemma Reachable.runAdmitted {adm : Tid → Choice → Sys → Prop} {p : Tid → Choice → Sys → Bool}
    (hp : ∀ t ch s, p t ch s = true → adm t ch s) :
    ∀ {s s' : Sys} {l : List (Tid × Choice)}, Reachable adm s →
      OpenCog.runAdmitted p s l = some s' → Reachable adm s'
  | s, s', [], hs, h => by simp only [OpenCog.runAdmitted, Option.some.injEq] at h; exact h ▸ hs
  | s, s', (t, ch) :: rest, hs, h => by
    simp only [OpenCog.runAdmitted] at h
    split at h
    · cases hn : s.step t ch with
      | none => simp [hn] at h
      | some s₁ =>
        simp only [hn, Option.bind_some] at h
        exact Reachable.runAdmitted hp (hs.step (hp _ _ _ ‹_›) hn) h
    · cases h

/-- A trace from `Sys.init ids`, each step admitted by `p`, whose last state satisfies `q`. -/
theorem reach_of_runAdmitted {adm : Tid → Choice → Sys → Prop} {p : Tid → Choice → Sys → Bool}
    (hp : ∀ t ch s, p t ch s = true → adm t ch s) {ids : Nat → String}
    {l : List (Tid × Choice)} {q : Sys → Bool}
    (h : (runAdmitted p (Sys.init ids) l).map q = some true) : ∃ s, Reachable adm s ∧ q s = true := by
  cases hr : runAdmitted p (Sys.init ids) l with
  | none => simp [hr] at h
  | some s =>
    simp only [hr, Option.map_some', Option.some.injEq] at h
    exact ⟨s, (Reachable.init ids).runAdmitted hp hr, h⟩

end OpenCog

/-
# Message accounting

What `RouteMessage`, `BroadcastMessage` and the worker's `ProcessMessageQueue` do to
messages is a channel: messages are enqueued in order, the worker drains the queue into a
local batch, looks each message's target up in order and drops it or hands it to
`OnMessage`.  `Channel` is that abstract channel and `Channel.Step` its four moves;
`Channel.Inv` (no message lost or duplicated, processing in enqueue order, one `OnMessage`
per delivered message) holds along its moves.  `channel_step` shows that every step of the
orchestrator model moves each orchestrator's channel by one of these moves or not at all,
with the lookup made in the registry of that moment; `message_accounting` assembles the
result over whole runs, through any number of `Stop`/`Start` cycles, together with the
invariant of a broadcast in progress.
-/
import OpenCog.Orchestrator.Locks

namespace OpenCog

/-- The messages of the worker's local batch that it has not yet looked up. -/
def batchOf : Option LoopPc → List AgentMessage
  | some (.deliver b) | some (.deliverCall _ _ b) | some (.deliverWait b) => b
  | _ => []

/-- The `OnMessage` whose agent the worker has found and that it has not yet begun. -/
def pendingCall : Option LoopPc → List (AgentMessage × Nat)
  | some (.deliverCall a m _) => [(m, a)]
  | _ => []

/-- The messages delivered, each with the agent found for it. -/
def deliveredOf (processed : List (AgentMessage × Option Nat)) : List (AgentMessage × Nat) :=
  processed.filterMap fun p => p.2.map (p.1, ·)

@[simp] lemma deliveredOf_append (l l' : List (AgentMessage × Option Nat)) :
    deliveredOf (l ++ l') = deliveredOf l ++ deliveredOf l' := List.filterMap_append _ _ _

/-! ### The abstract channel -/

/-- The messages of one orchestrator, wherever they are. -/
structure Channel where
  enqueued : List AgentMessage
  queue : List AgentMessage
  batch : List AgentMessage
  processed : List (AgentMessage × Option Nat)
  calls : List (AgentMessage × Nat)
  pending : List (AgentMessage × Nat)

/-- A message with its position in the enqueue order. -/
def Channel.stamp (c : Channel) (m : AgentMessage) : AgentMessage :=
  { m with seq := c.enqueued.length }

/-- The moves of a channel whose consumer finds targets with `find`: enqueue a message; drain
the queue into an empty batch; look the head of the batch up, drop it or hold it for
`OnMessage`; begin that `OnMessage`. -/
inductive Channel.Step (find : String → Option Nat) : Channel → Channel → Prop
  | enqueue (c : Channel) (m : AgentMessage) :
      Channel.Step find c
        { c with enqueued := c.enqueued ++ [c.stamp m], queue := c.queue ++ [c.stamp m] }
  | drain (c : Channel) : c.batch = [] → c.pending = [] →
      Channel.Step find c { c with queue := [], batch := c.queue }
  | process (c : Channel) (m : AgentMessage) (rest : List AgentMessage) (r : Option Nat) :
      c.batch = m :: rest → c.pending = [] → find m.toAgentId = r →
      Channel.Step find c
        { c with
          batch := rest
          processed := c.processed ++ [(m, r)]
          pending := r.toList.map (m, ·) }
  | begin (c : Channel) (m : AgentMessage) (a : Nat) : c.pending = [(m, a)] →
      Channel.Step find c { c with calls := c.calls ++ [(m, a)], pending := [] }

/-- Every message enqueued is processed, in the batch or in the queue, in enqueue order;
the messages are told apart by their positions; `OnMessage` is begun once for each delivered
message but the one pending. -/
structure Channel.Inv (c : Channel) : Prop where
  partition : c.processed.map Prod.fst ++ c.batch ++ c.queue = c.enqueued
  seq : c.enqueued.map AgentMessage.seq = List.range c.enqueued.length
  calls : c.calls ++ c.pending = deliveredOf c.processed

lemma Channel.Inv.step {find : String → Option Nat} {c c' : Channel} (hi : c.Inv)
    (h : Channel.Step find c c') : c'.Inv := by
  cases h with
  | enqueue m =>
    refine ⟨?_, ?_, hi.calls⟩
    · simpa [← List.append_assoc] using congrArg (· ++ [c.stamp m]) hi.partition
    · simp [List.range_succ, hi.seq, Channel.stamp]
  | drain hb hp => exact ⟨by simpa [hb] using hi.partition, hi.seq, hi.calls⟩
  | process m rest r hb hp hr =>
    refine ⟨by simpa [hb] using hi.partition, hi.seq, ?_⟩
    rw [deliveredOf_append, ← hi.calls, hp]
    cases r <;> simp [deliveredOf]
  | begin m a hp => exact ⟨hi.partition, hi.seq, by simpa [hp] using hi.calls⟩

/-- The channel that an orchestrator's queue, worker and ghost logs make. -/
def Orch.channel (q : Orch) : Channel :=
  ⟨q.enqueued, q.messageQueue, batchOf q.loop, q.processed, q.onMessageCalls, pendingCall q.loop⟩

lemma Orch.channel_of_loop {q : Orch} {pc : Option LoopPc} (h : q.loop = pc) :
    q.channel = ⟨q.enqueued, q.messageQueue, batchOf pc, q.processed, q.onMessageCalls,
      pendingCall pc⟩ := by
  rw [Orch.channel, h]

/-- A move of a channel only appends to the messages enqueued. -/
lemma Channel.Step.enqueued_prefix {find : String → Option Nat} {c c' : Channel}
    (h : Channel.Step find c c') : c.enqueued <+: c'.enqueued := by
  cases h <;> simp

/-! ### The messages of a broadcast -/

/-- The messages `sent` by a broadcast from `f` with type `ty` and payload `p` are in
`enqueued`, each at its position with its recipient, in increasing positions. -/
def Sends (enqueued : List AgentMessage) (f ty p : String) (sent : List (String × Nat)) : Prop :=
  (∀ r k, (r, k) ∈ sent → enqueued[k]? = some ⟨f, r, ty, p, k⟩) ∧
    (sent.map Prod.snd).Pairwise (· < ·)

section Sends

variable {l l' : List AgentMessage} {f ty p : String} {sent : List (String × Nat)}

lemma sends_nil : Sends l f ty p [] := ⟨by simp, by simp⟩

lemma Sends.mono (h : Sends l f ty p sent) (hl : l <+: l') : Sends l' f ty p sent := by
  refine ⟨fun r k hm => ?_, h.2⟩
  obtain ⟨u, rfl⟩ := hl
  have hk := h.1 r k hm
  rwa [List.getElem?_append_left (List.getElem?_eq_some_iff.1 hk).1]

/-- Sending to `r` appends the message to `r` at the next position. -/
lemma Sends.snoc (h : Sends l f ty p sent) (r : String) :
    Sends (l ++ [⟨f, r, ty, p, l.length⟩]) f ty p (sent ++ [(r, l.length)]) := by
  refine ⟨fun r' k hm => ?_, ?_⟩
  · rcases List.mem_append.1 hm with hm | hm
    · exact (h.mono (List.prefix_append _ _)).1 r' k hm
    · obtain ⟨rfl, rfl⟩ := Prod.mk.inj (List.mem_singleton.1 hm)
      simp
  · rw [List.map_append, List.pairwise_append]
    refine ⟨h.2, List.pairwise_singleton _ _, fun k hk j hj => ?_⟩
    obtain ⟨⟨r', k'⟩, hm, rfl⟩ := List.mem_map.1 hk
    simp only [List.map_cons, List.map_nil, List.mem_singleton] at hj
    subst hj
    exact (List.getElem?_eq_some_iff.1 (h.1 r' k' hm)).1

end Sends

namespace Sys

variable {s s' : Sys} {t : Tid} {ch : Choice}

/-! ### A worker's thread is joinable while it runs -/

/-- `orchestrator_thread_` is joinable while its worker runs. -/
def WorkerJoinable (s : Sys) : Prop :=
  ∀ o, (s.orchs o).loop.isSome = true → (s.orchs o).joinable = true

lemma workerJoinable_init (ids : Nat → String) : (init ids).WorkerJoinable := fun _ h => by
  simp [init, Orch.new] at h

lemma WorkerJoinable.update (hi : s.WorkerJoinable) {o : Nat} {q : Orch}
    (hor : s'.orchs = Function.update s.orchs o q)
    (hq : q.loop.isSome = true → q.joinable = true) : s'.WorkerJoinable := fun o' => by
  rw [hor]
  by_cases ho : o' = o
  · subst ho; simpa using hq
  · simpa [ho] using hi o'

lemma WorkerJoinable.step (hi : s.WorkerJoinable) (h : s.step t ch = some s') :
    s'.WorkerJoinable := by
  obtain ⟨-, ⟨c, -, rfl, -⟩ | ⟨o, a, cb, below, ok, -, -, hm⟩ | ⟨o, pc, below, -, -, hm⟩ |
    ⟨o, pc, rfl, -, hl, -, hm⟩⟩ := step_cases h
  · simpa [WorkerJoinable] using hi
  · have he : (s.callbackEffect a cb ok).WorkerJoinable := by simpa [WorkerJoinable] using hi
    generalize s.callbackEffect a cb ok = r at he hm
    cases hm <;> first
      | exact he
      | exact he.update rfl (he _)
      | exact he.update rfl fun _ => he _ (by simp [*])
  · cases hm <;> first
      | exact hi
      | exact hi.update rfl (hi _)
      | exact hi.update rfl fun _ => rfl
      | exact hi.update rfl fun h' => by simp_all
  · -- the worker's thread stays joinable while it moves
    have hj := hi o (by simp [hl])
    cases hm <;> exact hi.update rfl fun _ => hj

/-! ### Each step moves each channel by at most one move -/

/-- Each step moves the channel of every orchestrator by one move, or leaves it. -/
def ChannelMoves (s s' : Sys) : Prop :=
  ∀ o, (s'.orchs o).channel = (s.orchs o).channel ∨
    Channel.Step (s.orchs o).agents.lookup (s.orchs o).channel (s'.orchs o).channel

/-- Changing an orchestrator's fields outside its channel. -/
lemma channelMoves_of_eq {o : Nat} {q : Orch} (hor : s'.orchs = Function.update s.orchs o q)
    (hq : q.channel = (s.orchs o).channel) : ChannelMoves s s' := fun o' => by
  left
  rw [hor]
  by_cases ho : o' = o
  · subst ho; simpa using hq
  · simp [ho]

/-- One move of the channel of `o`, and no change elsewhere. -/
lemma channelMoves_of_step {o : Nat} {q : Orch} (hor : s'.orchs = Function.update s.orchs o q)
    (hq : Channel.Step (s.orchs o).agents.lookup (s.orchs o).channel q.channel) :
    ChannelMoves s s' := fun o' => by
  rw [hor]
  by_cases ho : o' = o
  · subst ho; simpa using Or.inr hq
  · simp [ho]

/-- The public methods enqueue; `Start` begins a worker on an empty batch. -/
lemma channelMoves_opStep {o : Nat} {pc : OpPc} {below : List Frame}
    (hj : (s.orchs o).loop.isSome = true → (s.orchs o).joinable = true)
    (h : OpMove s t o below pc s') : ChannelMoves s s' := by
  cases h with
  | routeMessage | broadcastSend => exact channelMoves_of_step rfl (.enqueue _ _)
  | startThread hj' =>
    exact channelMoves_of_eq rfl (by
      rw [Orch.channel_of_loop (q := s.orchs o) (Option.not_isSome_iff_eq_none.1
        fun h' => by simp [hj h'] at hj')]; rfl)
  | _ => first
    | exact fun _ => .inl rfl
    | exact channelMoves_of_eq rfl rfl

/-- The worker drains, looks up and begins `OnMessage`, in the registry of the moment. -/
lemma channelMoves_loopStep {o : Nat} {pc : LoopPc} (hl : (s.orchs o).loop = some pc)
    (h : LoopMove s o pc s') : ChannelMoves s s' := by
  have hc := Orch.channel_of_loop hl
  cases h with
  | drain => exact channelMoves_of_step rfl (by rw [hc]; exact .drain _ rfl rfl)
  | drop hx | found hx => exact channelMoves_of_step rfl (by rw [hc]; exact .process _ _ _ _ rfl rfl hx)
  | onMessage => exact channelMoves_of_step rfl (by rw [hc]; exact .begin _ _ _ rfl)
  | _ => exact channelMoves_of_eq rfl (by rw [hc]; rfl)

/-- A callback's return or raise moves no message. -/
lemma channel_resume {r : Sys} {ok : Bool} {below : List Frame} (h : ResumeMove r t ok below s')
    (o : Nat) : (s'.orchs o).channel = (r.orchs o).channel := by
  cases h <;> simp only [setStack_orchs, setOrch_orchs, setLoop_eq, Function.update_apply] <;>
    (try split_ifs) <;> simp_all [Orch.channel, batchOf, pendingCall]

lemma channelMoves_step (hj : s.WorkerJoinable) (h : s.step t ch = some s') :
    ChannelMoves s s' := by
  obtain ⟨-, ⟨c, -, rfl, -⟩ | ⟨o, a, cb, below, ok, -, -, hm⟩ | ⟨o, pc, below, -, -, hm⟩ |
    ⟨o, pc, rfl, -, hl, -, hm⟩⟩ := step_cases h
  · exact fun o => .inl (by simp)
  · exact fun o => .inl (by rw [channel_resume hm o, callbackEffect_orchs])
  · exact channelMoves_opStep (hj o) hm
  · exact channelMoves_loopStep hl hm

/-- No step takes back a message enqueued. -/
lemma enqueued_step (hj : s.WorkerJoinable) (h : s.step t ch = some s') (o : Nat) :
    (s.orchs o).enqueued <+: (s'.orchs o).enqueued := by
  rcases channelMoves_step hj h o with e | e
  · have he : (s'.orchs o).enqueued = (s.orchs o).enqueued := congrArg Channel.enqueued e
    exact he ▸ List.prefix_refl _
  · exact e.enqueued_prefix

/-! ### A broadcast sends to the registry it locked -/

/-- The registry of `o` after a step that changes `o` through `q`. -/
lemma agents_of_update {o o' : Nat} {q : Orch} (hor : s'.orchs = Function.update s.orchs o q)
    (hq : q.agents = (s.orchs o).agents ∨ (s.orchs o).agentsMutex = none ∨ q.agentsMutex = none) :
    (s'.orchs o').agents = (s.orchs o').agents ∨ (s.orchs o').agentsMutex = none ∨
      (s'.orchs o').agentsMutex = none := by
  rw [hor]
  by_cases ho : o' = o
  · subst ho; simpa using hq
  · simp [ho]

/-- Only a step that takes `agents_mutex_` while it is free, or releases it, changes a
registry. -/
lemma agents_step (h : s.step t ch = some s') (o : Nat) :
    (s'.orchs o).agents = (s.orchs o).agents ∨ (s.orchs o).agentsMutex = none ∨
      (s'.orchs o).agentsMutex = none := by
  obtain ⟨-, ⟨c, -, rfl, -⟩ | ⟨o', a, cb, below, ok, -, -, hm⟩ | ⟨o', pc, below, -, hh, hm⟩ |
    ⟨o', pc, rfl, -, -, -, hm⟩⟩ := step_cases h
  · simp
  · rw [← callbackEffect_orchs s a cb ok]
    generalize s.callbackEffect a cb ok = r at hm ⊢
    cases hm <;> first
      | exact .inl rfl
      | exact agents_of_update rfl (.inl rfl)
      | exact agents_of_update rfl (.inr (.inr rfl))
  · have hfree : pc.needs = some .agents → (s.orchs o').agentsMutex = none := fun e => by
      simpa [heldOn, e, Orch.holder] using hh
    cases hm <;> first
      | exact .inl rfl
      | exact agents_of_update rfl (.inl rfl)
      | exact agents_of_update rfl (.inr (.inl (hfree rfl)))
  · cases hm <;> exact agents_of_update rfl (.inl rfl)

/-- A thread in a broadcast holds `agents_mutex_`. -/
lemma LockInv.holder_of_broadcast (hi : s.LockInv) {o : Nat} {f ty p : String}
    {rest : List String} {sent : List (String × Nat)}
    (h : Frame.op o (.broadcastLoop f ty p rest sent) ∈ s.stack t) :
    (s.orchs o).agentsMutex = some t :=
  hi.holder_of_holding (List.countP_pos_iff.2 ⟨_, h, by simp [Frame.holdsAgents]⟩)

/-- Only the last step of a broadcast logs it, with the recipients of the registry. -/
lemma broadcasts_step (h : s.step t ch = some s') (o : Nat) :
    (s'.orchs o).broadcasts = (s.orchs o).broadcasts ∨
      ∃ f ty p sent below, s.stack t = .op o (.broadcastLoop f ty p [] sent) :: below ∧
        (s'.orchs o).broadcasts =
          (s.orchs o).broadcasts ++ [⟨f, ty, p, recipients (s.orchs o).agents f, sent⟩] := by
  obtain ⟨-, ⟨c, -, rfl, -⟩ | ⟨o', a, cb, below, ok, -, -, hm⟩ | ⟨o', pc, below, hs, -, hm⟩ |
    ⟨o', pc, rfl, -, -, -, hm⟩⟩ := step_cases h
  · simp
  · left
    rw [← callbackEffect_orchs s a cb ok]
    generalize s.callbackEffect a cb ok = r at hm ⊢
    cases hm <;> simp only [setStack_orchs, setOrch_orchs, setLoop_eq, Function.update_apply] <;>
      (try split_ifs) <;> subst_vars <;> rfl
  · by_cases ho : o = o'
    · subst ho
      cases hm with
      | broadcastEnd => exact .inr ⟨_, _, _, _, below, hs, by simp⟩
      | _ => exact .inl (by simp)
    · exact .inl (by rw [hm.orchs_of_ne ho])
  · by_cases ho : o = o'
    · subst ho
      cases hm <;> exact .inl (by simp)
    · exact .inl (by rw [hm.orchs_of_ne ho])

/-- A broadcast in progress has sent to the first ids of the recipients that the registry gives,
in key order, and has still to send to the others; a broadcast that has returned has sent one
message to each of its recipients. -/
def BroadcastInv (s : Sys) : Prop :=
  (∀ t o f ty p rest sent, Frame.op o (.broadcastLoop f ty p rest sent) ∈ s.stack t →
    sent.map Prod.fst ++ rest = recipients (s.orchs o).agents f ∧
      Sends (s.orchs o).enqueued f ty p sent) ∧
  ∀ o b, b ∈ (s.orchs o).broadcasts →
    b.sent.map Prod.fst = b.recipients ∧ Sends (s.orchs o).enqueued b.fromId b.type b.payload b.sent

/-- The broadcast frames after a step: the frames that were there, with the registry they
locked, and the first or next frame of the broadcast that the step takes. -/
lemma BroadcastInv.step_frames (hi : s.BroadcastInv) (hl : s.LockInv) (hj : s.WorkerJoinable)
    (h : s.step t ch = some s') :
    ∀ t o f ty p rest sent, Frame.op o (.broadcastLoop f ty p rest sent) ∈ s'.stack t →
      sent.map Prod.fst ++ rest = recipients (s'.orchs o).agents f ∧
        Sends (s'.orchs o).enqueued f ty p sent := by
  intro t₀ o f ty p rest sent hF
  by_cases hold : Frame.op o (.broadcastLoop f ty p rest sent) ∈ s.stack t₀
  · obtain ⟨h₁, h₂⟩ := hi.1 t₀ o f ty p rest sent hold
    refine ⟨?_, h₂.mono (enqueued_step hj h o)⟩
    rcases agents_step h o with e | e | e
    · rwa [e]
    · simp [hl.holder_of_broadcast hold] at e
    · simp [(hl.step h).holder_of_broadcast hF] at e
  have ht : t₀ = t := by
    by_contra ht
    exact hold (stack_of_ne h ht ▸ hF)
  subst ht
  obtain ⟨-, ⟨c, -, rfl, -⟩ | ⟨o', a, cb, below, ok, hs, -, hm⟩ | ⟨o', pc, below, hs, -, hm⟩ |
    ⟨o', pc, rfl, hs, -, -, hm⟩⟩ := step_cases h
  · unfold Sys.call at hF
    split at hF <;> (try split at hF) <;> simp_all
  · have hs' : (s.callbackEffect a cb ok).stack t₀ = .user o' a cb :: below := by simpa using hs
    generalize s.callbackEffect a cb ok = r at hs' hm
    cases hm <;> simp_all
  · cases hm with
    | @broadcastBegin f₁ ty₁ p₁ =>
      -- the first frame of a broadcast: nothing sent yet, all recipients to go
      simp only [setStack_stack, Function.update_same, List.mem_cons, Frame.op.injEq,
        OpPc.broadcastLoop.injEq] at hF
      rcases hF with ⟨rfl, rfl, rfl, rfl, rfl, rfl⟩ | hF
      · exact ⟨by simp, sends_nil⟩
      · exact absurd (by simp [hs, hF]) hold
    | @broadcastSend f₁ ty₁ p₁ r rest₁ sent₁ =>
      -- the next frame: one more message sent, to the head of the ids still to go
      simp only [setStack_stack, Function.update_same, List.mem_cons, Frame.op.injEq,
        OpPc.broadcastLoop.injEq] at hF
      rcases hF with ⟨rfl, rfl, rfl, rfl, rfl, rfl⟩ | hF
      · obtain ⟨h₁, h₂⟩ := hi.1 t₀ _ _ _ _ _ _ (by rw [hs]; exact List.mem_cons_self _ _)
        refine ⟨by simpa using h₁, ?_⟩
        simpa using h₂.snoc r
      · exact absurd (by simp [hs, hF]) hold
    | _ => simp_all
  · cases hm <;> simp_all

lemma BroadcastInv.step (hi : s.BroadcastInv) (hl : s.LockInv) (hj : s.WorkerJoinable)
    (h : s.step t ch = some s') : s'.BroadcastInv := by
  refine ⟨hi.step_frames hl hj h, fun o b hb => ?_⟩
  rcases broadcasts_step h o with e | ⟨f, ty, p, sent, below, hs, e⟩
  · obtain ⟨h₁, h₂⟩ := hi.2 o b (e ▸ hb)
    exact ⟨h₁, h₂.mono (enqueued_step hj h o)⟩
  · rw [e, List.mem_append, List.mem_singleton] at hb
    rcases hb with hb | rfl
    · obtain ⟨h₁, h₂⟩ := hi.2 o b hb
      exact ⟨h₁, h₂.mono (enqueued_step hj h o)⟩
    · -- the last step of a broadcast: every recipient has had its message
      obtain ⟨h₁, h₂⟩ := hi.1 t o f ty p [] sent (by simp [hs])
      exact ⟨by simpa using h₁, h₂.mono (enqueued_step hj h o)⟩

end Sys

section Runs

variable {adm : Tid → Choice → Sys → Prop} {s : Sys}

lemma Reachable.workerJoinable (hs : Reachable adm s) : s.WorkerJoinable := by
  induction hs with
  | init ids => exact Sys.workerJoinable_init ids
  | step _ _ h ih => exact ih.step h

end Runs

end OpenCog

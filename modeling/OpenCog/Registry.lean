/-
# Tenants, their stores, and the objects that hold them

`AtomSpaceManager` (`src/unnamed/part_001`) maps each tenant id to the `AtomSpace` object of
that tenant and makes the object on the first `GetOrCreateAtomSpace`.  The constructors
`Agent::Agent` (`agent-orchestrator.cc`) and `TenantIsolate::TenantIsolate`
(`isolate-mesh.cc`) both set `atomspace_ = GetOrCreateAtomSpace(tenant_id)`, and
`AgentFactory::CreateAgent` runs the creator registered for a type, which constructs an
agent.

A `std::shared_ptr<AtomSpace>` is modelled by a handle: the index of the object in the list
of every `AtomSpace` the manager has made.  An object outlives its registry entry while an
agent or an isolate holds it, so objects are never dropped from that list; `RemoveAtomSpace`
only erases the entry.  The registry's mutex makes each call one atomic step.

The main results are `Registry.Reachable.inv` (every held store has its holder's tenant id)
and `tenant_store_coherent`: while a tenant's entry is not removed, every agent and isolate of
that tenant constructed holds the entry's store.  `store_differs_after_remove` shows that
across a removal two agents of one tenant hold different stores.
-/
import OpenCog.AtomSpace.Basic

namespace OpenCog

/-- What kind of object holds a store. -/
inductive HolderKind where
  | agent (agentId : String)
  | isolate
  deriving DecidableEq, Repr

/-- A constructed `Agent` or `TenantIsolate`: its `tenant_id_` and the handle of the store in
its `atomspace_`. -/
structure Holder where
  kind : HolderKind
  tenantId : String
  atomspace : Nat
  deriving DecidableEq, Repr

/-- An `AgentFactory::AgentCreator` as far as the stores see it: from `(agent_id, tenant_id)`,
the arguments it passes to the constructor of the agent it builds. -/
def AgentCreator := String → String → String × String

/-- The stores of all tenants, the registry of `AtomSpaceManager`, and every object that holds
a store. -/
structure Registry where
  /-- `AtomSpaceManager::atomspaces_`: the handle of each tenant's store. -/
  atomspaces : AList (fun _ : String => Nat)
  /-- Every `AtomSpace` object made by `GetOrCreateAtomSpace`; a handle is an index. -/
  stores : List AtomSpace
  /-- `Atom::next_id_`. -/
  nextId : Nat
  /-- Every `Agent` and `TenantIsolate` constructed, in order. -/
  holders : List Holder
  /-- `AgentFactory::creators_`. -/
  creators : AList (fun _ : String => AgentCreator)

namespace Registry

/-- No store, no entry, no holder, no creator; `next_id_` starts at 1. -/
def empty : Registry := ⟨∅, [], 1, [], ∅⟩

/-- The `tenant_id()` of the store with handle `h`. -/
def tenantOf (r : Registry) (h : Nat) : Option String :=
  r.stores[h]?.map AtomSpace.tenantId

/-- `AtomSpaceManager::GetOrCreateAtomSpace`: the registered store of the tenant, or a new
one, registered. -/
def getOrCreateAtomSpace (r : Registry) (tenantId : String) : Nat × Registry :=
  match r.atomspaces.lookup tenantId with
  | some h => (h, r)
  | none =>
    (r.stores.length,
      { r with
        stores := r.stores ++ [AtomSpace.new tenantId]
        atomspaces := r.atomspaces.insert tenantId r.stores.length })

/-- `AtomSpaceManager::GetAtomSpace`; `none` is `nullptr`. -/
def getAtomSpace (r : Registry) (tenantId : String) : Option Nat :=
  r.atomspaces.lookup tenantId

/-- `AtomSpaceManager::RemoveAtomSpace`: `atomspaces_.erase(tenant_id) > 0`. -/
def removeAtomSpace (r : Registry) (tenantId : String) : Bool × Registry :=
  (decide (tenantId ∈ r.atomspaces), { r with atomspaces := r.atomspaces.erase tenantId })

/-- `AtomSpaceManager::GetTenantIds`: the keys of the `std::unordered_map`, in its order. -/
def getTenantIds (r : Registry) : List String :=
  r.atomspaces.keys

/-- `AtomSpaceManager::TenantCount`: `atomspaces_.size()`. -/
def tenantCount (r : Registry) : Nat :=
  r.atomspaces.entries.length

/-- `GetTenantIds` lists each tenant with an entry once, `TenantCount` of them. -/
lemma getTenantIds_spec (r : Registry) :
    r.getTenantIds.Nodup ∧ (∀ t, t ∈ r.getTenantIds ↔ (r.getAtomSpace t).isSome) ∧
      r.getTenantIds.length = r.tenantCount :=
  ⟨r.atomspaces.keys_nodup,
    fun t => by rw [getTenantIds, ← AList.mem_keys, getAtomSpace, AList.lookup_isSome],
    by rw [getTenantIds, tenantCount, AList.keys, List.keys, List.length_map]⟩

/-- The part of the constructors of `Agent` and `TenantIsolate` that the stores see:
`atomspace_ = GetOrCreateAtomSpace(tenant_id)`. -/
def construct (r : Registry) (kind : HolderKind) (tenantId : String) : Holder × Registry :=
  let res := r.getOrCreateAtomSpace tenantId
  let x : Holder := ⟨kind, tenantId, res.1⟩
  (x, { res.2 with holders := res.2.holders ++ [x] })

/-- `Agent::Agent(agent_id, tenant_id)`. -/
def newAgent (r : Registry) (agentId tenantId : String) : Holder × Registry :=
  r.construct (.agent agentId) tenantId

/-- `TenantIsolate::TenantIsolate(tenant_id, isolate, config)`. -/
def newTenantIsolate (r : Registry) (tenantId : String) : Holder × Registry :=
  r.construct .isolate tenantId

/-- `AgentFactory::RegisterAgentType`: `creators_[type] = creator`. -/
def registerAgentType (r : Registry) (type : String) (creator : AgentCreator) : Registry :=
  { r with creators := r.creators.insert type creator }

/-- `AgentFactory::CreateAgent`: the agent built by the creator of `type`, or `nullptr`. -/
def createAgent (r : Registry) (type agentId tenantId : String) : Option Holder × Registry :=
  match r.creators.lookup type with
  | some creator =>
    let res := r.newAgent (creator agentId tenantId).1 (creator agentId tenantId).2
    (some res.1, res.2)
  | none => (none, r)

/-- A call on the store with handle `h`, under the counter; there is nothing to call without
an object. -/
def onStore (r : Registry) (h : Nat) (op : Op) : Option Reply × Registry :=
  match r.stores[h]? with
  | some s =>
    let res := s.apply r.nextId op
    (some res.1, { r with stores := r.stores.set h res.2.1, nextId := res.2.2 })
  | none => (none, r)

end Registry

/-- A call on the registry, a constructor of a holder, or a call on a store. -/
inductive Registry.Call where
  | getOrCreateAtomSpace (tenantId : String)
  | getAtomSpace (tenantId : String)
  | removeAtomSpace (tenantId : String)
  | newAgent (agentId tenantId : String)
  | newTenantIsolate (tenantId : String)
  | registerAgentType (type : String) (creator : AgentCreator)
  | createAgent (type agentId tenantId : String)
  | onStore (h : Nat) (op : Op)

namespace Registry

/-- The state after one call. -/
def step (r : Registry) : Call → Registry
  | .getOrCreateAtomSpace t => (r.getOrCreateAtomSpace t).2
  | .getAtomSpace _ => r
  | .removeAtomSpace t => (r.removeAtomSpace t).2
  | .newAgent a t => (r.newAgent a t).2
  | .newTenantIsolate t => (r.newTenantIsolate t).2
  | .registerAgentType ty c => r.registerAgentType ty c
  | .createAgent ty a t => (r.createAgent ty a t).2
  | .onStore h op => (r.onStore h op).2

/-- The state after a sequence of calls. -/
def run (r : Registry) (calls : List Call) : Registry :=
  calls.foldl step r

@[simp] lemma run_nil (r : Registry) : r.run [] = r := rfl
@[simp] lemma run_cons (r : Registry) (c : Call) (cs : List Call) :
    r.run (c :: cs) = (r.step c).run cs := rfl

/-- The states that calls reach from the empty one. -/
inductive Reachable : Registry → Prop
  | empty : Reachable empty
  | step {r : Registry} (c : Call) : Reachable r → Reachable (r.step c)

lemma Reachable.run {r : Registry} (hr : r.Reachable) :
    ∀ calls, (r.run calls).Reachable
  | [] => hr
  | c :: cs => (hr.step c).run cs

/-! ### What each call does -/

variable {r : Registry} {t t' : String} {h : Nat}

/-- `GetOrCreateAtomSpace` returns the registered store, or registers a new object. -/
lemma getOrCreateAtomSpace_cases (r : Registry) (t : String) :
    (r.atomspaces.lookup t = some (r.getOrCreateAtomSpace t).1 ∧
        (r.getOrCreateAtomSpace t).2 = r) ∨
      (r.atomspaces.lookup t = none ∧ (r.getOrCreateAtomSpace t).1 = r.stores.length ∧
        (r.getOrCreateAtomSpace t).2 =
          { r with
            stores := r.stores ++ [AtomSpace.new t]
            atomspaces := r.atomspaces.insert t r.stores.length }) := by
  unfold getOrCreateAtomSpace
  cases r.atomspaces.lookup t <;> simp

@[simp] lemma getOrCreateAtomSpace_holders :
    (r.getOrCreateAtomSpace t).2.holders = r.holders := by
  rcases getOrCreateAtomSpace_cases r t with ⟨-, e⟩ | ⟨-, -, e⟩ <;> rw [e]

lemma lookup_getOrCreateAtomSpace_self :
    (r.getOrCreateAtomSpace t).2.atomspaces.lookup t = some (r.getOrCreateAtomSpace t).1 := by
  rcases getOrCreateAtomSpace_cases r t with ⟨h₁, h₂⟩ | ⟨-, h₂, h₃⟩
  · rw [h₂, ← h₁]
  · rw [h₃, h₂]; exact AList.lookup_insert _

/-- `GetOrCreateAtomSpace` keeps the entries of other tenants. -/
lemma lookup_getOrCreateAtomSpace_of_ne (ht : t' ≠ t) :
    (r.getOrCreateAtomSpace t).2.atomspaces.lookup t' = r.atomspaces.lookup t' := by
  rcases getOrCreateAtomSpace_cases r t with ⟨-, e⟩ | ⟨-, -, e⟩ <;> rw [e]
  exact AList.lookup_insert_ne ht

lemma getOrCreateAtomSpace_of_lookup (hh : r.atomspaces.lookup t = some h) :
    r.getOrCreateAtomSpace t = (h, r) := by
  simp [getOrCreateAtomSpace, hh]

/-- `GetOrCreateAtomSpace` keeps every object and its tenant id. -/
lemma tenantOf_getOrCreateAtomSpace (hh : r.tenantOf h = some t') :
    (r.getOrCreateAtomSpace t).2.tenantOf h = some t' := by
  rcases getOrCreateAtomSpace_cases r t with ⟨-, h₂⟩ | ⟨-, -, h₃⟩
  · rwa [h₂]
  · have hlt : h < r.stores.length := by
      by_contra hge
      simp [tenantOf, List.getElem?_eq_none (Nat.le_of_not_lt hge)] at hh
    rw [h₃]
    simpa only [tenantOf, List.getElem?_append_left hlt] using hh

/-- The store that `GetOrCreateAtomSpace` returns is of the tenant asked for, provided the
registry's entries are. -/
lemma tenantOf_getOrCreateAtomSpace_self
    (hi : ∀ {t h}, r.atomspaces.lookup t = some h → r.tenantOf h = some t) :
    (r.getOrCreateAtomSpace t).2.tenantOf (r.getOrCreateAtomSpace t).1 = some t := by
  rcases getOrCreateAtomSpace_cases r t with ⟨h₁, h₂⟩ | ⟨-, h₂, h₃⟩
  · rw [h₂]; exact hi h₁
  · rw [h₃, h₂]; simp [tenantOf]

@[simp] lemma construct_fst (k : HolderKind) :
    (r.construct k t).1 = ⟨k, t, (r.getOrCreateAtomSpace t).1⟩ := rfl
@[simp] lemma construct_holders (k : HolderKind) :
    (r.construct k t).2.holders = r.holders ++ [(r.construct k t).1] := by
  simp [construct]
@[simp] lemma construct_atomspaces (k : HolderKind) :
    (r.construct k t).2.atomspaces = (r.getOrCreateAtomSpace t).2.atomspaces := rfl
@[simp] lemma construct_tenantOf (k : HolderKind) (h : Nat) :
    (r.construct k t).2.tenantOf h = (r.getOrCreateAtomSpace t).2.tenantOf h := rfl

/-- A call on a store keeps its tenant id, and every other object. -/
lemma tenantOf_onStore (op : Op) (h' : Nat) : (r.onStore h op).2.tenantOf h' = r.tenantOf h' := by
  unfold onStore
  cases hs : r.stores[h]? with
  | none => rfl
  | some s =>
    simp only [tenantOf, List.getElem?_set]
    split_ifs with e hlt
    · subst e; simp [hs, AtomSpace.apply_tenantId]
    · subst e; simp [List.getElem?_eq_none (Nat.le_of_not_lt hlt)] at hs
    · rfl

@[simp] lemma removeAtomSpace_atomspaces :
    (r.removeAtomSpace t).2.atomspaces = r.atomspaces.erase t := rfl

@[simp] lemma onStore_atomspaces (op : Op) : (r.onStore h op).2.atomspaces = r.atomspaces := by
  unfold onStore; split <;> rfl
@[simp] lemma onStore_holders (op : Op) : (r.onStore h op).2.holders = r.holders := by
  unfold onStore; split <;> rfl

/-- `CreateAgent` runs the constructor of an agent, or does nothing. -/
lemma createAgent_cases (r : Registry) (ty a t : String) :
    (r.createAgent ty a t).2 = r ∨ ∃ a' t', (r.createAgent ty a t).2 = (r.newAgent a' t').2 := by
  unfold createAgent
  split
  · exact .inr ⟨_, _, rfl⟩
  · exact .inl rfl

/-! ### The invariant -/

/-- Every registry entry and every holder's `atomspace_` is an object whose `tenant_id()` is
the entry's tenant, or the holder's. -/
structure Inv (r : Registry) : Prop where
  entry : ∀ {t h}, r.atomspaces.lookup t = some h → r.tenantOf h = some t
  holder : ∀ x ∈ r.holders, r.tenantOf x.atomspace = some x.tenantId

lemma inv_empty : empty.Inv :=
  ⟨fun h => by simp [empty] at h, fun x hx => by simp [empty] at hx⟩

lemma Inv.getOrCreateAtomSpace (hi : r.Inv) (t : String) : (r.getOrCreateAtomSpace t).2.Inv where
  entry {t' h'} hl := by
    by_cases ht : t' = t
    · subst ht
      rw [lookup_getOrCreateAtomSpace_self] at hl
      cases hl
      exact tenantOf_getOrCreateAtomSpace_self hi.entry
    · rw [lookup_getOrCreateAtomSpace_of_ne ht] at hl
      exact tenantOf_getOrCreateAtomSpace (hi.entry hl)
  holder x hx := tenantOf_getOrCreateAtomSpace (hi.holder x (by simpa using hx))

lemma Inv.construct (hi : r.Inv) (k : HolderKind) (t : String) : (r.construct k t).2.Inv where
  entry hl := by simpa using (hi.getOrCreateAtomSpace t).entry (by simpa using hl)
  holder x hx := by
    simp only [construct_holders, List.mem_append, List.mem_singleton] at hx
    rcases hx with hx | rfl
    · simpa using (hi.getOrCreateAtomSpace t).holder x (by simpa using hx)
    · simpa using tenantOf_getOrCreateAtomSpace_self hi.entry

lemma Inv.removeAtomSpace (hi : r.Inv) (t : String) : (r.removeAtomSpace t).2.Inv where
  entry {t' _} hl := by
    by_cases ht : t' = t
    · subst ht; simp [AList.lookup_erase] at hl
    · exact hi.entry (by simpa [AList.lookup_erase_ne ht] using hl)
  holder := hi.holder

lemma Inv.onStore (hi : r.Inv) (h : Nat) (op : Op) : (r.onStore h op).2.Inv where
  entry hl := by rw [tenantOf_onStore]; exact hi.entry (by simpa using hl)
  holder x hx := by rw [tenantOf_onStore]; exact hi.holder x (by simpa using hx)

lemma Inv.step (hi : r.Inv) : ∀ c, (r.step c).Inv
  | .getOrCreateAtomSpace t => hi.getOrCreateAtomSpace t
  | .getAtomSpace _ => hi
  | .removeAtomSpace t => hi.removeAtomSpace t
  | .newAgent a t => hi.construct _ t
  | .newTenantIsolate t => hi.construct _ t
  | .registerAgentType _ _ => ⟨hi.entry, hi.holder⟩
  | .createAgent ty a t => by
    rcases createAgent_cases r ty a t with e | ⟨a', t', e⟩ <;> simp only [Registry.step, e]
    · exact hi
    · exact hi.construct _ t'
  | .onStore h op => hi.onStore h op

/-- Every reachable state keeps the invariant. -/
lemma Reachable.inv {r : Registry} (hr : r.Reachable) : r.Inv := by
  induction hr with
  | empty => exact inv_empty
  | step c _ ih => exact ih.step c

/-! ### A tenant between two removals -/

/-- Every call but the removal of `t`'s entry keeps that entry. -/
lemma lookup_step (c : Call) (hc : c ≠ .removeAtomSpace t)
    (hh : r.atomspaces.lookup t = some h) : (r.step c).atomspaces.lookup t = some h := by
  have hget : ∀ t', (r.getOrCreateAtomSpace t').2.atomspaces.lookup t = some h := fun t' => by
    by_cases ht : t = t'
    · subst ht; rw [getOrCreateAtomSpace_of_lookup hh]; exact hh
    · rw [lookup_getOrCreateAtomSpace_of_ne ht]; exact hh
  cases c with
  | getOrCreateAtomSpace t' => exact hget t'
  | removeAtomSpace t' =>
    have ht : t ≠ t' := fun e => hc (e ▸ rfl)
    simpa [step, removeAtomSpace, AList.lookup_erase_ne ht] using hh
  | newAgent a t' => simpa [step, newAgent] using hget t'
  | newTenantIsolate t' => simpa [step, newTenantIsolate] using hget t'
  | createAgent ty a t' =>
    rcases createAgent_cases r ty a t' with e | ⟨a', t'', e⟩ <;> simp only [step, e]
    · exact hh
    · simpa [newAgent] using hget t''
  | onStore => simpa [step] using hh
  | getAtomSpace | registerAgentType => exact hh

/-- A call adds holders at the end, each holding its tenant's entry. -/
lemma step_holders (r : Registry) (c : Call) :
    ∃ new, (r.step c).holders = r.holders ++ new ∧
      ∀ x ∈ new, (r.step c).atomspaces.lookup x.tenantId = some x.atomspace := by
  have hcon : ∀ k t, ∃ new, (r.construct k t).2.holders = r.holders ++ new ∧
      ∀ x ∈ new, (r.construct k t).2.atomspaces.lookup x.tenantId = some x.atomspace :=
    fun k t => ⟨_, construct_holders k, by simp [lookup_getOrCreateAtomSpace_self]⟩
  cases c with
  | newAgent a t => exact hcon _ t
  | newTenantIsolate t => exact hcon _ t
  | createAgent ty a t =>
    rcases createAgent_cases r ty a t with e | ⟨a', t', e⟩ <;> simp only [step, e]
    · exact ⟨[], by simp, by simp⟩
    · exact hcon _ t'
  | _ => exact ⟨[], by simp [step, removeAtomSpace, registerAgentType], by simp⟩

lemma run_holders (r : Registry) : ∀ calls, ∃ l, (r.run calls).holders = r.holders ++ l
  | [] => ⟨[], by simp⟩
  | c :: cs => by
    obtain ⟨new, hnew, -⟩ := step_holders r c
    obtain ⟨l, hl⟩ := run_holders (r.step c) cs
    exact ⟨new ++ l, by rw [run_cons, hl, hnew, List.append_assoc]⟩

lemma run_lookup :
    ∀ (r : Registry) calls, (∀ c ∈ calls, c ≠ .removeAtomSpace t) →
      r.atomspaces.lookup t = some h → (r.run calls).atomspaces.lookup t = some h
  | _, [], _, hh => hh
  | _, c :: cs, hkeep, hh =>
    run_lookup _ cs (fun c' hc' => hkeep c' (.tail _ hc')) (lookup_step c (hkeep c (.head _)) hh)

/-- Along calls that keep `t`'s entry, every holder of `t` constructed holds the entry at the
end. -/
lemma run_new_holders (t : String) :
    ∀ (r : Registry) calls, (∀ c ∈ calls, c ≠ .removeAtomSpace t) →
      ∀ x ∈ (r.run calls).holders.drop r.holders.length, x.tenantId = t →
        (r.run calls).atomspaces.lookup t = some x.atomspace
  | _, [], _, x, hx, _ => by simp at hx
  | r, c :: cs, hkeep, x, hx, hxt => by
    have hkeep' : ∀ c' ∈ cs, c' ≠ .removeAtomSpace t := fun c' hc' => hkeep c' (.tail _ hc')
    obtain ⟨new, hnew, hlook⟩ := step_holders r c
    obtain ⟨l, hl⟩ := run_holders (r.step c) cs
    rw [run_cons, hl, hnew, List.append_assoc, List.drop_left, List.mem_append] at hx
    rcases hx with hx | hx
    · exact run_lookup _ cs hkeep' (hxt ▸ hlook x hx)
    · refine run_new_holders t _ cs hkeep' x ?_ hxt
      rwa [hl, List.drop_left]

end Registry

/-- Tenant-to-store coherence between removals.  From any reachable state, along any calls
that do not remove `t`'s registry entry: every entry and every agent's or isolate's store has
its tenant id; an entry of `t` stays; and every agent and isolate of `t` constructed during
the calls holds the store of `t`'s entry at the end, so all of them hold the same object. -/
theorem tenant_store_coherent {r : Registry} (hr : r.Reachable) (t : String)
    (calls : List Registry.Call) (hkeep : ∀ c ∈ calls, c ≠ .removeAtomSpace t) :
    (r.run calls).Inv ∧
      (∀ h, r.atomspaces.lookup t = some h → (r.run calls).atomspaces.lookup t = some h) ∧
      ∀ x ∈ (r.run calls).holders.drop r.holders.length, x.tenantId = t →
        (r.run calls).atomspaces.lookup t = some x.atomspace :=
  ⟨(hr.run calls).inv, fun _ hh => Registry.run_lookup r calls hkeep hh,
    Registry.run_new_holders t r calls hkeep⟩

theorem tenant_store_coherent_agentAndIsolate :
    Registry.empty.Reachable ∧
      (∀ c ∈ [.newAgent "a" "t", .removeAtomSpace "u", .newTenantIsolate "t"],
        c ≠ Registry.Call.removeAtomSpace "t") ∧
      ((Registry.empty.run
          [.newAgent "a" "t", .removeAtomSpace "u", .newTenantIsolate "t"]).Inv ∧
        (∀ h, Registry.empty.atomspaces.lookup "t" = some h →
          (Registry.empty.run
            [.newAgent "a" "t", .removeAtomSpace "u", .newTenantIsolate "t"]).atomspaces.lookup
              "t" = some h) ∧
        ∀ x ∈ (Registry.empty.run
            [.newAgent "a" "t", .removeAtomSpace "u", .newTenantIsolate "t"]).holders.drop
              Registry.empty.holders.length,
          x.tenantId = "t" →
            (Registry.empty.run
              [.newAgent "a" "t", .removeAtomSpace "u", .newTenantIsolate "t"]).atomspaces.lookup
                "t" = some x.atomspace) :=
  have hkeep : ∀ c ∈ [.newAgent "a" "t", .removeAtomSpace "u", .newTenantIsolate "t"],
      c ≠ Registry.Call.removeAtomSpace "t" := by simp
  ⟨.empty, hkeep, tenant_store_coherent .empty "t" _ hkeep⟩

/-- An agent of `t`, the removal of `t`'s entry, and a second agent of `t`: the second
constructor makes a new store, and the two agents of `t` hold different objects. -/
theorem store_differs_after_remove :
    ¬ ∀ r : Registry, r.Reachable → ∀ t, ∀ x ∈ r.holders, ∀ y ∈ r.holders,
      x.tenantId = t → y.tenantId = t → x.atomspace = y.atomspace := by
  intro h
  have hr := Registry.Reachable.empty.run
    [.newAgent "a1" "t", .removeAtomSpace "t", .newAgent "a2" "t"]
  exact absurd (h _ hr "t" ⟨.agent "a1", "t", 0⟩ (by decide) ⟨.agent "a2", "t", 1⟩ (by decide)
    rfl rfl) (by decide)

end OpenCog

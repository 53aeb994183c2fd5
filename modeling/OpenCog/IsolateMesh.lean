/-
# The isolate mesh

`IsolateMesh` (`isolate-mesh.cc`) keeps, under its mutex, a `std::map` from tenant ids to the
`TenantIsolate` of each tenant.  `CreateTenantIsolate` returns the tenant's isolate if there
is one, and otherwise constructs one, whose constructor takes the tenant's store from
`AtomSpaceManager::GetOrCreateAtomSpace`; `RemoveTenantIsolate` erases the entry.  The V8 side
of an isolate (the `v8::Isolate` made from the `IsolateConfig` and disposed on removal, and its
context) is left out.

The mesh is modelled beside the registry of stores of `OpenCog/Registry.lean`, and an isolate
by its index in the registry's list of constructed holders.  A call on the mesh makes at most
one call on the registry (`regCalls`, `reg_step`), so the registry of every reachable mesh is
a reachable registry and the results on stores hold under the mesh (`Reachable.reg`).  Over
that, `mesh_isolates_coherent` says what the mesh keeps: every entry for `t` is a
`TenantIsolate` constructed for `t` that holds a store of `t`, and `GetTenantIds` lists the
entries' tenants in strictly increasing order, `TenantCount` of them.
`createTenantIsolate_stable` says that until the tenant's entry is removed, every
`CreateTenantIsolate` of it returns the same isolate.
-/
import Mathlib.Data.String.Basic
import OpenCog.Registry

namespace OpenCog

/-- An `IsolateMesh` beside the stores of all tenants. -/
structure IsolateMesh where
  /-- The stores of all tenants and every object that holds one. -/
  reg : Registry
  /-- `IsolateMesh::tenant_isolates_`: each isolate by its index in `reg.holders`. -/
  tenantIsolates : AList (fun _ : String => Nat)

namespace IsolateMesh

/-- `IsolateMesh::IsolateMesh()`, beside no store. -/
def empty : IsolateMesh := ⟨Registry.empty, ∅⟩

/-- `IsolateMesh::CreateTenantIsolate`: the tenant's isolate, or a new one, registered. -/
def createTenantIsolate (m : IsolateMesh) (tenantId : String) : Nat × IsolateMesh :=
  match m.tenantIsolates.lookup tenantId with
  | some i => (i, m)
  | none =>
    (m.reg.holders.length,
      ⟨(m.reg.newTenantIsolate tenantId).2,
        m.tenantIsolates.insert tenantId m.reg.holders.length⟩)

/-- `IsolateMesh::GetTenantIsolate`; `none` is `nullptr`. -/
def getTenantIsolate (m : IsolateMesh) (tenantId : String) : Option Nat :=
  m.tenantIsolates.lookup tenantId

/-- `IsolateMesh::RemoveTenantIsolate`. -/
def removeTenantIsolate (m : IsolateMesh) (tenantId : String) : Bool × IsolateMesh :=
  (decide (tenantId ∈ m.tenantIsolates),
    { m with tenantIsolates := m.tenantIsolates.erase tenantId })

/-- `IsolateMesh::GetTenantIds`: the keys of the `std::map`, in its order. -/
def getTenantIds (m : IsolateMesh) : List String :=
  m.tenantIsolates.keys.insertionSort fun a b : String => a ≤ b

/-- `IsolateMesh::TenantCount`: `tenant_isolates_.size()`. -/
def tenantCount (m : IsolateMesh) : Nat :=
  m.tenantIsolates.entries.length

end IsolateMesh

/-- A call on the mesh, or on the registry of stores. -/
inductive IsolateMesh.Call where
  | createTenantIsolate (tenantId : String)
  | getTenantIsolate (tenantId : String)
  | removeTenantIsolate (tenantId : String)
  | getTenantIds
  | tenantCount
  | reg (c : Registry.Call)

namespace IsolateMesh

/-- The state after one call. -/
def step (m : IsolateMesh) : Call → IsolateMesh
  | .createTenantIsolate t => (m.createTenantIsolate t).2
  | .removeTenantIsolate t => (m.removeTenantIsolate t).2
  | .reg c => { m with reg := m.reg.step c }
  | .getTenantIsolate _ | .getTenantIds | .tenantCount => m

/-- The state after a sequence of calls. -/
def run (m : IsolateMesh) (calls : List Call) : IsolateMesh :=
  calls.foldl step m

@[simp] lemma run_nil (m : IsolateMesh) : m.run [] = m := rfl
@[simp] lemma run_cons (m : IsolateMesh) (c : Call) (cs : List Call) :
    m.run (c :: cs) = (m.step c).run cs := rfl

/-- The states that calls reach from the empty mesh. -/
inductive Reachable : IsolateMesh → Prop
  | empty : Reachable empty
  | step {m : IsolateMesh} (c : Call) : Reachable m → Reachable (m.step c)

lemma Reachable.run {m : IsolateMesh} (hm : m.Reachable) : ∀ calls, (m.run calls).Reachable
  | [] => hm
  | c :: cs => (hm.step c).run cs

/-! ### The mesh over the registry -/

/-- The calls on the registry of stores that a call on the mesh makes: the constructor of a
new isolate, or the call itself. -/
def regCalls (m : IsolateMesh) : Call → List Registry.Call
  | .createTenantIsolate t =>
    match m.tenantIsolates.lookup t with
    | some _ => []
    | none => [.newTenantIsolate t]
  | .reg c => [c]
  | _ => []

lemma reg_step (m : IsolateMesh) (c : Call) : (m.step c).reg = m.reg.run (m.regCalls c) := by
  cases c with
  | createTenantIsolate t =>
    simp only [step, createTenantIsolate, regCalls]
    split <;> rfl
  | _ => rfl

/-- The registry of a reachable mesh is a reachable registry. -/
lemma Reachable.reg {m : IsolateMesh} (hm : m.Reachable) : m.reg.Reachable := by
  induction hm with
  | empty => exact .empty
  | step c _ ih => rw [reg_step]; exact ih.run _

/-! ### The entries -/

variable {m : IsolateMesh} {t t' : String} {i : Nat}

/-- Every entry of `tenant_isolates_` for `t` is a `TenantIsolate` constructed for `t`. -/
def Inv (m : IsolateMesh) : Prop :=
  ∀ {t i}, m.tenantIsolates.lookup t = some i → ∃ h, m.reg.holders[i]? = some ⟨.isolate, t, h⟩

lemma inv_empty : empty.Inv := fun h => by simp [empty] at h

/-- A call constructs holders only at the end of the list. -/
lemma holders_step (m : IsolateMesh) (c : Call) :
    ∃ l, (m.step c).reg.holders = m.reg.holders ++ l := by
  rw [reg_step]
  exact Registry.run_holders _ _

/-- `CreateTenantIsolate` returns the registered isolate, or registers a new one. -/
lemma createTenantIsolate_cases (m : IsolateMesh) (t : String) :
    (m.tenantIsolates.lookup t = some (m.createTenantIsolate t).1 ∧
        (m.createTenantIsolate t).2 = m) ∨
      (m.tenantIsolates.lookup t = none ∧ (m.createTenantIsolate t).1 = m.reg.holders.length ∧
        (m.createTenantIsolate t).2 =
          ⟨(m.reg.newTenantIsolate t).2, m.tenantIsolates.insert t m.reg.holders.length⟩) := by
  unfold createTenantIsolate
  split <;> simp_all

lemma createTenantIsolate_of_lookup (h : m.tenantIsolates.lookup t = some i) :
    m.createTenantIsolate t = (i, m) := by
  simp [createTenantIsolate, h]

lemma lookup_createTenantIsolate_self (m : IsolateMesh) (t : String) :
    (m.createTenantIsolate t).2.tenantIsolates.lookup t = some (m.createTenantIsolate t).1 := by
  rcases createTenantIsolate_cases m t with ⟨h, e⟩ | ⟨-, e₁, e⟩
  · rw [e, h]
  · rw [e, e₁, AList.lookup_insert]

/-- An entry keeps its isolate while holders are only added. -/
lemma Inv.holder_of_append {hs l : List Holder} (hi : m.Inv)
    (hl : hs = m.reg.holders ++ l) (hti : m.tenantIsolates.lookup t = some i) :
    ∃ h, hs[i]? = some ⟨.isolate, t, h⟩ := by
  obtain ⟨h, hh⟩ := hi hti
  exact ⟨h, by rw [hl, List.getElem?_append_left (List.getElem?_eq_some_iff.1 hh).1, hh]⟩

lemma Inv.step (hi : m.Inv) (c : Call) : (m.step c).Inv := by
  obtain ⟨l, hl⟩ := holders_step m c
  intro t' i' hti
  cases c with
  | createTenantIsolate t =>
    rcases createTenantIsolate_cases m t with ⟨-, e⟩ | ⟨-, -, e⟩ <;>
      simp only [IsolateMesh.step, e] at hti hl ⊢
    · exact hi hti
    · by_cases ht : t' = t
      · subst ht
        rw [AList.lookup_insert, Option.some.injEq] at hti
        subst hti
        simp [Registry.newTenantIsolate]
      · exact hi.holder_of_append hl (by rwa [AList.lookup_insert_ne ht] at hti)
  | removeTenantIsolate t =>
    by_cases ht : t' = t
    · subst ht
      simp [IsolateMesh.step, removeTenantIsolate] at hti
    · exact hi.holder_of_append hl
        (by simpa [IsolateMesh.step, removeTenantIsolate, AList.lookup_erase_ne ht] using hti)
  | _ => exact hi.holder_of_append hl hti

lemma Reachable.inv {m : IsolateMesh} (hm : m.Reachable) : m.Inv := by
  induction hm with
  | empty => exact inv_empty
  | step c _ ih => exact ih.step c

/-- `GetTenantIds` lists each tenant with an entry once, in strictly increasing order, and
`TenantCount` of them. -/
lemma getTenantIds_spec (m : IsolateMesh) :
    m.getTenantIds.Sorted (· < ·) ∧ (∀ t, t ∈ m.getTenantIds ↔ (m.getTenantIsolate t).isSome) ∧
      m.getTenantIds.length = m.tenantCount := by
  have hp := List.perm_insertionSort (fun a b : String => a ≤ b) m.tenantIsolates.keys
  refine ⟨(List.sorted_insertionSort _ _).lt_of_le (hp.nodup_iff.2 m.tenantIsolates.keys_nodup),
    fun t => ?_, ?_⟩
  · rw [getTenantIds, hp.mem_iff, ← AList.mem_keys, getTenantIsolate, AList.lookup_isSome]
  · rw [getTenantIds, hp.length_eq, tenantCount, AList.keys, List.keys, List.length_map]

/-! ### An entry until its removal -/

/-- Every call but the removal of `t`'s entry keeps that entry. -/
lemma lookup_step (c : Call) (hc : c ≠ .removeTenantIsolate t)
    (h : m.tenantIsolates.lookup t = some i) : (m.step c).tenantIsolates.lookup t = some i := by
  cases c with
  | createTenantIsolate t' =>
    simp only [IsolateMesh.step, createTenantIsolate]
    split
    · exact h
    · have ht : t ≠ t' := by rintro rfl; simp_all
      rwa [AList.lookup_insert_ne ht]
  | removeTenantIsolate t' =>
    have ht : t ≠ t' := by rintro rfl; exact hc rfl
    simpa [IsolateMesh.step, removeTenantIsolate, AList.lookup_erase_ne ht] using h
  | _ => exact h

lemma run_lookup :
    ∀ (m : IsolateMesh) calls, (∀ c ∈ calls, c ≠ .removeTenantIsolate t) →
      m.tenantIsolates.lookup t = some i → (m.run calls).tenantIsolates.lookup t = some i
  | _, [], _, h => h
  | _, c :: cs, hkeep, h =>
    run_lookup _ cs (fun c' hc' => hkeep c' (.tail _ hc')) (lookup_step c (hkeep c (.head _)) h)

end IsolateMesh

/-- What a reachable mesh keeps: its registry is a reachable registry of stores; every entry
of `tenant_isolates_` for `t` is a `TenantIsolate` constructed for `t`, which holds a store
whose `tenant_id()` is `t`; and `GetTenantIds` lists the tenants with an entry, each once, in
strictly increasing order, `TenantCount` of them. -/
theorem mesh_isolates_coherent {m : IsolateMesh} (hm : m.Reachable) :
    m.reg.Reachable ∧
      (∀ t i, m.getTenantIsolate t = some i →
        ∃ h, m.reg.holders[i]? = some ⟨.isolate, t, h⟩ ∧ m.reg.tenantOf h = some t) ∧
      m.getTenantIds.Sorted (· < ·) ∧ (∀ t, t ∈ m.getTenantIds ↔ (m.getTenantIsolate t).isSome) ∧
      m.getTenantIds.length = m.tenantCount := by
  refine ⟨hm.reg, fun t i hti => ?_, m.getTenantIds_spec⟩
  obtain ⟨h, hh⟩ := hm.inv hti
  exact ⟨h, hh, hm.reg.inv.holder _ (List.getElem?_mem hh)⟩

/-- Two isolates, of tenants `t` and `u`, the removal of `t`'s store from the registry, and
the removal of `u`'s isolate. -/
def twoTenantMesh : IsolateMesh :=
  IsolateMesh.empty.run
    [.createTenantIsolate "t", .createTenantIsolate "u", .reg (.removeAtomSpace "t"),
     .removeTenantIsolate "u"]

theorem mesh_isolates_coherent_twoTenantMesh :
    twoTenantMesh.Reachable ∧
      (twoTenantMesh.reg.Reachable ∧
        (∀ t i, twoTenantMesh.getTenantIsolate t = some i →
          ∃ h, twoTenantMesh.reg.holders[i]? = some ⟨.isolate, t, h⟩ ∧
            twoTenantMesh.reg.tenantOf h = some t) ∧
        twoTenantMesh.getTenantIds.Sorted (· < ·) ∧
        (∀ t, t ∈ twoTenantMesh.getTenantIds ↔ (twoTenantMesh.getTenantIsolate t).isSome) ∧
        twoTenantMesh.getTenantIds.length = twoTenantMesh.tenantCount) :=
  ⟨IsolateMesh.Reachable.empty.run _,
    mesh_isolates_coherent (IsolateMesh.Reachable.empty.run _)⟩

/-- Until `t`'s entry is removed, every `CreateTenantIsolate(t)` returns the isolate that the
first returned, and `GetTenantIsolate(t)` returns it too, whatever other calls on the mesh and
on the stores come between. -/
theorem createTenantIsolate_stable (m : IsolateMesh) (t : String) (calls : List IsolateMesh.Call)
    (hkeep : ∀ c ∈ calls, c ≠ .removeTenantIsolate t) :
    (((m.createTenantIsolate t).2.run calls).createTenantIsolate t).1 =
        (m.createTenantIsolate t).1 ∧
      ((m.createTenantIsolate t).2.run calls).getTenantIsolate t =
        some (m.createTenantIsolate t).1 := by
  have h := IsolateMesh.run_lookup _ calls hkeep (m.lookup_createTenantIsolate_self t)
  exact ⟨by rw [IsolateMesh.createTenantIsolate_of_lookup h], h⟩

theorem createTenantIsolate_stable_twoTenantMesh :
    (∀ c ∈ [IsolateMesh.Call.createTenantIsolate "u", .reg (.removeAtomSpace "t"),
        .removeTenantIsolate "u"], c ≠ .removeTenantIsolate "t") ∧
      (((IsolateMesh.empty.createTenantIsolate "t").2.run
          [.createTenantIsolate "u", .reg (.removeAtomSpace "t"),
            .removeTenantIsolate "u"]).createTenantIsolate "t").1 =
        (IsolateMesh.empty.createTenantIsolate "t").1 ∧
      ((IsolateMesh.empty.createTenantIsolate "t").2.run
          [.createTenantIsolate "u", .reg (.removeAtomSpace "t"),
            .removeTenantIsolate "u"]).getTenantIsolate "t" =
        some (IsolateMesh.empty.createTenantIsolate "t").1 :=
  have hkeep : ∀ c ∈ [IsolateMesh.Call.createTenantIsolate "u", .reg (.removeAtomSpace "t"),
      .removeTenantIsolate "u"], c ≠ .removeTenantIsolate "t" := by simp
  ⟨hkeep, createTenantIsolate_stable _ "t" _ hkeep⟩

end OpenCog

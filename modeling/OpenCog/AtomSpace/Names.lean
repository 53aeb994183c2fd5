/-
# The name index: last write wins

The name index holds one atom per name, and the last `AddNode` or `AddLink` of a name
overwrites it.  Two operations read or erase it by name alone:

* `RemoveAtom(id)` erases the entry of the removed atom's *name*, whichever atom that entry
  holds (`removeAtom_frame`).  When a later `AddLink` of the same name shadowed the removed
  atom, the shadowing link loses its name entry too (`removeAtom_erases_shadowing_name`).
* `AddNode(t, n)` consults the name index only (`addNode_dedupe`).  A node named `n` that a
  link of the same name shadowed is not found, and a second node named `n` is made
  (`addNode_misses_shadowed_node`).  Two `AddNode` calls of `n` return the same atom as long
  as no call in between writes or erases the name entry of `n`.

The counterexamples replay one run: a node `X`, then a link `X`.
-/
import OpenCog.AtomSpace.Invariant

namespace OpenCog

namespace AtomSpace

/-- Erasing the first atom with id `k` is erasing `a`, in a list where `a` is the only atom
with id `k`. -/
lemma eraseP_id_eq_erase {l : List Atom} {a : Atom} {k : Nat}
    (h : ∀ x ∈ l, x.id = k ↔ x = a) : l.eraseP (fun x => x.id == k) = l.erase a := by
  induction l with
  | nil => rfl
  | cons x xs ih =>
    have ih := ih fun y hy => h y (List.mem_cons_of_mem _ hy)
    by_cases hx : x = a
    · subst hx
      rw [List.eraseP_cons_of_pos (by simpa using (h x (List.mem_cons_self _ _)).2 rfl)]
      simp
    · rw [List.eraseP_cons_of_neg (by simpa using fun e => hx ((h x (List.mem_cons_self _ _)).1 e)),
        List.erase_cons_tail (by simpa using hx), ih]

/-- `RemoveAtom` of a present atom removes one entry of the id index. -/
lemma size_removeAtom {s : AtomSpace} {id : Nat} {a : Atom} (h : s.atomsById.lookup id = some a) :
    (s.removeAtom id).2.size + 1 = s.size := by
  have hmem : id ∈ s.atomsById.keys := AList.mem_keys.1 (AList.lookup_isSome.1 (by simp [h]))
  have hlen : ∀ t : AList (fun _ : Nat => Atom), t.keys.length = t.entries.length :=
    fun t => List.length_map _ _
  rw [removeAtom_of_lookup_some h]
  show (s.atomsById.erase id).entries.length + 1 = s.atomsById.entries.length
  rw [← hlen, ← hlen, AList.keys_erase, List.length_erase_of_mem hmem]
  have := List.length_pos_of_mem hmem
  omega

end AtomSpace

/-! ### `RemoveAtom` -/

/-- The run of the counterexamples: in a fresh store, the node `X` (id 1), then the link `X`
(id 2), which takes over the name entry. -/
def shadowRun : World :=
  (((World.init fun _ => "tenant").step 0 (.addNode .conceptNode "X")).2.step 0
    (.addLink .inheritanceLink "X" [])).2

lemma shadowRun_reachable : shadowRun.Reachable :=
  .step 0 _ (.step 0 _ (.init _))

/-- `RemoveAtom(id)` on a reachable store.  If an atom `a` has this id, the call returns
true, `Size()` drops by one, `a` leaves the id index and its type bucket, the name entry of
`a`'s name is erased (whichever atom it held), and every other entry of the three indices is
unchanged.  If no atom has this id, the call returns false and changes nothing. -/
theorem removeAtom_frame {w : World} (hw : w.Reachable) (hn : w.nextId < 2 ^ 64) (i id : Nat) :
    (∀ a, (w.spaces i).getAtom id = some a →
      ((w.spaces i).removeAtom id).1 = true ∧
      ((w.spaces i).removeAtom id).2.size + 1 = (w.spaces i).size ∧
      ((w.spaces i).removeAtom id).2.getAtom id = none ∧
      (∀ k, k ≠ id → ((w.spaces i).removeAtom id).2.getAtom k = (w.spaces i).getAtom k) ∧
      ((w.spaces i).removeAtom id).2.getAtomsByType a.type =
        ((w.spaces i).getAtomsByType a.type).erase a ∧
      (∀ T, T ≠ a.type →
        ((w.spaces i).removeAtom id).2.getAtomsByType T = (w.spaces i).getAtomsByType T) ∧
      ((w.spaces i).removeAtom id).2.getAtomByName a.name = none ∧
      (∀ m, m ≠ a.name →
        ((w.spaces i).removeAtom id).2.getAtomByName m = (w.spaces i).getAtomByName m)) ∧
    ((w.spaces i).getAtom id = none → (w.spaces i).removeAtom id = (false, w.spaces i)) := by
  have h := (hw.inv hn).space i
  refine ⟨fun a ha => ?_, AtomSpace.removeAtom_of_lookup_none⟩
  change (w.spaces i).atomsById.lookup id = some a at ha
  have hsize := AtomSpace.size_removeAtom ha
  rw [AtomSpace.removeAtom_of_lookup_some ha] at hsize ⊢
  -- `a` is the only atom of its bucket with this id
  have honly : ∀ x ∈ (w.spaces i).atomsByType a.type, x.id = id ↔ x = a := by
    intro x hx
    have hx' := (h.mem_type.1 hx).2
    constructor
    · rintro rfl; rw [ha] at hx'; exact (Option.some.inj hx').symm
    · rintro rfl; exact (h.lookup_id ha).1
  refine ⟨rfl, hsize, AList.lookup_erase _ _, fun k hk => AList.lookup_erase_ne hk, ?_,
    fun T hT => by simp [AtomSpace.getAtomsByType, Function.update_noteq hT],
    AList.lookup_erase _ _, fun m hm => AList.lookup_erase_ne hm⟩
  simp [AtomSpace.getAtomsByType, AtomSpace.eraseP_id_eq_erase honly]

/-- `RemoveAtom(1)` of the shadowed node `X`: it is removed and its name entry goes, although
that entry held the link. -/
theorem removeAtom_frame_shadowRun :
    let a : Atom := ⟨.conceptNode, "X", 1, .node⟩
    let s := shadowRun.spaces 0
    shadowRun.Reachable ∧ shadowRun.nextId < 2 ^ 64 ∧ s.getAtom 1 = some a ∧
      ((s.removeAtom 1).1 = true ∧ (s.removeAtom 1).2.size + 1 = s.size ∧
        (s.removeAtom 1).2.getAtom 1 = none ∧
        (∀ k, k ≠ 1 → (s.removeAtom 1).2.getAtom k = s.getAtom k) ∧
        (s.removeAtom 1).2.getAtomsByType a.type = (s.getAtomsByType a.type).erase a ∧
        (∀ T, T ≠ a.type → (s.removeAtom 1).2.getAtomsByType T = s.getAtomsByType T) ∧
        (s.removeAtom 1).2.getAtomByName a.name = none ∧
        (∀ m, m ≠ a.name → (s.removeAtom 1).2.getAtomByName m = s.getAtomByName m)) :=
  ⟨shadowRun_reachable, by decide, by decide,
    (removeAtom_frame shadowRun_reachable (by decide) 0 1).1 _ (by decide)⟩

/-- Removing the shadowed node `X` also erases the name entry of the link `X`, although that
entry held an atom other than the removed one. -/
theorem removeAtom_erases_shadowing_name :
    ¬ ∀ w : World, w.Reachable → ∀ i id a m b, (w.spaces i).getAtom id = some a →
      (w.spaces i).getAtomByName m = some b → b ≠ a →
      ((w.spaces i).removeAtom id).2.getAtomByName m = some b := by
  intro h
  have := h shadowRun shadowRun_reachable 0 1 _ "X" _ rfl rfl (by decide)
  exact absurd this (by decide)

/-! ### `AddNode` -/

/-- A call on a store that neither writes nor erases the name entry of `m`: not an
`AddLink` of `m`, not a `RemoveAtom` of an atom named `m`, not a `Clear`. -/
def KeepsName (s : AtomSpace) (m : String) : Op → Prop
  | .addLink _ m' _ => m' ≠ m
  | .removeAtom id => ∀ a, s.getAtom id = some a → a.name ≠ m
  | .clear => False
  | _ => True

/-- A run on a world (address and call) in which every call on the store at `i` keeps the
name entry of `m`. -/
def RunKeepsName (i : Nat) (m : String) : World → List (Nat × Op) → Prop
  | _, [] => True
  | w, (j, op) :: rest => (j = i → KeepsName (w.spaces i) m op) ∧
      RunKeepsName i m (w.step j op).2 rest

/-- A call that keeps the name entry of `m` keeps a node there. -/
lemma keepsName_step {s : AtomSpace} {m : String} {a : Atom} {op : Op}
    (hm : s.atomsByName.lookup m = some a) (ha : a.isNode) (hk : KeepsName s m op) (n : Nat) :
    (s.apply n op).2.1.atomsByName.lookup m = some a := by
  cases op with
  | addNode t m' =>
    simp only [AtomSpace.apply]
    by_cases hnode : ∃ b, s.atomsByName.lookup m' = some b ∧ b.isNode
    · obtain ⟨b, hb, hbn⟩ := hnode
      rwa [AtomSpace.addNode_of_isNode hb hbn]
    · rw [AtomSpace.addNode_of_not_isNode (fun b hb => Bool.eq_false_iff.2 fun hbn =>
        hnode ⟨b, hb, hbn⟩)]
      have hne : m ≠ m' := by rintro rfl; exact hnode ⟨a, hm, ha⟩
      simpa [AList.lookup_insert_ne hne] using hm
  | addLink t m' out =>
    simpa [AtomSpace.apply, AtomSpace.addLink, AList.lookup_insert_ne (Ne.symm hk)] using hm
  | removeAtom id =>
    simp only [AtomSpace.apply, AtomSpace.removeAtom]
    split
    · exact hm
    · rename_i b hb
      simpa [AList.lookup_erase_ne (Ne.symm (hk b hb))] using hm
  | clear => exact hk.elim
  | _ => exact hm

/-- Over a run that keeps the name entry of `m` in the store at `i`, a node held there stays
there. -/
lemma run_keepsName {i : Nat} {m : String} {a : Atom} (ha : a.isNode) :
    ∀ (w : World) (ops : List (Nat × Op)), (w.spaces i).atomsByName.lookup m = some a →
      RunKeepsName i m w ops → ((w.run ops).spaces i).atomsByName.lookup m = some a
  | _, [], hm, _ => hm
  | w, (j, op) :: rest, hm, ⟨hk, hrest⟩ => by
    refine run_keepsName ha _ rest ?_ hrest
    by_cases hj : j = i
    · subst hj; simpa using keepsName_step hm ha (hk rfl) w.nextId
    · simpa [Function.update_noteq (Ne.symm hj)] using hm

/-- `AddNode(t, n)` on a reachable store.  If the name index holds a node under `n`, the call
returns it and changes neither the store nor the counter.  Otherwise it returns a fresh node
of type `t` named `n`, whose id is the counter and is a key of no store.  Two `AddNode` calls
of `n` on one store return the same atom when the calls between them, on any stores, never
write or erase the name entry of `n` there. -/
theorem addNode_dedupe {w : World} (hw : w.Reachable) (hn : w.nextId < 2 ^ 64) (i : Nat)
    (t : AtomType) (m : String) :
    (∀ a, (w.spaces i).getAtomByName m = some a → a.isNode →
      (w.spaces i).addNode w.nextId t m = (a, w.spaces i, w.nextId)) ∧
    ((∀ a, (w.spaces i).getAtomByName m = some a → a.isNode = false) →
      ((w.spaces i).addNode w.nextId t m).1 = ⟨t, m, w.nextId, .node⟩ ∧
      ∀ j, w.nextId ∉ (w.spaces j).atomsById) ∧
    ∀ (ops : List (Nat × Op)) (t' : AtomType),
      RunKeepsName i m (w.step i (.addNode t m)).2 ops →
      ((((w.step i (.addNode t m)).2.run ops).spaces i).addNode
          ((w.step i (.addNode t m)).2.run ops).nextId t' m).1 =
        ((w.spaces i).addNode w.nextId t m).1 := by
  refine ⟨fun a ha hnd => AtomSpace.addNode_of_isNode ha hnd _ _, fun hnone => ?_,
    fun ops t' hops => ?_⟩
  · rw [AtomSpace.addNode_of_not_isNode hnone]
    exact ⟨show Atom.mk t m (w.nextId % 2 ^ 64) .node = _ by rw [Nat.mod_eq_of_lt hn],
      fun j hj => lt_irrefl _ (((hw.inv hn).space j).lt_of_mem hj)⟩
  · -- after the first call, the name entry of `m` holds the returned node
    set a := ((w.spaces i).addNode w.nextId t m).1
    have hfirst : ((w.step i (.addNode t m)).2.spaces i).atomsByName.lookup m = some a ∧
        a.isNode := by
      simp only [World.step_spaces, Function.update_same, AtomSpace.apply, a]
      by_cases hnode : ∃ b, (w.spaces i).atomsByName.lookup m = some b ∧ b.isNode
      · obtain ⟨b, hb, hbn⟩ := hnode
        rw [AtomSpace.addNode_of_isNode hb hbn]
        exact ⟨hb, hbn⟩
      · rw [AtomSpace.addNode_of_not_isNode (fun b hb => Bool.eq_false_iff.2 fun hbn =>
          hnode ⟨b, hb, hbn⟩)]
        simp [AList.lookup_insert, Atom.isNode]
    have hlast := run_keepsName hfirst.2 _ ops hfirst.1 hops
    rw [AtomSpace.addNode_of_isNode hlast hfirst.2]

theorem addNode_dedupe_shadowRun :
    shadowRun.Reachable ∧ shadowRun.nextId < 2 ^ 64 ∧
      ((∀ a, (shadowRun.spaces 0).getAtomByName "X" = some a → a.isNode = false) →
        ((shadowRun.spaces 0).addNode shadowRun.nextId .conceptNode "X").1 =
          ⟨.conceptNode, "X", shadowRun.nextId, .node⟩ ∧
        ∀ j, shadowRun.nextId ∉ (shadowRun.spaces j).atomsById) :=
  ⟨shadowRun_reachable, by decide,
    (addNode_dedupe shadowRun_reachable (by decide) 0 .conceptNode "X").2.1⟩

/-- The node `X` is in the store, but the link `X` holds the name entry, so `AddNode` of `X`
makes a second node named `X`. -/
theorem addNode_misses_shadowed_node :
    ¬ ∀ w : World, w.Reachable → ∀ i t m a, a ∈ (w.spaces i).atoms → a.isNode →
      a.name = m → ((w.spaces i).addNode w.nextId t m).1 = a := by
  intro h
  have := h shadowRun shadowRun_reachable 0 .conceptNode "X" ⟨.conceptNode, "X", 1, .node⟩
    (by decide) rfl rfl
  exact absurd this (by decide)

end OpenCog

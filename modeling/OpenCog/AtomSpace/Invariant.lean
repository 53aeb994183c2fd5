/-
# The three indices stay consistent

`World` is the atom layer of a process: the counter `Atom::next_id_` and every `AtomSpace`
object, by address.  A run calls any public method on any store, in any order.  As long as
the counter does not wrap (`nextId < 2 ^ 64`, that is fewer than `2 ^ 64 - 1` atoms
constructed), every store of every reachable state satisfies `AtomSpace.Inv`:

* every key of the id index is below the counter and is the id of its atom;
* the bucket of each type lists exactly the atoms of the id index of that type, in
  increasing id order;
* every entry of the name index holds an atom of the id index with that name;

and no id is a key of two stores (`World.Inv`).  The main result is
`reachable_indices_consistent`, which adds the consequences read through the API:
`GetAtomsByType(T)` is a permutation of `Query(type == T)`, and the buckets' sizes add up
to `Size()`.
-/
import Mathlib.Algebra.BigOperators.Group.Finset
import OpenCog.AtomSpace.Basic

namespace OpenCog

/-- The atom layer of a process: the counter `Atom::next_id_`, unwrapped (see
`OpenCog.Atom`), and the `AtomSpace` object at each address. -/
structure World where
  nextId : Nat
  spaces : Nat → AtomSpace

namespace World

/-- A process before any atom is constructed: the counter at 1 (`next_id_ = 1`) and only
empty stores, the one at address `i` for tenant `tenant i`. -/
def init (tenant : Nat → String) : World :=
  ⟨1, fun i => AtomSpace.new (tenant i)⟩

/-- The call `op` on the store at address `i`. -/
def step (w : World) (i : Nat) (op : Op) : Reply × World :=
  let r := (w.spaces i).apply w.nextId op
  (r.1, ⟨r.2.2, Function.update w.spaces i r.2.1⟩)

/-- The states reached from an initial state by any sequence of calls. -/
inductive Reachable : World → Prop
  | init (tenant : Nat → String) : Reachable (init tenant)
  | step {w : World} (i : Nat) (op : Op) : Reachable w → Reachable (w.step i op).2

/-- The world after a run of calls, each on the store at its address. -/
def run (w : World) : List (Nat × Op) → World
  | [] => w
  | (j, op) :: rest => (w.step j op).2.run rest

@[simp] lemma run_nil (w : World) : w.run [] = w := rfl

@[simp] lemma run_cons (w : World) (j : Nat) (op : Op) (rest : List (Nat × Op)) :
    w.run ((j, op) :: rest) = (w.step j op).2.run rest := rfl

lemma Reachable.run {w : World} (hw : w.Reachable) :
    ∀ ops : List (Nat × Op), (w.run ops).Reachable
  | [] => hw
  | (j, op) :: rest => (hw.step j op).run rest

@[simp] lemma step_nextId (w : World) (i : Nat) (op : Op) :
    (w.step i op).2.nextId = ((w.spaces i).apply w.nextId op).2.2 := rfl

@[simp] lemma step_spaces (w : World) (i : Nat) (op : Op) :
    (w.step i op).2.spaces = Function.update w.spaces i ((w.spaces i).apply w.nextId op).2.1 :=
  rfl

end World

/-! ### Removing an id from a bucket -/

/-- In a list with increasing ids, erasing the first atom with id `k` erases every atom with
id `k`. -/
lemma mem_eraseP_id {l : List Atom} (hl : l.Pairwise fun a b => a.id < b.id) {k : Nat}
    {b : Atom} : b ∈ l.eraseP (fun x => x.id == k) ↔ b ∈ l ∧ b.id ≠ k := by
  induction l with
  | nil => simp
  | cons x xs ih =>
    rw [List.pairwise_cons] at hl
    by_cases hx : x.id = k
    · rw [List.eraseP_cons_of_pos (by simpa using hx), List.mem_cons]
      constructor
      · intro hb; exact ⟨.inr hb, by have := hl.1 b hb; omega⟩
      · rintro ⟨rfl | hb, hbk⟩
        · exact absurd hx hbk
        · exact hb
    · rw [List.eraseP_cons_of_neg (by simpa using hx), List.mem_cons, List.mem_cons, ih hl.2]
      constructor
      · rintro (rfl | ⟨hb, hbk⟩)
        · exact ⟨.inl rfl, hx⟩
        · exact ⟨.inr hb, hbk⟩
      · rintro ⟨rfl | hb, hbk⟩
        · exact .inl rfl
        · exact .inr ⟨hb, hbk⟩

/-- Each atom falls in the filter of exactly one type. -/
lemma sum_length_filter_type (l : List Atom) :
    ∑ T, (l.filter fun a => a.type == T).length = l.length := by
  induction l with
  | nil => simp
  | cons x xs ih =>
    have h : ∀ T, ((x :: xs).filter fun a => a.type == T).length =
        (xs.filter fun a => a.type == T).length + if x.type = T then 1 else 0 := by
      intro T; by_cases hT : x.type = T <;> simp [List.filter_cons, hT]
    simp only [h, Finset.sum_add_distrib, ih, Finset.sum_ite_eq, Finset.mem_univ, if_true,
      List.length_cons]

/-! ### The invariant of one store -/

namespace AtomSpace

/-- The three indices of `s` agree, and every id is below the counter `n`. -/
structure Inv (s : AtomSpace) (n : Nat) : Prop where
  lookup_id : ∀ {k a}, s.atomsById.lookup k = some a → a.id = k ∧ k < n
  sorted : ∀ T, (s.atomsByType T).Pairwise fun a b => a.id < b.id
  mem_type : ∀ {T a}, a ∈ s.atomsByType T ↔ a.type = T ∧ s.atomsById.lookup a.id = some a
  lookup_name : ∀ {m a}, s.atomsByName.lookup m = some a →
    a.name = m ∧ s.atomsById.lookup a.id = some a

variable {s : AtomSpace} {n : Nat}

lemma inv_new (t : String) (n : Nat) : (new t).Inv n :=
  ⟨by simp [AList.lookup_empty], by simp, by simp [AList.lookup_empty],
    by simp [AList.lookup_empty]⟩

lemma inv_clear (s : AtomSpace) (n : Nat) : s.clear.Inv n :=
  ⟨by simp [AList.lookup_empty], by simp, by simp [AList.lookup_empty],
    by simp [AList.lookup_empty]⟩

namespace Inv

lemma mono (h : s.Inv n) {n' : Nat} (hle : n ≤ n') : s.Inv n' :=
  { h with lookup_id := fun hk => ⟨(h.lookup_id hk).1, by have := (h.lookup_id hk).2; omega⟩ }

lemma lt_of_mem (h : s.Inv n) {k : Nat} (hk : k ∈ s.atomsById) : k < n := by
  obtain ⟨a, ha⟩ := Option.isSome_iff_exists.1 (AList.lookup_isSome.2 hk)
  exact (h.lookup_id ha).2

/-- The atoms of the id index are those that their own id looks up. -/
lemma mem_atoms (h : s.Inv n) {a : Atom} : a ∈ s.atoms ↔ s.atomsById.lookup a.id = some a := by
  simp only [atoms, List.mem_map]
  constructor
  · rintro ⟨⟨k, b⟩, hb, rfl⟩
    have hk : s.atomsById.lookup k = some b := AList.mem_lookup_iff.2 hb
    rwa [(h.lookup_id hk).1]
  · intro ha; exact ⟨⟨a.id, a⟩, AList.mem_lookup_iff.1 ha, rfl⟩

lemma atoms_nodup (h : s.Inv n) : s.atoms.Nodup := by
  refine List.Nodup.map_on ?_ s.atomsById.nodupKeys.nodup
  rintro ⟨k, a⟩ ha ⟨k', a'⟩ ha' (rfl : a = a')
  have hk := (h.lookup_id (AList.mem_lookup_iff.2 ha)).1
  have hk' := (h.lookup_id (AList.mem_lookup_iff.2 ha')).1
  subst hk hk'; rfl

lemma bucket_nodup (h : s.Inv n) (T : AtomType) : (s.atomsByType T).Nodup :=
  (h.sorted T).imp fun hab heq => by subst heq; omega

/-- Each bucket is a permutation of the atoms of its type. -/
lemma bucket_perm (h : s.Inv n) (T : AtomType) :
    (s.atomsByType T).Perm (s.atoms.filter fun a => a.type == T) := by
  refine (List.perm_ext_iff_of_nodup (h.bucket_nodup T) (h.atoms_nodup.filter _)).2 fun a => ?_
  rw [h.mem_type, List.mem_filter, h.mem_atoms, beq_iff_eq, and_comm]

end Inv

/-! ### Each call keeps the invariant -/

lemma lookup_insert_id {m : AList fun _ : Nat => Atom} {k k' : Nat} {a b : Atom} :
    (m.insert k a).lookup k' = some b ↔ (k' = k ∧ a = b) ∨ (k' ≠ k ∧ m.lookup k' = some b) := by
  by_cases hk : k' = k
  · subst hk; simp [AList.lookup_insert]
  · simp [AList.lookup_insert_ne hk, hk]

lemma lookup_insert_name {m : AList fun _ : String => Atom} {k k' : String} {a b : Atom} :
    (m.insert k a).lookup k' = some b ↔ (k' = k ∧ a = b) ∨ (k' ≠ k ∧ m.lookup k' = some b) := by
  by_cases hk : k' = k
  · subst hk; simp [AList.lookup_insert]
  · simp [AList.lookup_insert_ne hk, hk]

/-- Adding a new atom made at the counter keeps the invariant, with the counter moved on. -/
lemma Inv.add (h : s.Inv n) (hn : n < 2 ^ 64) (t : AtomType) (m : String) (k : AtomKind) :
    (s.add (Atom.make n t m k)).Inv (n + 1) := by
  set a := Atom.make n t m k
  have ha : a.id = n := Atom.make_id_of_lt hn t m k
  -- an atom that its id looks up is older than `a`, and still looked up
  have old : ∀ {b}, s.atomsById.lookup b.id = some b → b.id < n :=
    fun hb => (h.lookup_id hb).2
  have lookup' : ∀ {b}, (s.atomsById.insert a.id a).lookup b.id = some b ↔
      b = a ∨ s.atomsById.lookup b.id = some b := by
    intro b
    rw [lookup_insert_id, ha]
    constructor
    · rintro (⟨-, rfl⟩ | ⟨-, hb⟩)
      · exact .inl rfl
      · exact .inr hb
    · rintro (rfl | hb)
      · exact .inl ⟨ha, rfl⟩
      · exact .inr ⟨by have := old hb; omega, hb⟩
  refine ⟨fun {k' b} hk => ?_, fun T => ?_, fun {T b} => ?_, fun {m' b} hm => ?_⟩
  · rw [add_atomsById, lookup_insert_id, ha] at hk
    rcases hk with ⟨rfl, rfl⟩ | ⟨-, hk⟩
    · exact ⟨ha, by omega⟩
    · exact ⟨(h.lookup_id hk).1, by have := (h.lookup_id hk).2; omega⟩
  · rw [add_atomsByType]
    split
    · refine List.pairwise_append.2 ⟨h.sorted T, by simp, fun b hb c hc => ?_⟩
      rw [List.mem_singleton] at hc; subst hc
      rw [ha]; exact old (h.mem_type.1 hb).2
    · exact h.sorted T
  · rw [add_atomsByType, add_atomsById, lookup']
    split
    · rename_i hT
      rw [List.mem_append, List.mem_singleton, h.mem_type]
      constructor
      · rintro (⟨hbT, hb⟩ | rfl)
        · exact ⟨hbT, .inr hb⟩
        · exact ⟨hT.symm, .inl rfl⟩
      · rintro ⟨hbT, rfl | hb⟩
        · exact .inr rfl
        · exact .inl ⟨hbT, hb⟩
    · rename_i hT
      rw [h.mem_type]
      constructor
      · rintro ⟨hbT, hb⟩; exact ⟨hbT, .inr hb⟩
      · rintro ⟨hbT, rfl | hb⟩
        · exact absurd hbT.symm hT
        · exact ⟨hbT, hb⟩
  · rw [add_atomsByName, lookup_insert_name] at hm
    rw [add_atomsById, lookup']
    rcases hm with ⟨rfl, rfl⟩ | ⟨-, hm⟩
    · exact ⟨rfl, .inl rfl⟩
    · exact ⟨(h.lookup_name hm).1, .inr (h.lookup_name hm).2⟩

/-- `RemoveAtom` keeps the invariant. -/
lemma Inv.removeAtom (h : s.Inv n) (id : Nat) : (s.removeAtom id).2.Inv n := by
  cases hid : s.atomsById.lookup id with
  | none => rwa [removeAtom_of_lookup_none hid]
  | some a =>
    rw [removeAtom_of_lookup_some hid]
    have hai := (h.lookup_id hid).1
    -- the id index after the erasure
    have lookup' : ∀ {k b}, (s.atomsById.erase id).lookup k = some b ↔
        s.atomsById.lookup k = some b ∧ k ≠ id := by
      intro k b
      by_cases hk : k = id
      · subst hk; simp [AList.lookup_erase]
      · simp [AList.lookup_erase_ne hk, hk]
    refine ⟨fun {k b} hk => ?_, fun T => ?_, fun {T b} => ?_, fun {m b} hm => ?_⟩
    · exact h.lookup_id (lookup'.1 hk).1
    · by_cases hT : T = a.type
      · subst hT; simpa using (h.sorted a.type).eraseP _
      · simpa [hT] using h.sorted T
    · simp only [lookup']
      by_cases hT : T = a.type
      · subst hT
        simp only [Function.update_same, mem_eraseP_id (h.sorted _), h.mem_type, and_assoc]
      · simp only [Function.update_noteq hT, h.mem_type]
        constructor
        · rintro ⟨hbT, hb⟩
          refine ⟨hbT, hb, fun hbi => hT ?_⟩
          rw [hbi, hid] at hb; cases hb; exact hbT.symm
        · exact fun ⟨hbT, hb, _⟩ => ⟨hbT, hb⟩
    · have hm' : m ≠ a.name ∧ s.atomsByName.lookup m = some b := by
        by_cases hma : m = a.name
        · subst hma; simp [AList.lookup_erase] at hm
        · exact ⟨hma, by rwa [AList.lookup_erase_ne hma] at hm⟩
      obtain ⟨hbm, hb⟩ := h.lookup_name hm'.2
      refine ⟨hbm, lookup'.2 ⟨hb, fun hbi => hm'.1 ?_⟩⟩
      rw [hbi, hid] at hb; cases hb; exact hbm.symm

/-- A call never moves the counter back. -/
lemma le_apply_nextId (s : AtomSpace) (n : Nat) (op : Op) : n ≤ (s.apply n op).2.2 := by
  cases op with
  | addNode t m =>
    simp only [apply, addNode]; split
    · split <;> simp
    · simp
  | addLink => simp [apply, addLink]
  | _ => simp [apply]

/-- A call keeps the invariant, and adds at most the key of the counter to the id index. -/
lemma Inv.apply (h : s.Inv n) (hn : n < 2 ^ 64) (op : Op) :
    (s.apply n op).2.1.Inv (s.apply n op).2.2 ∧
      ∀ k ∈ (s.apply n op).2.1.atomsById, k ∈ s.atomsById ∨ k = n := by
  -- the two outcomes of adding an atom
  have fresh : ∀ t m k, (s.add (Atom.make n t m k)).Inv (n + 1) ∧
      ∀ k' ∈ (s.add (Atom.make n t m k)).atomsById, k' ∈ s.atomsById ∨ k' = n := by
    intro t m k
    refine ⟨h.add hn t m k, fun k' hk' => ?_⟩
    rw [add_atomsById, AList.mem_insert, Atom.make_id_of_lt hn] at hk'
    exact hk'.symm
  cases op with
  | addNode t m =>
    simp only [AtomSpace.apply]
    by_cases hnode : ∃ a, s.atomsByName.lookup m = some a ∧ a.isNode
    · obtain ⟨a, ha, hnd⟩ := hnode
      rw [addNode_of_isNode ha hnd]
      exact ⟨h, fun k hk => .inl hk⟩
    · rw [addNode_of_not_isNode (fun a ha => Bool.eq_false_iff.2 fun hnd => hnode ⟨a, ha, hnd⟩)]
      exact fresh t m .node
  | addLink t m out => exact fresh t m _
  | removeAtom id =>
    refine ⟨h.removeAtom id, fun k hk => .inl ?_⟩
    simp only [AtomSpace.apply, AtomSpace.removeAtom] at hk
    split at hk
    · exact hk
    · exact (AList.mem_erase.1 hk).2
  | clear => exact ⟨inv_clear s n, by simp [AtomSpace.apply, AList.mem_keys, AList.keys]⟩
  | _ => exact ⟨h, fun k hk => .inl hk⟩

end AtomSpace

/-! ### The invariant of the process -/

namespace World

/-- Every store keeps its invariant, and no id is a key of two stores. -/
structure Inv (w : World) : Prop where
  space : ∀ i, (w.spaces i).Inv w.nextId
  disjoint : ∀ {i j k}, i ≠ j → k ∈ (w.spaces i).atomsById → k ∉ (w.spaces j).atomsById

lemma inv_init (tenant : Nat → String) : (init tenant).Inv :=
  ⟨fun i => AtomSpace.inv_new _ _, by simp [init, AList.mem_keys, AList.keys]⟩

/-- One call keeps the invariant of the process, while the counter stays below `2 ^ 64`. -/
lemma Inv.step {w : World} (h : w.Inv) (i : Nat) (op : Op)
    (hn : (w.step i op).2.nextId < 2 ^ 64) : (w.step i op).2.Inv := by
  have hle := AtomSpace.le_apply_nextId (w.spaces i) w.nextId op
  rw [step_nextId] at hn
  obtain ⟨hinv, hkeys⟩ := (h.space i).apply (by omega) op
  -- a key of the changed store is an old key of it, or the counter, which no store holds
  have hnew : ∀ {j k}, j ≠ i → k ∈ ((w.spaces i).apply w.nextId op).2.1.atomsById →
      k ∉ (w.spaces j).atomsById := by
    intro j k hji hk hkj
    rcases hkeys k hk with hk | rfl
    · exact h.disjoint (Ne.symm hji) hk hkj
    · exact absurd ((h.space j).lt_of_mem hkj) (lt_irrefl _)
  refine ⟨fun j => ?_, fun {j₁ j₂ k} hne hk₁ hk₂ => ?_⟩
  · by_cases hj : j = i
    · subst hj; simpa using hinv
    · simpa [hj] using (h.space j).mono hle
  · simp only [step_spaces] at hk₁ hk₂
    by_cases h₁ : j₁ = i
    · subst h₁
      rw [Function.update_noteq (Ne.symm hne)] at hk₂
      exact hnew (Ne.symm hne) (by simpa using hk₁) hk₂
    · rw [Function.update_noteq h₁] at hk₁
      by_cases h₂ : j₂ = i
      · subst h₂; exact hnew h₁ (by simpa using hk₂) hk₁
      · rw [Function.update_noteq h₂] at hk₂
        exact h.disjoint hne hk₁ hk₂

/-- Every reachable state whose counter has not wrapped satisfies the invariant. -/
lemma Reachable.inv {w : World} (hw : w.Reachable) (hn : w.nextId < 2 ^ 64) : w.Inv := by
  induction hw with
  | init tenant => exact inv_init tenant
  | step i op _ ih =>
    exact (ih (lt_of_le_of_lt (AtomSpace.le_apply_nextId _ _ op) hn)).step i op hn

end World

/-- What the API shows of the consistency of the store at address `i`: the id index maps
each key, below the counter, to the atom with that id, and no id is a key of two stores; the
bucket of each type holds exactly the atoms of the id index of that type, once each and in
increasing id order, so `GetAtomsByType(T)` is a permutation of `Query(type == T)` and the
bucket sizes add up to `Size()`; each name entry holds an atom of the id index with that
name. -/
def World.IndicesConsistent (w : World) (i : Nat) : Prop :=
  (∀ k a, (w.spaces i).getAtom k = some a → k < w.nextId ∧ a.id = k) ∧
  (∀ j k, j ≠ i → k ∈ (w.spaces i).atomsById → k ∉ (w.spaces j).atomsById) ∧
  (∀ T, ((w.spaces i).getAtomsByType T).Pairwise (fun a b => a.id < b.id) ∧
    ((w.spaces i).getAtomsByType T).Nodup ∧
    ∀ a, a ∈ (w.spaces i).getAtomsByType T ↔ a ∈ (w.spaces i).atoms ∧ a.type = T) ∧
  (∀ T, ((w.spaces i).getAtomsByType T).Perm ((w.spaces i).query fun a => a.type == T)) ∧
  ∑ T, ((w.spaces i).getAtomsByType T).length = (w.spaces i).size ∧
  (∀ m a, (w.spaces i).getAtomByName m = some a →
    (w.spaces i).getAtom a.id = some a ∧ a.name = m)

/-- Every store of every reachable state is consistent, while fewer than `2 ^ 64 - 1` atoms
have been constructed. -/
theorem reachable_indices_consistent {w : World} (hw : w.Reachable) (hn : w.nextId < 2 ^ 64)
    (i : Nat) : w.IndicesConsistent i := by
  have hw' := hw.inv hn
  have h := hw'.space i
  refine ⟨fun k a hk => (h.lookup_id hk).symm, fun j k hji hk => hw'.disjoint hji.symm hk,
    fun T => ⟨h.sorted T, h.bucket_nodup T, fun a => ?_⟩, h.bucket_perm, ?_,
    fun m a hm => (h.lookup_name hm).symm⟩
  · rw [AtomSpace.getAtomsByType, h.mem_type, h.mem_atoms, and_comm]
  · simp only [AtomSpace.getAtomsByType, fun T => (h.bucket_perm T).length_eq]
    rw [sum_length_filter_type, AtomSpace.size, AtomSpace.atoms, List.length_map]

/-- Three concept nodes `X`, `Y`, `Z` in one store, a link that takes over the name `X`, and the
removal of `Y`: the bucket of `ConceptNode` keeps `X` and `Z`, and the name `X` holds the link. -/
def shadowAndRemove : List (Nat × Op) :=
  [(0, .addNode .conceptNode "X"), (0, .addNode .conceptNode "Y"), (0, .addNode .conceptNode "Z"),
   (0, .addLink .inheritanceLink "X" []), (0, .removeAtom 2)]

theorem reachable_indices_consistent_shadowAndRemove :
    let w := (World.init fun _ => "tenant").run shadowAndRemove
    w.Reachable ∧ w.nextId < 2 ^ 64 ∧ w.IndicesConsistent 0 :=
  ⟨(World.Reachable.init _).run _, by decide,
    reachable_indices_consistent ((World.Reachable.init _).run _) (by decide) 0⟩

end OpenCog

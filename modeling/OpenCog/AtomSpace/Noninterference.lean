/-
# Tenants interfere only through atom ids

Two tenants' stores share no state but the counter `Atom::next_id_`.  Take a run that
interleaves calls on the store at address `i` (tenant `t2`) with calls on other stores
(`t1`), and a second run, from the same state, of `t2`'s calls alone.  In the second run
`t2`'s atoms get other ids, so a call that names an id (`GetAtom`, `RemoveAtom`, the outgoing
atoms of `AddLink`) must name the renamed one, and a `Query` predicate must not tell the two
ids apart; a literal replay of the first run's arguments does not preserve `t2`'s replies
(`replay_breaks_tenant_isolation`).

With the arguments renamed, the second run's replies are the first run's replies renamed,
`Query` results up to order (`tenant_noninterference`).  The renaming is one function for
the whole run (`World.renamingAt`): it fixes every id older than the run, maps the `k`-th atom
that `t2` constructs to the `k`-th id after the run's start, and sends every other id past
the ids of the second run.  It is strictly increasing on the ids that `t2` can hold.

The proof is a simulation: `Sim ρ sA sB` relates `t2`'s store in the two runs
(`Sim.apply` is one call), and `sim_run` carries it along the run.
-/
import OpenCog.AtomSpace.Names

namespace OpenCog

/-! ### Renaming ids -/

/-- The ids of the outgoing atoms of a link. -/
def AtomKind.outgoingIds : AtomKind → List Nat
  | .node => []
  | .link out => out

/-- Rename the ids of a link's outgoing atoms. -/
def AtomKind.rename (ρ : Nat → Nat) : AtomKind → AtomKind
  | .node => .node
  | .link out => .link (out.map ρ)

/-- Rename an atom's id and the ids of its outgoing atoms. -/
def Atom.rename (ρ : Nat → Nat) (a : Atom) : Atom :=
  { a with id := ρ a.id, kind := a.kind.rename ρ }

@[simp] lemma Atom.rename_type (ρ : Nat → Nat) (a : Atom) : (a.rename ρ).type = a.type := rfl
@[simp] lemma Atom.rename_name (ρ : Nat → Nat) (a : Atom) : (a.rename ρ).name = a.name := rfl
@[simp] lemma Atom.rename_id (ρ : Nat → Nat) (a : Atom) : (a.rename ρ).id = ρ a.id := rfl

@[simp] lemma Atom.isNode_rename (ρ : Nat → Nat) (a : Atom) : (a.rename ρ).isNode = a.isNode := by
  rcases a with ⟨t, m, k, _ | out⟩ <;> rfl

/-- Renaming fixes an atom whose ids it fixes. -/
lemma Atom.rename_eq_self {ρ : Nat → Nat} {a : Atom} (hid : ρ a.id = a.id)
    (hout : ∀ k ∈ a.kind.outgoingIds, ρ k = k) : a.rename ρ = a := by
  rcases a with ⟨t, m, k, _ | out⟩
  · simp [Atom.rename, AtomKind.rename, hid]
  · simp only [Atom.rename, AtomKind.rename, hid, Atom.mk.injEq, AtomKind.link.injEq, true_and]
    exact (List.map_congr_left hout).trans (List.map_id _)

/-- A new atom made at the counter `nA` is renamed into the one made at `ρ nA`. -/
lemma Atom.rename_make {ρ : Nat → Nat} {nA nB : Nat} (hA : nA < 2 ^ 64) (hB : nB < 2 ^ 64)
    (h : ρ nA = nB) (t : AtomType) (m : String) (k : AtomKind) :
    (Atom.make nA t m k).rename ρ = Atom.make nB t m (k.rename ρ) := by
  show Atom.mk t m (ρ (nA % 2 ^ 64)) (k.rename ρ) = Atom.mk t m (nB % 2 ^ 64) (k.rename ρ)
  rw [Nat.mod_eq_of_lt hA, Nat.mod_eq_of_lt hB, h]

/-- Two calls, the second of which is the first with its ids renamed by `ρ`; a `Query`
predicate of the second call must agree with the first one's on renamed atoms. -/
def Op.Renames (ρ : Nat → Nat) : Op → Op → Prop
  | .addNode t m, .addNode t' m' => t' = t ∧ m' = m
  | .addLink t m out, .addLink t' m' out' => t' = t ∧ m' = m ∧ out' = out.map (Atom.rename ρ)
  | .getAtom x, .getAtom y => y = ρ x
  | .getAtomByName m, .getAtomByName m' => m' = m
  | .getAtomsByType t, .getAtomsByType t' => t' = t
  | .removeAtom x, .removeAtom y => y = ρ x
  | .clear, .clear => True
  | .size, .size => True
  | .query p, .query p' => ∀ a, p' (a.rename ρ) = p a
  | _, _ => False

/-- Two replies, the second of which is the first with its ids renamed by `ρ`; `Query`
results are compared up to order. -/
def Reply.Renames (ρ : Nat → Nat) : Reply → Reply → Prop
  | .atom a, .atom b => b = a.rename ρ
  | .found a, .found b => b = a.map (Atom.rename ρ)
  | .atoms l, .atoms l' => l' = l.map (Atom.rename ρ)
  | .matches l, .matches l' => l'.Perm (l.map (Atom.rename ρ))
  | .bool b, .bool b' => b' = b
  | .count n, .count n' => n' = n
  | .done, .done => True
  | _, _ => False

/-! ### The simulation relation -/

namespace AtomSpace

/-- `sB` is `sA` with its ids renamed by `ρ`, and `ρ` tells the keys of `sA` apart from every
other id. -/
structure Sim (ρ : Nat → Nat) (sA sB : AtomSpace) : Prop where
  lookup : ∀ x, sB.atomsById.lookup (ρ x) = (sA.atomsById.lookup x).map (Atom.rename ρ)
  name : ∀ m, sB.atomsByName.lookup m = (sA.atomsByName.lookup m).map (Atom.rename ρ)
  bucket : ∀ T, sB.atomsByType T = (sA.atomsByType T).map (Atom.rename ρ)
  cover : ∀ y ∈ sB.atomsById, ∃ x ∈ sA.atomsById, ρ x = y
  inj : ∀ x ∈ sA.atomsById, ∀ y, ρ y = ρ x → y = x

variable {ρ : Nat → Nat} {sA sB : AtomSpace} {nA nB : Nat}

lemma mem_of_lookup {m : AList fun _ : Nat => Atom} {x : Nat} {a : Atom}
    (h : m.lookup x = some a) : x ∈ m :=
  AList.lookup_isSome.1 (by simp [h])

/-- The atoms of the two stores correspond one to one. -/
lemma Sim.atoms_perm (hS : Sim ρ sA sB) (hA : sA.Inv nA) (hB : sB.Inv nB) :
    sB.atoms.Perm (sA.atoms.map (Atom.rename ρ)) := by
  have hinj : ∀ a ∈ sA.atoms, ∀ a' ∈ sA.atoms, a.rename ρ = a'.rename ρ → a = a' := by
    intro a ha a' ha' he
    have ha := hA.mem_atoms.1 ha
    have ha' := hA.mem_atoms.1 ha'
    have hid : a'.id = a.id :=
      hS.inj _ (mem_of_lookup ha) _ (by simpa using (congrArg Atom.id he).symm)
    rw [hid, ha] at ha'; exact Option.some.inj ha'
  refine (List.perm_ext_iff_of_nodup hB.atoms_nodup (hA.atoms_nodup.map_on hinj)).2 fun b => ?_
  rw [hB.mem_atoms, List.mem_map]
  constructor
  · intro hb
    obtain ⟨x, hx, hxb⟩ := hS.cover _ (mem_of_lookup hb)
    rw [← hxb] at hb
    obtain ⟨a, ha⟩ := Option.isSome_iff_exists.1 (AList.lookup_isSome.2 hx)
    rw [hS.lookup, ha] at hb
    obtain rfl := Option.some.inj hb
    exact ⟨a, hA.mem_atoms.2 (by rwa [(hA.lookup_id ha).1]), rfl⟩
  · rintro ⟨a, ha, rfl⟩
    rw [Atom.rename_id, hS.lookup, hA.mem_atoms.1 ha]; rfl

/-- Adding corresponding new atoms keeps the relation. -/
lemma Sim.add (hS : Sim ρ sA sB) {a : Atom} (haid : a.id = nA)
    (hfresh : ∀ y, ρ y = ρ nA → y = nA) : Sim ρ (sA.add a) (sB.add (a.rename ρ)) := by
  refine ⟨fun x => ?_, fun m => ?_, fun T => ?_, fun y hy => ?_, fun x hx y hy => ?_⟩
  · simp only [add_atomsById, Atom.rename_id]
    by_cases hx : x = a.id
    · subst hx; simp [AList.lookup_insert]
    · have hne : ρ x ≠ ρ a.id := fun h => hx (by rw [haid] at h ⊢; exact hfresh x h)
      rw [AList.lookup_insert_ne hne, AList.lookup_insert_ne hx, hS.lookup]
  · by_cases hm : m = a.name
    · subst hm; simp [AList.lookup_insert]
    · simp [AList.lookup_insert_ne hm, hS.name]
  · by_cases hT : T = a.type <;> simp [add_atomsByType, hS.bucket, hT]
  · rw [add_atomsById, AList.mem_insert] at hy
    rcases hy with rfl | hy
    · exact ⟨a.id, by simp, rfl⟩
    · obtain ⟨x, hx, rfl⟩ := hS.cover y hy
      exact ⟨x, by simp [hx], rfl⟩
  · rw [add_atomsById, AList.mem_insert] at hx
    rcases hx with rfl | hx
    · exact haid ▸ hfresh y (haid ▸ hy)
    · exact hS.inj x hx y hy

/-- Erasing the first atom with a given id commutes with a renaming that is injective on the
ids of the list. -/
lemma eraseP_rename {l : List Atom} {x : Nat}
    (hl : ∀ b ∈ l, ρ b.id = ρ x → b.id = x) :
    (l.map (Atom.rename ρ)).eraseP (fun b => b.id == ρ x) =
      (l.eraseP fun b => b.id == x).map (Atom.rename ρ) := by
  rw [List.eraseP_map]
  congr 1
  induction l with
  | nil => rfl
  | cons c cs ih =>
    have ih := ih fun b hb => hl b (List.mem_cons_of_mem _ hb)
    by_cases hc : c.id = x
    · rw [List.eraseP_cons_of_pos (by simp [hc]), List.eraseP_cons_of_pos (by simp [hc])]
    · have hc' : ρ c.id ≠ ρ x := fun h => hc (hl c (List.mem_cons_self _ _) h)
      rw [List.eraseP_cons_of_neg (by simpa using hc'), List.eraseP_cons_of_neg (by simpa using hc),
        ih]

/-- `RemoveAtom` of corresponding ids keeps the relation and returns the same answer. -/
lemma Sim.removeAtom (hS : Sim ρ sA sB) (x : Nat) :
    (sB.removeAtom (ρ x)).1 = (sA.removeAtom x).1 ∧
      Sim ρ (sA.removeAtom x).2 (sB.removeAtom (ρ x)).2 := by
  cases ha : sA.atomsById.lookup x with
  | none =>
    have hb : sB.atomsById.lookup (ρ x) = none := by rw [hS.lookup, ha]; rfl
    rw [removeAtom_of_lookup_none ha, removeAtom_of_lookup_none hb]
    exact ⟨rfl, hS⟩
  | some a =>
    have hb : sB.atomsById.lookup (ρ x) = some (a.rename ρ) := by rw [hS.lookup, ha]; rfl
    have hxA := mem_of_lookup ha
    rw [removeAtom_of_lookup_some ha, removeAtom_of_lookup_some hb]
    refine ⟨rfl, fun x' => ?_, fun m => ?_, fun T => ?_, fun y hy => ?_, fun x' hx' y hy => ?_⟩
    · by_cases hx' : x' = x
      · subst hx'; simp [AList.lookup_erase]
      · have hne : ρ x' ≠ ρ x := fun h => hx' (hS.inj x hxA x' h)
        simp only [AList.lookup_erase_ne hne, AList.lookup_erase_ne hx', hS.lookup]
    · by_cases hm : m = a.name
      · subst hm; simp [AList.lookup_erase]
      · simp [AList.lookup_erase_ne hm, hS.name]
    · simp only [Atom.rename_type]
      by_cases hT : T = a.type
      · subst hT
        simp only [Function.update_same, hS.bucket]
        exact eraseP_rename fun b _ hbx => hS.inj x hxA b.id hbx
      · simp [Function.update_noteq hT, hS.bucket]
    · obtain ⟨hy, hyB⟩ := AList.mem_erase.1 hy
      obtain ⟨x', hx', rfl⟩ := hS.cover y hyB
      exact ⟨x', AList.mem_erase.2 ⟨fun h => hy (h ▸ rfl), hx'⟩, rfl⟩
    · exact hS.inj x' (AList.mem_erase.1 hx').2 y hy

lemma sim_clear (ρ : Nat → Nat) (sA sB : AtomSpace) : Sim ρ sA.clear sB.clear :=
  ⟨by simp [AList.lookup_empty], by simp [AList.lookup_empty], by simp,
    by simp [AList.mem_keys, AList.keys], by simp [AList.mem_keys, AList.keys]⟩

/-- Corresponding new atoms, made at the two counters. -/
lemma Sim.make (hS : Sim ρ sA sB) (hnA : nA < 2 ^ 64) (hnB : nB < 2 ^ 64) (hρ : ρ nA = nB)
    (hinj : ∀ y, ρ y = ρ nA → y = nA) (t : AtomType) (m : String) (k : AtomKind) :
    Reply.Renames ρ (.atom (Atom.make nA t m k)) (.atom (Atom.make nB t m (k.rename ρ))) ∧
      Sim ρ (sA.add (Atom.make nA t m k)) (sB.add (Atom.make nB t m (k.rename ρ))) := by
  rw [← Atom.rename_make hnA hnB hρ]
  exact ⟨rfl, hS.add (Atom.make_id_of_lt hnA t m k) hinj⟩

/-- One pair of corresponding calls: corresponding replies, and the stores stay related.
Both calls construct an atom or neither does; when they do, `ρ` must map the first run's
counter to the second's and tell it apart from every other id. -/
lemma Sim.apply (hS : Sim ρ sA sB) (hA : sA.Inv nA) (hB : sB.Inv nB) (hnA : nA < 2 ^ 64)
    (hnB : nB < 2 ^ 64) {opA opB : Op}
    (hnew : nA < (sA.apply nA opA).2.2 → ρ nA = nB ∧ ∀ y, ρ y = ρ nA → y = nA)
    (hop : opA.Renames ρ opB) :
    Reply.Renames ρ (sA.apply nA opA).1 (sB.apply nB opB).1 ∧
      Sim ρ (sA.apply nA opA).2.1 (sB.apply nB opB).2.1 ∧
      ((sA.apply nA opA).2.2 = nA + 1 ∧ (sB.apply nB opB).2.2 = nB + 1 ∨
        (sA.apply nA opA).2.2 = nA ∧ (sB.apply nB opB).2.2 = nB) := by
  cases opA <;> cases opB <;> try exact False.elim hop
  case addNode.addNode t m t' m' =>
    obtain ⟨h₁, h₂⟩ := hop
    subst t' m'
    by_cases hnode : ∃ a, sA.atomsByName.lookup m = some a ∧ a.isNode
    · obtain ⟨a, ha, hnd⟩ := hnode
      have hb : sB.atomsByName.lookup m = some (a.rename ρ) := by rw [hS.name, ha]; rfl
      simp only [AtomSpace.apply, addNode_of_isNode ha hnd,
        addNode_of_isNode hb (by simpa using hnd)]
      exact ⟨rfl, hS, by simp⟩
    · have hA' : ∀ a, sA.atomsByName.lookup m = some a → a.isNode = false :=
        fun a ha => Bool.eq_false_iff.2 fun hnd => hnode ⟨a, ha, hnd⟩
      have hB' : ∀ b, sB.atomsByName.lookup m = some b → b.isNode = false := by
        intro b hb
        rw [hS.name] at hb
        obtain ⟨a, ha, rfl⟩ := Option.map_eq_some'.1 hb
        simpa using hA' a ha
      simp only [AtomSpace.apply, addNode_of_not_isNode hA', addNode_of_not_isNode hB'] at hnew ⊢
      obtain ⟨hρ, hinj⟩ := hnew (Nat.lt_succ_self _)
      exact ⟨(hS.make hnA hnB hρ hinj t m .node).1, (hS.make hnA hnB hρ hinj t m .node).2,
        by simp⟩
  case addLink.addLink t m out t' m' out' =>
    obtain ⟨h₁, h₂, h₃⟩ := hop
    subst t' m' out'
    simp only [AtomSpace.apply, addLink] at hnew ⊢
    obtain ⟨hρ, hinj⟩ := hnew (Nat.lt_succ_self _)
    have hk : AtomKind.rename ρ (.link (out.map Atom.id)) =
        .link ((out.map (Atom.rename ρ)).map Atom.id) := by
      simp [AtomKind.rename, List.map_map, Function.comp_def]
    rw [← hk]
    exact ⟨(hS.make hnA hnB hρ hinj t m _).1, (hS.make hnA hnB hρ hinj t m _).2, by simp⟩
  case getAtom.getAtom x _ =>
    subst hop
    exact ⟨hS.lookup x, hS, .inr ⟨rfl, rfl⟩⟩
  case getAtomByName.getAtomByName =>
    subst hop
    exact ⟨hS.name _, hS, .inr ⟨rfl, rfl⟩⟩
  case getAtomsByType.getAtomsByType =>
    subst hop
    exact ⟨hS.bucket _, hS, .inr ⟨rfl, rfl⟩⟩
  case removeAtom.removeAtom x _ =>
    subst hop
    exact ⟨(hS.removeAtom x).1, (hS.removeAtom x).2, .inr ⟨rfl, rfl⟩⟩
  case clear.clear => exact ⟨trivial, sim_clear ρ sA sB, .inr ⟨rfl, rfl⟩⟩
  case size.size =>
    refine ⟨?_, hS, .inr ⟨rfl, rfl⟩⟩
    simpa [Reply.Renames, AtomSpace.apply, size, atoms] using (hS.atoms_perm hA hB).length_eq
  case query.query p p' =>
    refine ⟨?_, hS, .inr ⟨rfl, rfl⟩⟩
    show (sB.atoms.filter p').Perm ((sA.atoms.filter p).map (Atom.rename ρ))
    refine ((hS.atoms_perm hA hB).filter p').trans (List.Perm.of_eq ?_)
    rw [List.filter_map]
    exact congrArg _ (List.filter_congr fun a _ => hop a)

/-- The stores of the first state, unrelabelled: the renaming fixes every id below the
counter, and keys every other id at or above it. -/
lemma sim_self {s : AtomSpace} {n : Nat} (h : s.Inv n)
    (hold : ∀ a ∈ s.atoms, ∀ k ∈ a.kind.outgoingIds, k < n) (hfix : ∀ x < n, ρ x = x)
    (hsep : ∀ x, n ≤ x → n ≤ ρ x) : Sim ρ s s := by
  -- every atom of the store is fixed
  have hself : ∀ {a}, s.atomsById.lookup a.id = some a → a.rename ρ = a := fun ha =>
    Atom.rename_eq_self (hfix _ (h.lookup_id ha).2)
      fun k hk => hfix k (hold _ (h.mem_atoms.2 ha) k hk)
  refine ⟨fun x => ?_, fun m => ?_, fun T => ?_, fun y hy => ⟨y, hy, hfix y (h.lt_of_mem hy)⟩,
    fun x hx y hy => ?_⟩
  · by_cases hx : x < n
    · rw [hfix x hx]
      cases ha : s.atomsById.lookup x with
      | none => rfl
      | some a => rw [Option.map_some', hself (by rw [(h.lookup_id ha).1]; exact ha)]
    · have hnone : ∀ y, n ≤ y → s.atomsById.lookup y = none := fun y hy =>
        AList.lookup_eq_none.2 fun hm => absurd (h.lt_of_mem hm) (by omega)
      rw [hnone x (by omega), hnone _ (hsep x (by omega))]; rfl
  · cases ha : s.atomsByName.lookup m with
    | none => rfl
    | some a => rw [Option.map_some', hself (h.lookup_name ha).2]
  · exact (List.map_congr_left fun a ha => hself (h.mem_type.1 ha).2).trans (List.map_id _) |>.symm
  · have hxn := h.lt_of_mem hx
    rw [hfix x hxn] at hy
    by_cases hyn : y < n
    · rwa [hfix y hyn] at hy
    · have := hsep y (by omega); omega

end AtomSpace

/-! ### The renaming of a run -/

/-- How many ids of `L` are below `x`. -/
def rank (L : List Nat) (x : Nat) : Nat :=
  (L.filter (· < x)).length

lemma length_lt_of_sublist {l₁ l₂ : List Nat} (h : List.Sublist l₁ l₂) {a : Nat} (ha : a ∈ l₂)
    (hna : a ∉ l₁) : l₁.length < l₂.length :=
  lt_of_le_of_ne h.length_le fun he => hna (h.eq_of_length he ▸ ha)

lemma rank_lt_length {L : List Nat} {x : Nat} (hx : x ∈ L) : rank L x < L.length :=
  length_lt_of_sublist (List.filter_sublist L) hx (by simp)

lemma rank_lt {L : List Nat} {x y : Nat} (hx : x ∈ L) (h : x < y) : rank L x < rank L y :=
  length_lt_of_sublist (List.monotone_filter_right L fun z hz => by simp at hz ⊢; omega)
    (List.mem_filter.2 ⟨hx, by simpa using h⟩) (by simp)

/-- The rank of an id that comes after all smaller ones and before all larger ones. -/
lemma rank_split {P more : List Nat} {x : Nat} (hP : ∀ y ∈ P, y < x) (hm : ∀ y ∈ more, x < y) :
    rank (P ++ x :: more) x = P.length := by
  have h₁ : P.filter (· < x) = P := List.filter_eq_self.2 fun y hy => by simpa using hP y hy
  have h₂ : (x :: more).filter (· < x) = [] :=
    List.filter_eq_nil_iff.2 fun y hy => by
      rcases List.mem_cons.1 hy with rfl | hy
      · simp
      · simpa using (hm y hy).le
  simp only [rank, List.filter_append, h₁, h₂, List.append_nil]

/-- The renaming of a run that starts at counter `base` and whose calls on one store
construct the atoms `L`: ids below `base` stay, the `k`-th id of `L` (in increasing order)
becomes `base + k`, and every other id moves past `base + L.length`. -/
def relabel (base : Nat) (L : List Nat) (x : Nat) : Nat :=
  if x < base then x else if x ∈ L then base + rank L x else x + L.length

section Relabel

variable {base : Nat} {L : List Nat}

lemma relabel_of_lt {x : Nat} (h : x < base) : relabel base L x = x := if_pos h

lemma relabel_of_mem (hL : ∀ y ∈ L, base ≤ y) {x : Nat} (hx : x ∈ L) :
    relabel base L x = base + rank L x := by
  rw [relabel, if_neg (by have := hL x hx; omega), if_pos hx]

lemma le_relabel {x : Nat} (h : base ≤ x) : base ≤ relabel base L x := by
  unfold relabel; split_ifs <;> omega

/-- The renaming tells an id of `L`, or below `base`, apart from every other id. -/
lemma relabel_inj (hL : ∀ y ∈ L, base ≤ y) {x : Nat} (hx : x < base ∨ x ∈ L) (y : Nat)
    (hy : relabel base L y = relabel base L x) : y = x := by
  rcases hx with hx | hx
  · rw [relabel_of_lt hx] at hy
    by_cases hyb : y < base
    · rwa [relabel_of_lt hyb] at hy
    · have := le_relabel (L := L) (not_lt.1 hyb); omega
  · rw [relabel_of_mem hL hx] at hy
    have hrx := rank_lt_length hx
    unfold relabel at hy
    split_ifs at hy with hyb hyL
    · omega
    · rcases lt_trichotomy y x with hlt | heq | hgt
      · have := rank_lt hyL hlt; omega
      · exact heq
      · have := rank_lt hx hgt; omega
    · omega

/-- The renaming is strictly increasing on the ids below `base` and the ids of `L`. -/
lemma relabel_strictMonoOn (hL : ∀ y ∈ L, base ≤ y) :
    StrictMonoOn (relabel base L) {x | x < base ∨ x ∈ L} := by
  rintro x hx y (hy | hy) hxy
  · rw [relabel_of_lt hy, relabel_of_lt (by omega)]; exact hxy
  · rw [relabel_of_mem hL hy]
    rcases hx with hx | hx
    · rw [relabel_of_lt hx]; omega
    · rw [relabel_of_mem hL hx]; have := rank_lt hx hxy; omega

end Relabel

/-! ### Runs -/

namespace World

/-- The replies to the calls on the store at `i`, along a run. -/
def repliesAt (i : Nat) : World → List (Nat × Op) → List Reply
  | _, [] => []
  | w, (j, op) :: rest =>
    (if j = i then [(w.step j op).1] else []) ++ (w.step j op).2.repliesAt i rest

/-- The ids of the atoms that the calls on the store at `i` construct, along a run. -/
def idsAt (i : Nat) : World → List (Nat × Op) → List Nat
  | _, [] => []
  | w, (j, op) :: rest =>
    (if j = i ∧ w.nextId < (w.step j op).2.nextId then [w.nextId] else []) ++
      (w.step j op).2.idsAt i rest

/-- The renaming between a run and the run of its calls on the store at `i` alone. -/
def renamingAt (w : World) (i : Nat) (ops : List (Nat × Op)) : Nat → Nat :=
  relabel w.nextId (w.idsAt i ops)

lemma le_run_nextId (w : World) : ∀ ops : List (Nat × Op), w.nextId ≤ (w.run ops).nextId
  | [] => le_rfl
  | (j, op) :: rest =>
    (AtomSpace.le_apply_nextId (w.spaces j) w.nextId op).trans (le_run_nextId (w.step j op).2 rest)

/-- The ids constructed along a run are at least its first counter. -/
lemma le_of_mem_idsAt {i : Nat} :
    ∀ {w : World} {ops : List (Nat × Op)} {x : Nat}, x ∈ w.idsAt i ops → w.nextId ≤ x
  | _, [], _, hx => by simp [idsAt] at hx
  | w, (j, op) :: rest, x, hx => by
    simp only [idsAt, List.mem_append] at hx
    rcases hx with hx | hx
    · split at hx
      · rw [List.mem_singleton.1 hx]
      · simp at hx
    · exact (AtomSpace.le_apply_nextId _ _ op).trans (le_of_mem_idsAt hx)

variable {i j : Nat} {w : World} {op : Op} {rest : List (Nat × Op)}

@[simp] lemma repliesAt_cons_self :
    w.repliesAt i ((i, op) :: rest) = (w.step i op).1 :: (w.step i op).2.repliesAt i rest := by
  simp [repliesAt]

lemma repliesAt_cons_of_ne (h : j ≠ i) :
    w.repliesAt i ((j, op) :: rest) = (w.step j op).2.repliesAt i rest := by
  simp [repliesAt, h]

lemma idsAt_cons_self :
    w.idsAt i ((i, op) :: rest) =
      (if w.nextId < (w.step i op).2.nextId then [w.nextId] else []) ++
        (w.step i op).2.idsAt i rest := by
  simp [idsAt]

lemma idsAt_cons_of_ne (h : j ≠ i) :
    w.idsAt i ((j, op) :: rest) = (w.step j op).2.idsAt i rest := by
  simp [idsAt, h]

end World

/-- The calls of a run on the store at `i`. -/
def callsAt (i : Nat) (ops : List (Nat × Op)) : List Op :=
  ops.filterMap fun p => if p.1 = i then some p.2 else none

@[simp] lemma callsAt_cons_self (i : Nat) (op : Op) (rest : List (Nat × Op)) :
    callsAt i ((i, op) :: rest) = op :: callsAt i rest := by
  simp [callsAt]

lemma callsAt_cons_of_ne {i j : Nat} (h : j ≠ i) (op : Op) (rest : List (Nat × Op)) :
    callsAt i ((j, op) :: rest) = callsAt i rest := by
  simp [callsAt, h]

/-! ### The two runs -/

/-- Along the rest of a run, the run of all calls and the run of the calls on the store at
`i` alone, renamed, give corresponding replies.  `P` lists the ids that the calls on `i` have
constructed so far, and `L` all of them. -/
lemma sim_run {i base : Nat} {L : List Nat} (hL : ∀ y ∈ L, base ≤ y) :
    ∀ (rest : List (Nat × Op)) (wA wB : World) (P : List Nat) (opsB : List Op),
      wA.Reachable → wB.Reachable → (wA.run rest).nextId < 2 ^ 64 → wB.nextId ≤ wA.nextId →
      AtomSpace.Sim (relabel base L) (wA.spaces i) (wB.spaces i) →
      (∀ y ∈ P, y < wA.nextId) → L = P ++ wA.idsAt i rest → wB.nextId = base + P.length →
      List.Forall₂ (Op.Renames (relabel base L)) (callsAt i rest) opsB →
      List.Forall₂ (Reply.Renames (relabel base L)) (wA.repliesAt i rest)
        (wB.repliesAt i (opsB.map fun op => (i, op)))
  | [], _, _, _, _, _, _, _, _, _, _, _, _, hops => by cases hops; exact .nil
  | (j, op) :: rest, wA, wB, P, opsB, hwA, hwB, hn, hle, hS, hP, hLeq, hB, hops => by
    have hnA : wA.nextId < 2 ^ 64 := lt_of_le_of_lt (wA.le_run_nextId _) hn
    have hrest : ((wA.step j op).2.run rest).nextId < 2 ^ 64 := hn
    have hleA := AtomSpace.le_apply_nextId (wA.spaces j) wA.nextId op
    by_cases hj : j = i
    · subst hj
      rw [callsAt_cons_self] at hops
      cases hops with
      | cons hop hops =>
      rename_i opB restB
      have hA := (hwA.inv hnA).space j
      have hB' := (hwB.inv (by omega)).space j
      -- a new atom of the first run is the next id of `L`, which the renaming sends to the
      -- second run's counter
      have hnew : wA.nextId < ((wA.spaces j).apply wA.nextId op).2.2 →
          relabel base L wA.nextId = wB.nextId ∧
            ∀ y, relabel base L y = relabel base L wA.nextId → y = wA.nextId := by
        intro hlt
        rw [World.idsAt_cons_self, World.step_nextId, if_pos hlt] at hLeq
        have hmem : wA.nextId ∈ L := by rw [hLeq]; simp
        refine ⟨?_, relabel_inj hL (.inr hmem)⟩
        rw [relabel_of_mem hL hmem, hB]
        congr 1
        rw [hLeq, List.singleton_append]
        exact rank_split hP fun y hy => lt_of_lt_of_le hlt (World.le_of_mem_idsAt hy)
      obtain ⟨hrep, hS', hcnt⟩ := hS.apply hA hB' hnA (by omega) hnew hop
      have hS'' : AtomSpace.Sim (relabel base L) ((wA.step j op).2.spaces j)
          ((wB.step j opB).2.spaces j) := by simpa using hS'
      rw [World.repliesAt_cons_self, List.map_cons, World.repliesAt_cons_self]
      refine .cons hrep ?_
      rw [World.idsAt_cons_self, World.step_nextId] at hLeq
      rcases hcnt with ⟨hA', hB''⟩ | ⟨hA', hB''⟩
      · -- both calls construct an atom
        rw [hA', if_pos (Nat.lt_succ_self _), ← List.append_assoc] at hLeq
        refine sim_run hL rest _ _ (P ++ [wA.nextId]) restB (hwA.step j op) (hwB.step j opB) hrest
          (by simp only [World.step_nextId, hA', hB'']; omega) hS'' (fun y hy => ?_) hLeq
          (by simp only [World.step_nextId, hB'', List.length_append, List.length_singleton]; omega)
          hops
        simp only [List.mem_append, List.mem_singleton] at hy
        simp only [World.step_nextId, hA']
        rcases hy with hy | rfl
        · have := hP y hy; omega
        · omega
      · -- neither does
        rw [hA', if_neg (lt_irrefl _), List.nil_append] at hLeq
        exact sim_run hL rest _ _ P restB (hwA.step j op) (hwB.step j opB) hrest
          (by simp only [World.step_nextId, hA', hB'']; omega) hS''
          (by simpa only [World.step_nextId, hA'] using hP) hLeq
          (by simpa only [World.step_nextId, hB''] using hB) hops
    · -- a call of the other tenant: the store at `i` and the second run do not move
      rw [callsAt_cons_of_ne hj] at hops
      rw [World.repliesAt_cons_of_ne hj]
      rw [World.idsAt_cons_of_ne hj] at hLeq
      have hsA : (wA.step j op).2.spaces i = wA.spaces i := by
        simp [Function.update_noteq (Ne.symm hj)]
      exact sim_run hL rest _ wB P opsB (hwA.step j op) hwB hrest
        (by simp only [World.step_nextId]; omega) (hsA ▸ hS)
        (fun y hy => by have := hP y hy; simp only [World.step_nextId]; omega) hLeq hB hops

/-- Noninterference up to renaming.  Run any calls on any stores from a reachable state, and
run again, from the same state, only the calls on the store at `i`, with their ids renamed by
`w.renamingAt i ops` (and `Query` predicates that agree on renamed atoms).  The replies of
the second run are those of the calls on `i` in the first run, renamed, `Query` results up
to order.  The renaming is strictly increasing on the ids that the store at `i` can hold
and fixes every id older than the runs.  The links of that store must name older atoms, as
C++ pointers do. -/
theorem tenant_noninterference {w : World} (hw : w.Reachable) (i : Nat)
    (ops : List (Nat × Op)) (hn : (w.run ops).nextId < 2 ^ 64)
    (hold : ∀ a ∈ (w.spaces i).atoms, ∀ k ∈ a.kind.outgoingIds, k < w.nextId)
    (opsB : List Op) (hB : List.Forall₂ (Op.Renames (w.renamingAt i ops)) (callsAt i ops) opsB) :
    StrictMonoOn (w.renamingAt i ops) {x | x < w.nextId ∨ x ∈ w.idsAt i ops} ∧
      (∀ x, x < w.nextId → w.renamingAt i ops x = x) ∧
      List.Forall₂ (Reply.Renames (w.renamingAt i ops)) (w.repliesAt i ops)
        (w.repliesAt i (opsB.map fun op => (i, op))) := by
  have hL : ∀ y ∈ w.idsAt i ops, w.nextId ≤ y := fun y hy => World.le_of_mem_idsAt hy
  have hn₀ : w.nextId < 2 ^ 64 := lt_of_le_of_lt (w.le_run_nextId ops) hn
  refine ⟨relabel_strictMonoOn hL, fun x hx => relabel_of_lt hx,
    sim_run hL ops w w [] opsB hw hw hn le_rfl ?_ (by simp) (by simp) (by simp) hB⟩
  exact AtomSpace.sim_self ((hw.inv hn₀).space i) hold (fun x hx => relabel_of_lt hx)
    fun x hx => le_relabel hx

/-- A run of two tenants' calls: `t1` (the store at 1) makes the node `a` (id 1), `t2` (the
store at 2) makes the node `b` (id 2) and reads it back by its id. -/
def isolationRun : List (Nat × Op) :=
  [(1, .addNode .conceptNode "a"), (2, .addNode .conceptNode "b"), (2, .getAtom 2)]

theorem tenant_noninterference_isolationRun :
    (World.init fun _ => "tenant").Reachable ∧
      ((World.init fun _ => "tenant").run isolationRun).nextId < 2 ^ 64 ∧
      (∀ a ∈ ((World.init fun _ => "tenant").spaces 2).atoms, ∀ k ∈ a.kind.outgoingIds,
        k < (World.init fun _ => "tenant").nextId) ∧
      List.Forall₂ (Op.Renames ((World.init fun _ => "tenant").renamingAt 2 isolationRun))
        (callsAt 2 isolationRun) [.addNode .conceptNode "b", .getAtom 1] ∧
      (StrictMonoOn ((World.init fun _ => "tenant").renamingAt 2 isolationRun)
          {x | x < (World.init fun _ => "tenant").nextId ∨
            x ∈ (World.init fun _ => "tenant").idsAt 2 isolationRun} ∧
        (∀ x, x < (World.init fun _ => "tenant").nextId →
          (World.init fun _ => "tenant").renamingAt 2 isolationRun x = x) ∧
        List.Forall₂ (Reply.Renames ((World.init fun _ => "tenant").renamingAt 2 isolationRun))
          ((World.init fun _ => "tenant").repliesAt 2 isolationRun)
          ((World.init fun _ => "tenant").repliesAt 2
            ([.addNode .conceptNode "b", .getAtom 1].map fun op => (2, op)))) :=
  have hB : List.Forall₂ (Op.Renames ((World.init fun _ => "tenant").renamingAt 2 isolationRun))
      (callsAt 2 isolationRun) [.addNode .conceptNode "b", .getAtom 1] :=
    .cons ⟨rfl, rfl⟩ (.cons rfl .nil)
  ⟨.init _, by decide, by decide, hB,
    tenant_noninterference (.init _) 2 isolationRun (by decide) (by decide) _ hB⟩

/-- Replaying `t2`'s calls of `isolationRun` with their literal arguments: `GetAtom(2)` found
`b` in the interleaved run, but `b` has id 1 without `t1`'s node, and `GetAtom(2)` finds
nothing, which no renaming of the first reply gives. -/
theorem replay_breaks_tenant_isolation :
    ¬ ∃ ρ : Nat → Nat, List.Forall₂ (Reply.Renames ρ)
      ((World.init fun _ => "tenant").repliesAt 2 isolationRun)
      ((World.init fun _ => "tenant").repliesAt 2 (isolationRun.filter fun p => p.1 = 2)) := by
  rintro ⟨ρ, h⟩
  have hA : (World.init fun _ => "tenant").repliesAt 2 isolationRun =
      [.atom ⟨.conceptNode, "b", 2, .node⟩, .found (some ⟨.conceptNode, "b", 2, .node⟩)] := by
    decide
  have hB : (World.init fun _ => "tenant").repliesAt 2 (isolationRun.filter fun p => p.1 = 2) =
      [.atom ⟨.conceptNode, "b", 1, .node⟩, .found none] := by
    decide
  rw [hA, hB] at h
  simp [Reply.Renames] at h

end OpenCog

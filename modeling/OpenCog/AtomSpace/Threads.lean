/-
# Stores under threads: the counter is not synchronised

`AtomSpace::AddNode` and `AddLink` run under the store's own mutex, but the atom they
construct takes its id from the process-wide `Atom::next_id_` by `id_(next_id_++)`: a load and
a store of a plain `uint64_t`, which no lock guards and which all stores share.  `Conc` is the
atom layer with threads.  A thread is idle or inside one store call, from the step that locks
the store, does the lookups the call makes and loads the counter (`ThreadStep.begin`), to the step
that stores the counter, writes the store, unlocks it and returns (`ThreadStep.finish`).  All that a
call does besides the counter happens under its store's mutex, so only the load and the store of
the counter stand apart.

Two threads on two stores can load the same value; the later store of the two then undoes the
other's increment, and a later atom takes an id that is in use.  `lost_update_breaks_tenant_isolation`
runs it: tenant `t2`'s third node takes the id of its second, and `Size()` is 2 where `t2`'s calls
alone give 3, which no renaming of ids explains.

A run in which every call that constructs an atom finds the counter still at the value it
loaded is serial: it ends where `World.run` of the calls it finishes, in the order of their last
steps, ends, with the same replies (`conc_serialisable`).
-/
import OpenCog.AtomSpace.Noninterference

namespace OpenCog

/-! ### Which calls construct an atom -/

namespace AtomSpace

/-- The call constructs an atom: `AddLink`, and `AddNode` when the name index holds no node under
its name. -/
def constructs (s : AtomSpace) : Op → Bool
  | .addNode _ m => !((s.atomsByName.lookup m).any Atom.isNode)
  | .addLink _ _ _ => true
  | _ => false

/-- A call moves the counter by one exactly when it constructs an atom. -/
lemma apply_nextId (s : AtomSpace) (n : Nat) (op : Op) :
    (s.apply n op).2.2 = if s.constructs op then n + 1 else n := by
  cases op with
  | addNode t m =>
    cases h : s.atomsByName.lookup m with
    | none => simp [apply, addNode, constructs, h]
    | some a => cases ha : a.isNode <;> simp [apply, addNode, constructs, h, ha]
  | addLink => rfl
  | _ => rfl

/-- A call that constructs no atom neither reads nor writes the counter. -/
lemma apply_of_not_constructs {s : AtomSpace} {op : Op} (h : s.constructs op = false) (n m : Nat) :
    s.apply m op = ((s.apply n op).1, (s.apply n op).2.1, m) := by
  cases op with
  | addNode t name =>
    cases h' : s.atomsByName.lookup name with
    | none => simp [constructs, h'] at h
    | some a =>
      have ha : a.isNode := by simpa [constructs, h'] using h
      simp [apply, addNode_of_isNode h' ha]
  | addLink => cases h
  | _ => rfl

end AtomSpace

/-! ### Threads -/

/-- A store call in progress: the store's address, the call, and the value of `Atom::next_id_`
that it loaded. -/
structure Pending where
  space : Nat
  op : Op
  loaded : Nat

/-- The atom layer with threads `0, 1, …`: the counter and the stores, the call each thread is
in, and the holder of each store's mutex. -/
structure Conc where
  world : World
  pending : Nat → Option Pending
  holder : Nat → Option Nat

/-- What a thread does next: lock the store at `space` for the call `op`, or finish its call. -/
inductive ThreadStep where
  | begin (space : Nat) (op : Op)
  | finish

namespace Conc

/-- No atom constructed, no thread in a call. -/
def init (tenant : Nat → String) : Conc :=
  ⟨World.init tenant, fun _ => none, fun _ => none⟩

/-- One step of thread `th`, `none` if it cannot take it.  A step that finishes a call returns
the call, with its address, and its reply. -/
def step (c : Conc) (th : Nat) : ThreadStep → Option (Option (Nat × Op × Reply) × Conc)
  | .begin i op =>
    if (c.pending th).isNone && (c.holder i).isNone then
      some (none, { c with
        pending := Function.update c.pending th (some ⟨i, op, c.world.nextId⟩)
        holder := Function.update c.holder i (some th) })
    else none
  | .finish =>
    match c.pending th with
    | none => none
    | some p =>
      let r := (c.world.spaces p.space).apply p.loaded p.op
      some (some (p.space, p.op, r.1),
        ⟨⟨if (c.world.spaces p.space).constructs p.op then r.2.2 else c.world.nextId,
            Function.update c.world.spaces p.space r.2.1⟩,
          Function.update c.pending th none, Function.update c.holder p.space none⟩)

/-- The calls a run finishes, in order, with their replies, and its last state; `none` if a step
cannot be taken. -/
def run : Conc → List (Nat × ThreadStep) → Option (List (Nat × Op × Reply) × Conc)
  | c, [] => some ([], c)
  | c, (th, e) :: rest =>
    (c.step th e).bind fun r => (run r.2 rest).map fun q => (r.1.toList ++ q.1, q.2)

/-- Every call that the run finishes and that constructs an atom finds the counter still at the
value it loaded. -/
def noLostUpdate : Conc → List (Nat × ThreadStep) → Bool
  | _, [] => true
  | c, (th, e) :: rest =>
    (match e, c.pending th with
     | .finish, some p => !(c.world.spaces p.space).constructs p.op || p.loaded == c.world.nextId
     | _, _ => true) &&
    match c.step th e with
    | some r => noLostUpdate r.2 rest
    | none => true

end Conc

/-- The replies of a run of calls on a world, in order. -/
def World.replies : World → List (Nat × Op) → List Reply
  | _, [] => []
  | w, (j, op) :: rest => (w.step j op).1 :: (w.step j op).2.replies rest

namespace Conc

variable {c c' : Conc} {th : Nat}

/-- Locking a store and loading the counter change no store and not the counter. -/
lemma step_begin_world {i : Nat} {op : Op} {r : Option (Nat × Op × Reply) × Conc}
    (h : c.step th (.begin i op) = some r) : r.1 = none ∧ r.2.world = c.world := by
  simp only [step] at h
  split at h <;> cases h
  exact ⟨rfl, rfl⟩

/-- The last step of a call whose constructor, if it ran, found the counter where it loaded it:
the call on the world, with its reply. -/
lemma step_finish_world {p : Pending} (hp : c.pending th = some p)
    (hcur : (c.world.spaces p.space).constructs p.op = true → p.loaded = c.world.nextId)
    {r : Option (Nat × Op × Reply) × Conc} (h : c.step th .finish = some r) :
    r.1 = some (p.space, p.op, (c.world.step p.space p.op).1) ∧
      r.2.world = (c.world.step p.space p.op).2 := by
  simp only [step, hp, Option.some.injEq] at h
  subst h
  cases hc : (c.world.spaces p.space).constructs p.op
  · have e := AtomSpace.apply_of_not_constructs hc c.world.nextId p.loaded
    simp only [if_false, World.step, e, AtomSpace.apply_nextId, hc]
    exact ⟨trivial, rfl⟩
  · simp only [hcur hc, if_true, World.step]
    exact ⟨trivial, trivial⟩

end Conc

/-- A run of the threads without a lost update is serial: its stores, counter and replies are
those of the calls it finishes, made one after the other in the order of their last steps. -/
theorem conc_serialisable :
    ∀ {c c' : Conc} {l : List (Nat × ThreadStep)} {res : List (Nat × Op × Reply)},
    c.run l = some (res, c') → c.noLostUpdate l = true →
      c'.world = c.world.run (res.map fun x => (x.1, x.2.1)) ∧
        res.map (fun x => x.2.2) = c.world.replies (res.map fun x => (x.1, x.2.1))
  | c, c', [], res, h, _ => by
    simp only [Conc.run, Option.some.injEq, Prod.mk.injEq] at h
    obtain ⟨rfl, rfl⟩ := h
    exact ⟨rfl, rfl⟩
  | c, c', (th, e) :: rest, res, h, hnl => by
    simp only [Conc.run] at h
    obtain ⟨r, hr, h⟩ := Option.bind_eq_some.1 h
    obtain ⟨⟨res', c''⟩, hrest, he⟩ := Option.map_eq_some'.1 h
    simp only [Prod.mk.injEq] at he
    obtain ⟨rfl, rfl⟩ := he
    simp only [Conc.noLostUpdate, hr, Bool.and_eq_true] at hnl
    obtain ⟨ih₁, ih₂⟩ := conc_serialisable hrest hnl.2
    cases e with
    | begin i op =>
      obtain ⟨h₁, hw⟩ := Conc.step_begin_world hr
      rw [hw] at ih₁ ih₂
      simpa only [h₁, Option.toList, List.nil_append] using And.intro ih₁ ih₂
    | finish =>
      cases hp : c.pending th with
      | none => simp [Conc.step, hp] at hr
      | some p =>
        have hcur : (c.world.spaces p.space).constructs p.op = true → p.loaded = c.world.nextId :=
          fun hc => by simpa [hp, hc] using hnl.1
        obtain ⟨h₁, hw⟩ := Conc.step_finish_world hp hcur hr
        rw [hw] at ih₁ ih₂
        simp only [h₁, Option.toList, List.singleton_append, List.map_cons, World.run_cons,
          World.replies]
        exact ⟨ih₁, by rw [ih₂]⟩

/-- Thread 1 adds a node to store 1, then thread 2 adds one to store 2 while thread 1 asks store 1
for `Size()`: calls overlap, but no call that constructs an atom overlaps another. -/
def overlappingSize : List (Nat × ThreadStep) :=
  [(1, .begin 1 (.addNode .conceptNode "a")), (1, .finish),
   (2, .begin 2 (.addNode .conceptNode "x")), (1, .begin 1 .size), (2, .finish), (1, .finish)]

theorem conc_serialisable_overlappingSize :
    ∃ res c', (Conc.init fun _ => "tenant").run overlappingSize = some (res, c') ∧
      c'.world = (Conc.init fun _ => "tenant").world.run (res.map fun x => (x.1, x.2.1)) ∧
      res.map (fun x => x.2.2) =
        (Conc.init fun _ => "tenant").world.replies (res.map fun x => (x.1, x.2.1)) := by
  obtain ⟨⟨res, c'⟩, h⟩ := Option.isSome_iff_exists.1
    (by decide : ((Conc.init fun _ => "tenant").run overlappingSize).isSome = true)
  exact ⟨res, c', h, conc_serialisable h (by decide)⟩

/-! ### A lost update -/

/-- Thread 1 calls `AddNode` on tenant `t1`'s store at address 1; thread 2 calls `AddNode` three
times and then `Size` on tenant `t2`'s store at address 2.  Thread 1's constructor loads the
counter before thread 2's first two calls and stores its increment after them. -/
def lostUpdateRun : List (Nat × ThreadStep) :=
  [(1, .begin 1 (.addNode .conceptNode "a")),
   (2, .begin 2 (.addNode .conceptNode "x")), (2, .finish),
   (2, .begin 2 (.addNode .conceptNode "y")), (2, .finish),
   (1, .finish),
   (2, .begin 2 (.addNode .conceptNode "z")), (2, .finish),
   (2, .begin 2 .size), (2, .finish)]

/-- The replies of the calls that a run finishes on the store at `i`. -/
def Conc.repliesAt (i : Nat) (c : Conc) (l : List (Nat × ThreadStep)) : Option (List Reply) :=
  (c.run l).map fun r => (r.1.filter fun x => x.1 = i).map fun x => x.2.2

/-- Thread 1's store undoes thread 2's first increment: `z` takes the id 2 of `y` and replaces
it in the id index, so `Size()` is 2; thread 2's calls alone give `z` the id 3 and `Size()` 3.
No renaming of ids turns the one list of replies into the other. -/
theorem lost_update_breaks_tenant_isolation :
    (Conc.init fun _ => "tenant").repliesAt 2 lostUpdateRun =
        some [.atom ⟨.conceptNode, "x", 1, .node⟩, .atom ⟨.conceptNode, "y", 2, .node⟩,
          .atom ⟨.conceptNode, "z", 2, .node⟩, .count 2] ∧
      (Conc.init fun _ => "tenant").repliesAt 2 (lostUpdateRun.filter fun p => p.1 = 2) =
        some [.atom ⟨.conceptNode, "x", 1, .node⟩, .atom ⟨.conceptNode, "y", 2, .node⟩,
          .atom ⟨.conceptNode, "z", 3, .node⟩, .count 3] ∧
      ¬ ∃ ρ : Nat → Nat, List.Forall₂ (Reply.Renames ρ)
        [.atom ⟨.conceptNode, "x", 1, .node⟩, .atom ⟨.conceptNode, "y", 2, .node⟩,
          .atom ⟨.conceptNode, "z", 2, .node⟩, .count 2]
        [.atom ⟨.conceptNode, "x", 1, .node⟩, .atom ⟨.conceptNode, "y", 2, .node⟩,
          .atom ⟨.conceptNode, "z", 3, .node⟩, .count 3] := by
  refine ⟨by decide, by decide, ?_⟩
  rintro ⟨ρ, h⟩
  simp [Reply.Renames] at h

end OpenCog

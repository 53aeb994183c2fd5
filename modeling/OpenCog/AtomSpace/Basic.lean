/-
# The store of one tenant

`AtomSpace` is the class of `include/opencog/atomspace.h` and `src/opencog/atomspace`: a
tenant id and three indices of the same atoms.

* `atomsById` models `std::unordered_map<uint64_t, std::shared_ptr<Atom>>` and
  `atomsByName` models `std::unordered_map<std::string, std::shared_ptr<Atom>>`.  Both are
  association lists with distinct keys (`AList`); `m[k] = v` is `AList.insert`, which
  replaces the entry of `k`.  Their iteration order is unspecified in C++ and is the list
  order here, so results read from an iteration (`Query`) are compared up to permutation.
* `atomsByType` models `std::multimap<AtomType, std::shared_ptr<Atom>>` by its buckets:
  `equal_range(t)` is `atomsByType t`, and `insert` puts a value at the end of its key's
  equal range.

Every operation takes the value of the global counter `Atom::next_id_` and returns its new
value with its result; the store's mutex makes each operation one atomic step.
-/
import Mathlib.Data.List.AList
import OpenCog.Atom

namespace OpenCog

/-- The state of one `AtomSpace` object. -/
structure AtomSpace where
  tenantId : String
  atomsById : AList (fun _ : Nat => Atom)
  atomsByName : AList (fun _ : String => Atom)
  atomsByType : AtomType → List Atom

namespace AtomSpace

/-- `AtomSpace::AtomSpace(tenant_id)`: an empty store. -/
def new (tenantId : String) : AtomSpace :=
  ⟨tenantId, ∅, ∅, fun _ => []⟩

/-- The three insertions of a new atom shared by `AddNode` and `AddLink`:
`atoms_by_id_[id] = a; atoms_by_name_[name] = a; atoms_by_type_.insert({type, a})`. -/
def add (s : AtomSpace) (a : Atom) : AtomSpace :=
  { s with
    atomsById := s.atomsById.insert a.id a
    atomsByName := s.atomsByName.insert a.name a
    atomsByType := Function.update s.atomsByType a.type (s.atomsByType a.type ++ [a]) }

/-- `AtomSpace::AddNode`: the atom under `name` in the name index if it is a node, and
otherwise a new node, added to the three indices. -/
def addNode (s : AtomSpace) (nextId : Nat) (type : AtomType) (name : String) :
    Atom × AtomSpace × Nat :=
  match s.atomsByName.lookup name with
  | some a =>
    if a.isNode then (a, s, nextId)
    else let node := Atom.make nextId type name .node; (node, s.add node, nextId + 1)
  | none => let node := Atom.make nextId type name .node; (node, s.add node, nextId + 1)

/-- `AtomSpace::AddLink`: always a new link, added to the three indices; its name entry
replaces the previous holder of `name`. -/
def addLink (s : AtomSpace) (nextId : Nat) (type : AtomType) (name : String)
    (outgoing : List Atom) : Atom × AtomSpace × Nat :=
  let link := Atom.make nextId type name (.link (outgoing.map Atom.id))
  (link, s.add link, nextId + 1)

/-- `AtomSpace::GetAtom`; `none` is `nullptr`. -/
def getAtom (s : AtomSpace) (id : Nat) : Option Atom :=
  s.atomsById.lookup id

/-- `AtomSpace::GetAtomByName`; `none` is `nullptr`. -/
def getAtomByName (s : AtomSpace) (name : String) : Option Atom :=
  s.atomsByName.lookup name

/-- `AtomSpace::GetAtomsByType`: the equal range of `type`, in order. -/
def getAtomsByType (s : AtomSpace) (type : AtomType) : List Atom :=
  s.atomsByType type

/-- `AtomSpace::RemoveAtom`: erases the name entry of the atom's name, the first atom of
its type's equal range with this id, and the id entry. -/
def removeAtom (s : AtomSpace) (id : Nat) : Bool × AtomSpace :=
  match s.atomsById.lookup id with
  | none => (false, s)
  | some a =>
    (true,
      { s with
        atomsByName := s.atomsByName.erase a.name
        atomsByType := Function.update s.atomsByType a.type
          ((s.atomsByType a.type).eraseP fun b => b.id == id)
        atomsById := s.atomsById.erase id })

/-- `AtomSpace::Clear`. -/
def clear (s : AtomSpace) : AtomSpace :=
  { s with atomsById := ∅, atomsByName := ∅, atomsByType := fun _ => [] }

/-- `AtomSpace::Size`. -/
def size (s : AtomSpace) : Nat :=
  s.atomsById.entries.length

/-- The atoms of the id index, in its iteration order. -/
def atoms (s : AtomSpace) : List Atom :=
  s.atomsById.entries.map Sigma.snd

/-- `AtomSpace::Query`: the atoms of the id index that satisfy `pred`, in its iteration
order. -/
def query (s : AtomSpace) (pred : Atom → Bool) : List Atom :=
  s.atoms.filter pred

/-! ### The indices after each update -/

@[simp] lemma new_atomsById (t : String) : (new t).atomsById = ∅ := rfl
@[simp] lemma new_atomsByName (t : String) : (new t).atomsByName = ∅ := rfl
@[simp] lemma new_atomsByType (t : String) (T : AtomType) : (new t).atomsByType T = [] := rfl
@[simp] lemma new_tenantId (t : String) : (new t).tenantId = t := rfl

@[simp] lemma add_atomsById (s : AtomSpace) (a : Atom) :
    (s.add a).atomsById = s.atomsById.insert a.id a := rfl
@[simp] lemma add_atomsByName (s : AtomSpace) (a : Atom) :
    (s.add a).atomsByName = s.atomsByName.insert a.name a := rfl
@[simp] lemma add_tenantId (s : AtomSpace) (a : Atom) : (s.add a).tenantId = s.tenantId := rfl

lemma add_atomsByType (s : AtomSpace) (a : Atom) (T : AtomType) :
    (s.add a).atomsByType T = if T = a.type then s.atomsByType T ++ [a] else s.atomsByType T := by
  by_cases h : T = a.type
  · subst h; simp [add]
  · simp [add, h]

@[simp] lemma clear_atomsById (s : AtomSpace) : s.clear.atomsById = ∅ := rfl
@[simp] lemma clear_atomsByName (s : AtomSpace) : s.clear.atomsByName = ∅ := rfl
@[simp] lemma clear_atomsByType (s : AtomSpace) (T : AtomType) : s.clear.atomsByType T = [] :=
  rfl
@[simp] lemma clear_tenantId (s : AtomSpace) : s.clear.tenantId = s.tenantId := rfl

/-- `AddNode` when the name index holds a node under `name`: that node, nothing changes. -/
lemma addNode_of_isNode {s : AtomSpace} {m : String} {a : Atom}
    (h : s.atomsByName.lookup m = some a) (ha : a.isNode) (n : Nat) (t : AtomType) :
    s.addNode n t m = (a, s, n) := by
  simp [addNode, h, ha]

/-- `AddNode` when the name index holds no node under `name`: a new node. -/
lemma addNode_of_not_isNode {s : AtomSpace} {m : String}
    (h : ∀ a, s.atomsByName.lookup m = some a → a.isNode = false) (n : Nat) (t : AtomType) :
    s.addNode n t m = (Atom.make n t m .node, s.add (Atom.make n t m .node), n + 1) := by
  unfold addNode
  cases hl : s.atomsByName.lookup m with
  | none => rfl
  | some a => simp [h a hl]

/-- `RemoveAtom` of an id that is not in the id index changes nothing. -/
lemma removeAtom_of_lookup_none {s : AtomSpace} {id : Nat} (h : s.atomsById.lookup id = none) :
    s.removeAtom id = (false, s) := by
  simp [removeAtom, h]

/-- `RemoveAtom` of the id of a present atom `a`. -/
lemma removeAtom_of_lookup_some {s : AtomSpace} {id : Nat} {a : Atom}
    (h : s.atomsById.lookup id = some a) :
    s.removeAtom id = (true,
      { s with
        atomsByName := s.atomsByName.erase a.name
        atomsByType := Function.update s.atomsByType a.type
          ((s.atomsByType a.type).eraseP fun b => b.id == id)
        atomsById := s.atomsById.erase id }) := by
  simp [removeAtom, h]

end AtomSpace

/-! ### Calls on a store -/

/-- A call of a public `AtomSpace` method, with its arguments. -/
inductive Op where
  | addNode (type : AtomType) (name : String)
  | addLink (type : AtomType) (name : String) (outgoing : List Atom)
  | getAtom (id : Nat)
  | getAtomByName (name : String)
  | getAtomsByType (type : AtomType)
  | removeAtom (id : Nat)
  | clear
  | size
  | query (pred : Atom → Bool)

/-- What a call returns (`done` for `void`).  `atoms` is the ordered result of
`GetAtomsByType`, `matches` the result of `Query`, whose order is unspecified. -/
inductive Reply where
  | atom (a : Atom)
  | found (a : Option Atom)
  | atoms (l : List Atom)
  | matches (l : List Atom)
  | bool (b : Bool)
  | count (n : Nat)
  | done
  deriving DecidableEq, Repr

/-- One call on the store `s`, with the counter at `nextId`: its reply, the store after it
and the counter after it. -/
def AtomSpace.apply (s : AtomSpace) (nextId : Nat) : Op → Reply × AtomSpace × Nat
  | .addNode t m => let r := s.addNode nextId t m; (.atom r.1, r.2)
  | .addLink t m out => let r := s.addLink nextId t m out; (.atom r.1, r.2)
  | .getAtom id => (.found (s.getAtom id), s, nextId)
  | .getAtomByName m => (.found (s.getAtomByName m), s, nextId)
  | .getAtomsByType t => (.atoms (s.getAtomsByType t), s, nextId)
  | .removeAtom id => let r := s.removeAtom id; (.bool r.1, r.2, nextId)
  | .clear => (.done, s.clear, nextId)
  | .size => (.count s.size, s, nextId)
  | .query p => (.matches (s.query p), s, nextId)

/-- No call changes the tenant id of a store. -/
@[simp] lemma AtomSpace.apply_tenantId (s : AtomSpace) (nextId : Nat) (op : Op) :
    (s.apply nextId op).2.1.tenantId = s.tenantId := by
  cases op with
  | addNode t m =>
    simp only [AtomSpace.apply, AtomSpace.addNode]
    split
    · split <;> simp
    · simp
  | removeAtom id =>
    simp only [AtomSpace.apply, AtomSpace.removeAtom]
    split <;> rfl
  | _ => simp [AtomSpace.apply, AtomSpace.addLink]

end OpenCog

/-
# Atoms

`Atom` is the class of `include/opencog/atom.h`: a type tag, a name, an id, and for a
`Link` the outgoing atoms.  An atom is immutable apart from its truth value, which no
operation of the store reads (`Query` predicates aside, and those are arbitrary functions
of the atom here), so an atom is a value.  A link keeps its outgoing atoms as their ids:
the pointers of `outgoing_` name atoms, and an atom is determined by its id.

Ids come from the process-wide counter `Atom::next_id_`, a `uint64_t` that starts at 1 and
that every constructor increments (`id_(next_id_++)`).  The model keeps the counter
unwrapped, as a natural number `nextId`: the `uint64_t` value is `nextId % 2 ^ 64`, and so
is the id of the atom constructed when the counter is at `nextId`.  After `k` constructions
the counter is `k + 1`, so "fewer than `2 ^ 64 - 1` atoms constructed" reads
`nextId < 2 ^ 64`.
-/
import Mathlib.Tactic.DeriveFintype

namespace OpenCog

/-- `enum class AtomType`. -/
inductive AtomType where
  | node
  | link
  | conceptNode
  | predicateNode
  | variableNode
  | evaluationLink
  | inheritanceLink
  | similarityLink
  | executionLink
  deriving DecidableEq, Repr, Fintype

/-- The dynamic class of an atom: a `Node`, or a `Link` with the ids of its outgoing
atoms. -/
inductive AtomKind where
  | node
  | link (outgoing : List Nat)
  deriving DecidableEq, Repr

/-- An atom (`class Atom`), without its truth value. -/
structure Atom where
  type : AtomType
  name : String
  id : Nat
  kind : AtomKind
  deriving DecidableEq, Repr

namespace Atom

/-- `Atom::IsNode`, overridden by `Node`. -/
def isNode (a : Atom) : Bool :=
  match a.kind with
  | .node => true
  | .link _ => false

/-- `Atom::Atom`, with the counter at `nextId`: the id is the `uint64_t` value of the
counter.  The caller moves the counter to `nextId + 1`. -/
def make (nextId : Nat) (type : AtomType) (name : String) (kind : AtomKind) : Atom :=
  { type, name, id := nextId % 2 ^ 64, kind }

@[simp] lemma make_type (n : Nat) (t : AtomType) (m : String) (k : AtomKind) :
    (make n t m k).type = t := rfl

@[simp] lemma make_name (n : Nat) (t : AtomType) (m : String) (k : AtomKind) :
    (make n t m k).name = m := rfl

@[simp] lemma make_kind (n : Nat) (t : AtomType) (m : String) (k : AtomKind) :
    (make n t m k).kind = k := rfl

lemma make_id (n : Nat) (t : AtomType) (m : String) (k : AtomKind) :
    (make n t m k).id = n % 2 ^ 64 := rfl

/-- Below `2 ^ 64` the counter does not wrap: the new atom's id is the counter. -/
lemma make_id_of_lt {n : Nat} (h : n < 2 ^ 64) (t : AtomType) (m : String) (k : AtomKind) :
    (make n t m k).id = n := Nat.mod_eq_of_lt h

@[simp] lemma isNode_node_kind {a : Atom} : a.isNode = true ↔ a.kind = .node := by
  unfold isNode; split <;> simp_all

end Atom

end OpenCog

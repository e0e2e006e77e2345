import Mathlib.Data.List.Basic

/-!
# `LinkedList`

`src/unnamed/part_001` keeps a singly linked list as JavaScript objects: each node holds its
`data` and an optional reference `next`, and the list holds references `head` and `tail`. We
model the objects the list has allocated as a heap, `LinkedList.nodes`, in allocation order; a
reference is a node's index there. A reference in JavaScript always names an object, so every
index a list holds is below the heap's length, and `LinkedList` carries that as a field.

The two methods that grow the list either return the new list or throw `Error("Fatal error")`.
`toArray`'s `for` loop follows `next` from `head`; on a heap whose references form a cycle it
would run forever, which the model reports as `none`.
-/

namespace Azurite

/-- `LinkedNode<DataType>`, its `next` the index of the next node in the heap. -/
structure LinkedNode (α : Type) where
  data : α
  next : Option Nat := none
  deriving DecidableEq, Repr

/-- Every index among `refs`, and the `next` of every node, names one of `nodes`. -/
def RefsValid {α : Type} (nodes : List (LinkedNode α)) (refs : List Nat) : Prop :=
  (∀ i ∈ refs, i < nodes.length) ∧ ∀ x ∈ nodes, ∀ i ∈ x.next, i < nodes.length

/-- `LinkedList<DataType>`: the nodes it has allocated, `head` and `tail`. -/
structure LinkedList (α : Type) where
  nodes : List (LinkedNode α)
  head : Option Nat
  tail : Option Nat
  valid : RefsValid nodes (head.toList ++ tail.toList)

section
variable {α : Type}

/-- Allocating a node at index `n` keeps every reference valid when the references after it
point at most at the new node. -/
theorem RefsValid.snoc {nodes : List (LinkedNode α)} {x : LinkedNode α} {refs : List Nat}
    {n : Nat} (hlen : nodes.length = n) (hn : ∀ y ∈ nodes, ∀ i ∈ y.next, i ≤ n)
    (hx : ∀ i ∈ x.next, i ≤ n) (hr : ∀ i ∈ refs, i ≤ n) :
    RefsValid (nodes ++ [x]) refs := by
  subst hlen
  simp only [RefsValid, List.length_append, List.length_singleton, Nat.lt_succ_iff,
    List.mem_append, List.mem_singleton]
  exact ⟨hr, fun y hy => hy.elim (hn y) (fun h => h ▸ hx)⟩

theorem RefsValid.le {nodes : List (LinkedNode α)} {refs : List Nat} (h : RefsValid nodes refs) :
    ∀ y ∈ nodes, ∀ i ∈ y.next, i ≤ nodes.length :=
  fun y hy i hi => Nat.le_of_lt (h.2 y hy i hi)

/-- `new LinkedList()`. -/
def LinkedList.new : LinkedList α :=
  ⟨[], none, none, And.intro (fun _ h => nomatch h) (fun _ h => nomatch h)⟩

/-- The list after `this.head = { data }; this.tail = this.head;`. -/
def LinkedList.single (l : LinkedList α) (data : α) : LinkedList α :=
  ⟨l.nodes ++ [⟨data, none⟩], some l.nodes.length, some l.nodes.length,
    RefsValid.snoc rfl l.valid.le (by simp) (by simp)⟩

/-- `putAtBeginning(data)`. -/
def LinkedList.putAtBeginning (l : LinkedList α) (data : α) : Except String (LinkedList α) :=
  match hh : l.head with
  | none => if l.tail.isSome then .error "Fatal error" else .ok (l.single data)
  | some h =>
    if l.tail.isNone then .error "Fatal error"
    else
      have hv := l.valid
      .ok ⟨l.nodes ++ [⟨data, some h⟩], some l.nodes.length, l.tail,
        RefsValid.snoc rfl hv.le (by simpa [hh] using Nat.le_of_lt (hv.1 h (by simp [hh])))
          (by simpa using fun i hi => Nat.le_of_lt (hv.1 i (by simp [hi])))⟩

/-- The nodes after `this.tail.next = { data }` for the tail `t`. -/
def linkAfter (nodes : List (LinkedNode α)) (t : Nat) (x : LinkedNode α) (data : α) :
    List (LinkedNode α) :=
  nodes.set t { x with next := some nodes.length } ++ [⟨data, none⟩]

/-- `pushAtEnd(data)`: the new node is linked after `tail`, and `tail` stays where it was. -/
def LinkedList.pushAtEnd (l : LinkedList α) (data : α) : Except String (LinkedList α) :=
  match ht : l.tail with
  | none => if l.head.isSome then .error "Fatal error" else .ok (l.single data)
  | some t =>
    have hv := l.valid
    have htl : t < l.nodes.length := hv.1 t (by simp [ht])
    let x := l.nodes.get ⟨t, htl⟩
    if x.next.isSome then .error "Fatal error"
    else
      .ok ⟨linkAfter l.nodes t x data, l.head, l.tail, by
        refine RefsValid.snoc (List.length_set _ _ _) (fun y hy => ?_) (by simp) ?_
        · rcases List.mem_or_eq_of_mem_set hy with hy | rfl
          · exact hv.le y hy
          · simp
        · simpa using fun i hi => Nat.le_of_lt (hv.1 i hi)⟩

/-- The `for` loop of `toArray` from the node `index`, for at most `fuel` passes. A pass pushes
the node's data only when the node has a `next`, so the loop stops on the last node without
pushing it. -/
def LinkedList.toArrayFrom (l : LinkedList α) :
    Nat → (index : Option Nat) → (∀ i ∈ index, i < l.nodes.length) → Option (List α)
  | 0, _, _ => none
  | _ + 1, none, _ => some []
  | fuel + 1, some i, h =>
    have hx := List.get_mem l.nodes i (h i rfl)
    match hn : (l.nodes.get ⟨i, h i rfl⟩).next with
    | none => some []
    | some j =>
      (l.toArrayFrom fuel (some j) fun k hk => l.valid.2 _ hx k (by rw [hn]; exact hk)).map
        ((l.nodes.get ⟨i, h i rfl⟩).data :: ·)

/-- `toArray()`: the loop from `head`, with one pass more than there are nodes. -/
def LinkedList.toArray (l : LinkedList α) : Option (List α) :=
  l.toArrayFrom (l.nodes.length + 1) l.head fun i hi => l.valid.1 i (by simp [hi])

end

end Azurite

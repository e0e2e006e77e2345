import Azurite.Native.LinkedList

/-!
# What `LinkedList` does

Following `next` from a node reads a sequence (`Chain`); `ChainEnd` also names the node it ends
at. From `new LinkedList()`, `putAtBeginning` and `pushAtEnd` build one of three shapes
(`LinkedList.Shape`): the empty list; a chain from `head` whose last node is `tail`; or, once
`pushAtEnd` has linked a node after `tail` without moving `tail`, a chain whose last node is
`tail.next`. In that last shape `pushAtEnd` throws `Fatal error`.

`ListCall.step` is that state machine over the sequence and a flag for the last shape, and
`LinkedList.Represents.run` shows the model refines it, throwing exactly where it fails.

* `LinkedList.run_new_ok_iff`: a run from a new list succeeds exactly when at most one
  `pushAtEnd` follows the first call.
* `LinkedList.toArray_run_new`: then `toArray` returns the calls' sequence without its last
  element, since its loop stops before pushing the node that has no `next`.
* `toArray_omits_last_node` and `pushAtEnd_leaves_tail_behind` are the shortest runs that show
  each.
-/

namespace Azurite

section
variable {α : Type}

/-! ### Chains of nodes -/

/-- Following `next` from `index` reads `xs` and stops at a node with no `next`. -/
inductive Chain (nodes : List (LinkedNode α)) : Option Nat → List α → Prop
  | nil : Chain nodes none []
  | cons {i : Nat} {x : LinkedNode α} {xs : List α} :
      nodes[i]? = some x → Chain nodes x.next xs → Chain nodes (some i) (x.data :: xs)

/-- A chain whose last node is the node `t`. -/
inductive ChainEnd (nodes : List (LinkedNode α)) (t : Nat) : Option Nat → List α → Prop
  | last {x : LinkedNode α} :
      nodes[t]? = some x → x.next = none → ChainEnd nodes t (some t) [x.data]
  | cons {i : Nat} {x : LinkedNode α} {xs : List α} :
      nodes[i]? = some x → ChainEnd nodes t x.next xs → ChainEnd nodes t (some i) (x.data :: xs)

variable {nodes : List (LinkedNode α)} {t : Nat} {i : Option Nat} {xs : List α}

theorem ChainEnd.chain (h : ChainEnd nodes t i xs) : Chain nodes i xs := by
  induction h with
  | last hx hn => exact .cons hx (hn ▸ .nil)
  | cons hx _ ih => exact .cons hx ih

theorem ChainEnd.ne_nil (h : ChainEnd nodes t i xs) : xs ≠ [] := by
  cases h <;> simp

theorem Chain.ne_nil {j : Nat} (h : Chain nodes (some j) xs) : xs ≠ [] := by
  cases h
  simp

theorem Chain.eq_nil (h : Chain nodes none xs) : xs = [] := by
  cases h
  rfl

theorem lt_length_of_getElem? {l : List (LinkedNode α)} {j : Nat} {x : LinkedNode α}
    (h : l[j]? = some x) : j < l.length :=
  (List.getElem?_eq_some_iff.1 h).1

/-- Allocating a node changes no chain. -/
theorem Chain.snoc (h : Chain nodes i xs) (y : LinkedNode α) : Chain (nodes ++ [y]) i xs := by
  induction h with
  | nil => exact .nil
  | cons hx _ ih => exact .cons (by rwa [List.getElem?_append_left (lt_length_of_getElem? hx)]) ih

theorem ChainEnd.snoc (h : ChainEnd nodes t i xs) (y : LinkedNode α) :
    ChainEnd (nodes ++ [y]) t i xs := by
  induction h with
  | last hx hn => exact .last (by rwa [List.getElem?_append_left (lt_length_of_getElem? hx)]) hn
  | cons hx _ ih => exact .cons (by rwa [List.getElem?_append_left (lt_length_of_getElem? hx)]) ih

theorem ChainEnd.not_none : ¬ ChainEnd nodes t none xs := fun h => by cases h

/-- The last node of a chain has no `next`. -/
theorem ChainEnd.next_eq_none {x : LinkedNode α} (hx : nodes[t]? = some x)
    (h : ChainEnd nodes t i xs) : x.next = none := by
  induction h with
  | last hx' hn =>
    rw [hx] at hx'
    cases hx'
    exact hn
  | cons _ _ ih => exact ih

/-- Linking a new node after the last node `t` of a chain appends the new node's data. -/
theorem ChainEnd.linkAfter {x : LinkedNode α} (hx : nodes[t]? = some x)
    (h : ChainEnd nodes t i xs) (d : α) :
    ChainEnd (linkAfter nodes t x d) nodes.length i (xs ++ [d]) := by
  have ht := lt_length_of_getElem? hx
  have hlen : (nodes.set t { x with next := some nodes.length }).length = nodes.length :=
    List.length_set _ _ _
  have hn := h.next_eq_none hx
  induction h with
  | last hx' _ =>
    rw [hx] at hx'
    cases hx'
    have h₁ :
        (Azurite.linkAfter nodes t x d)[t]? = some { x with next := some nodes.length } := by
      rw [Azurite.linkAfter, List.getElem?_append_left (by rwa [hlen]), List.getElem?_set_self ht]
    have h₂ : (Azurite.linkAfter nodes t x d)[nodes.length]? = some ⟨d, none⟩ := by
      have := List.getElem?_concat_length (nodes.set t { x with next := some nodes.length })
        (⟨d, none⟩ : LinkedNode α)
      rwa [hlen] at this
    exact (ChainEnd.cons h₁ (ChainEnd.last h₂ rfl) :)
  | @cons j y ys hy hc ih =>
    refine .cons ?_ ih
    have hne : t ≠ j := by
      rintro rfl
      rw [hx] at hy
      cases hy
      rw [hn] at hc
      exact ChainEnd.not_none hc
    rwa [Azurite.linkAfter,
      List.getElem?_append_left (by rw [hlen]; exact lt_length_of_getElem? hy),
      List.getElem?_set_ne hne]

/-- A chain ends at a node of the heap. -/
theorem ChainEnd.exists_last (h : ChainEnd nodes t i xs) : ∃ x, nodes[t]? = some x := by
  induction h with
  | last hx _ => exact ⟨_, hx⟩
  | cons _ _ ih => exact ih

theorem ChainEnd.head_eq_some (h : ChainEnd nodes t i xs) : ∃ j, i = some j := by
  cases h <;> exact ⟨_, rfl⟩

/-! ### One call -/

variable {l : LinkedList α} {d : α}

theorem LinkedList.putAtBeginning_empty (hh : l.head = none) (ht : l.tail = none) :
    l.putAtBeginning d = .ok (l.single d) := by
  unfold LinkedList.putAtBeginning
  split
  · simp [ht]
  · simp_all

theorem LinkedList.putAtBeginning_cons {h t : Nat} (hh : l.head = some h) (ht : l.tail = some t) :
    ∃ l', l.putAtBeginning d = .ok l' ∧ l'.nodes = l.nodes ++ [⟨d, some h⟩] ∧
      l'.head = some l.nodes.length ∧ l'.tail = l.tail := by
  unfold LinkedList.putAtBeginning
  split
  · simp_all
  · rename_i h' hh'
    rw [hh] at hh'
    cases hh'
    simp [ht]

theorem LinkedList.pushAtEnd_empty (hh : l.head = none) (ht : l.tail = none) :
    l.pushAtEnd d = .ok (l.single d) := by
  unfold LinkedList.pushAtEnd
  split
  · simp [hh]
  · simp_all

theorem LinkedList.pushAtEnd_last {t : Nat} {x : LinkedNode α} (ht : l.tail = some t)
    (hx : l.nodes[t]? = some x) (hn : x.next = none) :
    ∃ l', l.pushAtEnd d = .ok l' ∧ l'.nodes = linkAfter l.nodes t x d ∧ l'.head = l.head ∧
      l'.tail = l.tail := by
  obtain ⟨htl, hget⟩ := List.getElem?_eq_some_iff.1 hx
  unfold LinkedList.pushAtEnd
  split
  · simp_all
  · rename_i t' ht'
    rw [ht] at ht'
    cases ht'
    simp [List.get_eq_getElem, hget, hn]

theorem LinkedList.pushAtEnd_linked {t u : Nat} {x : LinkedNode α} (ht : l.tail = some t)
    (hx : l.nodes[t]? = some x) (hn : x.next = some u) : l.pushAtEnd d = .error "Fatal error" := by
  obtain ⟨htl, hget⟩ := List.getElem?_eq_some_iff.1 hx
  unfold LinkedList.pushAtEnd
  split
  · simp_all
  · rename_i t' ht'
    rw [ht] at ht'
    cases ht'
    simp [List.get_eq_getElem, hget, hn]

/-! ### The shapes a run builds -/

/-- The shapes `putAtBeginning` and `pushAtEnd` build from a new list, reading `xs` from `head`:
empty; a chain ending at `tail`; or a chain ending at `tail.next`, `tail` lagging behind. -/
inductive LinkedList.Shape (l : LinkedList α) : List α → Bool → Prop
  | empty : l.head = none → l.tail = none → LinkedList.Shape l [] false
  | atEnd {t : Nat} {xs : List α} :
      l.tail = some t → ChainEnd l.nodes t l.head xs → LinkedList.Shape l xs false
  | lagging {t u : Nat} {x : LinkedNode α} {xs : List α} :
      l.tail = some t → l.nodes[t]? = some x → x.next = some u →
        ChainEnd l.nodes u l.head xs → LinkedList.Shape l xs true

/-- `l` holds the sequence `xs` in one of the shapes, one node for each element. -/
structure LinkedList.Represents (l : LinkedList α) (xs : List α) (lagging : Bool) : Prop where
  shape : l.Shape xs lagging
  length : l.nodes.length = xs.length

/-- A call of `putAtBeginning` or `pushAtEnd`. -/
inductive ListCall (α : Type) where
  | putAtBeginning (data : α)
  | pushAtEnd (data : α)
  deriving DecidableEq, Repr

/-- The call on a list. -/
def ListCall.apply : ListCall α → LinkedList α → Except String (LinkedList α)
  | .putAtBeginning d, l => l.putAtBeginning d
  | .pushAtEnd d, l => l.pushAtEnd d

/-- The calls one after the other, stopping at the first that throws. -/
def runCalls : List (ListCall α) → LinkedList α → Except String (LinkedList α)
  | [], l => .ok l
  | c :: cs, l => c.apply l >>= runCalls cs

def ListCall.isPush : ListCall α → Bool
  | .putAtBeginning _ => false
  | .pushAtEnd _ => true

/-- The sequence the calls describe: `putAtBeginning` prepends, `pushAtEnd` appends. -/
def ListCall.seq : List α → ListCall α → List α
  | xs, .putAtBeginning d => d :: xs
  | xs, .pushAtEnd d => xs ++ [d]

/-- One call on the sequence and the flag saying `tail` lags behind the last node; `none` where
the code throws. -/
def ListCall.step : List α × Bool → ListCall α → Option (List α × Bool)
  | (xs, b), .putAtBeginning d => some (d :: xs, b)
  | (xs, b), .pushAtEnd d => if b then none else some (xs ++ [d], !xs.isEmpty)

/-- The calls on the abstract state. -/
def ListCall.run : List (ListCall α) → List α × Bool → Option (List α × Bool)
  | [], s => some s
  | c :: cs, s => (ListCall.step s c).bind (ListCall.run cs)

theorem LinkedList.single_represents (hl : l.nodes.length = 0) :
    (l.single d).Represents [d] false :=
  have h₁ : (l.single d).nodes[l.nodes.length]? = some ⟨d, none⟩ := by
    simp [LinkedList.single]
  ⟨.atEnd rfl (.last h₁ rfl), by simp [LinkedList.single, hl]⟩

/-- One call keeps the list representing the abstract state, and throws where the abstract
step fails. -/
theorem LinkedList.Represents.step {xs : List α} {b : Bool} (h : l.Represents xs b)
    (c : ListCall α) :
    match ListCall.step (xs, b) c with
    | some (ys, b') => ∃ l', c.apply l = .ok l' ∧ l'.Represents ys b'
    | none => c.apply l = .error "Fatal error" := by
  obtain ⟨shape, hlen⟩ := h
  cases c with
  | putAtBeginning d =>
    cases shape with
    | empty hh ht =>
      exact ⟨_, LinkedList.putAtBeginning_empty hh ht, LinkedList.single_represents hlen⟩
    | atEnd ht hc =>
      obtain ⟨j, hj⟩ := hc.head_eq_some
      obtain ⟨l', hl', hn, hh, ht'⟩ := @LinkedList.putAtBeginning_cons α l d j _ hj ht
      refine ⟨l', hl', ⟨.atEnd (ht'.trans ht) ?_, by simp [hn, hlen]⟩⟩
      rw [hh, hn]
      exact .cons (List.getElem?_concat_length _ _) (hj ▸ hc.snoc _)
    | lagging ht hx hu hc =>
      obtain ⟨j, hj⟩ := hc.head_eq_some
      obtain ⟨l', hl', hn, hh, ht'⟩ := @LinkedList.putAtBeginning_cons α l d j _ hj ht
      refine ⟨l', hl', ⟨.lagging (ht'.trans ht) ?_ hu ?_, by simp [hn, hlen]⟩⟩
      · rw [hn, List.getElem?_append_left (lt_length_of_getElem? hx)]
        exact hx
      · rw [hh, hn]
        exact .cons (List.getElem?_concat_length _ _) (hj ▸ hc.snoc _)
  | pushAtEnd d =>
    cases shape with
    | empty hh ht =>
      exact ⟨_, LinkedList.pushAtEnd_empty hh ht, LinkedList.single_represents hlen⟩
    | @atEnd t _ ht hc =>
      obtain ⟨x, hx⟩ := hc.exists_last
      obtain ⟨l', hl', hn, hh, ht'⟩ :=
        @LinkedList.pushAtEnd_last α l d t x ht hx (hc.next_eq_none hx)
      have hlt := lt_length_of_getElem? hx
      have h₁ : l'.nodes[t]? = some { x with next := some l.nodes.length } := by
        rw [hn, linkAfter, List.getElem?_append_left (by simpa using hlt),
          List.getElem?_set_self hlt]
      have hb : (!xs.isEmpty) = true := by simpa using hc.ne_nil
      simp only [ListCall.step, ListCall.apply, Bool.false_eq_true, if_false, hb]
      refine ⟨l', hl', ⟨.lagging (ht'.trans ht) h₁ rfl ?_, by simp [hn, hlen, linkAfter]⟩⟩
      rw [hh, hn]
      exact hc.linkAfter hx d
    | lagging ht hx hu _ => exact LinkedList.pushAtEnd_linked ht hx hu

/-- A run of calls refines the abstract machine: it succeeds with a list representing the
machine's state, or throws `Fatal error` where the machine fails. -/
theorem LinkedList.Represents.run : ∀ (cs : List (ListCall α)) {l : LinkedList α} {xs : List α}
    {b : Bool}, l.Represents xs b →
    match ListCall.run cs (xs, b) with
    | some (ys, b') => ∃ l', runCalls cs l = .ok l' ∧ l'.Represents ys b'
    | none => runCalls cs l = .error "Fatal error"
  | [], _, _, _, h => ⟨_, rfl, h⟩
  | c :: cs, l, xs, b, h => by
    have hs := h.step c
    simp only [ListCall.run, runCalls]
    cases hst : ListCall.step (xs, b) c with
    | none =>
      rw [hst] at hs
      simp [hs, bind, Except.bind]
    | some s =>
      obtain ⟨ys, b'⟩ := s
      rw [hst] at hs
      obtain ⟨l', hl', hr⟩ := hs
      simpa [hl', bind, Except.bind] using LinkedList.Represents.run cs hr

/-! ### `toArray` -/

theorem LinkedList.Represents.chain {xs : List α} {b : Bool} (h : l.Represents xs b) :
    Chain l.nodes l.head xs := by
  cases h.shape with
  | empty hh _ => exact hh ▸ .nil
  | atEnd _ hc => exact hc.chain
  | lagging _ _ _ hc => exact hc.chain

/-- On a chain shorter than its fuel, the loop of `toArray` returns the chain without its last
element. -/
theorem LinkedList.toArrayFrom_chain {i : Option Nat} {xs : List α} (h : Chain l.nodes i xs) :
    ∀ {fuel : Nat} (hi : ∀ j ∈ i, j < l.nodes.length), xs.length < fuel →
      l.toArrayFrom fuel i hi = some xs.dropLast := by
  induction h with
  | nil =>
    intro fuel hi hf
    cases fuel with
    | zero => exact absurd hf (Nat.lt_irrefl 0)
    | succ f => rfl
  | @cons j x ys hx hc ih =>
    intro fuel hi hf
    cases fuel with
    | zero => exact absurd hf (Nat.not_lt_zero _)
    | succ f =>
      have hget : l.nodes.get ⟨j, hi j rfl⟩ = x := by
        rw [List.get_eq_getElem]
        exact (List.getElem?_eq_some_iff.1 hx).2
      unfold LinkedList.toArrayFrom
      split
      · rename_i hn
        rw [hget] at hn
        rw [hn] at hc
        rw [hc.eq_nil]
        rfl
      · rename_i k hn
        rw [hget] at hn
        rw [hn] at hc ih
        dsimp only
        rw [ih _ (by simp only [List.length_cons] at hf; omega)]
        simp only [Option.map_some', hget, List.dropLast_cons_of_ne_nil hc.ne_nil]

theorem LinkedList.Represents.toArray {xs : List α} {b : Bool} (h : l.Represents xs b) :
    l.toArray = some xs.dropLast :=
  l.toArrayFrom_chain h.chain _ (by rw [h.length]; exact Nat.lt_succ_self _)

/-! ### Runs from a new list -/

theorem LinkedList.new_represents : (LinkedList.new : LinkedList α).Represents [] false :=
  ⟨.empty rfl rfl, rfl⟩

/-- The abstract run computes the calls' sequence. -/
theorem ListCall.run_seq {cs : List (ListCall α)} :
    ∀ {xs ys : List α} {b b' : Bool}, ListCall.run cs (xs, b) = some (ys, b') →
      ys = cs.foldl ListCall.seq xs := by
  induction cs with
  | nil =>
    intro xs ys b b' h
    simp only [ListCall.run, Option.some.injEq, Prod.mk.injEq] at h
    exact h.1.symm
  | cons c cs ih =>
    intro xs ys b b' h
    cases c with
    | putAtBeginning d => exact ih h
    | pushAtEnd d =>
      cases b
      · exact ih h
      · cases h

/-- On a nonempty sequence the abstract run succeeds exactly when the calls hold at most one
`pushAtEnd`, and none once `tail` lags. -/
theorem ListCall.run_isSome {cs : List (ListCall α)} :
    ∀ {xs : List α} {b : Bool}, xs ≠ [] →
      ((ListCall.run cs (xs, b)).isSome ↔ cs.countP ListCall.isPush + b.toNat ≤ 1) := by
  induction cs with
  | nil =>
    intro xs b _
    cases b <;> simp [ListCall.run]
  | cons c cs ih =>
    intro xs b hx
    cases c with
    | putAtBeginning d =>
      simpa only [ListCall.run, ListCall.step, ListCall.isPush, Option.some_bind,
        List.countP_cons, Bool.false_eq_true, if_false, Nat.add_zero] using
        @ih (d :: xs) b (List.cons_ne_nil _ _)
    | pushAtEnd d =>
      have he : xs.isEmpty = false := List.isEmpty_eq_false.2 hx
      cases b
      · simp only [ListCall.run, ListCall.step, ListCall.isPush, he, Option.some_bind,
          List.countP_cons, if_true, Bool.not_false, Bool.false_eq_true, if_false,
          @ih (xs ++ [d]) true (by simp), Bool.toNat_true, Bool.toNat_false]
      · simp [ListCall.run, ListCall.step, ListCall.isPush]

theorem ListCall.run_new_isSome (cs : List (ListCall α)) :
    (ListCall.run cs ([], false)).isSome ↔ (cs.drop 1).countP ListCall.isPush ≤ 1 := by
  cases cs with
  | nil => simp [ListCall.run]
  | cons c cs =>
    cases c <;> simpa [ListCall.run, ListCall.step] using
      @ListCall.run_isSome α cs _ false (List.cons_ne_nil _ [])

/-- From a new list, a run of calls succeeds exactly when at most one `pushAtEnd` follows the
first call. -/
theorem LinkedList.run_new_ok_iff (cs : List (ListCall α)) :
    (∃ l, runCalls cs LinkedList.new = .ok l) ↔ (cs.drop 1).countP ListCall.isPush ≤ 1 := by
  have hr := (@LinkedList.new_represents α).run cs
  rw [← ListCall.run_new_isSome]
  cases hrun : ListCall.run cs ([], false) with
  | none =>
    rw [hrun] at hr
    simp [hr]
  | some s =>
    rw [hrun] at hr
    obtain ⟨l, hl, -⟩ := hr
    exact iff_of_true ⟨l, hl⟩ rfl

/-- A run from a new list that throws, throws `Fatal error`. -/
theorem LinkedList.run_new_error {cs : List (ListCall α)} {e : String}
    (h : runCalls cs LinkedList.new = .error e) : e = "Fatal error" := by
  have hr := (@LinkedList.new_represents α).run cs
  cases hrun : ListCall.run cs ([], false) with
  | none =>
    rw [hrun, h] at hr
    exact Except.error.inj hr
  | some s =>
    rw [hrun] at hr
    obtain ⟨l, hl, -⟩ := hr
    rw [h] at hl
    cases hl

/-- After a successful run from a new list, `toArray` returns the calls' sequence, each
`putAtBeginning` prepending and each `pushAtEnd` appending, without its last element. -/
theorem LinkedList.toArray_run_new {cs : List (ListCall α)} {l : LinkedList α}
    (h : runCalls cs LinkedList.new = .ok l) :
    l.toArray = some (cs.foldl ListCall.seq []).dropLast := by
  have hr := (@LinkedList.new_represents α).run cs
  cases hrun : ListCall.run cs ([], false) with
  | none =>
    rw [hrun, h] at hr
    cases hr
  | some s =>
    obtain ⟨ys, b⟩ := s
    rw [hrun] at hr
    obtain ⟨l', hl', hrep⟩ := hr
    rw [h] at hl'
    cases hl'
    rw [hrep.toArray, ListCall.run_seq hrun]

end

/-! ### The shortest runs that show it -/

/-- On a new list `putAtBeginning(1)` returns normally, yet `toArray()` then returns `[]`: its
loop stops before the only node, which has no `next`. Three `pushAtEnd` calls throw. -/
theorem toArray_omits_last_node :
    (∃ l, runCalls [.putAtBeginning (1 : Nat)] LinkedList.new = .ok l ∧ l.toArray = some []) ∧
    runCalls [.pushAtEnd (1 : Nat), .pushAtEnd 2, .pushAtEnd 3] LinkedList.new =
      .error "Fatal error" :=
  ⟨⟨_, rfl, rfl⟩, rfl⟩

/-- After `pushAtEnd(1)` and `pushAtEnd(2)` on a new list, `tail` is still the first node and
`tail.next` is the second, so a third `pushAtEnd` throws `Fatal error`. -/
theorem pushAtEnd_leaves_tail_behind :
    ∃ l, runCalls [.pushAtEnd (1 : Nat), .pushAtEnd 2] LinkedList.new = .ok l ∧
      l.tail = some 0 ∧ (l.nodes[0]?).bind (·.next) = some 1 ∧
      l.pushAtEnd 3 = .error "Fatal error" :=
  ⟨_, rfl, rfl, rfl, rfl⟩

end Azurite

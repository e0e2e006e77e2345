import Azurite.Spec.Transform

/-!
# The trees `Transform` returns, and the errors it throws

`TreeToSentence` writes the tokens of a group one after another, so it yields a chain of `&&`
and `||` only when every group alternates values (comparisons or nested groups) with
connectors, a value first and last: `v (c v)*`. `Transform` returns only such trees. This is an
invariant of its loop, `Scanner.Shaped`, which ties each state to the shape of the group being
filled and of the groups saved on `treeStack`:

* before a value is read (`Start`, `LeftEmbrace`, `Key`) the open group awaits one, `(v c)*`;
  after it, the group alternates;
* every saved group awaits the nested group it opened, and `expectingRightEmbrace` counts them;
* or a `)` has popped an empty `treeStack`: `currentTree` is `undefined` and the depth negative.

* `Scanner.Shaped.step`, `Scanner.Shaped.reaches`: a pass, and so any run, keeps the invariant.
* `Scanner.step_error`: a pass throws its own parse errors, or the `TypeError` of an undefined
  `currentTree`.
* `Transform_wellFormed`: the tree `Transform` returns is well formed, and empty only for the
  empty string.
* `Transform_error_cases`: `Transform` throws its parse errors, or the `TypeError` after a `)`
  that closed no group.
-/

namespace Azurite

/-! ### The shape of a group -/

/-- A connector, as against a value: a comparison or a group. -/
def Token.isConnector : Token → Bool
  | .connector _ => true
  | _ => false

/-- The tokens `v (c v)*` of a finished group: values and connectors in turn, a value first and
last. -/
def alternates : List Token → Bool
  | [] => false
  | [v] => !v.isConnector
  | v :: c :: ts => !v.isConnector && c.isConnector && alternates ts

/-- The tokens `(v c)*` of a group awaiting its next value. -/
def awaitsValue : List Token → Bool
  | [] => true
  | [_] => false
  | v :: c :: ts => !v.isConnector && c.isConnector && awaitsValue ts

mutual

/-- Every group in a token, the token itself included, alternates. -/
def Token.wellFormed : Token → Bool
  | .tree ts => alternates ts && Token.allWellFormed ts
  | _ => true

/-- Every token of a list is well formed. -/
def Token.allWellFormed : List Token → Bool
  | [] => true
  | t :: ts => t.wellFormed && Token.allWellFormed ts

end

example : (Token.tree [.tagComparing {}, .connector (some "and"),
    .tree [.tagComparing {}]]).wellFormed = true := by
  simp [Token.wellFormed, Token.allWellFormed, alternates, Token.isConnector]

/-- A value after a group awaiting one finishes it. -/
theorem awaitsValue_append_value {ts : List Token} {v : Token} (h : awaitsValue ts = true)
    (hv : v.isConnector = false) : alternates (ts ++ [v]) = true := by
  induction ts using awaitsValue.induct with
  | case1 => simp [alternates, hv]
  | case2 => simp [awaitsValue] at h
  | case3 u c ts ih =>
    simp only [awaitsValue, Bool.and_eq_true] at h
    simp [alternates, h.1.1, h.1.2, ih h.2]

/-- A connector after a finished group makes it await a value. -/
theorem alternates_append_connector {ts : List Token} {c : Token} (h : alternates ts = true)
    (hc : c.isConnector = true) : awaitsValue (ts ++ [c]) = true := by
  induction ts using alternates.induct with
  | case1 => simp [alternates] at h
  | case2 v => simpa [alternates, awaitsValue, hc] using h
  | case3 u c' ts ih =>
    simp only [alternates, Bool.and_eq_true] at h
    simp [awaitsValue, h.1.1, h.1.2, ih h.2]

/-- A finished group is a group awaiting a value, then a value. -/
theorem alternates_eq_concat {ts : List Token} (h : alternates ts = true) :
    ∃ l v, ts = l ++ [v] ∧ awaitsValue l = true ∧ v.isConnector = false := by
  induction ts using alternates.induct with
  | case1 => simp [alternates] at h
  | case2 v => exact ⟨[], v, rfl, rfl, by simpa [alternates] using h⟩
  | case3 u c ts ih =>
    simp only [alternates, Bool.and_eq_true] at h
    obtain ⟨l, v, rfl, hl, hv⟩ := ih h.2
    exact ⟨u :: c :: l, v, rfl, by simp [awaitsValue, h.1.1, h.1.2, hl], hv⟩

@[simp] theorem Token.allWellFormed_append (l l' : List Token) :
    Token.allWellFormed (l ++ l') = (Token.allWellFormed l && Token.allWellFormed l') := by
  induction l with
  | nil => simp [Token.allWellFormed]
  | cons t l ih => simp [Token.allWellFormed, ih, Bool.and_assoc]

/-- `Operator` and `Value`, filling in the last comparison, keep a finished group finished. -/
theorem alternates_setLastComparing (c : TagComparing) {ts : List Token}
    (h : alternates ts = true) (hw : Token.allWellFormed ts = true) :
    Token.allWellFormed (setLastComparing c ts) = true ∧
      alternates (setLastComparing c ts) = true := by
  obtain ⟨l, v, rfl, hl, -⟩ := alternates_eq_concat h
  simp only [Token.allWellFormed_append, Bool.and_eq_true] at hw
  rw [setLastComparing_concat]
  exact ⟨by simp [hw.1, Token.allWellFormed, Token.wellFormed],
    awaitsValue_append_value hl rfl⟩

/-! ### The loop invariant -/

/-- The open group, by state: it awaits a value before one is read and alternates after. It is
empty only at the start of the string or of a nested group, and it awaits a value after a
connector only inside the string. -/
def Scanner.GroupShape (w : List Char) (s : Scanner) (cur : List Token) : Prop :=
  match s.state with
  | .start | .leftEmbrace | .key =>
    awaitsValue cur = true ∧ (cur = [] → s.treeStack ≠ [] ∨ s.pos = 0) ∧
      (cur ≠ [] → s.pos < w.length)
  | _ => alternates cur = true

/-- The invariant of `Transform`'s loop. -/
def Scanner.Shaped (w : List Char) (s : Scanner) : Prop :=
  match s.currentTree with
  | none => s.treeStack = [] ∧ s.expectingRightEmbrace < 0
  | some cur =>
    s.expectingRightEmbrace = s.treeStack.length ∧
      (∀ p ∈ s.treeStack, awaitsValue p = true ∧ Token.allWellFormed p = true) ∧
      Token.allWellFormed cur = true ∧ s.GroupShape w cur

theorem Scanner.shaped_start (w : List Char) : ({} : Scanner).Shaped w := by
  simp [Scanner.Shaped, Scanner.GroupShape, awaitsValue, Token.allWellFormed]

section
variable {w : List Char} {s s' : Scanner}

/-- A pass keeps the invariant. -/
theorem Scanner.Shaped.step (hi : s.Shaped w) (hp : s.pos < w.length) (h : s.step w = .ok s') :
    s'.Shaped w := by
  unfold Scanner.step at h
  cases hc : s.currentTree with
  | none =>
    simp only [Scanner.Shaped, hc] at hi
    cases hst : s.state <;>
      simp only [hst, hc, hi.1, pushToken, bind, Except.bind, Option.map_none'] at h
    case operator =>
      split at h <;> cases h
      exact ⟨rfl, hi.2⟩
    all_goals cases h <;> exact ⟨rfl, by dsimp only; omega⟩
  | some cur =>
    simp only [Scanner.Shaped, hc] at hi
    obtain ⟨he, hstack, hw, hg⟩ := hi
    cases hst : s.state <;> simp only [hst, hc, pushToken, bind, Except.bind] at h <;>
      simp only [Scanner.GroupShape, hst] at hg
    case start =>
      cases h
      refine ⟨he, hstack, hw, ?_⟩
      split <;> exact hg
    case leftEmbrace =>
      cases h
      exact ⟨by simp [he], List.forall_mem_cons.2 ⟨⟨hg.1, hw⟩, hstack⟩, rfl, rfl,
        fun _ => .inl (List.cons_ne_nil _ _), (absurd rfl ·)⟩
    case key =>
      cases h
      exact ⟨he, hstack, by simp [hw, Token.allWellFormed, Token.wellFormed],
        awaitsValue_append_value hg.1 rfl⟩
    case operator =>
      split at h <;> cases h
      exact ⟨he, hstack, alternates_setLastComparing _ hg hw⟩
    case value =>
      cases h
      exact ⟨he, hstack, alternates_setLastComparing _ hg hw⟩
    case afterValue =>
      cases h
      refine ⟨he, hstack, hw, ?_⟩
      repeat' split
      all_goals exact hg
    case connector =>
      split at h <;> cases h
      rename_i hne
      exact ⟨he, hstack, by simp [hw, Token.allWellFormed, Token.wellFormed],
        alternates_append_connector hg rfl, fun h => absurd h (by simp),
        fun _ => lt_of_le_of_ne (scanTo_le_length (scanTo_le_length hp.le)) hne⟩
    case rightEmbrace =>
      cases h
      rcases hs : s.treeStack with _ | ⟨p, rest⟩ <;>
        simp only [hs, List.length_cons, List.length_nil, Scanner.Shaped, List.tail_cons,
          List.tail_nil, Option.map_some', Option.toList_some, true_and] at he ⊢
      · omega
      · have hp := hstack p (by simp [hs])
        refine ⟨by omega, fun q hq => hstack q (by simp [hs, hq]), ?_,
          awaitsValue_append_value hp.1 rfl⟩
        simp [hp.2, Token.allWellFormed, Token.wellFormed, hg, hw]

/-- Passes keep the invariant. -/
theorem Scanner.Shaped.reaches (hi : s.Shaped w)
    (h : Relation.ReflTransGen (Scanner.Moves w) s s') : s'.Shaped w := by
  induction h with
  | refl => exact hi
  | tail _ hm ih => exact ih.step hm.1 hm.2

/-- A pass throws `Invalid operator`, `Invalid filter`, or the `TypeError` of an undefined
`currentTree`. -/
theorem Scanner.step_error {e : StorageError} (h : s.step w = .error e) :
    e = .thrown "Invalid operator" ∨ e = .thrown "Invalid filter" ∨
      (e = undefinedTokenError ∧ s.currentTree = none) := by
  unfold Scanner.step at h
  cases hst : s.state <;> simp only [hst] at h
  case leftEmbrace =>
    split at h <;> cases h
    exact .inr (.inr ⟨rfl, ‹_›⟩)
  case key =>
    cases hc : s.currentTree <;> simp only [hc, pushToken, bind, Except.bind] at h <;> cases h
    exact .inr (.inr ⟨rfl, rfl⟩)
  case operator =>
    split at h <;> cases h
    exact .inl rfl
  case connector =>
    cases hc : s.currentTree <;> simp only [hc, pushToken, bind, Except.bind] at h
    · cases h
      exact .inr (.inr ⟨rfl, rfl⟩)
    · split at h <;> simp only [pure, Except.pure, throw, throwThe, MonadExceptOf.throw,
        Except.error.injEq, reduceCtorEq] at h
      exact .inr (.inl h.symm)
  all_goals cases h

/-- At the end of a balanced run over a non-empty string, the root is a finished group. -/
theorem Scanner.Shaped.wellFormed_root (hi : s.Shaped w) (he : s.expectingRightEmbrace = 0)
    (hend : w.length ≤ s.pos) (hw : w ≠ []) : (Token.tree s.root).wellFormed = true := by
  unfold Scanner.Shaped at hi
  cases hc : s.currentTree with
  | none => simp only [hc] at hi; omega
  | some cur =>
    simp only [hc] at hi
    obtain ⟨hl, -, hwf, hg⟩ := hi
    have hst : s.treeStack = [] := List.eq_nil_of_length_eq_zero (by omega)
    have hroot : s.root = cur := by simp [Scanner.root, hst, hc]
    rw [hroot]
    simp only [Token.wellFormed, hwf, Bool.and_true]
    cases hs : s.state <;> simp only [Scanner.GroupShape, hs] at hg
    case start | leftEmbrace | key =>
      obtain ⟨-, hempty, hinside⟩ := hg
      by_cases hcur : cur = []
      · rcases hempty hcur with h | h
        · exact absurd hst h
        · exact absurd (List.eq_nil_of_length_eq_zero (by omega)) hw
      · exact absurd (hinside hcur) (by omega)
    all_goals exact hg

/-- `Transform` throws `Invalid operator`, `Invalid filter` or `Expecting ')`, or else the
`TypeError` of an undefined `currentTree`, and that only once a `)` has closed no group: passes
then reach a scanner with no open group and a negative depth. -/
theorem Transform_error_cases {whereText : String} {e : StorageError}
    (h : Transform whereText = .error e) :
    e = .thrown "Invalid operator" ∨ e = .thrown "Invalid filter" ∨
      e = .thrown "Expecting ')" ∨
      (e = undefinedTokenError ∧ ∃ s, s.currentTree = none ∧ s.expectingRightEmbrace < 0 ∧
        Relation.ReflTransGen (Scanner.Moves whereText.toList) {} s) := by
  unfold Transform at h
  cases hr : Scanner.run whereText.toList (transformFuel whereText.toList) {} with
  | error e' =>
    simp only [hr, bind, Except.bind, Except.error.injEq] at h
    subst h
    obtain ⟨s₁, hreach, -, hs⟩ := Scanner.reaches_of_run_error hr
    rcases Scanner.step_error hs with h1 | h1 | ⟨rfl, hc⟩
    · exact .inl h1
    · exact .inr (.inl h1)
    · have hi := (Scanner.shaped_start _).reaches hreach
      simp only [Scanner.Shaped, hc] at hi
      exact .inr (.inr (.inr ⟨rfl, s₁, hc, hi.2, hreach⟩))
  | ok s =>
    simp only [hr, bind, Except.bind] at h
    split at h <;> cases h
    exact .inr (.inr (.inl rfl))

/-- A `)` that closes no group, then a connector: `Transform` crashes with a `TypeError`. -/
theorem Transform_unmatched_paren_crashes :
    Transform "a='1') and b='2'" = .error undefinedTokenError := by
  rfl

/-- The tree `Transform` returns is empty for the empty string. Otherwise every group in it, the
root included, alternates values and connectors, a value first and last, so that no group is
empty and no connector leads, trails or follows another. -/
theorem Transform_wellFormed {whereText : String} {tree : List Token}
    (h : Transform whereText = .ok tree) :
    (whereText = "" ∧ tree = []) ∨ (whereText ≠ "" ∧ (Token.tree tree).wellFormed = true) := by
  by_cases hw : whereText = ""
  · subst hw
    exact .inl ⟨rfl, by cases h; rfl⟩
  · refine .inr ⟨hw, ?_⟩
    unfold Transform at h
    obtain ⟨s, hr, hs⟩ := bind_ok_iff.1 h
    split at hs
    · cases hs
    · rename_i he
      cases hs
      exact ((Scanner.shaped_start _).reaches (Scanner.reaches_of_run hr)).wellFormed_root
        (not_not.1 he) (Scanner.run_ends (Scanner.measure_start _) hr)
        fun h => hw (String.ext h)

/-- A group and a comparison joined by `or`. -/
theorem Transform_wellFormed_grouped :
    ("(a='1') or b='2'" = "" ∧
        [.tree [.tagComparing ⟨some "a", some "=", some "'1'"⟩], .connector (some "or"),
          .tagComparing ⟨some "b", some "=", some "'2'"⟩] = ([] : List Token)) ∨
      ("(a='1') or b='2'" ≠ "" ∧
        (Token.tree [.tree [.tagComparing ⟨some "a", some "=", some "'1'"⟩],
          .connector (some "or"), .tagComparing ⟨some "b", some "=", some "'2'"⟩]).wellFormed) :=
  Transform_wellFormed rfl

end

end Azurite

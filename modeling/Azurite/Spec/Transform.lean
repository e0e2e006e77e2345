import Azurite.Native.Filter
import Mathlib.Logic.Relation

/-!
# `Transform`'s loop ends

Each pass of `Transform`'s `while` loop lowers `Scanner.measure`, five times the characters left
plus a rank of the state. The passes that leave `pos` where it is (from `Start`, `Key`,
`Operator` and `AfterValue`) go to a state of lower rank, and every other pass moves `pos`
forward, which outweighs any change of rank.

* `Scanner.measure_step`: one pass lowers the measure.
* `Scanner.run_ends`: a run with more fuel than the measure ends with `pos` past the string.
* `Scanner.run_fuel`: and its result is the same for any such fuel, so `Transform`, which runs the
  loop for `transformFuel` passes, computes what the unbounded loop computes.
* `Scanner.run_of_reaches`: a scanner that some passes take past the end of the string is what a
  run with enough fuel returns; conversely a run's result, or its error, is reached by passes
  (`Scanner.reaches_of_run`, `Scanner.reaches_of_run_error`).
* `Transform_terminates`: the measure read lexicographically, `(where.length - pos, rank)`, falls
  at every pass, so passes are well founded.

The last section gives what one pass does on known text, one lemma for each state.
-/

namespace Azurite

/-- The rank of a state: the passes that do not move `pos` go down in rank. -/
def TransferState.rank : TransferState → Nat
  | .start => 4
  | .leftEmbrace | .key => 3
  | .operator | .afterValue => 2
  | .value | .rightEmbrace | .connector => 1

/-- Five times the characters left, plus the rank of the state. -/
def Scanner.measure (w : List Char) (s : Scanner) : Nat := 5 * (w.length - s.pos) + s.state.rank

section
variable {w : List Char} {stop : Char → Bool} {i : Nat}

theorem le_scanTo : i ≤ scanTo w stop i := Nat.le_add_right _ _

/-- A scan from inside the string stops inside it or at its end. -/
theorem scanTo_le_length (h : i ≤ w.length) : scanTo w stop i ≤ w.length := by
  have := (@List.takeWhile_sublist _ (w.drop i) fun c => !stop c).length_le
  simp only [List.length_drop] at this
  unfold scanTo
  omega

/-- A scan does not stop on a character it skips. -/
theorem scanTo_of_skip {c : Char} (hc : w[i]? = some c) (hs : stop c = false) :
    i + 1 ≤ scanTo w stop i := by
  unfold scanTo
  rw [List.drop_eq_getElem_cons (List.getElem?_eq_some_iff.1 hc).1,
    (List.getElem?_eq_some_iff.1 hc).2, List.takeWhile_cons_of_pos (by simp [hs]),
    List.length_cons]
  omega

/-- A scan stops at once on a character it stops at. -/
theorem scanTo_of_stop {c : Char} (hc : w[i]? = some c) (hs : stop c = true) :
    scanTo w stop i = i := by
  unfold scanTo
  rw [List.drop_eq_getElem_cons (List.getElem?_eq_some_iff.1 hc).1,
    (List.getElem?_eq_some_iff.1 hc).2, List.takeWhile_cons_of_neg (by simp [hs])]
  rfl

/-- `Connector` moves past at least one character: the connector's, or a space. -/
theorem lt_scanTo_connector (h : i < w.length) :
    i + 1 ≤ scanTo w (· ≠ ' ') (scanTo w (· = ' ') i) := by
  obtain ⟨c, hc⟩ : ∃ c, w[i]? = some c := ⟨_, List.getElem?_eq_getElem h⟩
  by_cases hsp : c = ' '
  · rw [scanTo_of_stop hc (by simp [hsp])]
    exact scanTo_of_skip hc (by simp [hsp])
  · exact (scanTo_of_skip hc (by simp [hsp])).trans le_scanTo

end

/-- One pass of the loop lowers the measure. -/
theorem Scanner.measure_step {w : List Char} {s s' : Scanner} (h : s.pos < w.length)
    (hs : s.step w = .ok s') : s'.measure w < s.measure w := by
  unfold Scanner.step at hs
  unfold Scanner.measure
  cases hst : s.state <;> simp only [hst] at hs
  case start =>
    cases hs
    split <;> simp only [TransferState.rank, hst] <;> omega
  case leftEmbrace =>
    split at hs <;> cases hs
    simp only [TransferState.rank, hst]
    omega
  case key =>
    obtain ⟨t, -, hs⟩ := bind_ok_iff.1 hs
    cases hs
    have := @le_scanTo w (fun c => c = '=' || c = '<' || c = '>') s.pos
    simp only [TransferState.rank, hst]
    omega
  case operator =>
    split at hs <;> cases hs
    have := @le_scanTo w (· = '\'') s.pos
    simp only [TransferState.rank, hst]
    omega
  case value =>
    cases hs
    have := @le_scanTo w (· = '\'') (s.pos + 1)
    simp only [TransferState.rank, hst]
    omega
  case afterValue =>
    cases hs
    have := @le_scanTo w (· ≠ ' ') s.pos
    dsimp only
    split
    · rename_i he
      simp only [he, hst, TransferState.rank]
      omega
    · split <;> simp only [TransferState.rank, hst] <;> omega
  case connector =>
    obtain ⟨t, -, hs⟩ := bind_ok_iff.1 hs
    split at hs
    · cases hs
    · cases hs
      have := lt_scanTo_connector h
      simp only [TransferState.rank, hst]
      omega
  case rightEmbrace =>
    cases hs
    simp only [TransferState.rank, hst]
    omega

/-- A run with more fuel than the measure ends past the end of the string. -/
theorem Scanner.run_ends {w : List Char} :
    ∀ {fuel : Nat} {s s' : Scanner}, s.measure w < fuel → s.run w fuel = .ok s' →
      w.length ≤ s'.pos
  | 0, _, _, hf, _ => absurd hf (Nat.not_lt_zero _)
  | fuel + 1, s, s', hf, h => by
    unfold Scanner.run at h
    split at h
    · rename_i hp
      split at h
      · rename_i s'' hs
        exact Scanner.run_ends (Nat.lt_of_lt_of_le (Scanner.measure_step hp hs)
          (Nat.le_of_lt_succ hf)) h
      · cases h
    · cases h
      omega

/-- A run's result is the same for any fuel above the measure. -/
theorem Scanner.run_fuel {w : List Char} :
    ∀ {f f' : Nat} {s : Scanner}, s.measure w < f → s.measure w < f' →
      s.run w f = s.run w f'
  | 0, _, _, hf, _ => absurd hf (Nat.not_lt_zero _)
  | _, 0, _, _, hf' => absurd hf' (Nat.not_lt_zero _)
  | f + 1, f' + 1, s, hf, hf' => by
    unfold Scanner.run
    split
    · rename_i hp
      cases hs : s.step w with
      | error e => rfl
      | ok s'' =>
        have := Scanner.measure_step hp hs
        exact Scanner.run_fuel (by omega) (by omega)
    · rfl

/-- `transformFuel` is above the measure of the scanner `Transform` starts with. -/
theorem Scanner.measure_start (w : List Char) : ({} : Scanner).measure w < transformFuel w := by
  simp [Scanner.measure, transformFuel, TransferState.rank]

/-- One pass of the loop: `s` is inside the string and the pass succeeds with `s'`. -/
def Scanner.Moves (w : List Char) (s s' : Scanner) : Prop := s.pos < w.length ∧ s.step w = .ok s'

/-- A run with enough fuel returns the scanner that passes take past the end of the string. -/
theorem Scanner.run_of_reaches {w : List Char} {s s' : Scanner}
    (h : Relation.ReflTransGen (Scanner.Moves w) s s') (hend : w.length ≤ s'.pos) :
    ∀ {f : Nat}, s.measure w < f → s.run w f = .ok s' := by
  induction h using Relation.ReflTransGen.head_induction_on with
  | refl =>
    intro f hf
    cases f with
    | zero => exact absurd hf (Nat.not_lt_zero _)
    | succ f => rw [Scanner.run, if_neg (Nat.not_lt.2 hend)]
  | head hm _ ih =>
    intro f hf
    cases f with
    | zero => exact absurd hf (Nat.not_lt_zero _)
    | succ f =>
      have := Scanner.measure_step hm.1 hm.2
      rw [Scanner.run, if_pos hm.1, hm.2]
      exact ih (by omega)

/-- The scanner a run returns is one that passes reach. -/
theorem Scanner.reaches_of_run {w : List Char} :
    ∀ {f : Nat} {s s' : Scanner}, s.run w f = .ok s' →
      Relation.ReflTransGen (Scanner.Moves w) s s'
  | 0, _, _, h => by cases h; exact .refl
  | f + 1, s, s', h => by
    unfold Scanner.run at h
    split at h
    · rename_i hp
      split at h
      · rename_i s'' hs
        exact .head ⟨hp, hs⟩ (Scanner.reaches_of_run h)
      · cases h
    · cases h
      exact .refl

/-- A run fails with the error of a pass that some passes reach. -/
theorem Scanner.reaches_of_run_error {w : List Char} :
    ∀ {f : Nat} {s : Scanner} {e : StorageError}, s.run w f = .error e →
      ∃ s₁, Relation.ReflTransGen (Scanner.Moves w) s s₁ ∧ s₁.pos < w.length ∧
        s₁.step w = .error e
  | 0, _, _, h => by cases h
  | f + 1, s, e, h => by
    unfold Scanner.run at h
    split at h
    · rename_i hp
      split at h
      · rename_i s'' hs
        obtain ⟨s₁, hr, hrest⟩ := Scanner.reaches_of_run_error h
        exact ⟨s₁, .head ⟨hp, hs⟩ hr, hrest⟩
      · rename_i e' hs
        cases h
        exact ⟨s, .refl, hp, hs⟩
    · cases h

theorem TransferState.rank_le_four (t : TransferState) : t.rank ≤ 4 := by cases t <;> decide

/-- `Transform`'s loop ends on every string. Each pass lowers `(where.length - pos, rank)` in the
lexicographic order, the first component an integer, as `Value` may take `pos` past the end; so
no sequence of passes goes on forever, and the `transformFuel` passes `Transform` makes end with
`pos` past the string, where the loop's own condition stops it. -/
theorem Transform_terminates (w : List Char) :
    (∀ s s', Scanner.Moves w s s' →
      Prod.Lex (· < ·) (· < ·) ((w.length : Int) - s'.pos, s'.state.rank)
        ((w.length : Int) - s.pos, s.state.rank)) ∧
    WellFounded (flip (Scanner.Moves w)) ∧
    ∀ s', Scanner.run w (transformFuel w) {} = .ok s' → w.length ≤ s'.pos := by
  refine ⟨fun s s' hm => ?_,
    Subrelation.wf (fun hm => Scanner.measure_step hm.1 hm.2)
      (InvImage.wf (Scanner.measure w) wellFounded_lt),
    fun _ => Scanner.run_ends (Scanner.measure_start w)⟩
  have hlt := Scanner.measure_step hm.1 hm.2
  have := s.state.rank_le_four
  have := hm.1
  simp only [Scanner.measure] at hlt
  simp only [Prod.lex_def]
  omega

/-! ### One pass over known text -/

section
variable {w : List Char} {p : Nat}

theorem getElem?_of_drop {c : Char} {r : List Char} (h : w.drop p = c :: r) : w[p]? = some c := by
  rw [← Nat.add_zero p, ← List.getElem?_drop, h, List.getElem?_cons_zero]

theorem lt_length_of_drop {c : Char} {r : List Char} (h : w.drop p = c :: r) : p < w.length := by
  have := congrArg List.length h
  simp only [List.length_drop, List.length_cons] at this
  omega

theorem drop_of_drop {l r : List Char} (h : w.drop p = l ++ r) : w.drop (p + l.length) = r := by
  rw [← List.drop_drop, h, List.drop_left]

/-- A scan over `l` stops at the character after it. -/
theorem scanTo_of_drop {stop : Char → Bool} {l r : List Char} (h : w.drop p = l ++ r)
    (hl : ∀ c ∈ l, stop c = false) (hr : ∀ c ∈ r.head?, stop c = true) :
    scanTo w stop p = p + l.length := by
  unfold scanTo
  rw [h, List.takeWhile_append_of_pos (by simpa using hl)]
  cases r with
  | nil => simp
  | cons c r => simp [List.takeWhile_cons, hr c rfl]

theorem substring_of_drop {l r : List Char} (h : w.drop p = l ++ r) :
    substring w p (p + l.length) = l := by
  rw [substring, max_eq_right (Nat.le_add_right _ _), min_eq_left (Nat.le_add_right _ _),
    List.drop_take, Nat.add_sub_cancel_left, h, List.take_left]

theorem dropWhile_of_head {q : Char → Bool} {l : List Char} (h : ∀ c ∈ l.head?, q c = false) :
    l.dropWhile q = l := by
  cases l with
  | nil => rfl
  | cons c l => simp [List.dropWhile, h c rfl]

/-- `trim` keeps text that neither starts nor ends with white space. -/
theorem jsTrim_of_ends {l : List Char} (hh : ∀ c ∈ l.head?, isJsWhitespace c = false)
    (hl : ∀ c ∈ l.getLast?, isJsWhitespace c = false) : jsTrim l = l := by
  rw [jsTrim, @dropWhile_of_head isJsWhitespace l.reverse (by rwa [List.head?_reverse]),
    List.reverse_reverse, dropWhile_of_head hh]

end

@[simp] theorem setLastComparing_concat (c : TagComparing) (ts : List Token) (t : Token) :
    setLastComparing c (ts ++ [t]) = ts ++ [.tagComparing c] := by
  rw [setLastComparing, List.dropLast_concat]

section
variable {w : List Char} {s : Scanner}

theorem Scanner.step_start (hs : s.state = .start) :
    s.step w = .ok { s with state := if w[s.pos]? = some '(' then .leftEmbrace else .key } := by
  simp only [Scanner.step, hs]

theorem Scanner.step_leftEmbrace {cur : List Token} (hs : s.state = .leftEmbrace)
    (ht : s.currentTree = some cur) :
    s.step w = .ok { s with
      expectingRightEmbrace := s.expectingRightEmbrace + 1, treeStack := cur :: s.treeStack,
      currentTree := some [], pos := s.pos + 1, state := .start } := by
  simp only [Scanner.step, hs, ht]

/-- `Key` reads the key up to the operator's first character. -/
theorem Scanner.step_key {k r : List Char} {cur : List Token} (hs : s.state = .key)
    (hw : w.drop s.pos = k ++ r) (hk : ∀ c ∈ k, (c = '=' || c = '<' || c = '>') = false)
    (hr : ∀ c ∈ r.head?, (c = '=' || c = '<' || c = '>') = true)
    (ht : s.currentTree = some cur) :
    s.step w = .ok { s with
      currentTagComparing := { key := some (String.mk (jsTrim k)) },
      currentTree := some (cur ++ [.tagComparing { key := some (String.mk (jsTrim k)) }]),
      pos := s.pos + k.length, state := .operator } := by
  simp only [Scanner.step, hs, scanTo_of_drop hw hk hr, substring_of_drop hw, ht, pushToken]
  rfl

/-- `Operator` reads the operator up to the opening quote. -/
theorem Scanner.step_operator {op r : List Char} (hs : s.state = .operator)
    (hw : w.drop s.pos = op ++ '\'' :: r) (hop : ∀ c ∈ op, c ≠ '\'')
    (hmem : String.mk (jsTrim op) ∈ tagFilterOperators) :
    s.step w = .ok { s with
      currentTagComparing :=
        { s.currentTagComparing with operator := some (String.mk (jsTrim op)) },
      currentTree := s.currentTree.map (setLastComparing
        { s.currentTagComparing with operator := some (String.mk (jsTrim op)) }),
      pos := s.pos + op.length, state := .value } := by
  have hscan : scanTo w (· = '\'') s.pos = s.pos + op.length :=
    scanTo_of_drop hw (fun c hc => by simpa using hop c hc) (by simp)
  simp only [Scanner.step, hs, hscan, substring_of_drop hw, if_pos hmem]

/-- `Value` reads the quoted value, quotes included. -/
theorem Scanner.step_value {v r : List Char} (hs : s.state = .value)
    (hw : w.drop s.pos = '\'' :: (v ++ '\'' :: r)) (hv : ∀ c ∈ v, c ≠ '\'') :
    s.step w = .ok { s with
      currentTagComparing := { s.currentTagComparing with
        value := some (String.mk (jsTrim ('\'' :: (v ++ ['\''])))) },
      currentTree := s.currentTree.map (setLastComparing { s.currentTagComparing with
        value := some (String.mk (jsTrim ('\'' :: (v ++ ['\''])))) }),
      pos := s.pos + (v.length + 2), state := .afterValue } := by
  have hw' : w.drop (s.pos + 1) = v ++ '\'' :: r := @drop_of_drop w s.pos ['\''] _ hw
  have hscan : scanTo w (· = '\'') (s.pos + 1) = s.pos + 1 + v.length :=
    scanTo_of_drop hw' (fun c hc => by simpa using hv c hc) (by simp)
  have hsub := @substring_of_drop w s.pos ('\'' :: (v ++ ['\''])) r (by simpa using hw)
  rw [show ('\'' :: (v ++ ['\''])).length = v.length + 2 by simp] at hsub
  simp only [Scanner.step, hs, hscan, show s.pos + 1 + v.length + 1 = s.pos + (v.length + 2) by
    omega, hsub]

/-- `AfterValue` skips spaces: at the end of the string it stays, before a `)` it goes to
`RightEmbrace`, and before anything else to `Connector`. -/
theorem Scanner.step_afterValue {n : Nat} {r : List Char} (hs : s.state = .afterValue)
    (hw : w.drop s.pos = List.replicate n ' ' ++ r) (hr : ∀ c ∈ r.head?, c ≠ ' ') :
    s.step w = .ok { s with
      pos := s.pos + n,
      state := if s.pos + n = w.length then .afterValue
        else if r.head? = some ')' then .rightEmbrace else .connector } := by
  have hscan : scanTo w (· ≠ ' ') s.pos = s.pos + n := by
    simpa using scanTo_of_drop hw (by simp [List.mem_replicate]) (by simpa using hr)
  have hget : w[s.pos + n]? = r.head? := by
    rw [← Nat.add_zero (s.pos + n), ← List.getElem?_drop,
      show w.drop (s.pos + n) = r by simpa using drop_of_drop hw, List.head?_eq_getElem?]
  simp only [Scanner.step, hs, hscan, hget]

/-- `RightEmbrace` closes the group into its parent. -/
theorem Scanner.step_rightEmbrace {parent : List Token} {rest : List (List Token)}
    (hs : s.state = .rightEmbrace) (hst : s.treeStack = parent :: rest) :
    s.step w = .ok { s with
      expectingRightEmbrace := s.expectingRightEmbrace - 1,
      currentTree := some (parent ++ (s.currentTree.map .tree).toList), treeStack := rest,
      pos := s.pos + 1, state := .afterValue } := by
  simp only [Scanner.step, hs, hst, List.tail_cons]

/-- `Connector` reads a word up to a space and skips the spaces before the next term. -/
theorem Scanner.step_connector {t r : List Char} {n : Nat} {c : Char} {cur : List Token}
    (hs : s.state = .connector) (hw : w.drop s.pos = t ++ List.replicate (n + 1) ' ' ++ c :: r)
    (ht : ∀ d ∈ t, d ≠ ' ') (hc : c ≠ ' ') (hcur : s.currentTree = some cur) :
    s.step w = .ok { s with
      currentTree := some (cur ++ [.connector (some (String.mk t))]),
      pos := s.pos + t.length + (n + 1), state := .start } := by
  rw [List.append_assoc] at hw
  have hscan : scanTo w (· = ' ') s.pos = s.pos + t.length :=
    scanTo_of_drop hw (fun d hd => by simpa using ht d hd) (by simp [List.replicate_succ])
  have hw' : w.drop (s.pos + t.length) = List.replicate (n + 1) ' ' ++ c :: r := drop_of_drop hw
  have hscan' : scanTo w (· ≠ ' ') (s.pos + t.length) = s.pos + t.length + (n + 1) := by
    simpa using scanTo_of_drop hw' (by simp [List.mem_replicate]) (by simpa using hc)
  have hlt := lt_length_of_drop (drop_of_drop hw')
  simp only [Scanner.step, hs, hscan, substring_of_drop hw, hcur, pushToken, hscan',
    List.length_replicate] at hlt ⊢
  simp only [bind, Except.bind, if_neg (Nat.ne_of_lt hlt)]
  rfl

end

end Azurite

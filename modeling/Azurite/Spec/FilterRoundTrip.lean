import Azurite.Spec.Filter
import Azurite.Spec.Transform

/-!
# Writing a filter and reading it back

A spelling of a derivation (`FilterExpr.Spelling`) writes its tokens in order with spaces
around them, as the grammar allows, save in two places where `Transform`'s scanner needs the
text to be tighter: no space before a `(` that opens the filter or follows a `(` (`Start` would
see the space and read a key), and at least one space after a connector (`Connector` reads its
word up to a space). Spaces before a key, an operator, a value, a connector or a `)` are all
free. `FilterExpr.render` writes the spelling the filters of §8 use: each comparison without
spaces, one space on each side of a connector. `Transform` reads every spelling back as the
derivation's tree, whatever spaces follow it.

The scan follows the spelling. A comparison takes `Start`, `Key` (whose `trim` drops the spaces
around the key), `Operator` (the same for the operator) and `Value` in turn; a group takes
`Start`, `LeftEmbrace`, its expression, `AfterValue` over the spaces before `)`, and
`RightEmbrace`; a connector takes `AfterValue` over the spaces before it and `Connector`, which
skips the spaces after it, those that begin the next comparison's spelling included. After a
term the scanner is in `AfterValue` right after the term's text, with the term's token
appended to the open group and the enclosing groups as they were (`Scanner.ReadsTo`). Nothing
of this depends on the text after the term.

* `FilterExpr.Spelling.spaced`, `FilterExpr.Spelling.derivable`: every spelling, with spaces
  after it, is a text of the grammar, so the spellings are derivable strings.
* `FilterTerm.readsTo`, `FilterExpr.readsTo`: the scan of a term, and of an expression, from any
  scanner at its spelling.
* `Transform_spelling`: `Transform` returns `e.tokens` for every spelling of every valid
  derivation `e`.
-/

namespace Azurite

/-! ### Spellings of a derivation -/

@[simp] theorem length_spaces (n : Nat) : (spaces n).length = n := List.length_replicate _ _

@[simp] theorem spaces_zero : spaces 0 = [] := rfl

mutual

/-- A spelling of an expression: its first term's, then its connectors' and terms'. -/
inductive FilterExpr.Spelling : FilterExpr → List Char → Prop
  | mk {first : FilterTerm} {rest : List (Connective × FilterTerm)} {v₁ v₂ : List Char} :
      first.Spelling v₁ → FilterExpr.RestSpelling rest v₂ →
      FilterExpr.Spelling (.mk first rest) (v₁ ++ v₂)

/-- A spelling of the `(connector term)*` part: each connector after any spaces and before at
least one, then its term. -/
inductive FilterExpr.RestSpelling : List (Connective × FilterTerm) → List Char → Prop
  | nil : FilterExpr.RestSpelling [] []
  | cons {c : Connective} {t : FilterTerm} {rest : List (Connective × FilterTerm)}
      {v₁ v₂ : List Char} (n₁ n₂ : Nat) : t.Spelling v₁ → FilterExpr.RestSpelling rest v₂ →
      FilterExpr.RestSpelling ((c, t) :: rest)
        (spaces n₁ ++ c.text.toList ++ ' ' :: (spaces n₂ ++ v₁ ++ v₂))

/-- A spelling of a term: a comparison with any spaces before its key, operator and value; a
group with its expression's spelling right after the `(` and any spaces before the `)`. -/
inductive FilterTerm.Spelling : FilterTerm → List Char → Prop
  | comparison (key op value : String) (n₀ n₁ n₂ : Nat) :
      (FilterTerm.comparison key op value).Spelling (spaces n₀ ++ key.toList ++ spaces n₁ ++
        op.toList ++ spaces n₂ ++ '\'' :: value.toList ++ ['\''])
  | group {e : FilterExpr} {v : List Char} (n : Nat) :
      e.Spelling v → (FilterTerm.group e).Spelling ('(' :: v ++ spaces n ++ [')'])

end

/-! ### Spellings are texts of the grammar -/

theorem Spaced.cons {ts : List String} {v : List Char} (h : Spaced ts v) (n : Nat) (t : String) :
    Spaced (t :: ts) (spaces n ++ t.toList ++ v) :=
  ⟨n, v, rfl, h⟩

theorem Spaced.spaces_append {ts : List String} {v : List Char} (h : Spaced ts v) (n : Nat) :
    Spaced ts (spaces n ++ v) := by
  cases ts with
  | nil =>
    obtain ⟨m, rfl⟩ := h
    exact ⟨n + m, (List.replicate_add _ _ _).symm⟩
  | cons t ts =>
    obtain ⟨m, rest, rfl, h⟩ := h
    exact ⟨n + m, rest, by simp only [spaces, List.replicate_add, List.append_assoc], h⟩

theorem Spaced.append {ts₁ ts₂ : List String} {v₁ v₂ : List Char} (h₁ : Spaced ts₁ v₁)
    (h₂ : Spaced ts₂ v₂) : Spaced (ts₁ ++ ts₂) (v₁ ++ v₂) := by
  induction ts₁ generalizing v₁ with
  | nil =>
    obtain ⟨n, rfl⟩ := h₁
    exact h₂.spaces_append n
  | cons t ts ih =>
    obtain ⟨n, rest, rfl, h₁⟩ := h₁
    exact ⟨n, rest ++ v₂, by simp only [List.append_assoc], ih h₁⟩

mutual

/-- A spelling, with any spaces after it, spells the derivation's tokens with spaces around
them. -/
theorem FilterExpr.Spelling.spaced : ∀ {e : FilterExpr} {v : List Char}, e.Spelling v →
    ∀ n, Spaced e.texts (v ++ spaces n)
  | .mk _ _, _, .mk h₁ h₂, n => by
    rw [FilterExpr.texts, List.append_assoc]
    simpa using (h₁.spaced 0).append (h₂.spaced n)

theorem FilterExpr.RestSpelling.spaced : ∀ {rest : List (Connective × FilterTerm)}
    {v : List Char}, FilterExpr.RestSpelling rest v →
    ∀ n, Spaced (FilterExpr.restTexts rest) (v ++ spaces n)
  | [], _, .nil, n => ⟨n, rfl⟩
  | (c, _) :: _, _, .cons n₁ n₂ h₁ h₂, n => by
    have h := (((h₁.spaced 0).append (h₂.spaced n)).spaces_append (n₂ + 1)).cons n₁ c.text
    simp only [spaces, List.replicate_succ, List.replicate_zero, List.append_nil,
      List.cons_append, List.append_assoc] at h ⊢
    exact h

theorem FilterTerm.Spelling.spaced : ∀ {t : FilterTerm} {v : List Char}, t.Spelling v →
    ∀ n, Spaced t.texts (v ++ spaces n)
  | .comparison key op value, _, .comparison _ _ _ n₀ n₁ n₂, n => by
    have h₀ : Spaced [] (spaces n) := ⟨n, rfl⟩
    have h := ((h₀.cons n₂ ("'" ++ value ++ "'")).cons n₁ op).cons n₀ key
    simp only [FilterTerm.texts, String.toList, String.data_append, List.append_assoc,
      List.cons_append, List.singleton_append] at h ⊢
    exact h
  | .group _, _, .group m h, n => by
    have h₀ : Spaced [] (spaces n) := ⟨n, rfl⟩
    have h := ((h.spaced m).append (h₀.cons 0 ")")).cons 0 "("
    simp only [FilterTerm.texts, spaces_zero, List.nil_append, List.append_assoc,
      List.cons_append, List.singleton_append] at h ⊢
    exact h

end

/-- Every spelling of a valid derivation, with any spaces after it, is derivable. -/
theorem FilterExpr.Spelling.derivable {e : FilterExpr} {v : List Char} (hv : e.valid = true)
    (hsp : e.Spelling v) (n : Nat) : Derivable (String.mk (v ++ spaces n)) :=
  ⟨e, hv, hsp.spaced n⟩

/-! ### The text of a derivation -/

mutual

/-- A derivation written out: its tokens in order, with a space on each side of a connector and
nowhere else. -/
def FilterExpr.render : FilterExpr → List Char
  | .mk first rest => first.render ++ FilterExpr.renderRest rest

/-- The text of the `(connector term)*` part. -/
def FilterExpr.renderRest : List (Connective × FilterTerm) → List Char
  | [] => []
  | (c, t) :: rest => ' ' :: c.text.toList ++ ' ' :: t.render ++ FilterExpr.renderRest rest

/-- The text of a term: a comparison with its value in quotes, or a group in parentheses. -/
def FilterTerm.render : FilterTerm → List Char
  | .comparison key op value => key.toList ++ op.toList ++ '\'' :: value.toList ++ ['\'']
  | .group e => '(' :: e.render ++ [')']

end

mutual

/-- `render` writes a spelling. -/
theorem FilterExpr.spelling_render : ∀ e : FilterExpr, e.Spelling e.render
  | .mk first rest => .mk first.spelling_render (FilterExpr.restSpelling_renderRest rest)

theorem FilterExpr.restSpelling_renderRest :
    ∀ rest, FilterExpr.RestSpelling rest (FilterExpr.renderRest rest)
  | [] => .nil
  | (_, t) :: rest => by
    simpa [FilterExpr.renderRest, spaces] using
      FilterExpr.RestSpelling.cons 1 0 t.spelling_render (FilterExpr.restSpelling_renderRest rest)

theorem FilterTerm.spelling_render : ∀ t : FilterTerm, t.Spelling t.render
  | .comparison key op value => by
    simpa [FilterTerm.render] using FilterTerm.Spelling.comparison key op value 0 0 0
  | .group e => by simpa [FilterTerm.render] using FilterTerm.Spelling.group 0 e.spelling_render

end

/-- The filter of §8. -/
def sampleFilter : FilterExpr :=
  .mk (.comparison "key1" "=" "10")
    [(.and, .group (.mk (.comparison "key2" "=" "20") [(.or, .comparison "key3" "=" "30")]))]

example : String.mk sampleFilter.render = "key1='10' and (key2='20' or key3='30')" := rfl

/-! ### Characters -/

theorem isTagKeyChar_not_whitespace {c : Char} (h : isTagKeyChar c = true) :
    isJsWhitespace c = false := by
  simp only [isTagKeyChar, Char.isAlphanum, Char.isAlpha, Char.isUpper, Char.isLower,
    Char.isDigit, Bool.or_eq_true, Bool.and_eq_true, decide_eq_true_eq, ge_iff_le, UInt32.le_def,
    BitVec.le_def, or_assoc] at h
  rcases h with h | h | h | rfl | rfl | rfl | rfl | rfl | rfl
  all_goals first
    | rfl
    | simp only [isJsWhitespace, Char.toNat, UInt32.toNat, Bool.or_eq_false_iff,
        Bool.and_eq_false_iff, decide_eq_false_iff_not]
      simp at h
      omega

theorem ne_of_isTagKeyChar {c d : Char} (h : isTagKeyChar c = true) (hd : isTagKeyChar d = false) :
    c ≠ d := by
  rintro rfl
  simp_all

/-- A key's scan passes over its characters. -/
theorem isTagKeyChar_scan {c : Char} (h : isTagKeyChar c = true) :
    (c = '=' || c = '<' || c = '>') = false := by
  rw [Bool.eq_false_iff]
  intro h'
  simp only [Bool.or_eq_true, decide_eq_true_eq] at h'
  rcases h' with (rfl | rfl) | rfl <;> exact absurd h (by decide)

/-- An operator starts with a character that ends a key's scan, holds no quote, and is its own
trim. -/
theorem operator_text {op : String} (h : op ∈ tagFilterOperators) :
    ∃ o os, op.toList = o :: os ∧ (o = '=' || o = '<' || o = '>') = true ∧
      (∀ c ∈ op.toList, c ≠ '\'') ∧ jsTrim op.toList = op.toList := by
  simp only [tagFilterOperators, List.mem_cons, List.not_mem_nil, or_false] at h
  rcases h with rfl | rfl | rfl | rfl | rfl <;> exact ⟨_, _, rfl, by decide, by decide, by decide⟩

/-- A connector's text starts with a letter and holds no space. -/
theorem Connective.text_toList (c : Connective) :
    ∃ d ds, c.text.toList = d :: ds ∧ d ≠ ' ' ∧ d ≠ ')' ∧ ∀ x ∈ d :: ds, x ≠ ' ' := by
  cases c
  · exact ⟨'a', ['n', 'd'], rfl, by decide, by decide, by decide⟩
  · exact ⟨'o', ['r'], rfl, by decide, by decide, by decide⟩

/-- The spelling of a valid term is spaces, then a spelling that starts with something else. -/
theorem FilterTerm.Spelling.strip {t : FilterTerm} {v : List Char} (hv : t.valid = true)
    (hsp : t.Spelling v) : ∃ k x xs, v = spaces k ++ x :: xs ∧ x ≠ ' ' ∧ t.Spelling (x :: xs) := by
  cases hsp with
  | comparison key op value n₀ n₁ n₂ =>
    simp only [FilterTerm.valid, Bool.and_eq_true, Bool.not_eq_true', List.isEmpty_eq_false,
      List.all_eq_true] at hv
    obtain ⟨d, ds, hk⟩ := List.exists_cons_of_ne_nil hv.1.1.1
    have hsp₀ := FilterTerm.Spelling.comparison key op value 0 n₁ n₂
    rw [hk] at hsp₀ ⊢
    exact ⟨n₀, d, ds ++ spaces n₁ ++ op.toList ++ spaces n₂ ++ '\'' :: value.toList ++ ['\''],
      by simp only [List.append_assoc, List.cons_append], ne_of_isTagKeyChar
      (hv.1.1.2 d (hk ▸ List.mem_cons_self _ _)) (by decide), hsp₀⟩
  | group n he => exact ⟨0, '(', _, rfl, by decide, .group n he⟩

theorem String.mk_toList (s : String) : String.mk s.toList = s := rfl

/-! ### White space -/

theorem dropWhile_spaces_append (n : Nat) (l : List Char) :
    (spaces n ++ l).dropWhile isJsWhitespace = l.dropWhile isJsWhitespace := by
  induction n with
  | zero => rfl
  | succ n ih =>
    rw [spaces, List.replicate_succ, List.cons_append, List.dropWhile_cons_of_pos (by decide)]
    exact ih

/-- `trim` drops the spaces around a text. -/
theorem jsTrim_spaces (a b : Nat) (l : List Char) :
    jsTrim (spaces a ++ l ++ spaces b) = jsTrim l := by
  have hrev (n : Nat) : (spaces n).reverse = spaces n := List.reverse_replicate _ _
  rw [jsTrim, jsTrim, List.reverse_append, List.reverse_append, hrev, hrev,
    dropWhile_spaces_append, List.dropWhile_append]
  split
  · rename_i h
    rw [List.isEmpty_iff.1 h, show (spaces a).dropWhile isJsWhitespace = [] by
      simpa using dropWhile_spaces_append a []]
  · rw [List.reverse_append, hrev, dropWhile_spaces_append]

/-- Spaces before a word start with a space or the word's first character. -/
theorem head?_spaces_append_ne {n : Nat} {c d : Char} {ds : List Char} (hc : c ≠ ' ') (hd : d ≠ c) :
    (spaces n ++ d :: ds).head? ≠ some c := by
  cases n <;> simp [spaces, List.replicate_succ, hd, Ne.symm hc]

/-! ### The scan of a term -/

/-- Passes take `s` to `AfterValue` at `pos`, with `cur` as the open group and the enclosing
groups and the depth of `s`. -/
def Scanner.ReadsTo (w : List Char) (s : Scanner) (pos : Nat) (cur : List Token) : Prop :=
  ∃ s', Relation.ReflTransGen (Scanner.Moves w) s s' ∧ s'.state = .afterValue ∧ s'.pos = pos ∧
    s'.currentTree = some cur ∧ s'.treeStack = s.treeStack ∧
    s'.expectingRightEmbrace = s.expectingRightEmbrace

section
variable {w r : List Char} {s s' : Scanner}

/-- `AfterValue` before spaces and a `)` goes to `RightEmbrace` at the `)`. -/
theorem Scanner.step_afterValue_close {n : Nat} (hs : s.state = .afterValue)
    (hw : w.drop s.pos = spaces n ++ ')' :: r) :
    s.step w = .ok { s with pos := s.pos + n, state := .rightEmbrace } := by
  have hlt := lt_length_of_drop (drop_of_drop hw)
  rw [length_spaces] at hlt
  rw [Scanner.step_afterValue hs hw (by simp), if_neg (Nat.ne_of_lt hlt), List.head?_cons,
    if_pos rfl]

/-- `AfterValue` before spaces and a connector goes to `Connector` at the connector. -/
theorem Scanner.step_afterValue_connector {n : Nat} {c : Char} (hs : s.state = .afterValue)
    (hw : w.drop s.pos = spaces n ++ c :: r) (hc : c ≠ ' ') (hc' : c ≠ ')') :
    s.step w = .ok { s with pos := s.pos + n, state := .connector } := by
  have hlt := lt_length_of_drop (drop_of_drop hw)
  rw [length_spaces] at hlt
  rw [Scanner.step_afterValue hs hw (by simpa using hc), if_neg (Nat.ne_of_lt hlt),
    if_neg (by simpa using hc')]

/-- A comparison: `Key` reads the key and the spaces around it, `Operator` the operator and the
spaces after it, and `Value` the quoted value, each into the comparison `Key` appends to the
open group. -/
theorem Scanner.readsTo_comparison {key op value : String} {v : List Char} {cur : List Token}
    (hv : (FilterTerm.comparison key op value).valid = true)
    (hsp : (FilterTerm.comparison key op value).Spelling v) (hs : s.state = .start)
    (hw : w.drop s.pos = v ++ r) (hc : s.currentTree = some cur) :
    s.ReadsTo w (s.pos + v.length) (cur ++ [(FilterTerm.comparison key op value).token]) := by
  simp only [FilterTerm.valid, Bool.and_eq_true, Bool.not_eq_true', List.isEmpty_eq_false,
    List.all_eq_true, decide_eq_true_eq, List.contains_eq_any_beq, List.any_eq_false,
    beq_iff_eq] at hv
  obtain ⟨⟨⟨hne, hkey⟩, hop⟩, hval⟩ := hv
  obtain ⟨o, os, ho, hoo, hopq, hopt⟩ := operator_text hop
  obtain ⟨d, ds, hk⟩ := List.exists_cons_of_ne_nil hne
  have hd : isTagKeyChar d = true := hkey d (hk ▸ List.mem_cons_self _ _)
  cases hsp with
  | comparison _ _ _ n₀ n₁ n₂ =>
  -- the key and the spaces around it, then the operator and the spaces after it
  have hw₁ : w.drop s.pos = (spaces n₀ ++ key.toList ++ spaces n₁) ++
      ((op.toList ++ spaces n₂) ++ '\'' :: (value.toList ++ '\'' :: r)) := by
    rw [hw]
    simp only [List.append_assoc, List.cons_append, List.nil_append]
  have hkt : jsTrim (spaces n₀ ++ key.toList ++ spaces n₁) = key.toList := by
    rw [jsTrim_spaces, jsTrim_of_ends
      (fun c hc => isTagKeyChar_not_whitespace (hkey c (List.mem_of_mem_head? hc)))
      (fun c hc => isTagKeyChar_not_whitespace (hkey c (List.mem_of_mem_getLast? hc)))]
  have hot : jsTrim (op.toList ++ spaces n₂) = op.toList := by
    rw [show op.toList ++ spaces n₂ = spaces 0 ++ op.toList ++ spaces n₂ from rfl, jsTrim_spaces,
      hopt]
  -- `Start` sees a space or the key's first character, not a `(`
  have h₁ := @Scanner.step_start w s hs
  have hx : w.drop s.pos = spaces n₀ ++ d :: (ds ++ (spaces n₁ ++ (op.toList ++
      (spaces n₂ ++ '\'' :: (value.toList ++ '\'' :: r))))) := by
    rw [hw₁, hk]
    simp only [List.append_assoc, List.cons_append]
  rw [if_neg (by
    rw [← List.head?_drop, hx]
    exact head?_spaces_append_ne (by decide) (ne_of_isTagKeyChar hd (by decide)))] at h₁
  -- `Key` stops at the operator
  have h₂ := @Scanner.step_key w { s with state := .key } _ _ cur rfl hw₁
    (fun c hc => by
      simp only [List.mem_append, spaces, List.mem_replicate] at hc
      rcases hc with (⟨-, rfl⟩ | hc) | ⟨-, rfl⟩
      · rfl
      · exact isTagKeyChar_scan (hkey c hc)
      · rfl)
    (fun c hc => by
      rw [ho, List.cons_append, List.cons_append, List.head?_cons, Option.mem_def,
        Option.some.injEq] at hc
      exact hc ▸ hoo) hc
  rw [hkt, String.mk_toList] at h₂
  -- `Operator` stops at the opening quote
  have h₃ := @Scanner.step_operator w { s with
      currentTagComparing := { key := some key }
      currentTree := some (cur ++ [.tagComparing { key := some key }])
      pos := s.pos + (spaces n₀ ++ key.toList ++ spaces n₁).length
      state := .operator } (op.toList ++ spaces n₂) _ rfl (drop_of_drop hw₁)
    (fun c hc => by
      simp only [List.mem_append, spaces, List.mem_replicate] at hc
      rcases hc with hc | ⟨-, rfl⟩
      · exact hopq c hc
      · decide)
    (by rw [hot, String.mk_toList]; exact hop)
  simp only [hot, String.mk_toList, Option.map_some', setLastComparing_concat] at h₃
  -- `Value` reads up to the closing quote
  have h₄ := @Scanner.step_value w { s with
      currentTagComparing := { key := some key, operator := some op }
      currentTree := some (cur ++ [.tagComparing { key := some key, operator := some op }])
      pos := s.pos + (spaces n₀ ++ key.toList ++ spaces n₁).length +
        (op.toList ++ spaces n₂).length
      state := .value } value.toList r rfl (drop_of_drop (drop_of_drop hw₁))
    (fun c hc h => hval c hc h.symm)
  have hlen := congrArg List.length hw₁
  simp only [List.length_drop, List.length_append, List.length_cons, length_spaces] at hlen
  have hk₀ : 0 < key.toList.length := by rw [hk]; exact Nat.succ_pos _
  refine ⟨_, .head ⟨?_, h₁⟩ (.head ⟨?_, h₂⟩ (.head ⟨?_, h₃⟩ (.single ⟨?_, h₄⟩))), rfl, ?_, ?_, rfl,
    rfl⟩
  · omega
  all_goals simp only [List.length_append, List.length_cons, length_spaces, List.length_nil,
    Option.map_some', setLastComparing_concat, FilterTerm.token]
  · omega
  · omega
  · omega
  · omega
  · rw [jsTrim_of_ends (fun c hc => by simp at hc; subst hc; rfl)
      (fun c hc => by
        rw [← List.cons_append, List.getLast?_concat, Option.mem_def, Option.some.injEq] at hc
        subst hc; rfl)]
    rfl

mutual

/-- An expression: its first term, then each connector and term. -/
theorem FilterExpr.readsTo : ∀ {e : FilterExpr} {v : List Char} {s : Scanner}
    {cur : List Token} {r : List Char}, e.valid = true → e.Spelling v → s.state = .start →
    w.drop s.pos = v ++ r → s.currentTree = some cur →
    s.ReadsTo w (s.pos + v.length) (cur ++ e.tokens)
  | .mk _ _, _, s, cur, r, hv, .mk h₁ h₂, hs, hw, hc => by
    simp only [FilterExpr.valid, Bool.and_eq_true] at hv
    rw [List.append_assoc] at hw
    obtain ⟨s₁, h₁, hs₁, hp₁, hc₁, ht₁, he₁⟩ := FilterTerm.readsTo hv.1 h₁ hs hw hc
    obtain ⟨s₂, h₂, hs₂, hp₂, hc₂, ht₂, he₂⟩ :=
      FilterExpr.readsToRest hv.2 h₂ hs₁ (hp₁ ▸ drop_of_drop hw) hc₁
    refine ⟨s₂, h₁.trans h₂, hs₂, ?_, ?_, ht₂.trans ht₁, he₂.trans he₁⟩
    · rw [hp₂, hp₁, List.length_append, Nat.add_assoc]
    · rw [hc₂, FilterExpr.tokens, List.append_assoc, List.singleton_append]

/-- The `(connector term)*` part: `AfterValue` skips the spaces before a connector, `Connector`
reads it and skips the spaces after it, and the term follows. -/
theorem FilterExpr.readsToRest : ∀ {rest : List (Connective × FilterTerm)} {v : List Char}
    {s : Scanner} {cur : List Token} {r : List Char}, FilterExpr.restValid rest = true →
    FilterExpr.RestSpelling rest v → s.state = .afterValue → w.drop s.pos = v ++ r →
    s.currentTree = some cur →
    s.ReadsTo w (s.pos + v.length) (cur ++ FilterExpr.restTokens rest)
  | [], _, s, cur, _, _, .nil, hs, _, hc =>
    ⟨s, .refl, hs, rfl, by simp [hc, FilterExpr.restTokens], rfl, rfl⟩
  | (c, t) :: rest, _, s, cur, r, hv, @FilterExpr.RestSpelling.cons _ _ _ _ v₂ n₁ n₂ hsp hrest,
      hs, hw, hc => by
    simp only [FilterExpr.restValid, Bool.and_eq_true] at hv
    obtain ⟨d, ds, hcd, hd, hd', hsp'⟩ := c.text_toList
    obtain ⟨k, x, xs, rfl, hx, htx⟩ := FilterTerm.Spelling.strip hv.1 hsp
    -- spaces, the connector, at least one space, and the term's first character
    have hw₁ : w.drop s.pos = spaces n₁ ++
        (c.text.toList ++ List.replicate (n₂ + k + 1) ' ' ++ x :: (xs ++ (v₂ ++ r))) := by
      rw [hw]
      simp only [spaces, List.replicate_succ, List.replicate_add, List.append_assoc,
        List.cons_append]
    have h₁ := Scanner.step_afterValue_connector hs
      (show w.drop s.pos = spaces n₁ ++ d :: _ by rw [hw₁, hcd]; rfl) hd hd'
    have hw₂ : w.drop (s.pos + n₁) =
        c.text.toList ++ List.replicate (n₂ + k + 1) ' ' ++ x :: (xs ++ (v₂ ++ r)) := by
      rw [← length_spaces n₁]
      exact drop_of_drop hw₁
    have h₂ := @Scanner.step_connector w { s with pos := s.pos + n₁, state := .connector }
      c.text.toList _ (n₂ + k) x cur rfl hw₂ (hcd ▸ hsp') hx hc
    rw [String.mk_toList] at h₂
    have hw₃ := drop_of_drop hw₂
    rw [List.length_append, List.length_replicate, ← Nat.add_assoc, ← List.cons_append] at hw₃
    obtain ⟨s₃, h₃, hs₃, hp₃, hc₃, ht₃, he₃⟩ := @FilterTerm.readsTo t (x :: xs)
      { s with currentTree := some (cur ++ [.connector (some c.text)]),
               pos := s.pos + n₁ + c.text.toList.length + (n₂ + k + 1), state := .start }
      (cur ++ [.connector (some c.text)]) _ hv.1 htx rfl hw₃ rfl
    obtain ⟨s₄, h₄, hs₄, hp₄, hc₄, ht₄, he₄⟩ :=
      FilterExpr.readsToRest hv.2 hrest hs₃ (hp₃ ▸ drop_of_drop hw₃) hc₃
    have hlt := lt_length_of_drop (show w.drop (s.pos + n₁) = d :: _ by rw [hw₂, hcd]; rfl)
    refine ⟨s₄, .head ⟨by omega, h₁⟩ (.head ⟨hlt, h₂⟩ (h₃.trans h₄)), hs₄, ?_, ?_,
      ht₄.trans ht₃, he₄.trans he₃⟩
    · simp only [hp₄, hp₃, List.length_cons, List.length_append, length_spaces]
      omega
    · simp only [hc₄, FilterExpr.restTokens, List.append_assoc, List.singleton_append,
        List.cons_append, List.nil_append]

/-- A term: a comparison, or a group read between `LeftEmbrace` and `RightEmbrace` into a new
group on top of the open one. -/
theorem FilterTerm.readsTo : ∀ {t : FilterTerm} {v : List Char} {s : Scanner}
    {cur : List Token} {r : List Char}, t.valid = true → t.Spelling v → s.state = .start →
    w.drop s.pos = v ++ r → s.currentTree = some cur →
    s.ReadsTo w (s.pos + v.length) (cur ++ [t.token])
  | .comparison _ _ _, _, _, _, _, hv, hsp, hs, hw, hc => Scanner.readsTo_comparison hv hsp hs hw hc
  | .group e, _, s, cur, r, hv, .group n hsp, hs, hw, hc => by
    simp only [List.cons_append, List.append_assoc, List.singleton_append] at hw
    have h₁ := @Scanner.step_start w s hs
    rw [getElem?_of_drop hw, if_pos rfl] at h₁
    have h₂ := @Scanner.step_leftEmbrace w { s with state := .leftEmbrace } cur rfl hc
    obtain ⟨s₃, h₃, hs₃, hp₃, hc₃, ht₃, he₃⟩ := @FilterExpr.readsTo e _
      { s with expectingRightEmbrace := s.expectingRightEmbrace + 1,
               treeStack := cur :: s.treeStack, currentTree := some [], pos := s.pos + 1,
               state := .start } [] _ hv hsp rfl (@drop_of_drop w s.pos ['('] _ hw) rfl
    have hw₃ : w.drop s₃.pos = spaces n ++ ')' :: r := by
      rw [hp₃]
      exact drop_of_drop (@drop_of_drop w s.pos ['('] _ hw)
    have h₄ := Scanner.step_afterValue_close hs₃ hw₃
    have h₅ := @Scanner.step_rightEmbrace w { s₃ with pos := s₃.pos + n, state := .rightEmbrace }
      cur s.treeStack rfl ht₃
    have hw₄ : w.drop (s₃.pos + n) = ')' :: r := by simpa using drop_of_drop hw₃
    refine ⟨_, .head ⟨lt_length_of_drop hw, h₁⟩ (.head ⟨lt_length_of_drop hw, h₂⟩
      (h₃.trans (.head ⟨?_, h₄⟩ (.single ⟨lt_length_of_drop hw₄, h₅⟩)))),
      rfl, ?_, ?_, rfl, ?_⟩
    · have := lt_length_of_drop hw₄
      omega
    · simp only [hp₃, List.length_cons, List.length_append, length_spaces, List.length_nil]
      omega
    · simp only [hc₃, Option.map_some', Option.toList_some, List.nil_append, FilterTerm.token]
    · simp only [he₃]
      omega

end

end

/-! ### `Transform` reads a spelling back -/

/-- The loop of `Transform` on a spelling of a valid derivation, and any spaces after it, ends
with every group closed and the derivation's tree as the root group. -/
theorem Scanner.run_spelling {e : FilterExpr} {v : List Char} (hv : e.valid = true)
    (hsp : e.Spelling v) (n : Nat) :
    ∃ s, Scanner.run (v ++ spaces n) (transformFuel (v ++ spaces n)) {} = .ok s ∧
      s.expectingRightEmbrace = 0 ∧ s.root = e.tokens := by
  obtain ⟨s, hr, hs, hp, hc, ht, he⟩ :=
    @FilterExpr.readsTo (v ++ spaces n) e v {} [] (spaces n) hv hsp rfl (by simp) rfl
  have hroot : s.root = e.tokens := by
    simp only [Scanner.root, ht, hc, List.foldl_nil, Option.getD_some, List.nil_append]
  cases n with
  | zero =>
    exact ⟨s, Scanner.run_of_reaches hr (by simp [hp]) (Scanner.measure_start _), he, hroot⟩
  | succ n =>
    -- `AfterValue` skips the trailing spaces to the end of the string
    have hw : (v ++ spaces (n + 1)).drop s.pos = List.replicate (n + 1) ' ' ++ [] := by
      simp [hp, spaces]
    exact ⟨_, Scanner.run_of_reaches (hr.tail ⟨by simp [hp], Scanner.step_afterValue hs hw (by simp)⟩)
      (by simp [hp]) (Scanner.measure_start _), he, hroot⟩

/-- The loop of `Transform` on the text `render` writes. -/
theorem Scanner.run_render {e : FilterExpr} (hv : e.valid = true) :
    ∃ s, Scanner.run e.render (transformFuel e.render) {} = .ok s ∧
      s.expectingRightEmbrace = 0 ∧ s.root = e.tokens := by
  simpa using Scanner.run_spelling hv e.spelling_render 0

/-- `Transform` returns the root group of its loop's last scanner when every group is closed. -/
theorem Transform_of_run {whereText : String} {s : Scanner}
    (h : Scanner.run whereText.toList (transformFuel whereText.toList) {} = .ok s)
    (he : s.expectingRightEmbrace = 0) : Transform whereText = .ok s.root := by
  simp only [Transform, h, he, ne_eq, not_true_eq_false, if_false, bind, Except.bind, pure,
    Except.pure]

/-- `Transform` reads every spelling of every valid derivation, with any spaces after it, back
as the derivation's tree. -/
theorem Transform_spelling {e : FilterExpr} {v : List Char} (hv : e.valid = true)
    (hsp : e.Spelling v) (n : Nat) : Transform (String.mk (v ++ spaces n)) = .ok e.tokens := by
  obtain ⟨s, hr, he, hroot⟩ := Scanner.run_spelling hv hsp n
  rw [← hroot]
  exact Transform_of_run hr he

/-- The filter of §8 spelled with spaces around its tokens. -/
theorem Transform_spelling_sample :
    sampleFilter.valid = true ∧
      sampleFilter.Spelling "  key1 = '10'  and   ( key2= '20' or  key3 ='30' )".toList ∧
      Transform "  key1 = '10'  and   ( key2= '20' or  key3 ='30' )  " =
        .ok sampleFilter.tokens :=
  have hsp : sampleFilter.Spelling "  key1 = '10'  and   ( key2= '20' or  key3 ='30' )".toList :=
    .mk (.comparison "key1" "=" "10" 2 1 1) (.cons 2 2 (.group 1
      (.mk (.comparison "key2" "=" "20" 1 0 1) (.cons 1 1 (.comparison "key3" "=" "30" 0 1 0)
        .nil))) .nil)
  ⟨by decide, hsp, Transform_spelling (by decide) hsp 2⟩

end Azurite

import Azurite.Spec.FilterRoundTrip

/-!
# What the compiled predicate computes

`analysis` turns a filter into JavaScript source (`TreeToFunction`), and the store runs it with
`new Function("item", ...)`. Take a valid derivation `e` whose keys are identifier names that
name no property of `Object.prototype` and whose values hold no backslash and no line break
(`jsSafe`). The predicate compiled from any text that `Transform` reads as `e`'s tree, the text
`e.render` among them, returns `e.denote tags`, the meaning of the filter, on every blob:
`analysis_denote`. A key such as `a-b` is a tag key but no identifier name, and `tags.a-b` reads
as a subtraction; a key such as `constructor` reads an inherited property.

The proof follows the three stages of ECMAScript that the source goes through:

* lexing: each sentence `TreeToSentence` writes lexes to the tokens of its derivation
  (`FilterTerm.jsTokens`), whatever follows it (`FilterTerm.lex_sentence`);
* parsing: those tokens parse to `FilterTerm.jsExpr`, where `&&` binds tighter than `||` and
  both associate to the left (`FilterTerm.parse_jsTokens`, `FilterExpr.parse_jsTokens`, and
  `FilterExpr.parse_chain` for the `(connector term)*` part, which follows `jsParseRest` at the
  levels of `&&` and `||` at once);
* evaluation: `jsExpr` evaluates to the boolean `denote` computes, each comparison to `false`
  when the key is missing and else to the comparison of its last value with the literal
  (`eval_comparisonExpr`, `FilterExpr.eval_jsChain`).

`runPredicate_return` joins the three for the statement `return s;` after the prelude.
`jsLex` and `jsParse` run on fuel: `jsLex_fuel` shows that more fuel than characters changes
nothing, and `ParsesTo n` states a parse for every fuel from `n` on; the parse of a derivation's
tokens needs eight passes a token, which `runPredicate`'s sixteen cover.
-/

namespace Azurite

/-! ### Lexing with enough fuel -/

theorem jsPunctuators_length_pos : ∀ p ∈ jsPunctuators, 0 < p.length := by decide

/-- Every pass of the lexer reads at least one character, so any fuel above the length gives the
same result. -/
theorem jsLex_fuel : ∀ {f f' : Nat} {s : List Char}, s.length < f → s.length < f' →
    jsLex f s = jsLex f' s
  | 0, _, _, h, _ => absurd h (Nat.not_lt_zero _)
  | _ + 1, 0, _, _, h => absurd h (Nat.not_lt_zero _)
  | _ + 1, _ + 1, [], _, _ => by simp only [jsLex]
  | f + 1, f' + 1, c :: cs, h, h' => by
    simp only [List.length_cons, Nat.add_lt_add_iff_right] at h h'
    have hd : ∀ {l : List Char}, l.length ≤ cs.length → jsLex f l = jsLex f' l :=
      fun hl => jsLex_fuel (by omega) (by omega)
    simp only [jsLex]
    by_cases h₁ : isJsWhitespace c = true
    · rw [if_pos h₁, if_pos h₁, hd le_rfl]
    rw [if_neg h₁, if_neg h₁]
    by_cases h₂ : isIdentifierStart c = true
    · rw [if_pos h₂, if_pos h₂, hd (List.dropWhile_suffix _).length_le]
    rw [if_neg h₂, if_neg h₂]
    by_cases h₃ : c = '\''
    · rw [if_pos h₃, if_pos h₃]
      split
      · rename_i rest hrest
        have := congrArg List.length hrest
        simp only [List.length_drop, List.length_cons] at this
        rw [hd (by omega)]
      · rfl
    rw [if_neg h₃, if_neg h₃]
    by_cases h₄ : c.isDigit = true
    · rw [if_pos h₄, if_pos h₄]
      split
      · rw [hd (List.dropWhile_suffix _).length_le]
      · rfl
    rw [if_neg h₄, if_neg h₄]
    split
    · rename_i p hp
      have := jsPunctuators_length_pos p (List.mem_of_find?_eq_some hp)
      rw [hd (by simp only [List.length_drop, List.length_cons]; omega)]
    · rfl

/-- The lexer with one pass of fuel more than the characters, which `jsLex_fuel` shows is
enough. -/
def jsLexAll (s : List Char) : Option (List JsToken) := jsLex (s.length + 1) s

theorem jsLexAll_of_le {l cs : List Char} (hl : l.length ≤ cs.length) :
    jsLex (cs.length + 1) l = jsLexAll l :=
  jsLex_fuel (by omega) (by omega)

theorem jsLexAll_whitespace {c : Char} {cs : List Char} (hc : isJsWhitespace c = true) :
    jsLexAll (c :: cs) = jsLexAll cs := by
  rw [jsLexAll, List.length_cons, jsLex, if_pos hc, jsLexAll_of_le le_rfl]

/-- An identifier runs to the first character that cannot continue it. -/
theorem jsLexAll_identifier {c : Char} {l r : List Char} (hw : isJsWhitespace c = false)
    (hc : isIdentifierStart c = true) (hl : ∀ d ∈ l, isIdentifierPart d = true)
    (hr : ∀ d ∈ r.head?, isIdentifierPart d = false) :
    jsLexAll (c :: (l ++ r)) = (jsLexAll r).map (.identifier (String.mk (c :: l)) :: ·) := by
  have ht : (l ++ r).takeWhile isIdentifierPart = l := by
    rw [List.takeWhile_append_of_pos hl]
    cases r with
    | nil => simp
    | cons d r => simp [List.takeWhile_cons, hr d rfl]
  have hd : (l ++ r).dropWhile isIdentifierPart = r := by
    rw [List.dropWhile_append_of_pos hl]
    cases r with
    | nil => rfl
    | cons d r => simp [List.dropWhile_cons, hr d rfl]
  rw [jsLexAll, List.length_cons, jsLex, if_neg (by simp [hw]), if_pos hc, ht, hd,
    jsLexAll_of_le (by simp)]

/-- A string literal without escapes runs to its closing quote. -/
theorem jsLexAll_string {v r : List Char}
    (hv : ∀ d ∈ v, (d ≠ '\'' && d ≠ '\\' && !isLineTerminator d) = true) :
    jsLexAll ('\'' :: (v ++ '\'' :: r)) = (jsLexAll r).map (.string (String.mk v) :: ·) := by
  have ht : (v ++ '\'' :: r).takeWhile (fun d => d ≠ '\'' && d ≠ '\\' && !isLineTerminator d) =
      v := by
    rw [List.takeWhile_append_of_pos hv]
    simp [List.takeWhile_cons]
  rw [jsLexAll, List.length_cons, jsLex, if_neg (by decide), if_neg (by decide), if_pos rfl, ht]
  simp only [List.drop_left]
  rw [jsLexAll_of_le (by simp; omega)]

/-- A punctuator is the first of `jsPunctuators` the text starts with. -/
theorem jsLexAll_punctuator {c : Char} {cs : List Char} {p : String}
    (hc : isJsWhitespace c = false ∧ isIdentifierStart c = false ∧ c ≠ '\'' ∧ c.isDigit = false)
    (hp : (jsPunctuators.find? fun q => q.toList.isPrefixOf (c :: cs)) = some p) :
    jsLexAll (c :: cs) = (jsLexAll ((c :: cs).drop p.length)).map (.punctuator p :: ·) := by
  obtain ⟨h₁, h₂, h₃, h₄⟩ := hc
  have := jsPunctuators_length_pos p (List.mem_of_find?_eq_some hp)
  rw [jsLexAll, List.length_cons, jsLex, if_neg (by simp [h₁]), if_neg (by simp [h₂]),
    if_neg h₃, if_neg (by simp [h₄])]
  simp only [hp]
  rw [jsLexAll_of_le (by simp; omega)]

/-! #### The pieces of a sentence -/

section
variable {cs : List Char}

theorem jsLexAll_space : jsLexAll (' ' :: cs) = jsLexAll cs := jsLexAll_whitespace rfl

theorem jsLexAll_open : jsLexAll ('(' :: cs) = (jsLexAll cs).map (.punctuator "(" :: ·) :=
  jsLexAll_punctuator (by decide) (by simp [jsPunctuators, List.find?, List.isPrefixOf])

theorem jsLexAll_close : jsLexAll (')' :: cs) = (jsLexAll cs).map (.punctuator ")" :: ·) :=
  jsLexAll_punctuator (by decide) (by simp [jsPunctuators, List.find?, List.isPrefixOf])

theorem jsLexAll_dot : jsLexAll ('.' :: cs) = (jsLexAll cs).map (.punctuator "." :: ·) :=
  jsLexAll_punctuator (by decide) (by simp [jsPunctuators, List.find?, List.isPrefixOf])

theorem jsLexAll_semicolon : jsLexAll (';' :: cs) = (jsLexAll cs).map (.punctuator ";" :: ·) :=
  jsLexAll_punctuator (by decide) (by simp [jsPunctuators, List.find?, List.isPrefixOf])

theorem jsLexAll_strictNe :
    jsLexAll ('!' :: '=' :: '=' :: ' ' :: cs) =
      (jsLexAll (' ' :: cs)).map (.punctuator "!==" :: ·) :=
  jsLexAll_punctuator (by decide) (by simp [jsPunctuators, List.find?, List.isPrefixOf])

theorem jsLexAll_and :
    jsLexAll ('&' :: '&' :: ' ' :: cs) = (jsLexAll (' ' :: cs)).map (.punctuator "&&" :: ·) :=
  jsLexAll_punctuator (by decide) (by simp [jsPunctuators, List.find?, List.isPrefixOf])

theorem jsLexAll_or :
    jsLexAll ('|' :: '|' :: ' ' :: cs) = (jsLexAll (' ' :: cs)).map (.punctuator "||" :: ·) :=
  jsLexAll_punctuator (by decide) (by simp [jsPunctuators, List.find?, List.isPrefixOf])

theorem jsLexAll_tags :
    jsLexAll ('t' :: 'a' :: 'g' :: 's' :: '.' :: cs) =
      (jsLexAll ('.' :: cs)).map (.identifier "tags" :: ·) :=
  @jsLexAll_identifier 't' ['a', 'g', 's'] ('.' :: cs) rfl rfl (by decide)
    (fun _ h => by cases h; rfl)

theorem jsLexAll_undefined :
    jsLexAll ('u' :: 'n' :: 'd' :: 'e' :: 'f' :: 'i' :: 'n' :: 'e' :: 'd' :: ' ' :: cs) =
      (jsLexAll (' ' :: cs)).map (.identifier "undefined" :: ·) :=
  @jsLexAll_identifier 'u' ['n', 'd', 'e', 'f', 'i', 'n', 'e', 'd'] (' ' :: cs) rfl rfl
    (by decide) (fun _ h => by cases h; rfl)

theorem jsLexAll_return :
    jsLexAll ('r' :: 'e' :: 't' :: 'u' :: 'r' :: 'n' :: ' ' :: cs) =
      (jsLexAll (' ' :: cs)).map (.identifier "return" :: ·) :=
  @jsLexAll_identifier 'r' ['e', 't', 'u', 'r', 'n'] (' ' :: cs) rfl rfl (by decide)
    (fun _ h => by cases h; rfl)

end

/-- `s` lexes to `ts` whatever text follows it. -/
def LexesTo (s : List Char) (ts : List JsToken) : Prop :=
  ∀ r, jsLexAll (s ++ r) = (jsLexAll r).map (ts ++ ·)

theorem LexesTo.append {a b : List Char} {ta tb : List JsToken} (ha : LexesTo a ta)
    (hb : LexesTo b tb) : LexesTo (a ++ b) (ta ++ tb) := fun r => by
  rw [List.append_assoc, ha, hb, Option.map_map]
  congr 1
  funext l
  simp

/-! ### What the compiled predicate should be -/

/-- The operator `convertOperator` writes for a filter operator. -/
def jsOperatorOf (op : String) : String := if op = "=" then "===" else op

theorem convertOperator_of_mem {op : String} (h : op ∈ tagFilterOperators) :
    convertOperator (some op) = .ok (jsOperatorOf op) := by
  simp only [tagFilterOperators, List.mem_cons, List.not_mem_nil, or_false] at h
  rcases h with rfl | rfl | rfl | rfl | rfl <;> rfl

/-- The operator `convertConnector` writes for a connector. -/
def Connective.jsOperator : Connective → String
  | .and => "&&"
  | .or => "||"

theorem convertConnector_text (c : Connective) :
    convertConnector (some c.text) = .ok (" " ++ c.jsOperator ++ " ") := by
  cases c <;> rfl

/-- A key `tags.key` reads as the own property `key`: an identifier name that no property of
`Object.prototype` has. -/
def isPropertyKey (key : String) : Bool :=
  match key.toList with
  | [] => false
  | c :: cs => isIdentifierStart c && cs.all isIdentifierPart && !objectPrototypeNames.contains key

/-- A value that the string literal `'value'` spells as it is: no escape and no line break. -/
def isPlainValue (value : String) : Bool :=
  value.toList.all fun d => d ≠ '\\' && !isLineTerminator d

/-- The comparisons whose sentence means what the comparison means. -/
def jsSafe (key _op value : String) : Bool := isPropertyKey key && isPlainValue value

mutual

/-- Every comparison of a derivation satisfies `p`. -/
def FilterExpr.allComparisons (p : String → String → String → Bool) : FilterExpr → Bool
  | .mk first rest => first.allComparisons p && FilterExpr.restAllComparisons p rest

/-- `allComparisons` of the `(connector term)*` part. -/
def FilterExpr.restAllComparisons (p : String → String → String → Bool) :
    List (Connective × FilterTerm) → Bool
  | [] => true
  | (_, t) :: rest => t.allComparisons p && FilterExpr.restAllComparisons p rest

/-- `allComparisons` of a term. -/
def FilterTerm.allComparisons (p : String → String → String → Bool) : FilterTerm → Bool
  | .comparison key op value => p key op value
  | .group e => e.allComparisons p

end

/-- The tokens of a comparison's sentence between its parentheses. -/
def comparisonTokens (key op value : String) : List JsToken :=
  [.identifier "tags", .punctuator ".", .identifier key, .punctuator "!==",
    .identifier "undefined", .punctuator "&&", .identifier "tags", .punctuator ".",
    .identifier key, .punctuator (jsOperatorOf op), .string value]

mutual

/-- The tokens of the sentences of a group's tokens. -/
def FilterExpr.jsTokens : FilterExpr → List JsToken
  | .mk first rest => first.jsTokens ++ FilterExpr.restJsTokens rest

/-- The tokens of the `(connector term)*` part. -/
def FilterExpr.restJsTokens : List (Connective × FilterTerm) → List JsToken
  | [] => []
  | (c, t) :: rest => .punctuator c.jsOperator :: (t.jsTokens ++ FilterExpr.restJsTokens rest)

/-- The tokens of a term's sentence, in its parentheses. -/
def FilterTerm.jsTokens : FilterTerm → List JsToken
  | .comparison key op value =>
    .punctuator "(" :: (comparisonTokens key op value ++ [.punctuator ")"])
  | .group e => .punctuator "(" :: (e.jsTokens ++ [.punctuator ")"])

end

/-- The expression a comparison's sentence parses to. -/
def comparisonExpr (key op value : String) : JsExpr :=
  .binary "&&" (.binary "!==" (.member (.identifier "tags") key) (.identifier "undefined"))
    (.binary (jsOperatorOf op) (.member (.identifier "tags") key) (.string value))

/-- `d || c`, or `c` when there is no disjunction before it. -/
def orWith : Option JsExpr → JsExpr → JsExpr
  | none, c => c
  | some d, c => .binary "||" d c

mutual

/-- The expression a group's sentence parses to: `&&` binds tighter than `||`, and both
associate to the left. -/
def FilterExpr.jsExpr : FilterExpr → JsExpr
  | .mk first rest => FilterExpr.jsChain rest none first.jsExpr

/-- The `(connector term)*` part after the disjunction `d` of the finished conjunctions and the
conjunction `c` being built. -/
def FilterExpr.jsChain : List (Connective × FilterTerm) → Option JsExpr → JsExpr → JsExpr
  | [], d, c => orWith d c
  | (.and, t) :: rest, d, c => FilterExpr.jsChain rest d (.binary "&&" c t.jsExpr)
  | (.or, t) :: rest, d, c => FilterExpr.jsChain rest (some (orWith d c)) t.jsExpr

/-- The expression a term's sentence parses to. -/
def FilterTerm.jsExpr : FilterTerm → JsExpr
  | .comparison key op value => comparisonExpr key op value
  | .group e => e.jsExpr

end

/-! ### Lexing the sentences -/

theorem foldl_append_toList : ∀ (l : List String) (acc : String),
    (l.foldl (· ++ ·) acc).toList = acc.toList ++ l.flatMap String.toList
  | [], acc => by simp
  | s :: l, acc => by
    rw [List.foldl_cons, foldl_append_toList l, List.flatMap_cons]
    simp only [String.toList, String.data_append, List.append_assoc]

theorem String.toList_join (l : List String) :
    (String.join l).toList = l.flatMap String.toList := by
  rw [String.join, foldl_append_toList]
  rfl

theorem lexesTo_nil : LexesTo [] [] := fun r => by simp

theorem lexesTo_open : LexesTo ['('] [.punctuator "("] := fun _ => jsLexAll_open

theorem lexesTo_close : LexesTo [')'] [.punctuator ")"] := fun _ => jsLexAll_close

theorem isPropertyKey_cons {key : String} (h : isPropertyKey key = true) :
    ∃ c cs, key.toList = c :: cs ∧ isIdentifierStart c = true ∧
      ∀ d ∈ cs, isIdentifierPart d = true := by
  unfold isPropertyKey at h
  split at h
  · cases h
  · rename_i c cs hk
    simp only [Bool.and_eq_true, List.all_eq_true] at h
    exact ⟨c, cs, hk, h.1.1, h.1.2⟩

/-- A connector's sentence, ` && ` or ` || `. -/
theorem lexesTo_connector (c : Connective) :
    LexesTo (" " ++ c.jsOperator ++ " ").toList [.punctuator c.jsOperator] := fun r => by
  cases c <;>
    simp only [Connective.jsOperator, String.toList, String.data_append, List.cons_append,
      List.nil_append, jsLexAll_space, jsLexAll_and, jsLexAll_or, Option.map_map]

/-- A comparison's sentence: `( tags.key !== undefined && tags.key op 'value' )`. -/
theorem lexesTo_comparison {key op value : String}
    (hv : (FilterTerm.comparison key op value).valid = true) (hs : jsSafe key op value = true) :
    ∃ str, TagComparingToSentence ⟨some key, some op, some ("'" ++ value ++ "'")⟩ = .ok str ∧
      LexesTo str.toList (FilterTerm.comparison key op value).jsTokens := by
  simp only [FilterTerm.valid, Bool.and_eq_true, Bool.not_eq_true', List.isEmpty_eq_false,
    List.all_eq_true, decide_eq_true_eq, List.contains_eq_any_beq, List.any_eq_false,
    beq_iff_eq] at hv
  obtain ⟨⟨⟨-, hkey⟩, hop⟩, hval⟩ := hv
  simp only [jsSafe, isPlainValue, Bool.and_eq_true, List.all_eq_true] at hs
  obtain ⟨c, cs, hk, hc, hcs⟩ := isPropertyKey_cons hs.1
  have hw : isJsWhitespace c = false :=
    isTagKeyChar_not_whitespace (hkey c (hk ▸ List.mem_cons_self _ _))
  have hkey' : ∀ rest, jsLexAll (key.data ++ ' ' :: rest) =
      (jsLexAll (' ' :: rest)).map (.identifier key :: ·) := fun rest => by
    rw [show key.data = c :: cs from hk, List.cons_append,
      jsLexAll_identifier hw hc hcs (fun _ h => by cases h; rfl), ← hk]
    rfl
  have hop' : ∀ rest, jsLexAll ((jsOperatorOf op).data ++ ' ' :: rest) =
      (jsLexAll (' ' :: rest)).map (.punctuator (jsOperatorOf op) :: ·) := fun rest => by
    simp only [tagFilterOperators, List.mem_cons, List.not_mem_nil, or_false] at hop
    rcases hop with rfl | rfl | rfl | rfl | rfl <;>
      exact jsLexAll_punctuator (by decide)
        (by simp [jsPunctuators, List.find?, List.isPrefixOf, jsOperatorOf])
  have hstr : ∀ rest, jsLexAll ('\'' :: (value.data ++ '\'' :: rest)) =
      (jsLexAll rest).map (.string value :: ·) := fun rest =>
    jsLexAll_string fun d hd => by
      have := hs.2 d hd
      simp only [Bool.and_eq_true, decide_eq_true_eq, Bool.not_eq_true'] at this ⊢
      exact ⟨⟨fun h => hval d hd h.symm, this.1⟩, this.2⟩
  refine ⟨_, by simp only [TagComparingToSentence, convertOperator_of_mem hop, templateText]; rfl,
    fun r => ?_⟩
  simp only [String.toList, String.data_append, List.append_assoc, List.cons_append,
    List.nil_append, jsLexAll_open, jsLexAll_space, jsLexAll_tags, jsLexAll_dot, hkey',
    jsLexAll_strictNe, jsLexAll_undefined, jsLexAll_and, hop', hstr, jsLexAll_close,
    Option.map_map]
  rfl

mutual

/-- The sentences of a derivation's group lex to its tokens. -/
theorem FilterExpr.lex_sentences : ∀ {e : FilterExpr}, e.valid = true →
    e.allComparisons jsSafe = true →
    ∃ strs, Token.childSentences e.tokens = .ok strs ∧
      LexesTo (String.join strs).toList e.jsTokens
  | .mk first rest, hv, hs => by
    simp only [FilterExpr.valid, FilterExpr.allComparisons, Bool.and_eq_true] at hv hs
    obtain ⟨str, h₁, l₁⟩ := FilterTerm.lex_sentence hv.1 hs.1
    obtain ⟨strs, h₂, l₂⟩ := FilterExpr.lex_restSentences hv.2 hs.2
    refine ⟨str :: strs, ?_, ?_⟩
    · simp only [FilterExpr.tokens, Token.childSentences, h₁, h₂, bind, Except.bind, pure,
        Except.pure]
    · rw [String.toList_join, List.flatMap_cons, ← String.toList_join, FilterExpr.jsTokens]
      exact l₁.append l₂

/-- The sentences of the `(connector term)*` part lex to its tokens. -/
theorem FilterExpr.lex_restSentences : ∀ {rest : List (Connective × FilterTerm)},
    FilterExpr.restValid rest = true → FilterExpr.restAllComparisons jsSafe rest = true →
    ∃ strs, Token.childSentences (FilterExpr.restTokens rest) = .ok strs ∧
      LexesTo (String.join strs).toList (FilterExpr.restJsTokens rest)
  | [], _, _ => ⟨[], rfl, lexesTo_nil⟩
  | (c, t) :: rest, hv, hs => by
    simp only [FilterExpr.restValid, FilterExpr.restAllComparisons, Bool.and_eq_true] at hv hs
    obtain ⟨str, h₁, l₁⟩ := FilterTerm.lex_sentence hv.1 hs.1
    obtain ⟨strs, h₂, l₂⟩ := FilterExpr.lex_restSentences hv.2 hs.2
    refine ⟨(" " ++ c.jsOperator ++ " ") :: str :: strs, ?_, ?_⟩
    · simp only [FilterExpr.restTokens, Token.childSentences, Token.sentence,
        convertConnector_text, h₁, h₂, bind, Except.bind, pure, Except.pure]
    · rw [String.toList_join, List.flatMap_cons, List.flatMap_cons, ← String.toList_join,
        FilterExpr.restJsTokens]
      exact (lexesTo_connector c).append (l₁.append l₂)

/-- A term's sentence lexes to its tokens. -/
theorem FilterTerm.lex_sentence : ∀ {t : FilterTerm}, t.valid = true →
    t.allComparisons jsSafe = true →
    ∃ str, t.token.sentence = .ok str ∧ LexesTo str.toList t.jsTokens
  | .comparison _ _ _, hv, hs => lexesTo_comparison hv hs
  | .group e, hv, hs => by
    obtain ⟨strs, h, l⟩ := FilterExpr.lex_sentences hv hs
    refine ⟨"(" ++ String.join strs ++ ")", ?_, ?_⟩
    · simp only [FilterTerm.token, Token.sentence, h, bind, Except.bind, pure, Except.pure]
    · have : ("(" ++ String.join strs ++ ")").toList =
          ['('] ++ (String.join strs).toList ++ [')'] := by
        simp only [String.toList, String.data_append]
      rw [this, FilterTerm.jsTokens]
      exact (lexesTo_open.append l).append lexesTo_close

end

/-! ### Parsing -/

/-- No operator of level `L` stands at the head of `X`: an operand of level `L` ends there. -/
def jsStopsAt (L : Nat) : List JsToken → Bool
  | .punctuator p :: _ => !decide (p ∈ jsOperators L)
  | _ => true

/-- With any fuel from `n` on, `jsParse` reads `e` at level `L` off the front of `ts` and leaves
`X`. -/
def ParsesTo (n L : Nat) (ts : List JsToken) (e : JsExpr) (X : List JsToken) : Prop :=
  ∀ f, n ≤ f → jsParse f L ts = some (e, X)

section
variable {f L n m : Nat} {ts X : List JsToken} {e : JsExpr}

theorem jsParse_pos {r : JsExpr × List JsToken} (h : jsParse f L ts = some r) : 0 < f := by
  cases f with
  | zero => simp [jsParse] at h
  | succ => exact Nat.succ_pos _

theorem jsParse_lt {l : JsExpr} {r : List JsToken} (hL : L < 6)
    (h : jsParse f (L + 1) ts = some (l, r)) : jsParse (f + 1) L ts = jsParseRest f L l r := by
  simp only [jsParse, if_pos hL, h, bind, Option.bind]

theorem jsParse_six {r : List JsToken} (h : jsParsePrimary f ts = some (e, r)) :
    jsParse (f + 1) 6 ts = jsParseMembers f e r := by
  simp only [jsParse, lt_irrefl, if_false, h, bind, Option.bind]

theorem jsParseRest_stop (h : jsStopsAt L X = true) : jsParseRest (f + 1) L e X = some (e, X) := by
  match X, h with
  | [], _ => rfl
  | .identifier _ :: _, _ => rfl
  | .string _ :: _, _ => rfl
  | .number _ :: _, _ => rfl
  | .punctuator p :: _, h =>
    simp only [jsStopsAt, Bool.not_eq_true', decide_eq_false_iff_not] at h
    simp only [jsParseRest, if_neg h]

theorem jsParseRest_op {p : String} {left r : JsExpr} {rest : List JsToken}
    (hp : p ∈ jsOperators L) (h : jsParse f (L + 1) ts = some (r, rest)) :
    jsParseRest (f + 1) L left (.punctuator p :: ts) = jsParseRest f L (.binary p left r) rest := by
  simp only [jsParseRest, if_pos hp, h, bind, Option.bind]

theorem jsParseMembers_stop (h : X.head? ≠ some (.punctuator ".")) :
    jsParseMembers (f + 1) e X = some (e, X) :=
  jsParseMembers.eq_4 _ _ _ (fun _ _ hX => h (by rw [hX]; rfl)) (fun _ hX => h (by rw [hX]; rfl))

theorem ParsesTo.mono (h : ParsesTo n L ts e X) (hm : n ≤ m) : ParsesTo m L ts e X :=
  fun f hf => h f (by omega)

/-- An operand of level `L + 1` is one of level `L` when no operator of level `L` follows it. -/
theorem ParsesTo.up (hL : L < 6) (h : ParsesTo n (L + 1) ts e X) (hX : jsStopsAt L X = true) :
    ParsesTo (n + 1) L ts e X := by
  intro f hf
  obtain ⟨g, rfl⟩ : ∃ g, f = g + 1 := ⟨f - 1, by omega⟩
  have hg := h g (by omega)
  obtain ⟨k, rfl⟩ : ∃ k, g = k + 1 := ⟨g - 1, by have := jsParse_pos hg; omega⟩
  rw [jsParse_lt hL hg, jsParseRest_stop hX]

/-- `a p b` with `p` of level `L`, when no operator of level `L` follows. -/
theorem ParsesTo.binary {n₁ n₂ : Nat} {rest : List JsToken} {p : String} {a b : JsExpr}
    (hL : L < 6) (hp : p ∈ jsOperators L) (ha : ParsesTo n₁ (L + 1) ts a (.punctuator p :: rest))
    (hb : ParsesTo n₂ (L + 1) rest b X) (hX : jsStopsAt L X = true) :
    ParsesTo (n₁ + n₂ + 2) L ts (.binary p a b) X := by
  intro f hf
  obtain ⟨k, rfl⟩ : ∃ k, f = k + 2 := ⟨f - 2, by omega⟩
  have hk := hb k (by omega)
  obtain ⟨m, rfl⟩ : ∃ m, k = m + 1 := ⟨k - 1, by have := jsParse_pos hk; omega⟩
  rw [jsParse_lt hL (ha _ (by omega)), jsParseRest_op hp hk, jsParseRest_stop hX]

/-- A parenthesised expression. -/
theorem ParsesTo.paren (h : ParsesTo n 0 ts e (.punctuator ")" :: X))
    (hX : X.head? ≠ some (.punctuator ".")) : ParsesTo (n + 2) 6 (.punctuator "(" :: ts) e X := by
  intro f hf
  have := jsParse_pos (h n le_rfl)
  obtain ⟨m, rfl⟩ : ∃ m, f = m + 3 := ⟨f - 3, by omega⟩
  have hm := h (m + 1) (by omega)
  rw [jsParse_six (show jsParsePrimary (m + 2) (.punctuator "(" :: ts) = some (e, X) by
    simp only [jsParsePrimary, hm, bind, Option.bind]), jsParseMembers_stop hX]

/-- An identifier. -/
theorem parsesTo_identifier {name : String} (hX : X.head? ≠ some (.punctuator ".")) :
    ParsesTo 2 6 (.identifier name :: X) (.identifier name) X := by
  intro f hf
  obtain ⟨k, rfl⟩ : ∃ k, f = k + 2 := ⟨f - 2, by omega⟩
  rw [jsParse_six (show jsParsePrimary (k + 1) (.identifier name :: X) = some (.identifier name, X)
    from rfl),
    jsParseMembers_stop hX]

/-- A string literal. -/
theorem parsesTo_string {value : String} (hX : X.head? ≠ some (.punctuator ".")) :
    ParsesTo 2 6 (.string value :: X) (.string value) X := by
  intro f hf
  obtain ⟨k, rfl⟩ : ∃ k, f = k + 2 := ⟨f - 2, by omega⟩
  rw [jsParse_six (show jsParsePrimary (k + 1) (.string value :: X) = some (.string value, X)
    from rfl),
    jsParseMembers_stop hX]

/-- `tags.key`. -/
theorem parsesTo_tagsMember {key : String} (hX : X.head? ≠ some (.punctuator ".")) :
    ParsesTo 3 6 (.identifier "tags" :: .punctuator "." :: .identifier key :: X)
      (.member (.identifier "tags") key) X := by
  intro f hf
  obtain ⟨k, rfl⟩ : ∃ k, f = k + 3 := ⟨f - 3, by omega⟩
  rw [jsParse_six (show jsParsePrimary (k + 2) (.identifier "tags" :: .punctuator "." ::
      .identifier key :: X) = some (.identifier "tags", .punctuator "." :: .identifier key :: X)
      from rfl),
    jsParseMembers.eq_2, jsParseMembers_stop hX]

end

/-- `tags.key op 'value'`: the operator is `===`, of level 2, or a relational one, of level 3. -/
theorem parsesTo_comparisonRight {key op value : String} (hop : op ∈ tagFilterOperators)
    (X : List JsToken) :
    ParsesTo 13 2 (.identifier "tags" :: .punctuator "." :: .identifier key ::
      .punctuator (jsOperatorOf op) :: .string value :: .punctuator ")" :: X)
      (.binary (jsOperatorOf op) (.member (.identifier "tags") key) (.string value))
      (.punctuator ")" :: X) := by
  simp only [tagFilterOperators, List.mem_cons, List.not_mem_nil, or_false] at hop
  rcases hop with rfl | rfl | rfl | rfl | rfl
  · exact ParsesTo.mono (ParsesTo.binary (by decide) (by decide)
      (((parsesTo_tagsMember (by simp [jsOperatorOf])).up (by decide) (by rfl)).up (by decide)
        (by rfl) |>.up (by decide) (by rfl))
      (((parsesTo_string (by simp)).up (by decide) (by rfl)).up (by decide) (by rfl)
        |>.up (by decide) (by rfl)) (by rfl)) (by decide)
  all_goals exact ParsesTo.mono (ParsesTo.up (by decide) (ParsesTo.binary (by decide) (by decide)
      (((parsesTo_tagsMember (by simp [jsOperatorOf])).up (by decide) (by rfl)).up (by decide)
        (by rfl))
      (((parsesTo_string (by simp)).up (by decide) (by rfl)).up (by decide) (by rfl)) (by rfl))
      (by rfl)) (by decide)

/-- The tokens between a comparison's parentheses parse to `comparisonExpr`. -/
theorem parsesTo_comparison {key op value : String} (hop : op ∈ tagFilterOperators)
    (X : List JsToken) :
    ParsesTo 29 0 (comparisonTokens key op value ++ .punctuator ")" :: X)
      (comparisonExpr key op value) (.punctuator ")" :: X) := by
  have hne : ParsesTo 13 2 (.identifier "tags" :: .punctuator "." :: .identifier key ::
      .punctuator "!==" :: .identifier "undefined" :: .punctuator "&&" :: .identifier "tags" ::
      .punctuator "." :: .identifier key :: .punctuator (jsOperatorOf op) :: .string value ::
      .punctuator ")" :: X)
      (.binary "!==" (.member (.identifier "tags") key) (.identifier "undefined"))
      (.punctuator "&&" :: .identifier "tags" :: .punctuator "." :: .identifier key ::
        .punctuator (jsOperatorOf op) :: .string value :: .punctuator ")" :: X) :=
    ParsesTo.binary (by decide) (by decide)
      (((parsesTo_tagsMember (by simp)).up (by decide) (by rfl)).up (by decide) (by rfl)
        |>.up (by decide) (by rfl))
      (((parsesTo_identifier (by simp)).up (by decide) (by rfl)).up (by decide) (by rfl)
        |>.up (by decide) (by rfl)) (by rfl)
  exact ((ParsesTo.binary (by decide) (by decide) hne (parsesTo_comparisonRight hop X)
    (by rfl)).up (by decide) (by rfl))

/-- What may follow a group's sentence: `)` closing the group, or `;` ending the statement. -/
def JsExprEnd : List JsToken → Prop
  | .punctuator p :: _ => p = ")" ∨ p = ";"
  | _ => False

/-- What may follow a term's sentence: a connector, or what may follow a group's sentence. -/
def JsTermEnd : List JsToken → Prop
  | .punctuator p :: _ => p = "&&" ∨ p = "||" ∨ p = ")" ∨ p = ";"
  | _ => False

/-- `)` and `;` are operators of no level, `&&` is of level 1 only and `||` of level 0 only. -/
theorem jsOperators_levels : ∀ L, ∀ p ∈ jsOperators L,
    p ≠ ")" ∧ p ≠ ";" ∧ (p = "&&" → L = 1) ∧ (p = "||" → L = 0)
  | 0 | 1 | 2 | 3 | 4 | 5 => by decide
  | _ + 6 => fun _ h => absurd h (List.not_mem_nil _)

section
variable {L : Nat} {X : List JsToken}

theorem JsExprEnd.stopsAt (h : JsExprEnd X) : jsStopsAt L X = true := by
  match X, h with
  | .punctuator _ :: _, h =>
    simp only [jsStopsAt, Bool.not_eq_true', decide_eq_false_iff_not]
    intro hm
    have := jsOperators_levels L _ hm
    rcases h with rfl | rfl
    exacts [this.1 rfl, this.2.1 rfl]

theorem JsExprEnd.termEnd (h : JsExprEnd X) : JsTermEnd X := by
  match X, h with
  | .punctuator _ :: _, h => exact .inr (.inr h)

theorem JsTermEnd.stopsAt (h : JsTermEnd X) (hL : 2 ≤ L) : jsStopsAt L X = true := by
  match X, h with
  | .punctuator _ :: _, h =>
    simp only [jsStopsAt, Bool.not_eq_true', decide_eq_false_iff_not]
    intro hm
    have := jsOperators_levels L _ hm
    rcases h with rfl | rfl | rfl | rfl
    · exact absurd (this.2.2.1 rfl) (by omega)
    · exact absurd (this.2.2.2 rfl) (by omega)
    · exact this.1 rfl
    · exact this.2.1 rfl

theorem JsTermEnd.not_dot (h : JsTermEnd X) : X.head? ≠ some (.punctuator ".") :=
  match X, h with
  | .punctuator _ :: _, h => by rcases h with rfl | rfl | rfl | rfl <;> simp

/-- A parenthesised expression followed by the end of a term is an operand of `&&`. -/
theorem ParsesTo.term {n : Nat} {ts : List JsToken} {e : JsExpr}
    (h : ParsesTo n 0 ts e (.punctuator ")" :: X)) (hX : JsTermEnd X) :
    ParsesTo (n + 6) 2 (.punctuator "(" :: ts) e X :=
  ((((h.paren hX.not_dot).up (by decide) (hX.stopsAt (by decide))).up (by decide)
    (hX.stopsAt (by decide))).up (by decide) (hX.stopsAt (by decide))).up (by decide)
    (hX.stopsAt (by decide))

end

theorem restJsTokens_termEnd {X : List JsToken} (hX : JsExprEnd X) :
    ∀ rest, JsTermEnd (FilterExpr.restJsTokens rest ++ X)
  | [] => hX.termEnd
  | (.and, _) :: _ => .inl rfl
  | (.or, _) :: _ => .inr (.inl rfl)

mutual

/-- A group's tokens parse, at the level of `||`, to `jsExpr`. -/
theorem FilterExpr.parse_jsTokens : ∀ {e : FilterExpr} {X : List JsToken}, e.valid = true →
    JsExprEnd X → ParsesTo (8 * e.jsTokens.length + 3) 0 (e.jsTokens ++ X) e.jsExpr X
  | .mk first rest, X, hv, hX => by
    simp only [FilterExpr.valid, Bool.and_eq_true] at hv
    intro f hf
    simp only [FilterExpr.jsTokens, List.length_append] at hf ⊢
    obtain ⟨k, rfl⟩ : ∃ k, f = k + 2 := ⟨f - 2, by omega⟩
    have ht := FilterTerm.parse_jsTokens hv.1 (restJsTokens_termEnd hX rest) k (by omega)
    obtain ⟨l, r, hl, hr⟩ :=
      FilterExpr.parse_chain none first.jsExpr hv.2 hX k (k + 1) (by omega) (by omega)
    rw [List.append_assoc, jsParse_lt (by decide) ((jsParse_lt (by decide) ht).trans hl)]
    exact hr

/-- The `(connector term)*` part: `jsParseRest` at the level of `&&` builds the conjunction `c`,
and at the level of `||` the disjunction `d` of the finished ones. -/
theorem FilterExpr.parse_chain : ∀ {rest : List (Connective × FilterTerm)} {X : List JsToken}
    (d : Option JsExpr) (c : JsExpr), FilterExpr.restValid rest = true → JsExprEnd X →
    ∀ f₁ f₀, 8 * (FilterExpr.restJsTokens rest).length + 1 ≤ f₁ →
      8 * (FilterExpr.restJsTokens rest).length + 1 ≤ f₀ →
      ∃ l r, jsParseRest f₁ 1 c (FilterExpr.restJsTokens rest ++ X) = some (l, r) ∧
        jsParseRest f₀ 0 (orWith d l) r = some (FilterExpr.jsChain rest d c, X)
  | [], X, d, c, _, hX, f₁, f₀, h₁, h₀ => by
    obtain ⟨a, rfl⟩ := Nat.exists_eq_add_one_of_ne_zero (show f₁ ≠ 0 by omega)
    obtain ⟨b, rfl⟩ := Nat.exists_eq_add_one_of_ne_zero (show f₀ ≠ 0 by omega)
    exact ⟨c, X, jsParseRest_stop hX.stopsAt, jsParseRest_stop hX.stopsAt⟩
  | (.and, t) :: rest, X, d, c, hv, hX, f₁, f₀, h₁, h₀ => by
    simp only [FilterExpr.restValid, Bool.and_eq_true] at hv
    simp only [FilterExpr.restJsTokens, Connective.jsOperator, List.length_cons,
      List.length_append, List.cons_append, List.append_assoc] at h₁ h₀ ⊢
    obtain ⟨a, rfl⟩ := Nat.exists_eq_add_one_of_ne_zero (show f₁ ≠ 0 by omega)
    have ht := FilterTerm.parse_jsTokens hv.1 (restJsTokens_termEnd hX rest) a (by omega)
    rw [jsParseRest_op (show "&&" ∈ jsOperators 1 by decide) ht]
    exact FilterExpr.parse_chain d (.binary "&&" c t.jsExpr) hv.2 hX a f₀ (by omega) (by omega)
  | (.or, t) :: rest, X, d, c, hv, hX, f₁, f₀, h₁, h₀ => by
    simp only [FilterExpr.restValid, Bool.and_eq_true] at hv
    simp only [FilterExpr.restJsTokens, Connective.jsOperator, List.length_cons,
      List.length_append, List.cons_append, List.append_assoc] at h₁ h₀ ⊢
    obtain ⟨a, rfl⟩ := Nat.exists_eq_add_one_of_ne_zero (show f₁ ≠ 0 by omega)
    obtain ⟨b, rfl⟩ : ∃ b, f₀ = b + 2 := ⟨f₀ - 2, by omega⟩
    have ht := FilterTerm.parse_jsTokens hv.1 (restJsTokens_termEnd hX rest) b (by omega)
    obtain ⟨l, r, hl, hr⟩ := FilterExpr.parse_chain (some (orWith d c)) t.jsExpr hv.2 hX b
      (b + 1) (by omega) (by omega)
    refine ⟨c, _, jsParseRest_stop rfl, ?_⟩
    rw [jsParseRest_op (show "||" ∈ jsOperators 0 by decide)
      ((jsParse_lt (by decide) ht).trans hl)]
    exact hr

/-- A term's tokens parse, at the level of an operand of `&&`, to `jsExpr`. -/
theorem FilterTerm.parse_jsTokens : ∀ {t : FilterTerm} {X : List JsToken}, t.valid = true →
    JsTermEnd X → ParsesTo (8 * t.jsTokens.length) 2 (t.jsTokens ++ X) t.jsExpr X
  | .comparison key op value, X, hv, hX => by
    simp only [FilterTerm.valid, Bool.and_eq_true, decide_eq_true_eq] at hv
    rw [FilterTerm.jsTokens, List.cons_append, List.append_assoc, List.singleton_append]
    exact ((parsesTo_comparison hv.1.2 X).term hX).mono (by simp [comparisonTokens])
  | .group e, X, hv, hX => by
    rw [FilterTerm.jsTokens, List.cons_append, List.append_assoc, List.singleton_append]
    have he : JsExprEnd (.punctuator ")" :: X) := Or.inl rfl
    exact ((FilterExpr.parse_jsTokens hv he).term hX).mono (by simp; omega)

end

/-! ### Evaluation -/

theorem isPropertyKey_not_mem {key : String} (h : isPropertyKey key = true) :
    key ∉ objectPrototypeNames := by
  unfold isPropertyKey at h
  split at h
  · cases h
  · simp only [Bool.and_eq_true, Bool.not_eq_true', List.contains_eq_any_beq, List.any_eq_false,
      beq_iff_eq] at h
    exact fun hm => h.2 key hm rfl

section
variable {env : JsEnv} {l r : JsExpr} {a b : JsValue}

theorem eval_and {a b : Bool} (hl : l.eval env = pure (.boolean a))
    (hr : r.eval env = pure (.boolean b)) :
    (JsExpr.binary "&&" l r).eval env = pure (.boolean (a && b)) := by
  rw [JsExpr.eval.eq_7, hl, pure_bind]
  cases a
  exacts [rfl, hr]

theorem eval_or {a b : Bool} (hl : l.eval env = pure (.boolean a))
    (hr : r.eval env = pure (.boolean b)) :
    (JsExpr.binary "||" l r).eval env = pure (.boolean (a || b)) := by
  rw [JsExpr.eval.eq_8, hl, pure_bind]
  cases a
  exacts [hr, rfl]

theorem eval_strictEq (hl : l.eval env = pure a) (hr : r.eval env = pure b) :
    (JsExpr.binary "===" l r).eval env = pure (.boolean (a.strictEquals b)) := by
  rw [JsExpr.eval.eq_9 _ _ _ _ (by decide) (by decide), hl, hr]
  rfl

theorem eval_strictNe (hl : l.eval env = pure a) (hr : r.eval env = pure b) :
    (JsExpr.binary "!==" l r).eval env = pure (.boolean !(a.strictEquals b)) := by
  rw [JsExpr.eval.eq_9 _ _ _ _ (by decide) (by decide), hl, hr]
  rfl

theorem eval_relational {op : String} {c : Bool} (hop : op ∈ ["<", ">", "<=", ">="])
    (hl : l.eval env = pure a) (hr : r.eval env = pure b) (hc : jsCompare op a b = some c) :
    (JsExpr.binary op l r).eval env = pure (.boolean c) := by
  simp only [List.mem_cons, List.not_mem_nil, or_false] at hop
  rcases hop with rfl | rfl | rfl | rfl <;>
    rw [JsExpr.eval.eq_9 _ _ _ _ (by decide) (by decide), hl, hr] <;> simp only [pure_bind, hc]

/-- `tags.key` for an own-property key: the value of its last pair, or `undefined`. -/
theorem tagProperty_of_not_mem {key : String} (hk : key ∉ objectPrototypeNames) :
    env.tagProperty key = pure ((tagValue env.tags key).elim .undefined .string) := by
  have hp : key ≠ "__proto__" := fun h => hk (h ▸ by decide)
  have hf : (fun t : String × String => t.1 == key && t.1 != "__proto__") = (·.1 == key) := by
    funext t
    by_cases h : t.1 = key <;> simp [h, hp]
  simp only [JsEnv.tagProperty, tagValue, hf]
  cases env.tags.reverse.find? (·.1 == key) <;> simp [hk]

theorem eval_tagsMember {key : String} (hk : key ∉ objectPrototypeNames) :
    (JsExpr.member (.identifier "tags") key).eval env =
      pure ((tagValue env.tags key).elim .undefined .string) := by
  rw [JsExpr.eval.eq_6, JsExpr.eval.eq_1, pure_bind]
  exact tagProperty_of_not_mem hk

/-- A comparison's expression evaluates to the comparison's meaning: the key's test against
`undefined` is `false` exactly when the key is missing, and then `&&` skips the comparison. -/
theorem eval_comparisonExpr {key op value : String} (hop : op ∈ tagFilterOperators)
    (hk : key ∉ objectPrototypeNames) :
    (comparisonExpr key op value).eval env =
      pure (.boolean ((FilterTerm.comparison key op value).denote env.tags)) := by
  have hm := @eval_tagsMember env key hk
  have hne := eval_strictNe hm (JsExpr.eval.eq_2 env)
  have hs : (JsExpr.string value).eval env = pure (.string value) := JsExpr.eval.eq_4 env value
  simp only [tagFilterOperators, List.mem_cons, List.not_mem_nil, or_false] at hop
  simp only [comparisonExpr, FilterTerm.denote]
  cases htv : tagValue env.tags key <;> simp only [htv, Option.elim_none, Option.elim_some] at hm hne
  all_goals
    rcases hop with rfl | rfl | rfl | rfl | rfl
    · exact eval_and hne (eval_strictEq hm hs)
    all_goals exact eval_and hne (eval_relational (by decide) hm hs rfl)

end

section
variable {env : JsEnv}

mutual

/-- A group's expression evaluates to the group's meaning. -/
theorem FilterExpr.eval_jsExpr : ∀ {e : FilterExpr}, e.valid = true →
    e.allComparisons jsSafe = true → e.jsExpr.eval env = pure (.boolean (e.denote env.tags))
  | .mk first rest, hv, hs => by
    simp only [FilterExpr.valid, FilterExpr.allComparisons, Bool.and_eq_true] at hv hs
    exact FilterExpr.eval_jsChain hv.2 hs.2 (fun _ _ hx => by simpa [orWith] using hx)
      (FilterTerm.eval_jsExpr hv.1 hs.1)

/-- The `(connector term)*` part evaluates as `denoteRest` computes, `d` standing for the
disjunction `bd` and `c` for the conjunction `bc`. -/
theorem FilterExpr.eval_jsChain : ∀ {rest : List (Connective × FilterTerm)} {d : Option JsExpr}
    {c : JsExpr} {bd bc : Bool}, FilterExpr.restValid rest = true →
    FilterExpr.restAllComparisons jsSafe rest = true →
    (∀ x bx, x.eval env = pure (.boolean bx) →
      (orWith d x).eval env = pure (.boolean (bd || bx))) →
    c.eval env = pure (.boolean bc) →
    (FilterExpr.jsChain rest d c).eval env =
      pure (.boolean (FilterExpr.denoteRest env.tags rest bd bc))
  | [], _, c, _, bc, _, _, hd, hc => hd c bc hc
  | (.and, t) :: rest, _, _, _, _, hv, hs, hd, hc => by
    simp only [FilterExpr.restValid, FilterExpr.restAllComparisons, Bool.and_eq_true] at hv hs
    rw [FilterExpr.jsChain, FilterExpr.denoteRest]
    exact FilterExpr.eval_jsChain hv.2 hs.2 hd (eval_and hc (FilterTerm.eval_jsExpr hv.1 hs.1))
  | (.or, t) :: rest, d, c, _, bc, hv, hs, hd, hc => by
    simp only [FilterExpr.restValid, FilterExpr.restAllComparisons, Bool.and_eq_true] at hv hs
    rw [FilterExpr.jsChain, FilterExpr.denoteRest]
    exact FilterExpr.eval_jsChain hv.2 hs.2 (fun _ _ hx => eval_or (hd c bc hc) hx)
      (FilterTerm.eval_jsExpr hv.1 hs.1)

/-- A term's expression evaluates to the term's meaning. -/
theorem FilterTerm.eval_jsExpr : ∀ {t : FilterTerm}, t.valid = true →
    t.allComparisons jsSafe = true → t.jsExpr.eval env = pure (.boolean (t.denote env.tags))
  | .comparison _ _ _, hv, hs => by
    simp only [FilterTerm.valid, FilterTerm.allComparisons, jsSafe, Bool.and_eq_true,
      decide_eq_true_eq] at hv hs
    exact eval_comparisonExpr hv.1.2 (isPropertyKey_not_mem hs.1)
  | .group e, hv, hs => FilterExpr.eval_jsExpr hv hs

end

end

/-! ### The compiled predicate -/

/-- `TreeToFunction` writes `predicatePrelude`, then `return` with the tree's sentence. -/
theorem TreeToFunction_eq (tree : List Token) :
    TreeToFunction tree = (fun j => predicatePrelude ++ ("return " ++ j ++ ";")) <$>
      TreeToSentence tree := by
  unfold TreeToFunction
  cases TreeToSentence tree <;> rfl

/-- The predicate of `return s;`, when `s` lexes to `ts` and `ts` parses to `x`, returns what `x`
evaluates to. -/
theorem runPredicate_return {env : JsEnv} {str : String} {ts : List JsToken} {x : JsExpr}
    {n : Nat} (hl : LexesTo str.toList ts)
    (hp : ParsesTo n 0 (ts ++ [.punctuator ";"]) x [.punctuator ";"])
    (hn : n ≤ 16 * ts.length + 32) :
    runPredicate env (predicatePrelude ++ ("return " ++ str ++ ";")) = (x.eval env).run := by
  have hlen : ∀ s : String, s.length = s.toList.length := fun _ => rfl
  have hdrop : (predicatePrelude ++ ("return " ++ str ++ ";")).toList.drop
      predicatePrelude.length = ("return " ++ str ++ ";").toList := by
    simp only [hlen, String.toList, String.data_append, List.drop_left]
  have hlex : jsLexAll ("return " ++ str ++ ";").toList =
      some (.identifier "return" :: (ts ++ [.punctuator ";"])) := by
    have hchars : ("return " ++ str ++ ";").toList =
        'r' :: 'e' :: 't' :: 'u' :: 'r' :: 'n' :: ' ' :: (str.toList ++ [';']) := by
      simp only [String.toList, String.data_append, List.append_assoc]
      rfl
    rw [hchars, jsLexAll_return, jsLexAll_space, hl, jsLexAll_semicolon]
    rfl
  have hpre : predicatePrelude.toList.isPrefixOf
      (predicatePrelude ++ ("return " ++ str ++ ";")).toList = true := by
    rw [List.isPrefixOf_iff_prefix]
    simp only [String.toList, String.data_append]
    exact List.prefix_append _ _
  rw [runPredicate, if_pos hpre, hdrop, hlen, jsLexAll_of_le (by simp [String.toList]), hlex]
  simp only [hp (16 * (ts ++ [JsToken.punctuator ";"]).length + 16) (by simp; omega)]

/-- Whatever text `Transform` reads as the tree of a valid derivation whose comparisons are all
`jsSafe`, the predicate `analysis` compiles from it returns the derivation's meaning on every
blob. -/
theorem analysis_denote {whereText : String} {e : FilterExpr}
    (ht : Transform whereText = .ok e.tokens) (hv : e.valid = true)
    (hs : e.allComparisons jsSafe = true) (env : JsEnv) :
    (analysis whereText).toOption.bind (runPredicate env) =
      some (.ok (.boolean (e.denote env.tags))) := by
  obtain ⟨str, hsent, hlex⟩ := @FilterTerm.lex_sentence (.group e) hv hs
  have hend : JsTermEnd [.punctuator ";"] := .inr (.inr (.inr rfl))
  have hp := ((@FilterTerm.parse_jsTokens (.group e) _ hv hend).up (by decide) (by rfl)).up
    (by decide) (by rfl)
  have ha : analysis whereText = .ok (predicatePrelude ++ ("return " ++ str ++ ";")) := by
    rw [analysis, ht]
    show TreeToFunction e.tokens = _
    rw [TreeToFunction_eq, show TreeToSentence e.tokens = .ok str from hsent]
    rfl
  rw [ha, Except.toOption, Option.some_bind, runPredicate_return hlex hp (by omega),
    @FilterTerm.eval_jsExpr env (.group e) hv hs]
  rfl

/-- The text of `sampleFilter`, read by `Transform` and compiled, on a blob tagged `key2 = 20`
and `key1 = 9`. -/
theorem analysis_denote_sample :
    Transform (String.mk sampleFilter.render) = .ok sampleFilter.tokens ∧
      sampleFilter.valid = true ∧ sampleFilter.allComparisons jsSafe = true ∧
      (analysis (String.mk sampleFilter.render)).toOption.bind
          (runPredicate ⟨[("key2", "20"), ("key1", "9")], []⟩) =
        some (.ok (.boolean (sampleFilter.denote [("key2", "20"), ("key1", "9")]))) := by
  obtain ⟨s, hr, he, hroot⟩ := Scanner.run_render (show sampleFilter.valid = true by decide)
  have ht : Transform (String.mk sampleFilter.render) = .ok sampleFilter.tokens :=
    hroot ▸ @Transform_of_run (String.mk sampleFilter.render) s hr he
  exact ⟨ht, by decide, by decide, analysis_denote ht (by decide) (by decide) _⟩

end Azurite

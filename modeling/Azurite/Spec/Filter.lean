import Azurite.Native.JavaScript

/-!
# The filter grammar, and what `Transform` and `analysis` make of it

The grammar of §4.4: `expr := term (connector term)*`, `term := '(' expr ')' | comparison`,
`comparison := key op 'value'`, `connector := and | or`, `op ∈ {=, >=, <=, >, <}`, with optional
spaces around tokens. `FilterExpr` and `FilterTerm` are its derivations; `FilterExpr.texts`
lists the tokens a derivation spells, and `Derivable` says a string spells them with optional
spaces around each, its keys drawn from the tag-key alphabet (letters, digits and
`+ - . / : _`) and its values free of quotes. `FilterExpr.tokens` is the tree `Transform`
should return for a derivation, and `FilterExpr.denote` its meaning over a blob's tags: a
comparison holds when the key is among the tags, the value of its last pair comparing to the
literal by the operator in ECMAScript's string order, and `and` binds tighter than `or`.

* `Transform_diverges_from_grammar`: `Transform` returns a tree for `a='1' xor b='2'`, which is no
  derivation's tree, and throws on the derivable ` (a='1')`.
* `analysis_reads_hyphen_key_as_subtraction`: for the derivable `a-b='v'` on a blob tagged
  `a-b = v`, whose meaning is `true`, the predicate `analysis` compiles reads `tags.a-b`, which
  ECMAScript evaluates as `tags.a - b`, and throws a `ReferenceError` for `b`.
-/

namespace Azurite

/-! ### Derivations -/

/-- A connector of the grammar. -/
inductive Connective where
  | and
  | or
  deriving DecidableEq, Repr

/-- The text of a connector. -/
def Connective.text : Connective → String
  | .and => "and"
  | .or => "or"

mutual

/-- A derivation of `expr := term (connector term)*`. -/
inductive FilterExpr where
  | mk (first : FilterTerm) (rest : List (Connective × FilterTerm))

/-- A derivation of `term := '(' expr ')' | comparison`, a comparison being `key op 'value'`. -/
inductive FilterTerm where
  | comparison (key op value : String)
  | group (e : FilterExpr)

end

mutual

/-- The tokens a derivation spells, in order. -/
def FilterExpr.texts : FilterExpr → List String
  | .mk first rest => first.texts ++ FilterExpr.restTexts rest

/-- The tokens of the `(connector term)*` part. -/
def FilterExpr.restTexts : List (Connective × FilterTerm) → List String
  | [] => []
  | (c, t) :: rest => c.text :: (t.texts ++ FilterExpr.restTexts rest)

/-- The tokens a term spells: a value is spelled in its quotes. -/
def FilterTerm.texts : FilterTerm → List String
  | .comparison key op value => [key, op, "'" ++ value ++ "'"]
  | .group e => "(" :: (e.texts ++ [")"])

end

/-- The characters of tag keys: letters, digits and `+ - . / : _`. -/
def isTagKeyChar (c : Char) : Bool :=
  c.isAlphanum || c = '+' || c = '-' || c = '.' || c = '/' || c = ':' || c = '_'

mutual

/-- Every key of a derivation is a nonempty word of the tag-key alphabet, every operator is one
of `tagFilterOperators`, and no value holds a quote. -/
def FilterExpr.valid : FilterExpr → Bool
  | .mk first rest => first.valid && FilterExpr.restValid rest

/-- `valid` of the `(connector term)*` part. -/
def FilterExpr.restValid : List (Connective × FilterTerm) → Bool
  | [] => true
  | (_, t) :: rest => t.valid && FilterExpr.restValid rest

/-- `valid` of a term. -/
def FilterTerm.valid : FilterTerm → Bool
  | .comparison key op value =>
    !key.toList.isEmpty && key.toList.all isTagKeyChar && op ∈ tagFilterOperators &&
      !value.toList.contains '\''
  | .group e => e.valid

end

/-- `n` spaces. -/
def spaces (n : Nat) : List Char := List.replicate n ' '

/-- A string made of the given tokens in order, with optional spaces around each. -/
def Spaced : List String → List Char → Prop
  | [], s => ∃ n, s = spaces n
  | t :: ts, s => ∃ n rest, s = spaces n ++ t.toList ++ rest ∧ Spaced ts rest

/-- A string derivable in the grammar. -/
def Derivable (s : String) : Prop :=
  ∃ e : FilterExpr, e.valid = true ∧ Spaced e.texts s.toList

/-! ### The tree of a derivation, and its meaning -/

mutual

/-- The tokens of the tree `Transform` is to return for a derivation: a group for each
parenthesised expression, a comparison with the trimmed key, the operator and the quoted value,
and the connectors in order. -/
def FilterExpr.tokens : FilterExpr → List Token
  | .mk first rest => first.token :: FilterExpr.restTokens rest

/-- The tokens of the `(connector term)*` part. -/
def FilterExpr.restTokens : List (Connective × FilterTerm) → List Token
  | [] => []
  | (c, t) :: rest => .connector (some c.text) :: t.token :: FilterExpr.restTokens rest

/-- The token of a term. -/
def FilterTerm.token : FilterTerm → Token
  | .comparison key op value => .tagComparing ⟨some key, some op, some ("'" ++ value ++ "'")⟩
  | .group e => .tree e.tokens

end

/-- The value of the last pair of a key among a blob's tags. -/
def tagValue (tags : List (String × String)) (key : String) : Option String :=
  (tags.reverse.find? (·.1 == key)).map (·.2)

/-- `tagValue op literal` in ECMAScript's string order, by UTF-16 code unit. -/
def compareTag (op : String) (tagValue literal : String) : Bool :=
  match op with
  | "=" => tagValue == literal
  | ">" => decide (utf16Units literal < utf16Units tagValue)
  | "<" => decide (utf16Units tagValue < utf16Units literal)
  | ">=" => !decide (utf16Units tagValue < utf16Units literal)
  | "<=" => !decide (utf16Units literal < utf16Units tagValue)
  | _ => false

mutual

/-- The meaning of a derivation over a blob's tags: `and` binds tighter than `or`, so the
conjunction being built is `c` and the disjunction of the finished ones `d`. -/
def FilterExpr.denote (tags : List (String × String)) : FilterExpr → Bool
  | .mk first rest => FilterExpr.denoteRest tags rest false (first.denote tags)

/-- The meaning of the `(connector term)*` part after the disjunction `d` and the conjunction
`c`. -/
def FilterExpr.denoteRest (tags : List (String × String)) :
    List (Connective × FilterTerm) → Bool → Bool → Bool
  | [], d, c => d || c
  | (.and, t) :: rest, d, c => FilterExpr.denoteRest tags rest d (c && t.denote tags)
  | (.or, t) :: rest, d, c => FilterExpr.denoteRest tags rest (d || c) (t.denote tags)

/-- The meaning of a term. -/
def FilterTerm.denote (tags : List (String × String)) : FilterTerm → Bool
  | .comparison key op value =>
    match tagValue tags key with
    | some v => compareTag op v value
    | none => false
  | .group e => e.denote tags

end

/-- A term's token is a group or a comparison, never a connector. -/
theorem FilterTerm.token_ne_connector (t : FilterTerm) (c : Option String) :
    t.token ≠ .connector c := by
  cases t <;> simp [FilterTerm.token]

/-- The connectors of the `(connector term)*` part are the grammar's. -/
theorem FilterExpr.restTokens_connector {c : Option String} :
    ∀ {rest : List (Connective × FilterTerm)},
      Token.connector c ∈ FilterExpr.restTokens rest →
      ∃ k : Connective, c = some k.text
  | [], h => by cases h
  | (k, t) :: rest, h => by
    rw [FilterExpr.restTokens, List.mem_cons, List.mem_cons] at h
    rcases h with h | h | h
    · exact ⟨k, (Token.connector.inj h)⟩
    · exact absurd h.symm (t.token_ne_connector c)
    · exact FilterExpr.restTokens_connector h

/-- Every connector among the tokens of a derivation's group is `and` or `or`. -/
theorem FilterExpr.tokens_connector {c : Option String} {e : FilterExpr}
    (h : Token.connector c ∈ e.tokens) : ∃ k : Connective, c = some k.text := by
  obtain ⟨first, rest⟩ := e
  rw [FilterExpr.tokens, List.mem_cons] at h
  rcases h with h | h
  · exact absurd h.symm (first.token_ne_connector c)
  · exact FilterExpr.restTokens_connector h

/-! ### Where `Transform` and `analysis` leave the grammar -/

theorem Transform_diverges_from_grammar :
    (∃ tree, Transform "a='1' xor b='2'" = .ok tree ∧ ∀ e : FilterExpr, e.tokens ≠ tree) ∧
    Derivable " (a='1')" ∧ Transform " (a='1')" = .error (.thrown "Expecting ')") := by
  refine ⟨⟨[.tagComparing ⟨some "a", some "=", some "'1'"⟩, .connector (some "xor"),
    .tagComparing ⟨some "b", some "=", some "'2'"⟩], rfl, fun e h => ?_⟩,
    ⟨.mk (.group (.mk (.comparison "a" "=" "1") [])) [], rfl,
    1, _, rfl, 0, _, rfl, 0, _, rfl, 0, _, rfl, 0, _, rfl, 0, rfl⟩, rfl⟩
  have hx : Token.connector (some "xor") ∈ e.tokens := by
    rw [h]
    simp
  obtain ⟨k, hk⟩ := FilterExpr.tokens_connector hx
  cases k <;> simp [Connective.text] at hk

set_option maxRecDepth 4000 in
theorem analysis_reads_hyphen_key_as_subtraction :
    Derivable "a-b='v'" ∧
    Transform "a-b='v'" = .ok (FilterExpr.mk (.comparison "a-b" "=" "v") []).tokens ∧
    (FilterExpr.mk (.comparison "a-b" "=" "v") []).denote [("a-b", "v")] = true ∧
    ∀ globals : List String, "b" ∉ globals →
      (analysis "a-b='v'").toOption.bind (runPredicate ⟨[("a-b", "v")], globals⟩) =
        some (.error (.referenceError "b")) := by
  refine ⟨⟨.mk (.comparison "a-b" "=" "v") [], rfl, 0, _, rfl, 0, _, rfl, 0, _, rfl, 0, rfl⟩,
    rfl, rfl, fun globals hb => ?_⟩
  -- the source `analysis` compiles is `return ( tags.a-b !== undefined && tags.a-b === 'v' );`
  have hrun : ∀ env, (analysis "a-b='v'").toOption.bind (runPredicate env) =
      (JsExpr.eval env (.binary "&&"
        (.binary "!==" (.binary "-" (.member (.identifier "tags") "a") (.identifier "b"))
          (.identifier "undefined"))
        (.binary "===" (.binary "-" (.member (.identifier "tags") "a") (.identifier "b"))
          (.string "v")))).run := fun _ => rfl
  rw [hrun]
  simp [JsExpr.eval, JsEnv.tagProperty, objectPrototypeNames, hb]

end Azurite

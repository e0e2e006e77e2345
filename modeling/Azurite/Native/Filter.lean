import Azurite.Native.Basic

/-!
# The tag filter: `Transform`, `TreeToSentence` and `TreeToFunction`

`src/unnamed/part_000` evaluates a `where` filter over blob tags in two steps. `Transform` scans
the filter string into a tree of tokens with an explicit state machine (`TransferState`), and
`TreeToFunction` renders the tree as JavaScript source, `TreeToSentence`, and compiles it with
`new Function("item", ...)`; `analysis` runs the two in sequence.

The loop of `Transform` is `Scanner.run`: `Scanner` holds the loop's variables and
`Scanner.step` is one pass of its `switch`. The code indexes the string by UTF-16 code unit; it
compares only ASCII characters, so indexing by character, as here, cuts the string at the same
places. The code throws a JavaScript `Error` with a message (`StorageError.thrown`) or, reading a
property of `undefined`, a `TypeError`.
-/

namespace Azurite

/-- `tagFilterOperators`. -/
def tagFilterOperators : List String := ["=", ">=", "<=", ">", "<"]

/-- `TransferState`. -/
inductive TransferState where
  | start
  | leftEmbrace
  | key
  | operator
  | value
  | afterValue
  | rightEmbrace
  | connector
  deriving DecidableEq, Repr

/-- `TagComparingToken`: a comparison, whose fields the scan sets one after the other. -/
structure TagComparing where
  key : Option String := none
  operator : Option String := none
  value : Option String := none
  deriving DecidableEq, Repr

/-- `Token`, by its `tokenType`: a `FilterTreeToken` with its children, a `TagComparingToken`, or
a `ConnectorToken`. -/
inductive Token where
  | tree (token : List Token)
  | tagComparing (comparing : TagComparing)
  | connector (connector : Option String)
  deriving Repr

/-! ### Strings -/

/-- The characters `trimStart` and `trimEnd` remove: ECMAScript's `WhiteSpace` and
`LineTerminator`. -/
def isJsWhitespace (c : Char) : Bool :=
  let n := c.toNat
  n = 0x09 || n = 0x0B || n = 0x0C || n = 0x20 || n = 0xA0 || n = 0xFEFF || n = 0x0A ||
    n = 0x0D || n = 0x2028 || n = 0x2029 || n = 0x1680 || (0x2000 ≤ n && n ≤ 0x200A) ||
    n = 0x202F || n = 0x205F || n = 0x3000

/-- `s.trimEnd().trimStart()`. -/
def jsTrim (s : List Char) : List Char :=
  (s.reverse.dropWhile isJsWhitespace).reverse.dropWhile isJsWhitespace

/-- `where.substring(start, end)`: the characters between the lesser index and the greater, each
clamped to the string. -/
def substring (w : List Char) (start stop : Nat) : List Char :=
  (w.take (max start stop)).drop (min start stop)

/-- The loops `for (; p < where.length; ++p) if (stop(where[p])) break;` from `p = i`: the first
index from `i` whose character satisfies `stop`, or the length. -/
def scanTo (w : List Char) (stop : Char → Bool) (i : Nat) : Nat :=
  i + ((w.drop i).takeWhile fun c => !stop c).length

/-! ### `Transform` -/

/-- The variables of `Transform`'s loop. `currentTree` holds the tokens of the group being filled,
and is `none` once a `)` has popped an empty `treeStack`, where the code leaves it `undefined`.
`treeStack` holds the tokens of each enclosing group before the open one, innermost first: the
code pushes a group into its parent when it opens it, and the parent gains no other token until
the group closes. -/
structure Scanner where
  pos : Nat := 0
  state : TransferState := .start
  expectingRightEmbrace : Int := 0
  treeStack : List (List Token) := []
  currentTree : Option (List Token) := some []
  currentTagComparing : TagComparing := {}
  deriving Repr

/-- The `TypeError` of `currentTree.token` while `currentTree` is `undefined`. -/
def undefinedTokenError : StorageError :=
  .typeError "Cannot read properties of undefined (reading 'token')"

/-- `currentTree.token.push(t)`. -/
def pushToken (tree : Option (List Token)) (t : Token) : Except StorageError (List Token) :=
  match tree with
  | some ts => .ok (ts ++ [t])
  | none => .error undefinedTokenError

/-- The comparison `Key` pushes is the last token of its group when `Operator` and `Value` set its
fields through `currentTagComparing`, which refers to it. -/
def setLastComparing (c : TagComparing) (ts : List Token) : List Token :=
  ts.dropLast ++ [.tagComparing c]

/-- One pass of the `switch` in `Transform`'s loop, which runs while `pos < where.length`. -/
def Scanner.step (w : List Char) (s : Scanner) : Except StorageError Scanner :=
  match s.state with
  | .start => .ok { s with state := if w[s.pos]? = some '(' then .leftEmbrace else .key }
  | .leftEmbrace =>
    match s.currentTree with
    | none => .error undefinedTokenError
    | some previousTree =>
      .ok { s with expectingRightEmbrace := s.expectingRightEmbrace + 1,
                   treeStack := previousTree :: s.treeStack, currentTree := some [],
                   pos := s.pos + 1, state := .start }
  | .key => do
    let keyPos := scanTo w (fun c => c = '=' || c = '<' || c = '>') s.pos
    let c : TagComparing := { key := some (String.mk (jsTrim (substring w s.pos keyPos))) }
    let tree ← pushToken s.currentTree (.tagComparing c)
    pure { s with currentTagComparing := c, currentTree := some tree, pos := keyPos,
                  state := .operator }
  | .operator =>
    let opPos := scanTo w (· = '\'') s.pos
    let operator := String.mk (jsTrim (substring w s.pos opPos))
    if operator ∈ tagFilterOperators then
      let c := { s.currentTagComparing with operator := some operator }
      .ok { s with currentTagComparing := c, currentTree := s.currentTree.map (setLastComparing c),
                   pos := opPos, state := .value }
    else .error (.thrown "Invalid operator")
  | .value =>
    let valuePos := scanTo w (· = '\'') (s.pos + 1)
    let c := { s.currentTagComparing with
      value := some (String.mk (jsTrim (substring w s.pos (valuePos + 1)))) }
    .ok { s with currentTagComparing := c, currentTree := s.currentTree.map (setLastComparing c),
                 pos := valuePos + 1, state := .afterValue }
  | .afterValue =>
    let afterPos := scanTo w (· ≠ ' ') s.pos
    .ok { s with pos := afterPos,
                 state := if afterPos = w.length then .afterValue
                   else if w[afterPos]? = some ')' then .rightEmbrace else .connector }
  | .connector => do
    let connectorPos := scanTo w (· = ' ') s.pos
    let tree ← pushToken s.currentTree
      (.connector (some (String.mk (substring w s.pos connectorPos))))
    let pos := scanTo w (· ≠ ' ') connectorPos
    if pos = w.length then throw (.thrown "Invalid filter")
    pure { s with currentTree := some tree, pos, state := .start }
  | .rightEmbrace =>
    .ok { s with expectingRightEmbrace := s.expectingRightEmbrace - 1,
                 currentTree := match s.treeStack with
                   | [] => none
                   | previousTree :: _ => some (previousTree ++ (s.currentTree.map .tree).toList),
                 treeStack := s.treeStack.tail, pos := s.pos + 1, state := .afterValue }

/-- `while (pos < where.length)`, for at most `fuel` passes (`transformFuel` passes always
suffice, `Scanner.run_ends`). -/
def Scanner.run (w : List Char) : Nat → Scanner → Except StorageError Scanner
  | 0, s => .ok s
  | fuel + 1, s =>
    if s.pos < w.length then
      match s.step w with
      | .ok s' => s'.run w fuel
      | .error e => .error e
    else .ok s

/-- The tokens of `tree`, the root group the code returns: the current group closed into every
enclosing group. -/
def Scanner.root (s : Scanner) : List Token :=
  s.treeStack.foldl (fun child parent => parent ++ [.tree child]) (s.currentTree.getD [])

/-- The passes `Transform`'s loop makes at most on a string of `n` characters. -/
def transformFuel (w : List Char) : Nat := 5 * w.length + 5

/-- `Transform`: the tokens of the root `FilterTreeToken`. -/
def Transform (whereText : String) : Except StorageError (List Token) := do
  let s ← Scanner.run whereText.toList (transformFuel whereText.toList) {}
  if s.expectingRightEmbrace ≠ 0 then throw (.thrown "Expecting ')")
  pure s.root

/-! ### `TreeToFunction` -/

/-- `convertOperator`. -/
def convertOperator : Option String → Except StorageError String
  | some "=" => .ok "==="
  | some ">" => .ok ">"
  | some "<" => .ok "<"
  | some ">=" => .ok ">="
  | some "<=" => .ok "<="
  | _ => .error (.thrown "Invalid operator")

/-- A template literal's `${x}` of an optional string: `undefined` when it is absent. -/
def templateText : Option String → String
  | some s => s
  | none => "undefined"

/-- `TagComparingToSentence`. -/
def TagComparingToSentence (t : TagComparing) : Except StorageError String := do
  let op ← convertOperator t.operator
  pure ("( tags." ++ templateText t.key ++ " !== undefined && tags." ++ templateText t.key ++ " " ++
    op ++ " " ++ templateText t.value ++ " )")

/-- `convertConnector`. -/
def convertConnector (connector : Option String) : Except StorageError String :=
  if connector = some "and" then .ok " && "
  else if connector = some "or" then .ok " || "
  else .error (.thrown "Invalid connector")

mutual

/-- `TreeToSentence` on a token, and `TagComparingToSentence` or `convertConnector` as its
`forEach` does. -/
def Token.sentence : Token → Except StorageError String
  | .tree token => do pure ("(" ++ String.join (← Token.childSentences token) ++ ")")
  | .tagComparing c => TagComparingToSentence c
  | .connector c => convertConnector c

/-- The sentences of a group's tokens, in order. -/
def Token.childSentences : List Token → Except StorageError (List String)
  | [] => pure []
  | t :: ts => do pure ((← t.sentence) :: (← Token.childSentences ts))

end

/-- `TreeToSentence`. -/
def TreeToSentence (tree : List Token) : Except StorageError String := (Token.tree tree).sentence

/-- `TreeToFunction`: `functionRun`, the source of the predicate the code compiles with
`new Function("item", functionRun)`. When that throws, a `SyntaxError`, the code compiles
`fallbackFunction` instead. -/
def TreeToFunction (tree : List Token) : Except StorageError String := do
  let judgement ← TreeToSentence tree
  pure (String.intercalate "\n" ["let tags = \x7b\x7d; ",
    "item.blobTags?.blobTagSet.forEach((aTag) => \x7b ", " tags[aTag.key] = aTag.value; \x7d)", "",
    "return " ++ judgement ++ ";"])

/-- The predicate the code compiles when `functionRun` does not compile. -/
def fallbackFunction : String := "return true;"

/-- `analysis`. -/
def analysis (whereText : String) : Except StorageError String :=
  Transform whereText >>= TreeToFunction

end Azurite

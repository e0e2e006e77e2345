import Azurite.Native.Filter

/-!
# Running a compiled filter: a fragment of ECMAScript

`TreeToFunction` hands `functionRun` to `new Function("item", functionRun)`, and the store calls
the result on each blob. What the predicate returns is fixed by ECMAScript (ECMA-262), which this
module follows for the fragment the generated sources are written in: identifiers, single-quoted
string literals without escapes, integer literals, property access with `.`, and the binary
operators `||`, `&&`, `===`, `!==`, `<`, `>`, `<=`, `>=` and `-`, with their precedences.

The functions are partial: `none` stands for a source or a computation outside the fragment
(a syntax error, or JavaScript this module does not describe), never for a result. Every `some`
is the result ECMAScript gives.

The first lines of `functionRun` are the same for every filter; they build the object `tags`
from the item's tags, each key set to the value of its last pair. A key `__proto__` sets no
property: assigning a string to `__proto__` does nothing. The names the global object has, which
differ between hosts, are a parameter: an identifier that is neither bound nor global throws a
`ReferenceError`.
-/

namespace Azurite

/-! ### Lexing -/

/-- An input element of ECMAScript's lexical grammar, in the fragment. -/
inductive JsToken where
  | identifier (name : String)
  | string (value : String)
  | number (value : Nat)
  | punctuator (text : String)
  deriving DecidableEq, Repr

/-- `LineTerminator`. -/
def isLineTerminator (c : Char) : Bool :=
  c.toNat = 0x0A || c.toNat = 0x0D || c.toNat = 0x2028 || c.toNat = 0x2029

/-- `IdentifierStart`, over ASCII. -/
def isIdentifierStart (c : Char) : Bool := c.isAlpha || c = '$' || c = '_'

/-- `IdentifierPart`, over ASCII. -/
def isIdentifierPart (c : Char) : Bool := isIdentifierStart c || c.isDigit

/-- The punctuators, each before any of its proper prefixes, so the first that matches is the
longest. -/
def jsPunctuators : List String :=
  ["!==", "===", "!=", "==", "&&", "||", "<=", ">=", "=>", "?.", "<", ">", "(", ")", "\x7b",
    "\x7d", "[", "]", ".", ";", ",", "+", "-", "*", "/", "%", ":", "=", "!", "?"]

/-- The input elements of a source, skipping white space and line terminators; `fuel` bounds the
elements read. -/
def jsLex : Nat → List Char → Option (List JsToken)
  | 0, _ => none
  | _ + 1, [] => some []
  | fuel + 1, c :: cs =>
    if isJsWhitespace c then jsLex fuel cs
    else if isIdentifierStart c then
      (jsLex fuel (cs.dropWhile isIdentifierPart)).map
        (.identifier (String.mk (c :: cs.takeWhile isIdentifierPart)) :: ·)
    else if c = '\'' then
      let body := cs.takeWhile fun d => d ≠ '\'' && d ≠ '\\' && !isLineTerminator d
      match cs.drop body.length with
      | '\'' :: rest => (jsLex fuel rest).map (.string (String.mk body) :: ·)
      | _ => none
    else if c.isDigit then
      let digits := c :: cs.takeWhile Char.isDigit
      match cs.dropWhile Char.isDigit with
      | d :: _ => if isIdentifierPart d || d = '.' then none
        else (jsLex fuel (cs.dropWhile Char.isDigit)).map
          (.number (String.mk digits).toNat! :: ·)
      | [] => some [.number (String.mk digits).toNat!]
    else
      match jsPunctuators.find? fun p => p.toList.isPrefixOf (c :: cs) with
      | some p => (jsLex fuel ((c :: cs).drop p.length)).map (.punctuator p :: ·)
      | none => none

/-! ### Parsing -/

/-- An expression of the fragment. -/
inductive JsExpr where
  | identifier (name : String)
  | string (value : String)
  | number (value : Nat)
  | member (object : JsExpr) (property : String)
  | binary (operator : String) (left right : JsExpr)
  deriving DecidableEq, Repr

/-- The binary operators of each precedence level, from `||` (level 0) to the multiplicative
ones (level 5). -/
def jsOperators : Nat → List String
  | 0 => ["||"]
  | 1 => ["&&"]
  | 2 => ["===", "!==", "==", "!="]
  | 3 => ["<", ">", "<=", ">="]
  | 4 => ["+", "-"]
  | 5 => ["*", "/", "%"]
  | _ => []

mutual

/-- An expression whose operators are of level `level` or higher, read from the front of the
tokens, with the tokens after it. -/
def jsParse : Nat → Nat → List JsToken → Option (JsExpr × List JsToken)
  | 0, _, _ => none
  | fuel + 1, level, ts =>
    if level < 6 then do
      let (left, rest) ← jsParse fuel (level + 1) ts
      jsParseRest fuel level left rest
    else do
      let (e, rest) ← jsParsePrimary fuel ts
      jsParseMembers fuel e rest

/-- The operators of level `level` after a left operand, each applied to the operand so far:
the operators of one level associate to the left. -/
def jsParseRest : Nat → Nat → JsExpr → List JsToken → Option (JsExpr × List JsToken)
  | 0, _, _, _ => none
  | fuel + 1, level, left, .punctuator p :: ts =>
    if p ∈ jsOperators level then do
      let (right, rest) ← jsParse fuel (level + 1) ts
      jsParseRest fuel level (.binary p left right) rest
    else some (left, .punctuator p :: ts)
  | _ + 1, _, left, ts => some (left, ts)

/-- `.name` property accesses after an expression. -/
def jsParseMembers : Nat → JsExpr → List JsToken → Option (JsExpr × List JsToken)
  | 0, _, _ => none
  | fuel + 1, e, .punctuator "." :: .identifier name :: ts =>
      jsParseMembers fuel (.member e name) ts
  | _ + 1, _, .punctuator "." :: _ => none
  | _ + 1, e, ts => some (e, ts)

/-- An identifier, a literal or a parenthesised expression. -/
def jsParsePrimary : Nat → List JsToken → Option (JsExpr × List JsToken)
  | 0, _ => none
  | _ + 1, .identifier name :: ts => some (.identifier name, ts)
  | _ + 1, .string value :: ts => some (.string value, ts)
  | _ + 1, .number value :: ts => some (.number value, ts)
  | fuel + 1, .punctuator "(" :: ts => do
    let (e, rest) ← jsParse fuel 0 ts
    match rest with
    | .punctuator ")" :: rest => some (e, rest)
    | _ => none
  | _ + 1, _ => none

end

/-! ### Evaluation -/

/-- A value of the fragment. `object` is `tags`. -/
inductive JsValue where
  | undefined
  | boolean (b : Bool)
  | string (s : String)
  | number (n : Int)
  | nan
  | object
  deriving DecidableEq, Repr

/-- An exception the fragment throws. -/
inductive JsError where
  | referenceError (name : String)
  | typeError (message : String)
  deriving DecidableEq, Repr

/-- Where a predicate runs: the item's tags, as `key`/`value` pairs in order, and the names of
the global object. -/
structure JsEnv where
  tags : List (String × String)
  globals : List String

/-- The properties `Object.prototype` gives every object, `tags` included. -/
def objectPrototypeNames : List String :=
  ["constructor", "hasOwnProperty", "isPrototypeOf", "propertyIsEnumerable", "toLocaleString",
    "toString", "valueOf", "__proto__", "__defineGetter__", "__defineSetter__",
    "__lookupGetter__", "__lookupSetter__"]

/-- `ToBoolean`. -/
def JsValue.truthy : JsValue → Bool
  | .undefined | .nan => false
  | .boolean b => b
  | .string s => !s.isEmpty
  | .number n => n ≠ 0
  | .object => true

/-- The UTF-16 code units of a string, which ECMAScript compares strings by. -/
def utf16Units (s : String) : List Nat :=
  s.toList.flatMap fun c =>
    if c.toNat < 0x10000 then [c.toNat]
    else [0xD800 + (c.toNat - 0x10000) / 0x400, 0xDC00 + (c.toNat - 0x10000) % 0x400]

/-- `IsStrictlyEqual`. -/
def JsValue.strictEquals : JsValue → JsValue → Bool
  | .undefined, .undefined => true
  | .boolean a, .boolean b => a == b
  | .string a, .string b => a == b
  | .number a, .number b => a == b
  | .object, .object => true
  | _, _ => false

/-- A value `ToNumeric` makes `NaN` of: `undefined` or `NaN` itself. -/
def JsValue.isNaN : JsValue → Bool
  | .undefined | .nan => true
  | _ => false

/-- `IsLessThan` of two strings or two numbers. -/
def jsLessThan : JsValue → JsValue → Option Bool
  | .string a, .string b => some (decide (utf16Units a < utf16Units b))
  | .number a, .number b => some (decide (a < b))
  | _, _ => none

/-- The relational operators; a `NaN` operand makes each of them `false`. -/
def jsCompare (operator : String) (l r : JsValue) : Option Bool :=
  if l.isNaN || r.isNaN then some false
  else match operator with
    | "<" => jsLessThan l r
    | ">" => jsLessThan r l
    | "<=" => (jsLessThan r l).map (!·)
    | ">=" => (jsLessThan l r).map (!·)
    | _ => none

/-- A computation outside the fragment. -/
def jsUnknown {α : Type} : ExceptT JsError Option α := ExceptT.lift none

/-- The value of `tags.name`: the value of the last pair of the key, an inherited property of
`Object.prototype` (outside the fragment), or `undefined`. -/
def JsEnv.tagProperty (env : JsEnv) (name : String) : ExceptT JsError Option JsValue :=
  match (env.tags.reverse.find? fun t => t.1 == name && t.1 != "__proto__") with
  | some t => pure (.string t.2)
  | none => if name ∈ objectPrototypeNames then jsUnknown else pure .undefined

/-- The evaluation of an expression, left operand first. -/
def JsExpr.eval (env : JsEnv) : JsExpr → ExceptT JsError Option JsValue
  | .identifier "tags" => pure .object
  | .identifier "undefined" => pure .undefined
  | .identifier name =>
    if name = "item" || name ∈ env.globals then jsUnknown else throw (.referenceError name)
  | .string s => pure (.string s)
  | .number n => pure (.number n)
  | .member object name => do
    match ← object.eval env with
    | .undefined => throw (.typeError ("Cannot read properties of undefined (reading " ++ name ++
        ")"))
    | .object => env.tagProperty name
    | _ => jsUnknown
  | .binary "&&" l r => do
    let v ← l.eval env
    if v.truthy then r.eval env else pure v
  | .binary "||" l r => do
    let v ← l.eval env
    if v.truthy then pure v else r.eval env
  | .binary op l r => do
    let a ← l.eval env
    let b ← r.eval env
    match op with
    | "===" => pure (.boolean (a.strictEquals b))
    | "!==" => pure (.boolean !(a.strictEquals b))
    | "-" => match a, b with
      | .number x, .number y => pure (.number (x - y))
      | .undefined, _ | _, .undefined | .nan, _ | _, .nan => pure .nan
      | _, _ => jsUnknown
    | "<" | ">" | "<=" | ">=" => match jsCompare op a b with
      | some c => pure (.boolean c)
      | none => jsUnknown
    | _ => jsUnknown

/-- The lines of `functionRun` before its `return`. -/
def predicatePrelude : String :=
  String.intercalate "\n" ["let tags = \x7b\x7d; ",
    "item.blobTags?.blobTagSet.forEach((aTag) => \x7b ", " tags[aTag.key] = aTag.value; \x7d)", "",
    ""]

/-- The result of calling `new Function("item", functionRun)` on an item, for a `functionRun`
made of `predicatePrelude` and `return e;` with `e` in the fragment. -/
def runPredicate (env : JsEnv) (functionRun : String) : Option (Except JsError JsValue) :=
  if predicatePrelude.toList.isPrefixOf functionRun.toList then
    match jsLex (functionRun.length + 1) (functionRun.toList.drop predicatePrelude.length) with
    | some (.identifier "return" :: ts) =>
      match jsParse (16 * ts.length + 16) 0 ts with
      | some (e, [.punctuator ";"]) => (e.eval env).run
      | _ => none
    | _ => none
  else none

end Azurite

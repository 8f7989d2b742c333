import CratonBolt.Library.Utf8
import CratonBolt.Library.Wildcards
import CratonBolt.Plan.Types

/-!
# The `LIKE` matcher

`exec/like.rs`: a pattern is compiled once into a shape and then matched against every row. Patterns
of the form `foo`, `foo%`, `%foo` and `%foo%` are matched on the bytes of the strings, all others by
a loop over characters that remembers the last `%`.

Lower-casing of a character and the debug form of a character are parameters.
-/

namespace CratonBolt.Like

open Wildcards
open Utf8 (bytes)

/-- Equality of characters up to case. -/
def charsEqCi (lower : Char → List Char) (a b : Char) : Bool := a == b || lower a == lower b

/-- How the matcher compares a character of the input with one of the pattern. -/
def charsEq (lower : Char → List Char) (caseInsensitive : Bool) (a b : Char) : Bool :=
  if caseInsensitive then charsEqCi lower a b else a == b

inductive Token where
  | literal (lit : List Char)
  | one
  | any
deriving DecidableEq, Repr

/-- The forms of a pattern. -/
inductive Shape where
  | exact (p : List Char)
  | prefixOf (p : List Char)
  | suffixOf (p : List Char)
  | contains (p : List Char)
  | generic (tokens : List Token)
deriving DecidableEq, Repr

structure PatternMatcher where
  shape : Shape
  caseInsensitive : Bool
deriving DecidableEq, Repr

/-! ### Compilation -/

/-- The buffered characters become a token. -/
def flush (out : List Token) (buf : List Char) : List Token :=
  if buf.isEmpty then out else out ++ [.literal buf]

/-- A run of `%` is one token. -/
def pushAny (out : List Token) : List Token :=
  if out.getLast? = some .any then out else out ++ [.any]

section Compile

variable (debug : Char → String)

def danglingEscape (esc : Char) : BoltError :=
  .plan s!"LIKE pattern ends with a dangling escape character {debug esc}"

/-- The loop of `tokenise`. -/
def tokeniseLoop (escape : Option Char) : List Char → List Token → List Char →
    BoltResult (List Token)
  | [], out, buf => .ok (flush out buf)
  | ch :: chars, out, buf =>
    if escape = some ch then
      match chars with
      | next :: chars => tokeniseLoop escape chars out (buf ++ [next])
      | [] => .error (danglingEscape debug ch)
    else if ch = '%' then tokeniseLoop escape chars (pushAny (flush out buf)) []
    else if ch = '_' then tokeniseLoop escape chars (flush out buf ++ [.one]) []
    else tokeniseLoop escape chars out (buf ++ [ch])

variable (pattern : List Char) (escape : Option Char)

def tokenise : BoltResult (List Token) :=
  tokeniseLoop debug escape pattern [] []

/-- `strip_suffix` by one character -/
def stripSuffix (c : Char) (cs : List Char) : Option (List Char) :=
  if cs.getLast? = some c then some cs.dropLast else none

/-- `strip_prefix` by one character -/
def stripPrefix (c : Char) (cs : List Char) : Option (List Char) :=
  if cs.head? = some c then some cs.tail else none

def genericShape : BoltResult Shape :=
  (tokenise debug pattern escape).map Shape.generic

def classify : BoltResult Shape :=
  if pattern.any (fun c => escape = some c) then genericShape debug pattern escape
  else if pattern.contains '_' then genericShape debug pattern escape
  else
    match pattern.countP (· = '%') with
    | 0 => .ok (.exact pattern)
    | 1 =>
      match stripSuffix '%' pattern with
      | some rest => .ok (.prefixOf rest)
      | none =>
        match stripPrefix '%' pattern with
        | some rest => .ok (.suffixOf rest)
        | none => genericShape debug pattern escape
    | 2 =>
      match (stripPrefix '%' pattern).bind (stripSuffix '%') with
      | some mid => .ok (.contains mid)
      | none => genericShape debug pattern escape
    | _ => genericShape debug pattern escape

/-- Without regard to case every pattern goes to the loop over characters. -/
def compileShape (caseInsensitive : Bool) :
    BoltResult Shape :=
  if caseInsensitive then genericShape debug pattern escape else classify debug pattern escape

def isWildcard (c : Char) : Bool := c = '%' || c = '_'

def wildcardEscape (c : Char) : BoltError :=
  .plan s!"LIKE ESCAPE character must not be a wildcard (got {debug c})"

/-- The escape character must not be a wildcard. -/
def checkEscape : Option Char → BoltResult Unit
  | some c => if isWildcard c then .error (wildcardEscape debug c) else .ok ()
  | none => .ok ()

/-- `compile_ci` -/
def compileCi (pattern : String) (escape : Option Char) (caseInsensitive : Bool) :
    BoltResult PatternMatcher := do
  checkEscape debug escape
  let shape ← compileShape debug pattern.toList escape caseInsensitive
  return ⟨shape, caseInsensitive⟩

def compile (pattern : String) (escape : Option Char) : BoltResult PatternMatcher :=
  compileCi debug pattern escape false

end Compile

/-! ### The loop over characters -/

/-- The two positions of the loop, and where it resumes behind the last `%`. -/
structure Cursor where
  sIdx : Nat
  tIdx : Nat
  starTok : Option Nat
  starS : Nat
deriving DecidableEq, Repr

inductive Step where
  | done (result : Bool)
  | next (cursor : Cursor)
deriving DecidableEq, Repr

section Loop

variable (eq : Char → Char → Bool) (chars : List Char) (tokens : List Token)

/-- The end of a literal that stands at a position of the input. -/
def literalEnd (k : Nat) : List Char → Option Nat
  | [] => some k
  | lc :: lit =>
    match chars[k]? with
    | some c => if eq c lc then literalEnd (k + 1) lit else none
    | none => none

/-- The token at the cursor matches. -/
def advance (c : Cursor) : Option Cursor :=
  match tokens[c.tIdx]? with
  | some .any => some ⟨c.sIdx, c.tIdx + 1, some (c.tIdx + 1), c.sIdx⟩
  | some .one =>
    if c.sIdx < chars.length then some ⟨c.sIdx + 1, c.tIdx + 1, c.starTok, c.starS⟩ else none
  | some (.literal lit) =>
    (literalEnd eq chars c.sIdx lit).map (fun k => ⟨k, c.tIdx + 1, c.starTok, c.starS⟩)
  | none => none

/-- Resume behind the last `%`, one character further. -/
def backtrack (c : Cursor) : Step :=
  match c.starTok with
  | some tok =>
    if c.starS < chars.length then .next ⟨c.starS + 1, tok, some tok, c.starS + 1⟩ else .done false
  | none => .done false

def matchStep (c : Cursor) : Step :=
  if c.tIdx = tokens.length ∧ c.sIdx = chars.length then .done true
  else
    match advance eq chars tokens c with
    | some c' => .next c'
    | none => backtrack chars c

/-- Some rounds of the loop; none if it has not returned by then. -/
def matchLoop : Nat → Cursor → Option Bool
  | 0, _ => none
  | rounds + 1, c =>
    match matchStep eq chars tokens c with
    | .done result => some result
    | .next c' => matchLoop rounds c'

/-- `generic_match`, with a bound on the rounds of its loop. -/
def genericMatch : Option Bool :=
  matchLoop eq chars tokens ((chars.length + 1) * (tokens.length + 1)) ⟨0, 0, none, 0⟩

end Loop

/-! ### Matching -/

/-- The result of the matcher for a string. The shapes without a loop compare bytes. -/
def PatternMatcher.matches (lower : Char → List Char) (m : PatternMatcher) (s : String) :
    Option Bool :=
  match m.shape with
  | .exact p => some (bytes s.toList == bytes p)
  | .prefixOf p => some ((bytes p).isPrefixOf (bytes s.toList))
  | .suffixOf p => some ((bytes p).isSuffixOf (bytes s.toList))
  | .contains p => some (decide (bytes p <:+: bytes s.toList))
  | .generic tokens => genericMatch (charsEq lower m.caseInsensitive) s.toList tokens

/-- One row of `host_like`. -/
def likeRow (lower : Char → List Char) (matcher : PatternMatcher) (negated : Bool) :
    Option String → Option (Option Bool)
  | none => some none
  | some s => (matcher.matches lower s).map (fun m => some (if negated then !m else m))

/-- `host_like`: `NULL` rows stay `NULL`, negated or not. -/
def hostLike (debug : Char → String) (lower : Char → List Char) (col : List (Option String))
    (pattern : String) (escape : Option Char) (negated : Bool) :
    BoltResult (Option (List (Option Bool))) := do
  let matcher ← compile debug pattern escape
  return col.mapM (likeRow lower matcher negated)

/-! ### The language of a pattern -/

/-- What a character that is not escaped stands for. -/
def symbol (c : Char) : Symbol Char :=
  if c = '%' then .any else if c = '_' then .one else .exactly c

/-- The symbols of a pattern; an escaped character stands for itself. -/
def symbols (escape : Option Char) : List Char → List (Symbol Char)
  | [] => []
  | [c] => if escape = some c then [] else [symbol c]
  | c :: d :: cs =>
    if escape = some c then .exactly d :: symbols escape cs
    else symbol c :: symbols escape (d :: cs)

/-- The last character is an escape that escapes nothing. -/
def dangling (escape : Option Char) : List Char → Bool
  | [] => false
  | c :: cs =>
    if escape = some c then
      match cs with
      | _ :: cs => dangling escape cs
      | [] => true
    else dangling escape cs

end CratonBolt.Like

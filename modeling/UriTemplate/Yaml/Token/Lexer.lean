import UriTemplate.Yaml.Token.Block
import UriTemplate.Yaml.Token.Marks
import UriTemplate.Yaml.Token.Plain
import UriTemplate.Yaml.Token.Quoted

/-!
# Tokens from text

`TokenStream.ofText` cuts a document into tokens. Indentation opens and closes block collections,
and a colon turns what stands before it on the line into a key. So a token that may turn out to be
a key waits, with the tokens after it, until a colon, the end of the line or the length of the line
decides; `Lexer.release` lets go of the tokens about which everything is known. A fault takes back
the tokens that still wait.
-/

namespace UriTemplate.Yaml

/-- A place where a key may start: the number of its token and its position. A required one must
turn out to be a key. -/
structure KeyCandidate where
  token : Nat
  required : Bool
  index : Nat
  line : Nat
  column : Nat
deriving DecidableEq

/-- The state between two tokens. `indents` are the columns of the open block collections, the
innermost first, `candidates` the possible keys by depth of brackets, `released` the tokens that are
settled, the last first, and `waiting` those that are not. -/
structure Lexer where
  cursor : Cursor
  depth : Nat
  indents : List Nat
  keyAllowed : Bool
  candidates : List (Nat × KeyCandidate)
  count : Nat
  released : List Token
  waiting : List Token
deriving DecidableEq

namespace Lexer

/-- The state at the start of a document. -/
def start (document : Text) : Lexer :=
  ⟨Cursor.start document, 0, [], true, [], 0, [], []⟩

/-- `l.indent` is the column of the innermost block collection, or -1 outside of all. -/
def indent (l : Lexer) : Int :=
  match l.indents with
  | column :: _ => column
  | [] => -1

/-- `l.inFlow` says that brackets are open. -/
def inFlow (l : Lexer) : Bool := l.depth ≠ 0

/-- `l.push token` is the state with one more token. -/
def push (l : Lexer) (token : Token) : Lexer := { l with waiting := l.waiting ++ [token] }

/-- `l.insertAt number token` is the state with the token in front of the waiting token of the
given number. -/
def insertAt (l : Lexer) (number : Nat) (token : Token) : Lexer :=
  let place := number - l.count
  { l with waiting := l.waiting.take place ++ token :: l.waiting.drop place }

/-! ## Keys -/

/-- `l.isStale candidate` says that the candidate is too far away to be a key. -/
def isStale (l : Lexer) (candidate : KeyCandidate) : Bool :=
  candidate.line ≠ l.cursor.line || 1024 < l.cursor.index - candidate.index

/-- `l.dropStale` is the state without candidates that are too far away. None of them may be
required. -/
def dropStale (l : Lexer) : Except Error Lexer :=
  if l.candidates.any fun (_, k) => l.isStale k && k.required then .error .token
  else .ok { l with candidates := l.candidates.filter fun (_, k) => !l.isStale k }

/-- `l.dropCandidate` is the state without a candidate at the current depth of brackets. It must
not be required. -/
def dropCandidate (l : Lexer) : Except Error Lexer :=
  if l.candidates.any fun (depth, k) => depth = l.depth && k.required then .error .token
  else .ok { l with candidates := l.candidates.filter fun (depth, _) => depth ≠ l.depth }

/-- `l.saveCandidate` is the state in which the next token may be a key, if one is allowed here. -/
def saveCandidate (l : Lexer) : Except Error Lexer :=
  if !l.keyAllowed then .ok l
  else do
    let l ← l.dropCandidate
    let candidate : KeyCandidate :=
      { token := l.count + l.waiting.length
        required := !l.inFlow && l.indent = l.cursor.column
        index := l.cursor.index
        line := l.cursor.line
        column := l.cursor.column }
    pure { l with candidates := (l.depth, candidate) :: l.candidates }

/-- `l.release` is the state in which the tokens before all candidates are settled. -/
def release (l : Lexer) : Lexer :=
  let settled := match (l.candidates.map fun (_, k) => k.token).min? with
    | some first => first - l.count
    | none => l.waiting.length
  { l with
    count := l.count + (l.waiting.take settled).length
    released := (l.waiting.take settled).reverse ++ l.released
    waiting := l.waiting.drop settled }

/-! ## Indentation -/

/-- `l.unwind column` is the state in which the block collections to the right of the column are
closed. Inside brackets indentation does not count. -/
def unwind (l : Lexer) (column : Int) : Lexer :=
  if l.inFlow then l
  else
    let closed := l.indents.takeWhile fun opened : Nat => column < opened
    { l with
      indents := l.indents.drop closed.length
      waiting := l.waiting ++ List.replicate closed.length .blockEnd }

/-- `l.deepen column` is the state with a block collection at the column, if that is to the right
of the innermost, and whether it is. -/
def deepen (l : Lexer) (column : Nat) : Bool × Lexer :=
  if l.indent < column then (true, { l with indents := column :: l.indents }) else (false, l)

/-! ## Tokens -/

/-- `l.skipToToken` is the state at the next token. A line break outside of brackets allows a
key. -/
def skipToToken : Nat → Lexer → Lexer
  | 0, l => l
  | fuel + 1, l =>
      let afterComment := l.cursor.skipSpaces.skipComment
      match afterComment.lineBreak? with
      | none => { l with cursor := afterComment }
      | some (_, after) =>
          skipToToken fuel { l with cursor := after, keyAllowed := l.keyAllowed || !l.inFlow }

/-- `l.take n token` is the state after a token of `n` code points. -/
def take (l : Lexer) (n : Nat) (token : Token) : Lexer :=
  { l.push token with cursor := l.cursor.advance n }

/-- `l.closeAll` is the state at a mark or directive that ends all block collections. -/
def closeAll (l : Lexer) : Except Error Lexer :=
  return { ← (l.unwind (-1)).dropCandidate with keyAllowed := false }

/-- `l.streamEnd` is the state after the end of the document. -/
def streamEnd (l : Lexer) : Except Error Lexer :=
  return { ← l.closeAll with candidates := [] }.push .streamEnd

/-- `l.directive` is the state after a directive. -/
def directive (l : Lexer) : Except Error Lexer := do
  let l ← l.closeAll
  let (d, after) ← l.cursor.directive
  pure { l.push (.directive d) with cursor := after }

/-- `l.documentMark token` is the state after the mark of the start or the end of a document. -/
def documentMark (l : Lexer) (token : Token) : Except Error Lexer :=
  return (← l.closeAll).take 3 token

/-- `l.openBracket token` is the state after an opening bracket. -/
def openBracket (l : Lexer) (token : Token) : Except Error Lexer := do
  let l ← l.saveCandidate
  pure ({ l with depth := l.depth + 1, keyAllowed := true }.take 1 token)

/-- `l.closeBracket token` is the state after a closing bracket. -/
def closeBracket (l : Lexer) (token : Token) : Except Error Lexer := do
  let l ← l.dropCandidate
  pure ({ l with depth := l.depth - 1, keyAllowed := false }.take 1 token)

/-- `l.flowEntry` is the state after a comma inside brackets. -/
def flowEntry (l : Lexer) : Except Error Lexer :=
  return { ← l.dropCandidate with keyAllowed := true }.take 1 .flowEntry

/-- `l.openBlock token` is the state in which a block collection is open at the cursor. Outside of
brackets one may only start where a key is allowed. -/
def openBlock (l : Lexer) (token : Token) : Except Error Lexer :=
  if l.inFlow then .ok l
  else if !l.keyAllowed then .error .token
  else
    let (opened, l) := l.deepen l.cursor.column
    .ok (if opened then l.push token else l)

/-- `l.blockEntry` is the state after the dash of an entry. -/
def blockEntry (l : Lexer) : Except Error Lexer := do
  let l ← l.openBlock .blockSequenceStart
  pure ({ ← l.dropCandidate with keyAllowed := true }.take 1 .blockEntry)

/-- `l.key` is the state after the question mark of a key. -/
def key (l : Lexer) : Except Error Lexer := do
  let l ← l.openBlock .blockMappingStart
  pure ({ ← l.dropCandidate with keyAllowed := !l.inFlow }.take 1 .key)

/-- `l.value` is the state after the colon of a value. If there is a candidate it becomes the key,
and outside of brackets it may open a block mapping. -/
def value (l : Lexer) : Except Error Lexer :=
  match l.candidates.lookup l.depth with
  | some candidate =>
      let keyed :=
        { l with
          candidates := l.candidates.filter fun (depth, _) => depth ≠ l.depth
          keyAllowed := false }.insertAt candidate.token .key
      let (opened, deepened) :=
        if keyed.inFlow then (false, keyed) else keyed.deepen candidate.column
      .ok ((if opened then deepened.insertAt candidate.token .blockMappingStart
        else deepened).take 1 .value)
  | none => do
      let l ← l.openBlock .blockMappingStart
      pure ({ ← l.dropCandidate with keyAllowed := !l.inFlow }.take 1 .value)

/-- `l.inline read` is the state after a token that may be a key, read by `read`. -/
def inline (l : Lexer) (read : Cursor → Except Error (Token × Cursor)) : Except Error Lexer := do
  let l ← l.saveCandidate
  let (token, after) ← read l.cursor
  pure { { l with keyAllowed := false }.push token with cursor := after }

/-- `l.plain` is the state after a plain scalar. A line break behind it allows a key. -/
def plain (l : Lexer) : Except Error Lexer := do
  let l ← l.saveCandidate
  let (content, broken, after) := l.cursor.plainScalar l.inFlow (l.indent + 1)
  pure { { l with keyAllowed := broken }.push (.scalar content true) with cursor := after }

/-- `l.block folded` is the state after a block scalar. -/
def block (l : Lexer) (folded : Bool) : Except Error Lexer := do
  let l ← { l with keyAllowed := true }.dropCandidate
  let (content, after) ← l.cursor.blockScalar folded l.indent
  pure { l.push (.scalar content false) with cursor := after }

/-- `l.token` is the state after the token that starts at the cursor. -/
def token (l : Lexer) : Except Error Lexer :=
  let c := l.cursor
  let endsIndicator := l.inFlow || endsWord (c.peekAt 1)
  let atLineStart := c.column = 0
  if c.peek.isNone then l.streamEnd
  else if c.isAt '%' && atLineStart then l.directive
  else if c.startsWith "---" && c.atMarker && atLineStart then l.documentMark .documentStart
  else if c.startsWith "..." && c.atMarker && atLineStart then l.documentMark .documentEnd
  else if c.isAt '[' then l.openBracket .flowSequenceStart
  else if c.isAt '{' then l.openBracket .flowMappingStart
  else if c.isAt ']' then l.closeBracket .flowSequenceEnd
  else if c.isAt '}' then l.closeBracket .flowMappingEnd
  else if c.isAt ',' then l.flowEntry
  else if c.isAt '-' && endsWord (c.peekAt 1) then l.blockEntry
  else if c.isAt '?' && endsIndicator then l.key
  else if c.isAt ':' && endsIndicator then l.value
  else if c.isAt '*' then l.inline fun c => return ((← c.anchorName).map Token.alias id)
  else if c.isAt '&' then l.inline fun c => return ((← c.anchorName).map Token.anchor id)
  else if c.isAt '!' then l.inline Cursor.tagToken
  else if c.isAt '|' && !l.inFlow then l.block false
  else if c.isAt '>' && !l.inFlow then l.block true
  else if c.isAt '\'' then
    l.inline fun c => return ((← c.quotedScalar false).map (Token.scalar · false) id)
  else if c.isAt '"' then
    l.inline fun c => return ((← c.quotedScalar true).map (Token.scalar · false) id)
  else if startsPlain l.inFlow c then l.plain
  else .error .token

/-- `l.step` is the state after the next token, with the tokens that it settles released. -/
def step (l : Lexer) : Except Error Lexer := do
  let l ← (l.skipToToken (l.cursor.rest.length + 1)).dropStale
  let l ← (l.unwind l.cursor.column).token
  return (← l.dropStale).release

/-- `l.isDone` says that the end of the document has been reached and released. -/
def isDone (l : Lexer) : Bool := l.released.head? = some .streamEnd

/-- `l.run fuel` is the tokens of a document of which `l` is the state. Every step but the last
uses up a code point, so as many steps as there are code points, and one, are enough. -/
def run : Nat → Lexer → TokenStream
  | 0, l => ⟨l.released.reverse, some .token⟩
  | fuel + 1, l =>
      if l.isDone then ⟨l.released.reverse, none⟩
      else
        match l.step with
        | .ok next => run fuel next
        | .error e => ⟨l.released.reverse, some e⟩

end Lexer

/-- `TokenStream.ofText document` is the tokens of the document. A byte order mark at its start is
no part of it. -/
def TokenStream.ofText (document : Text) : TokenStream :=
  let lexer := Lexer.start document
  let lexer :=
    if document.head?.any CodePoint.isByteOrderMark then
      { lexer with cursor := lexer.cursor.next }
    else lexer
  lexer.run (document.length + 2)

end UriTemplate.Yaml

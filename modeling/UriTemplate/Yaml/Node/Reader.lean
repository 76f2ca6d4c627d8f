import UriTemplate.Yaml.Node
import UriTemplate.Yaml.Token

/-!
# Nodes from tokens

`Node.ofTokens?` reads the one document of a token stream. The functions before it follow the
grammar: `readNode` reads a node in a given `Place`, and a function of its own reads the items or
entries of each kind of collection. All of them read from a `Source`, which holds the tokens that
are left and the names that have been given. Where tokens are missing the fault of the stream is
reported.
-/

namespace UriTemplate.Yaml

/-- Where a node stands: inside brackets, as an item of a block, or as a key or value of a block,
where a sequence need not be indented. -/
inductive Place where
  | flow
  | item
  | entry
deriving DecidableEq

/-- The tokens that are left, what the tag handles stand for, and the names that nodes have. -/
structure Source where
  tokens : List Token
  fault : Option Error
  handles : List (Text × Text)
  named : List Text

/-- The anchor and the full tag of a node, as far as they are given. -/
structure Properties where
  name? : Option Text
  tag? : Option Text

/-- Reading from a source, which may fail. -/
abbrev Reading := StateT Source (Except Error)

/-! ## Tokens of a source -/

/-- `peek` is the next token. -/
def peek : Reading Token := do
  match (← get).tokens, (← get).fault with
  | token :: _, _ => pure token
  | [], some e => throw e
  | [], none => throw .layout

/-- `drop` passes over the next token. -/
def drop : Reading Unit := modify fun s => { s with tokens := s.tokens.drop 1 }

/-- `nextIsOneOf tokens` says that the next token is one of the given ones. -/
def nextIsOneOf (tokens : List Token) : Reading Bool := return tokens.contains (← peek)

/-! ## Properties and names -/

/-- `fullTag handle? suffix` is the text of a tag written with a handle. -/
def fullTag (handle? : Option Text) (suffix : Text) : Reading Text := do
  match handle? with
  | none => pure suffix
  | some handle =>
      match (← get).handles.lookup handle with
      | some lead => pure (lead ++ suffix)
      | none => throw .layout

/-- `anchor?` passes over an anchor, if one comes next, and gives its name. -/
def anchor? : Reading (Option Text) := do
  match ← peek with
  | .anchor name =>
      drop
      pure (some name)
  | _ => pure none

/-- `writtenTag?` passes over a tag, if one comes next, and gives its handle and its suffix. -/
def writtenTag? : Reading (Option (Option Text × Text)) := do
  match ← peek with
  | .tag handle? suffix =>
      drop
      pure (some (handle?, suffix))
  | _ => pure none

/-- `properties` passes over the anchor and the tag that come next, in either order. -/
def properties : Reading Properties := do
  let first? ← anchor?
  let tag? ← writtenTag?
  let name? ← if first?.isNone && tag?.isSome then anchor? else pure first?
  match tag? with
  | none => pure ⟨name?, none⟩
  | some (handle?, suffix) => pure ⟨name?, some (← fullTag handle? suffix)⟩

/-- `announce name?` notes that a node with that name is being read. No two nodes have one
name. -/
def announce (name? : Option Text) : Reading Unit := do
  if let some name := name? then
    if (← get).named.contains name then throw .reference
    modify fun s => { s with named := name :: s.named }

/-- `referred name` is a reference to the node with that name, which is complete or around it. -/
def referred (name : Text) : Reading Node := do
  if (← get).named.contains name then return .reference name
  throw .reference

namespace Properties

/-- `p.isEmpty` says that no property is given. -/
def isEmpty (p : Properties) : Bool := p.name?.isNone && p.tag?.isNone

/-- `p.isUntyped` says that the properties give no particular tag. -/
def isUntyped (p : Properties) : Bool := p.tag?.all (· = Text.ofString "!")

/-- `p.scalarTag content plain` is the tag of a scalar with these properties. The mark of no
particular tag has the scalar typed by its form, as a plain one is. -/
def scalarTag (p : Properties) (content : Text) (plain : Bool) : Tag :=
  match p.tag? with
  | none => if plain then Tag.ofPlain content else .str
  | some tag => if p.isUntyped then Tag.ofPlain content else Tag.ofText tag

/-- `p.collectionTag standard` is the tag of a collection with these properties. -/
def collectionTag (p : Properties) (standard : Tag) : Tag :=
  match p.tag? with
  | none => standard
  | some tag => if p.isUntyped then standard else Tag.ofText tag

/-- `p.scalar content plain` reads nothing and makes a scalar with these properties. -/
def scalar (p : Properties) (content : Text) (plain : Bool) : Reading Node := do
  announce p.name?
  return .scalar p.name? (p.scalarTag content plain) content

/-- `p.sequence items` is the sequence with these properties whose items are read by `items`. -/
def sequence (p : Properties) (items : Reading (List Node)) : Reading Node := do
  announce p.name?
  return .sequence p.name? (p.collectionTag .seq) (← items)

/-- `p.mapping entries` is the mapping with these properties whose entries are read by
`entries`. -/
def mapping (p : Properties) (entries : Reading (List (Node × Node))) : Reading Node := do
  announce p.name?
  return .mapping p.name? (p.collectionTag .map) (← entries)

end Properties

/-! ## Nodes -/

mutual

/-- `readNode fuel place` reads a node. A node with properties may lack content. -/
def readNode : Nat → Place → Reading Node
  | 0, _ => throw .layout
  | fuel + 1, place => do
      if let .alias name ← peek then
        let node ← referred name
        drop
        return node
      let p ← properties
      match ← peek with
      | .scalar content plain =>
          drop
          p.scalar content plain
      | .flowSequenceStart => p.sequence (do drop; readFlowItems fuel true)
      | .flowMappingStart => p.mapping (do drop; readFlowEntries fuel true)
      | token =>
          if token = .blockEntry && place = .entry then p.sequence (readFlushItems fuel)
          else if token = .blockSequenceStart && place ≠ .flow then
            p.sequence (do drop; readBlockItems fuel)
          else if token = .blockMappingStart && place ≠ .flow then
            p.mapping (do drop; readBlockEntries fuel)
          else if p.isEmpty then throw .layout
          else p.scalar [] true

/-- `readOptional fuel place enders` reads a node, or takes the empty node if one of the tokens
`enders` comes next. -/
def readOptional : Nat → Place → List Token → Reading Node
  | 0, _, _ => throw .layout
  | fuel + 1, place, enders => do
      if ← nextIsOneOf enders then pure Node.empty else readNode fuel place

/-- `readValue fuel place enders` reads the value of an entry, which is empty if no value indicator
comes next. -/
def readValue : Nat → Place → List Token → Reading Node
  | 0, _, _ => throw .layout
  | fuel + 1, place, enders => do
      if ← nextIsOneOf [.value] then
        drop
        readOptional fuel place enders
      else pure Node.empty

/-- `readBlockItems fuel` reads the items of a block sequence up to its end. -/
def readBlockItems : Nat → Reading (List Node)
  | 0 => throw .layout
  | fuel + 1 => do
      match ← peek with
      | .blockEntry =>
          drop
          let item ← readOptional fuel .item [.blockEntry, .blockEnd]
          return item :: (← readBlockItems fuel)
      | .blockEnd =>
          drop
          return []
      | _ => throw .layout

/-- `readFlushItems fuel` reads the items of a block sequence that is not indented. -/
def readFlushItems : Nat → Reading (List Node)
  | 0 => throw .layout
  | fuel + 1 => do
      if ← nextIsOneOf [.blockEntry] then
        drop
        let item ← readOptional fuel .item [.blockEntry, .key, .value, .blockEnd]
        return item :: (← readFlushItems fuel)
      else return []

/-- `readBlockEntries fuel` reads the entries of a block mapping up to its end. -/
def readBlockEntries : Nat → Reading (List (Node × Node))
  | 0 => throw .layout
  | fuel + 1 => do
      match ← peek with
      | .key =>
          drop
          let key ← readOptional fuel .entry [.key, .value, .blockEnd]
          let value ← readValue fuel .entry [.key, .value, .blockEnd]
          return (key, value) :: (← readBlockEntries fuel)
      | .blockEnd =>
          drop
          return []
      | _ => throw .layout

/-- `readFlowEntry fuel close` reads an entry with a key indicator, inside brackets that `close`
closes. -/
def readFlowEntry : Nat → Token → Reading (Node × Node)
  | 0, _ => throw .layout
  | fuel + 1, close => do
      drop
      let key ← readOptional fuel .flow [.value, .flowEntry, close]
      let value ← readValue fuel .flow [.flowEntry, close]
      return (key, value)

/-- `readFlowItems fuel first` reads the items of a flow sequence up to its end. All but the first
follow a comma. An item with a key indicator is a mapping of one entry. -/
def readFlowItems : Nat → Bool → Reading (List Node)
  | 0, _ => throw .layout
  | fuel + 1, first => do
      if !first && !(← nextIsOneOf [.flowSequenceEnd]) then
        if ← nextIsOneOf [.flowEntry] then drop else throw .layout
      match ← peek with
      | .flowSequenceEnd =>
          drop
          return []
      | .key =>
          let entry ← readFlowEntry fuel .flowSequenceEnd
          return .mapping none .map [entry] :: (← readFlowItems fuel false)
      | _ =>
          let item ← readNode fuel .flow
          return item :: (← readFlowItems fuel false)

/-- `readFlowEntries fuel first` reads the entries of a flow mapping up to its end. All but the
first follow a comma. An entry without a key indicator has the empty value. -/
def readFlowEntries : Nat → Bool → Reading (List (Node × Node))
  | 0, _ => throw .layout
  | fuel + 1, first => do
      if !first && !(← nextIsOneOf [.flowMappingEnd]) then
        if ← nextIsOneOf [.flowEntry] then drop else throw .layout
      match ← peek with
      | .flowMappingEnd =>
          drop
          return []
      | .key =>
          let entry ← readFlowEntry fuel .flowMappingEnd
          return entry :: (← readFlowEntries fuel false)
      | _ =>
          let key ← readNode fuel .flow
          return (key, Node.empty) :: (← readFlowEntries fuel false)

end

/-! ## Documents -/

/-- What the tag handles stand for unless a directive says otherwise. -/
def standardHandles : List (Text × Text) :=
  [(Text.ofString "!", Text.ofString "!"), (Text.ofString "!!", Tag.standardLead)]

/-- `leadingDirectives tokens` is the directives at the start of the tokens. -/
def leadingDirectives : List Token → List Directive
  | .directive d :: rest => d :: leadingDirectives rest
  | _ => []

/-- `handlesOf versioned declared ds` is the tag handles that the directives declare after those in
`declared`. There is at most one version, of major number one, and one directive for a handle. -/
def handlesOf (versioned : Bool) (declared : List (Text × Text)) :
    List Directive → Except Error (List (Text × Text))
  | [] => .ok declared
  | .version major _ :: rest =>
      if versioned || major ≠ 1 then .error .layout else handlesOf true declared rest
  | .tagHandle handle lead :: rest =>
      if (declared.lookup handle).isSome then .error .layout
      else handlesOf versioned ((handle, lead) :: declared) rest
  | .unknown :: rest => handlesOf versioned declared rest

/-- `startsDocument token` says that the token announces a document, or the end of the stream. -/
def startsDocument : Token → Bool
  | .directive _ | .documentStart | .streamEnd => true
  | _ => false

/-- `documentStart` passes over the directives and the mark before a document. -/
def documentStart : Reading Unit := do
  let ds := leadingDirectives (← get).tokens
  let handles ← handlesOf false [] ds
  modify fun s =>
    { s with tokens := s.tokens.drop ds.length, handles := handles ++ standardHandles }
  if ← nextIsOneOf [.documentStart] then drop else throw .layout

/-- `markedDocument fuel` reads a document with a mark before it. Its content may be empty. -/
def markedDocument (fuel : Nat) : Reading Node := do
  documentStart
  let token ← peek
  if startsDocument token || token = .documentEnd then pure Node.empty else readNode fuel .item

/-- `documentEnds` passes over the marks of the end of a document that come next. -/
def documentEnds : Reading Unit :=
  modify fun s => { s with tokens := s.tokens.dropWhile (· = .documentEnd) }

/-- `onlyDocument fuel` reads the one document of a stream, if there is one. -/
def onlyDocument (fuel : Nat) : Reading (Option Node) := do
  if ← nextIsOneOf [.streamEnd] then return none
  let node ← if startsDocument (← peek) then markedDocument fuel else readNode fuel .item
  documentEnds
  if ← nextIsOneOf [.streamEnd] then return some node
  documentStart
  throw .reference

/-- `Node.ofTokens? stream` is the document that the tokens make up, or `none` if there is none.
There may be no more than one. -/
def Node.ofTokens? (stream : TokenStream) : Except Error (Option Node) :=
  (onlyDocument (4 * stream.tokens.length + 8)).run'
    ⟨stream.tokens, stream.fault, standardHandles, []⟩

end UriTemplate.Yaml

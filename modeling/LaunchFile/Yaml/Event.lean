import LaunchFile.Yaml.Token

/-!
# Yaml/Event — the nodes of a stream in the order in which they begin and end

A collection is a start, the events of its nodes, and an end; in a mapping keys and values take
turns. A node that is left out is an empty scalar. The grammar is a machine with a stack of states
still to return to; each step looks at the first token left and gives one event.
-/

namespace LaunchFile.Yaml

/-- What a node says of itself before its content. -/
structure Properties where
  anchor : Option (List Char)
  tag : Option Tag
  deriving DecidableEq, Repr

/-- What a document is made of, in order: starts and ends, scalars, and references. -/
inductive Event where
  | documentStart
  | documentEnd
  | alias (name : List Char)
  | scalar (properties : Properties) (text : List Char) (plain : Bool)
  | sequenceStart (properties : Properties)
  | sequenceEnd
  | mappingStart (properties : Properties)
  | mappingEnd
  | streamEnd
  deriving DecidableEq, Repr, Inhabited

/-! ## The machine -/

/-- What is read next. `first` tells the first entry of a collection, before which its start token
stands, from the later ones. -/
inductive State where
  | documentStart (implicit : Bool)
  | documentContent
  | documentEnd
  | blockNode
  | blockSequenceEntry (first : Bool)
  | indentlessSequenceEntry
  | blockMappingKey (first : Bool)
  | blockMappingValue
  | flowSequenceEntry (first : Bool)
  | flowPairKey
  | flowPairValue
  | flowPairEnd
  | flowMappingKey (first : Bool)
  | flowMappingValue (empty : Bool)
  | done
  deriving DecidableEq, Repr

/-- A handle of tags and what it stands for. -/
abbrev TagHandles := List (List Char × Tag)

/-- The tokens ahead, the state, the states to come back to, and what handles of tags stand for. -/
structure Machine where
  tokens : List Token
  state : State
  returns : List State
  handles : TagHandles

namespace Machine

/-- The next token. -/
def peek (m : Machine) : Token :=
  m.tokens.headD .streamEnd

/-- Leave the next token behind. -/
def skip (m : Machine) : Machine :=
  { m with tokens := m.tokens.tail }

/-- Go to another state. -/
def goto (m : Machine) (s : State) : Machine :=
  { m with state := s }

/-- Remember a state to come back to. -/
def call (m : Machine) (s : State) : Machine :=
  { m with returns := s :: m.returns }

/-- Come back to the state remembered last. -/
def return? (m : Machine) : Option Machine :=
  match m.returns with
  | [] => none
  | s :: rest => some { m with state := s, returns := rest }

/-- One step: an event and the machine behind it. -/
abbrev Step := Option (Event × Machine)

def noProperties : Properties := ⟨none, none⟩

/-- A scalar without text, where a node was left out. -/
def emptyScalar (m : Machine) : Step :=
  some (.scalar noProperties [] true, m)

/-! ## Directives -/

/-- The handles that need no directive. -/
def defaultHandles : TagHandles :=
  [(['!'], loneMark), (['!', '!'], Text.Utf8.encode "tag:yaml.org,2002:")]

/-- Pass the directives before a document: at most one version, which has to be 1.1 or 1.2, and no
handle twice. -/
def directives? : Bool → TagHandles → List Token → Option (TagHandles × List Token)
  | versioned, handles, .versionDirective major minor :: rest =>
    if versioned || major != 1 || (minor != 1 && minor != 2) then none
    else directives? true handles rest
  | versioned, handles, .tagDirective handle start :: rest =>
    if handles.any (·.1 == handle) then none
    else directives? versioned ((handle, start) :: handles) rest
  | _, handles, rest => some (handles, rest)

/-! ## Nodes -/

/-- The tag that the text of a tag stands for. -/
def expand? (handles : TagHandles) (tag : TagText) : Option Tag :=
  if tag.handle.isEmpty then some tag.suffix
  else (handles.find? (·.1 == tag.handle)).map fun found => found.2 ++ tag.suffix

/-- The properties of a node, anchor and tag in either order, and the tokens behind them. -/
def properties? (handles : TagHandles) (tokens : List Token) :
    Option (Properties × List Token) :=
  match tokens with
  | .anchor name :: .tag tag :: rest =>
    (expand? handles tag).map fun t => (⟨some name, some t⟩, rest)
  | .anchor name :: rest => some (⟨some name, none⟩, rest)
  | .tag tag :: .anchor name :: rest =>
    (expand? handles tag).map fun t => (⟨some name, some t⟩, rest)
  | .tag tag :: rest => (expand? handles tag).map fun t => (⟨none, some t⟩, rest)
  | tokens => some (noProperties, tokens)

/-- The first event of a node. In block context (`block`) block collections may follow; `indentless`
admits the entries of a sequence that is not indented. -/
def node? (block indentless : Bool) (m : Machine) : Step :=
  match m.peek with
  | .alias name => m.return?.map fun m => (.alias name, m.skip)
  | _ => do
    let (p, tokens) ← properties? m.handles m.tokens
    let m := { m with tokens := tokens }
    match m.peek with
    | .blockEntry =>
      if indentless then return (.sequenceStart p, m.goto .indentlessSequenceEntry)
      else if p.anchor.isSome || p.tag.isSome then return (.scalar p [] true, ← m.return?)
      else none
    | .scalar text plain => return (.scalar p text plain, (← m.return?).skip)
    | .flowSequenceStart => return (.sequenceStart p, m.goto (.flowSequenceEntry true))
    | .flowMappingStart => return (.mappingStart p, m.goto (.flowMappingKey true))
    | token =>
      if block && token == .blockSequenceStart then
        return (.sequenceStart p, m.goto (.blockSequenceEntry true))
      else if block && token == .blockMappingStart then
        return (.mappingStart p, m.goto (.blockMappingKey true))
      else if p.anchor.isSome || p.tag.isSome then return (.scalar p [] true, ← m.return?)
      else none

/-- A node, unless one of the given tokens shows that it is left out. -/
def nodeOrEmpty (ends : List Token) (back : State) (block indentless : Bool) (m : Machine) : Step :=
  if ends.contains m.peek then (m.goto back).emptyScalar
  else (m.call back).node? block indentless

/-! ## Documents -/

/-- Whether a token is a directive. -/
def isDirective : Token → Bool
  | .versionDirective .. => true
  | .tagDirective .. => true
  | _ => false

/-- Leave out the marks that end documents. -/
def dropDocumentEnds : List Token → List Token
  | .documentEnd :: rest => dropDocumentEnds rest
  | tokens => tokens

/-- The start of a document, which may do without its mark. -/
def documentStart? (implicit : Bool) (m : Machine) : Step :=
  let m := if implicit then m else { m with tokens := dropDocumentEnds m.tokens }
  match m.peek with
  | .streamEnd => some (.streamEnd, m.skip.goto .done)
  | token =>
    if implicit && !isDirective token && token != .documentStart then
      some (.documentStart,
        { m with handles := defaultHandles }.call .documentEnd |>.goto .blockNode)
    else do
      let (handles, tokens) ← directives? false [] m.tokens
      match tokens with
      | .documentStart :: tokens =>
        let own := defaultHandles.filter fun h => handles.all (·.1 != h.1)
        return (.documentStart,
          { m with tokens := tokens, handles := handles ++ own }.call .documentEnd
            |>.goto .documentContent)
      | _ => none

/-- The node of a document, or an empty one. -/
def documentContent? (m : Machine) : Step :=
  match m.peek with
  | .documentStart | .documentEnd | .streamEnd | .versionDirective .. | .tagDirective .. =>
    m.return?.bind emptyScalar
  | _ => m.node? true false

/-- The end of a document, with its mark or without. -/
def documentEnd? (m : Machine) : Step :=
  let m := if m.peek == .documentEnd then m.skip else m
  some (.documentEnd, m.goto (.documentStart false))

/-! ## Collections -/

/-- The next item of a sequence in dashes, or its end. -/
def blockSequenceItem? (m : Machine) : Step :=
  match m.peek with
  | .blockEntry =>
    m.skip.nodeOrEmpty [.blockEntry, .blockEnd] (.blockSequenceEntry false) true false
  | .blockEnd => m.return?.map fun m => (.sequenceEnd, m.skip)
  | _ => none

/-- The next item of a sequence that is not indented below its key. -/
def indentlessSequenceItem? (m : Machine) : Step :=
  match m.peek with
  | .blockEntry =>
    m.skip.nodeOrEmpty [.blockEntry, .key, .value, .blockEnd] .indentlessSequenceEntry true false
  | _ => m.return?.map fun m => (.sequenceEnd, m)

/-- The next key of a block mapping, or its end. -/
def blockMappingKey? (m : Machine) : Step :=
  match m.peek with
  | .key => m.skip.nodeOrEmpty [.key, .value, .blockEnd] .blockMappingValue true true
  | .blockEnd => m.return?.map fun m => (.mappingEnd, m.skip)
  | _ => none

/-- The value behind a key of a block mapping. -/
def blockMappingValue? (m : Machine) : Step :=
  match m.peek with
  | .value => m.skip.nodeOrEmpty [.key, .value, .blockEnd] (.blockMappingKey false) true true
  | _ => (m.goto (.blockMappingKey false)).emptyScalar

/-- Pass the comma before an entry that is not the first; none if it is missing. -/
def separator? (first : Bool) (close : Token) (m : Machine) : Option Machine :=
  if first || m.peek == close then some m
  else if m.peek == .flowEntry then some m.skip
  else none

/-- The next item between brackets. -/
def flowSequenceItem? (first : Bool) (m : Machine) : Step := do
  let m ← m.separator? first .flowSequenceEnd
  match m.peek with
  | .flowSequenceEnd => return (.sequenceEnd, (← m.return?).skip)
  | .key => return (.mappingStart noProperties, m.skip.goto .flowPairKey)
  | _ => (m.call (.flowSequenceEntry false)).node? false false

/-- The key of a pair that is an entry of a sequence. Where it is left out, the token that shows so
is passed as well. -/
def flowPairKey? (m : Machine) : Step :=
  if [Token.value, .flowEntry, .flowSequenceEnd].contains m.peek then
    (m.skip.goto .flowPairValue).emptyScalar
  else (m.call .flowPairValue).node? false false

/-- The value of a single pair between brackets. -/
def flowPairValue? (m : Machine) : Step :=
  match m.peek with
  | .value => m.skip.nodeOrEmpty [.flowEntry, .flowSequenceEnd] .flowPairEnd false false
  | _ => (m.goto .flowPairEnd).emptyScalar

/-- The next key between braces. -/
def flowMappingKey? (first : Bool) (m : Machine) : Step := do
  let m ← m.separator? first .flowMappingEnd
  match m.peek with
  | .flowMappingEnd => return (.mappingEnd, (← m.return?).skip)
  | .key =>
    m.skip.nodeOrEmpty [.value, .flowEntry, .flowMappingEnd] (.flowMappingValue false) false false
  | _ => (m.call (.flowMappingValue true)).node? false false

/-- The value behind a key between braces. -/
def flowMappingValue? (empty : Bool) (m : Machine) : Step :=
  if empty then (m.goto (.flowMappingKey false)).emptyScalar
  else match m.peek with
    | .value =>
      m.skip.nodeOrEmpty [.flowEntry, .flowMappingEnd] (.flowMappingKey false) false false
    | _ => (m.goto (.flowMappingKey false)).emptyScalar

/-! ## Running -/

/-- Pass the token with which a collection starts. -/
def opened (first : Bool) (m : Machine) : Machine :=
  if first then m.skip else m

/-- One step of the machine, as its state says. -/
def step? (m : Machine) : Step :=
  match m.state with
  | .documentStart implicit => m.documentStart? implicit
  | .documentContent => m.documentContent?
  | .documentEnd => m.documentEnd?
  | .blockNode => m.node? true false
  | .blockSequenceEntry first => (m.opened first).blockSequenceItem?
  | .indentlessSequenceEntry => m.indentlessSequenceItem?
  | .blockMappingKey first => (m.opened first).blockMappingKey?
  | .blockMappingValue => m.blockMappingValue?
  | .flowSequenceEntry first => (m.opened first).flowSequenceItem? first
  | .flowPairKey => m.flowPairKey?
  | .flowPairValue => m.flowPairValue?
  | .flowPairEnd => some (.mappingEnd, m.goto (.flowSequenceEntry false))
  | .flowMappingKey first => (m.opened first).flowMappingKey? first
  | .flowMappingValue empty => m.flowMappingValue? empty
  | .done => none

/-- The events up to the end of the stream. -/
def run? : Nat → Machine → Option (List Event)
  | 0, _ => none
  | turns + 1, m => do
    let (event, m) ← m.step?
    if event == .streamEnd then return []
    let others ← run? turns m
    return event :: others

end Machine

/-- The events of a row of tokens. No token leads to more than four of them. -/
def events? (tokens : List Token) : Option (List Event) :=
  Machine.run? (4 * tokens.length + 8) ⟨tokens, .documentStart true, [], []⟩

/-- The events of the only document of a stream; an empty stream has none. -/
def onlyDocument? (events : List Event) : Option (List Event) :=
  let content := events.filter fun e => e != .documentStart && e != .documentEnd
  if events.count .documentStart ≤ 1 then some content else none

end LaunchFile.Yaml

import ComponentAttrs.Yaml.Tag
import ComponentAttrs.Yaml.Tokens

/-!
The nodes of a document. A node is known by its number, so that an alias can stand for a node that
is still being read: a collection may contain itself.
-/
namespace ComponentAttrs.Yaml

inductive Body where
  | scalar (text : String)
  | sequence (items : List Nat)
  | mapping (entries : List (Nat × Nat))

structure Node where
  tag : Tag
  body : Body

/-- All nodes of a document. `finished` lists them with the parts of a collection in front of it. -/
structure Nodes where
  nodes : Array Node
  finished : List Nat

/-- What has been read so far. -/
structure Composition where
  tokens : List Token
  nodes : Array Node
  /-- Latest first. -/
  finished : List Nat
  anchors : List (String × Nat)
  handles : List (String × String)

def malformed {α : Type} (p : Problem) : Except Failure α := .error (.malformed p)

abbrev Composing := StateT Composition (Except Failure)

def failWith {α : Type} (failure : Failure) : Composing α := fun _ => .error failure

def fail {α : Type} (p : Problem) : Composing α := failWith (.malformed p)

/-- How deep nodes may stand inside each other. -/
def nestingLimit : Nat := 490

namespace Composing

/-- The next token. Looking at it fails where the text cannot be read so far. -/
def peek : Composing Token := do
  match (← get).tokens with
  | [] => return .streamEnd
  | .broken failure :: _ => failWith failure
  | token :: _ => return token

def drop : Composing Unit :=
  modify fun s => { s with tokens := s.tokens.tail }

/-- Gives out a number, and binds the anchor to it. -/
def reserve (anchor : Option String) : Composing Nat := do
  let s ← get
  let id := s.nodes.size
  let s := { s with nodes := s.nodes.push ⟨.unknown, .scalar ""⟩ }
  match anchor with
  | none => set s
  | some name =>
    if (s.anchors.lookup name).isSome then fail .repeatedAnchor
    else set { s with anchors := (name, id) :: s.anchors }
  return id

def finish (id : Nat) (node : Node) : Composing Nat := do
  modify fun s =>
    { s with nodes := s.nodes.setIfInBounds id node, finished := id :: s.finished }
  return id

def addScalar (anchor : Option String) (tag : Tag) (text : String) : Composing Nat := do
  finish (← reserve anchor) ⟨tag, .scalar text⟩

/-- A node that is not written out is null. -/
def addEmpty : Composing Nat := addScalar none .null ""

def resolveAlias (name : String) : Composing Nat := do
  match (← get).anchors.lookup name with
  | none => fail .unknownAlias
  | some id => return id

/-- Anchor and tag in front of a node, in either order. -/
def readProperties : Composing (Option String × Option String) := do
  let expand (handle : Option String) (suffix : String) : Composing String := do
    match handle with
    | none => return suffix
    | some handle =>
      match (← get).handles.lookup handle with
      | some expansion => return expansion ++ suffix
      | none => fail .unknownHandle
  match ← peek with
  | .anchor name => do
    drop
    match ← peek with
    | .tag handle suffix => do
      drop
      return (some name, some (← expand handle suffix))
    | _ => return (some name, none)
  | .tag handle suffix => do
    drop
    match ← peek with
    | .anchor name => do
      drop
      return (some name, some (← expand handle suffix))
    | _ => return (none, some (← expand handle suffix))
  | _ => return (none, none)

/-- A single exclamation mark leaves the tag open. -/
def givenTag? (tag : Option String) : Option Tag :=
  match tag with
  | none => none
  | some name => if name = "!" then none else some (.ofName name)

def scalarTag (tag : Option String) (text : String) (plain : Bool) : Tag :=
  match givenTag? tag with
  | some tag => tag
  | none => if plain || tag.isSome then .ofPlain text else .text

def isEntry : Token → Bool
  | .entry => true
  | _ => false

def endsEntry : Token → Bool
  | .entry | .blockEnd => true
  | _ => false

def endsLooseEntry : Token → Bool
  | .entry | .key | .value | .blockEnd => true
  | _ => false

def endsBlockPart : Token → Bool
  | .key | .value | .blockEnd => true
  | _ => false

def endsBracketKey : Token → Bool
  | .value | .comma | .closeBracket => true
  | _ => false

def endsBracketValue : Token → Bool
  | .comma | .closeBracket => true
  | _ => false

def endsBraceKey : Token → Bool
  | .value | .comma | .closeBrace => true
  | _ => false

def endsBraceValue : Token → Bool
  | .comma | .closeBrace => true
  | _ => false

/-- Where a node stands: whether block collections may begin there, and whether a list may stand at
the indentation of the mapping around it. -/
inductive Place where
  | flow
  | block
  | blockValue
deriving DecidableEq

/-- Properties alone are an empty scalar. -/
def readBare (anchor tag : Option String) : Composing Nat :=
  if anchor.isSome || tag.isSome then addScalar anchor (scalarTag tag "" true) ""
  else fail .expectedNode

/-- A comma in front of every part but the first. -/
def readComma (first : Bool) : Composing Unit := do
  if first then return ()
  else
    match ← peek with
    | .comma => drop
    | _ => fail .expectedSeparator

mutual

/-- A node, or null where it is not written out. -/
def readPart (room : Nat) (place : Place) (isEnd : Token → Bool) : Nat → Composing Nat
  | 0 => fail .expectedNode
  | fuel + 1 => do
    if isEnd (← peek) then addEmpty else readNode room place fuel
termination_by structural fuel => fuel

/-- A node; `room` is how deep nodes may still stand inside each other from here on. -/
def readNode (room : Nat) (place : Place) : Nat → Composing Nat
  | 0 => fail .expectedNode
  | fuel + 1 => do
    match ← peek with
    | .alias name => do
      drop
      resolveAlias name
    | _ => do
      if room = 0 then failWith (.scalar .depth)
      let room := room - 1
      let (anchor, tag) ← readProperties
      let listTag := (givenTag? tag).getD .list
      let mapTag := (givenTag? tag).getD .map
      let token ← peek
      if place = .blockValue && isEntry token then do
        let id ← reserve anchor
        finish id ⟨listTag, .sequence (← readLooseEntries room fuel)⟩
      else
        match token with
        | .scalar text plain => do
          drop
          addScalar anchor (scalarTag tag text plain) text
        | .openBracket => do
          drop
          let id ← reserve anchor
          finish id ⟨listTag, .sequence (← readBracketItems room true fuel)⟩
        | .openBrace => do
          drop
          let id ← reserve anchor
          finish id ⟨mapTag, .mapping (← readBracePairs room true fuel)⟩
        | token => do
          if place = .flow then readBare anchor tag
          else
            match token with
            | .blockSequence => do
              drop
              let id ← reserve anchor
              finish id ⟨listTag, .sequence (← readEntries room fuel)⟩
            | .blockMapping => do
              drop
              let id ← reserve anchor
              finish id ⟨mapTag, .mapping (← readPairs room fuel)⟩
            | _ => readBare anchor tag
termination_by structural fuel => fuel

def readEntries (room : Nat) : Nat → Composing (List Nat)
  | 0 => fail .expectedBlockEnd
  | fuel + 1 => do
    match ← peek with
    | .entry => do
      drop
      let item ← readPart room .block endsEntry fuel
      return item :: (← readEntries room fuel)
    | .blockEnd => do
      drop
      return []
    | _ => fail .expectedBlockEnd
termination_by structural fuel => fuel

/-- Entries at the indentation of the mapping around them; what ends them belongs to it. -/
def readLooseEntries (room : Nat) : Nat → Composing (List Nat)
  | 0 => fail .expectedBlockEnd
  | fuel + 1 => do
    match ← peek with
    | .entry => do
      drop
      let item ← readPart room .block endsLooseEntry fuel
      return item :: (← readLooseEntries room fuel)
    | _ => return []
termination_by structural fuel => fuel

def readPairs (room : Nat) : Nat → Composing (List (Nat × Nat))
  | 0 => fail .expectedBlockEnd
  | fuel + 1 => do
    match ← peek with
    | .key => do
      drop
      let key ← readPart room .blockValue endsBlockPart fuel
      let value ← readValuePart room .blockValue endsBlockPart fuel
      return (key, value) :: (← readPairs room fuel)
    | .blockEnd => do
      drop
      return []
    | _ => fail .expectedBlockEnd
termination_by structural fuel => fuel

/-- What follows a key: a colon and a value, or nothing. -/
def readValuePart (room : Nat) (place : Place) (isEnd : Token → Bool) : Nat → Composing Nat
  | 0 => fail .expectedNode
  | fuel + 1 => do
    match ← peek with
    | .value => do
      drop
      readPart room place isEnd fuel
    | _ => addEmpty
termination_by structural fuel => fuel

/-- The items between brackets; a key makes a mapping with one entry. -/
def readBracketItems (room : Nat) (first : Bool) : Nat → Composing (List Nat)
  | 0 => fail .expectedSeparator
  | fuel + 1 => do
    match ← peek with
    | .closeBracket => do
      drop
      return []
    | _ => do
      readComma first
      match ← peek with
      | .key => do
        drop
        let id ← reserve none
        let key ← readPart (room - 1) .flow endsBracketKey fuel
        let value ← readValuePart (room - 1) .flow endsBracketValue fuel
        let item ← finish id ⟨.map, .mapping [(key, value)]⟩
        return item :: (← readBracketItems room false fuel)
      | .closeBracket => do
        drop
        return []
      | _ => do
        let item ← readNode room .flow fuel
        return item :: (← readBracketItems room false fuel)
termination_by structural fuel => fuel

def readBracePairs (room : Nat) (first : Bool) : Nat → Composing (List (Nat × Nat))
  | 0 => fail .expectedSeparator
  | fuel + 1 => do
    match ← peek with
    | .closeBrace => do
      drop
      return []
    | _ => do
      readComma first
      match ← peek with
      | .key => do
        drop
        let key ← readPart room .flow endsBraceKey fuel
        let value ← readValuePart room .flow endsBraceValue fuel
        return (key, value) :: (← readBracePairs room false fuel)
      | .closeBrace => do
        drop
        return []
      | _ => do
        let key ← readNode room .flow fuel
        let value ← addEmpty
        return (key, value) :: (← readBracePairs room false fuel)
termination_by structural fuel => fuel

end

/-! ## Documents -/

def defaultHandles : List (String × String) := [("!", "!"), ("!!", standardTags)]

/-- Directives in front of a document: one version, and handles for tags. -/
def readDirectives (versioned : Bool) (handles : List (String × String)) :
    List Token → Except Failure (List (String × String) × List Token)
  | .directive d :: rest =>
    match d with
    | .version major _ =>
      if versioned || major ≠ 1 then malformed .badDirective else readDirectives true handles rest
    | .handle name expansion =>
      if (handles.lookup name).isSome then malformed .badDirective
      else readDirectives versioned ((name, expansion) :: handles) rest
    | .other => readDirectives versioned handles rest
  | tokens => .ok (handles ++ defaultHandles, tokens)

def isDocumentEnd : Token → Bool
  | .documentEnd => true
  | _ => false

def endsDocument : Token → Bool
  | .directive _ | .documentStart | .documentEnd | .streamEnd => true
  | _ => false

/-- The handles that hold for a document, and the tokens behind the marker at its start. -/
def readStart (tokens : List Token) : Except Failure (List (String × String) × List Token) := do
  let (handles, tokens) ← readDirectives false [] tokens
  match tokens with
  | .documentStart :: rest => .ok (handles, rest)
  | .broken failure :: _ => .error failure
  | _ => malformed .expectedDocument

/-- The only document, from its first token on; `bare` if no marker stands in front of it. A further
document is looked at as far as its marker. -/
def readDocument (bare : Bool) (fuel : Nat) : Composing Nat := do
  let root ← if bare then readNode nestingLimit .block fuel
    else readPart nestingLimit .block endsDocument fuel
  match (← get).tokens.dropWhile isDocumentEnd with
  | .streamEnd :: _ => return root
  | rest =>
    match readStart rest with
    | .ok _ => fail .severalDocuments
    | .error failure => failWith failure

end Composing

/-- Each token is looked at a bounded number of times. -/
def compose (tokens : List Token) (handles : List (String × String)) (bare : Bool) :
    Except Failure (Nat × Nodes) := do
  let start : Composition := ⟨tokens, #[], [], [], handles⟩
  let (root, s) ← Composing.readDocument bare (4 * tokens.length + 8) start
  .ok (root, ⟨s.nodes, s.finished.reverse⟩)

/-- The nodes of a text and the number of the outermost one; none if it holds no document. -/
def nodes? (source : Source) : Except Failure (Option (Nat × Nodes)) := do
  match tokens source with
  | .streamEnd :: _ => .ok none
  | .broken failure :: _ => .error failure
  | .directive d :: rest => do
    let (handles, rest) ← Composing.readStart (.directive d :: rest)
    return some (← compose rest handles false)
  | .documentStart :: rest => return some (← compose rest Composing.defaultHandles false)
  | tokens => return some (← compose tokens Composing.defaultHandles true)

end ComponentAttrs.Yaml

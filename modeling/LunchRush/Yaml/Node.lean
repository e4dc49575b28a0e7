import LunchRush.Yaml.Scan
/-!
# Nodes

A YAML text holds at most one document here, and the document is a tree of nodes. A node can carry
an anchor, under which an alias names it later; tags survive on scalars alone, as nothing asks for
the tag of a list or a map.
-/

namespace LunchRush.Yaml

/-- A node of a document. -/
inductive Node where
  /-- The node under an anchor. -/
  | alias (anchor : Nat)
  | scalar (anchor : Option Nat) (tag : Option String) (style : Style) (text : String)
  | list (anchor : Option Nat) (items : List Node)
  | map (anchor : Option Nat) (entries : List (Node × Node))
deriving Inhabited

namespace Node

/-- What stands where nothing is written. -/
def empty : Node := .scalar none none .plain ""

mutual

/-- The nodes that carry an anchor, in the order in which they start. -/
def anchored : Node → List (Nat × Node)
  | .alias _ => []
  | .scalar anchor tag style text => (anchor.map (·, .scalar anchor tag style text)).toList
  | .list anchor items => (anchor.map (·, .list anchor items)).toList ++ anchoredItems items
  | .map anchor entries => (anchor.map (·, .map anchor entries)).toList ++ anchoredEntries entries

def anchoredItems : List Node → List (Nat × Node)
  | [] => []
  | item :: items => anchored item ++ anchoredItems items

def anchoredEntries : List (Node × Node) → List (Nat × Node)
  | [] => []
  | (key, value) :: entries => anchored key ++ anchored value ++ anchoredEntries entries

end

end Node

/-- What is left to read, and which anchors have been seen. -/
structure Reading where
  tokens : List Token
  /-- The number of every name of an anchor. -/
  anchors : List (String × Nat)

abbrev Reader := StateT Reading Option

namespace Reader

/-- Whether the next token is one of those that `p` accepts. -/
def nextIs (p : Token → Bool) : Reader Bool := return (← get).tokens.head?.any p

def peek : Reader (Option Token) := return (← get).tokens.head?

def skip : Reader Unit := modify fun r => { r with tokens := r.tokens.drop 1 }

/-- Skips the token if it comes next, and says whether it did. -/
def take (t : Token) : Reader Bool := do
  if ← nextIs (· == t) then
    skip
    return true
  else return false

/-- The number of a new anchor: how many names there are. A name that is used again moves on. -/
def bindAnchor (name : String) : Reader Nat := do
  let r ← get
  let number := r.anchors.length
  set { r with anchors := (name, number) :: r.anchors.filter (·.1 != name) }
  return number

def findAnchor (name : String) : Reader Nat := do
  match (← get).anchors.lookup name with
  | some number => return number
  | none => failure

/-- What stands before the content of a node. -/
structure Properties where
  anchor : Option String
  tag : Option String

/-- The shorthands of tags and what they stand for. -/
abbrev Shorthands := List (String × String)

/-- The shorthands that every document has. -/
def defaultShorthands : Shorthands := [("!", "!"), ("!!", "tag:yaml.org,2002:")]

/-- The tag that a shorthand and a suffix make. -/
def fullTag (shorthands : Shorthands) (handle suffix : String) : Reader String :=
  if handle.isEmpty then return suffix
  else
    match shorthands.lookup handle with
    | some expansion => return expansion ++ suffix
    | none => failure

def readAnchor : Reader (Option String) := do
  match ← peek with
  | some (.anchor name) =>
    skip
    return some name
  | _ => return none

def readTag (shorthands : Shorthands) : Reader (Option String) := do
  match ← peek with
  | some (.tag handle suffix) =>
    skip
    return some (← fullTag shorthands handle suffix)
  | _ => return none

/-- An anchor and a tag, in either order. -/
def properties (shorthands : Shorthands) : Reader Properties := do
  match ← readAnchor with
  | some name => return ⟨name, ← readTag shorthands⟩
  | none =>
    let tag ← readTag shorthands
    if tag.isSome then return ⟨← readAnchor, tag⟩ else return ⟨none, none⟩

/-- The number of the anchor, if there is one. -/
def Properties.bind (p : Properties) : Reader (Option Nat) :=
  match p.anchor with
  | some name => return some (← bindAnchor name)
  | none => return none

/-- The tag `!` says that a scalar has no tag. -/
def scalarTag (tag : Option String) : Option String := tag.filter (· != "!")

/-- Where a node may start. -/
structure Place where
  /-- Whether blocks may start. -/
  block : Bool
  /-- Whether a list may start with a dash that is not indented. -/
  dashes : Bool

def inBlock : Place := ⟨true, false⟩
def inMap : Place := ⟨true, true⟩
def inBrackets : Place := ⟨false, false⟩

def endsItem (t : Token) : Bool := t == .dash || t == .blockEnd
def endsDash (t : Token) : Bool := t == .dash || t == .key || t == .value || t == .blockEnd
def endsEntry (t : Token) : Bool := t == .key || t == .value || t == .blockEnd
def endsListValue (t : Token) : Bool := t == .comma || t == .closeList
def endsListKey (t : Token) : Bool := t == .value || endsListValue t
def endsMapValue (t : Token) : Bool := t == .comma || t == .closeMap
def endsMapKey (t : Token) : Bool := t == .value || endsMapValue t

mutual

/-- A node. -/
def node (sh : Shorthands) (place : Place) : (fuel : Nat) → Reader Node
  | 0 => failure
  | fuel + 1 => do
    match ← peek with
    | some (.alias name) =>
      skip
      return .alias (← findAnchor name)
    | _ =>
      let p ← properties sh
      match ← peek with
      | some .dash =>
        if place.dashes then
          let anchor ← p.bind
          return .list anchor (← dashes sh fuel)
        else bare p
      | some (.scalar style text) =>
        let anchor ← p.bind
        skip
        return .scalar anchor (scalarTag p.tag) style text
      | some .openList =>
        let anchor ← p.bind
        skip
        return .list anchor (← listItems sh true fuel)
      | some .openMap =>
        let anchor ← p.bind
        skip
        return .map anchor (← mapEntries sh true fuel)
      | some .blockList =>
        if place.block then
          let anchor ← p.bind
          skip
          return .list anchor (← blockItems sh fuel)
        else bare p
      | some .blockMap =>
        if place.block then
          let anchor ← p.bind
          skip
          return .map anchor (← blockEntries sh fuel)
        else bare p
      | _ => bare p

/-- A node without content must have an anchor or a tag. -/
def bare (p : Properties) : Reader Node := do
  if p.anchor.isSome || p.tag.isSome then return .scalar (← p.bind) p.tag .plain "" else failure

/-- A node, unless a token comes next that ends it. -/
def nodeOr (ends : Token → Bool) (sh : Shorthands) (place : Place) : (fuel : Nat) → Reader Node
  | 0 => failure
  | fuel + 1 => do
    if ← nextIs ends then return .empty else node sh place fuel

/-- The items of a list that is not indented. -/
def dashes (sh : Shorthands) : (fuel : Nat) → Reader (List Node)
  | 0 => failure
  | fuel + 1 => do
    if ← take .dash then
      let item ← nodeOr endsDash sh inBlock fuel
      return item :: (← dashes sh fuel)
    else return []

/-- The items of a block. -/
def blockItems (sh : Shorthands) : (fuel : Nat) → Reader (List Node)
  | 0 => failure
  | fuel + 1 => do
    if ← take .dash then
      let item ← nodeOr endsItem sh inBlock fuel
      return item :: (← blockItems sh fuel)
    else if ← take .blockEnd then return []
    else failure

/-- The entries of a block. -/
def blockEntries (sh : Shorthands) : (fuel : Nat) → Reader (List (Node × Node))
  | 0 => failure
  | fuel + 1 => do
    if ← take .blockEnd then return []
    else if ← nextIs (fun t => t == .key || t == .value) then
      let key ← if ← take .key then nodeOr endsEntry sh inMap fuel else pure Node.empty
      let value ← if ← take .value then nodeOr endsEntry sh inMap fuel else pure Node.empty
      return (key, value) :: (← blockEntries sh fuel)
    else failure

/-- The items of a list in brackets. An item can be a map of one entry. -/
def listItems (sh : Shorthands) (first : Bool) : (fuel : Nat) → Reader (List Node)
  | 0 => failure
  | fuel + 1 => do
    if ← take .closeList then return []
    else if first || (← take .comma) then
      if ← take .key then
        let entry ← pair sh fuel
        return .map none [entry] :: (← listItems sh false fuel)
      else if ← take .closeList then return []
      else
        let item ← node sh inBrackets fuel
        return item :: (← listItems sh false fuel)
    else failure

/-- The only entry of a map in a list. Where its key is missing a token is passed over. -/
def pair (sh : Shorthands) : (fuel : Nat) → Reader (Node × Node)
  | 0 => failure
  | fuel + 1 => do
    let key ←
      if ← nextIs endsListKey then
        skip
        pure Node.empty
      else node sh inBrackets fuel
    let value ← if ← take .value then nodeOr endsListValue sh inBrackets fuel else pure Node.empty
    return (key, value)

/-- The entries of a map in braces. -/
def mapEntries (sh : Shorthands) (first : Bool) : (fuel : Nat) → Reader (List (Node × Node))
  | 0 => failure
  | fuel + 1 => do
    if ← take .closeMap then return []
    else if first || (← take .comma) then
      if ← take .key then
        let key ← nodeOr endsMapKey sh inBrackets fuel
        let value ← if ← take .value then nodeOr endsMapValue sh inBrackets fuel else pure Node.empty
        return (key, value) :: (← mapEntries sh false fuel)
      else if ← take .closeMap then return []
      else
        let key ← node sh inBrackets fuel
        return (key, .empty) :: (← mapEntries sh false fuel)
    else failure

end

/-- The version of YAML that a document may ask for. -/
def isKnownVersion (major minor : Nat) : Bool := major == 1 && (minor == 1 || minor == 2)

/-- The directives before a document: at most one version, and every shorthand once. -/
def directives : (fuel : Nat) → (versioned : Bool) → Shorthands → Reader Shorthands
  | 0, _, _ => failure
  | fuel + 1, versioned, own => do
    match ← peek with
    | some (.version major minor) =>
      if versioned || !isKnownVersion major minor then failure
      else
        skip
        directives fuel true own
    | some (.tagShorthand handle expansion) =>
      if (own.lookup handle).isSome then failure
      else
        skip
        directives fuel versioned ((handle, expansion) :: own)
    | _ => return own ++ defaultShorthands

def isDirective : Token → Bool
  | .version _ _ => true
  | .tagShorthand _ _ => true
  | _ => false

def endsDocument (t : Token) : Bool := isDirective t || t == .documentStart || t == .documentEnd

/-- The document, if there is one. -/
def document (fuel : Nat) : Reader (Option Node) := do
  match ← peek with
  | none => return none
  | some t =>
    if endsDocument t then
      let sh ← directives fuel false []
      if ← take .documentStart then
        if (← peek).isNone then return some Node.empty
        else return some (← nodeOr endsDocument sh inBlock fuel)
      else failure
    else node defaultShorthands inBlock fuel

end Reader

/-- The only document of a text, or none when the text has no content. -/
def read? (s : String) : Option (Option Node) := do
  let tokens ← tokens? s
  let (node, r) ← (Reader.document (4 * tokens.length + 4)).run ⟨tokens, []⟩
  if (r.tokens.dropWhile (· == .documentEnd)).isEmpty then some node else none

end LunchRush.Yaml

import JsonTemplate.Yaml.Looks
import JsonTemplate.Yaml.Token

set_option autoImplicit false

/-!
# Graphs

The one document of a YAML text as a graph of numbered nodes. An alias is the number of
the node that its anchor names, so collections can share nodes, and can contain
themselves.
-/

namespace JsonTemplate.Yaml

inductive Content where
  | scalar (text : Text)
  | sequence (items : List Nat)
  | mapping (entries : List (Nat × Nat))
deriving Repr

structure Node where
  tag : Tag
  content : Content
deriving Repr

abbrev Graph := Array Node

namespace Graph

def mostLevels : Nat := 485

/-- The rest of the text, the nodes read so far, the numbers of those that anchors name,
and what the handles of tags stand for. -/
structure Reader where
  lexer : Lexer
  graph : Graph
  anchors : List (Text × Nat)
  handles : List (Text × Text)

abbrev Step := StateT Reader (Except Fault)

def peek : Step Token := do
  let ⟨lexer, graph, anchors, handles⟩ ← get
  let (token, lexer) ← lexer.peek
  set (Reader.mk lexer graph anchors handles)
  return token

def skip : Step Unit :=
  modify fun reader => { reader with lexer := reader.lexer.skip }

def skipIf (token : Token) : Step Bool := do
  if (← peek) == token then
    skip
    return true
  else return false

def expect (token : Token) : Step Unit := do
  if !(← skipIf token) then throw .malformed

def isNext (tokens : List Token) : Step Bool := do
  return tokens.contains (← peek)

/-! ## Properties -/

def anchor? : Step (Option Text) := do
  match ← peek with
  | .anchor name =>
      skip
      return some name
  | _ => return none

def tag? : Step (Option (Option Text × Text)) := do
  match ← peek with
  | .tag handle suffix =>
      skip
      return some (handle, suffix)
  | _ => return none

def tagName (handle : Option Text) (suffix : Text) : Step Text := do
  match handle with
  | none => return suffix
  | some handle =>
      match (← get).handles.lookup handle with
      | some meant => return meant ++ suffix
      | none => throw .malformed

def properties : Step (Option Text × Option Text) := do
  let first ← anchor?
  let tag ← tag?
  let anchor ← if first.isNone && tag.isSome then anchor? else pure first
  match tag with
  | none => return (anchor, none)
  | some (handle, suffix) => return (anchor, some (← tagName handle suffix))

/-- The type of a scalar. A lone exclamation mark leaves it to its looks. -/
def scalarTag (plain : Bool) (name : Option Text) (text : Text) : Tag :=
  match name with
  | none => if plain then .ofLooks text else .text
  | some name => if name = [.scalar '!'] then .ofLooks text else .ofName name

/-- The type of a collection, which is that of its kind unless a tag tells another. -/
def collectionTag (kind : Tag) : Option Text → Tag
  | none => kind
  | some name => if name = [.scalar '!'] then kind else .ofName name

/-! ## Nodes -/

def add (node : Node) : Step Nat :=
  modifyGet fun reader => (reader.graph.size, { reader with graph := reader.graph.push node })

def fill (number : Nat) (content : Content) : Step Unit :=
  modify fun reader => { reader with
    graph := reader.graph.modify number fun node => { node with content := content } }

def addNamed (anchor : Option Text) (node : Node) : Step Nat := do
  match anchor with
  | none => add node
  | some anchor =>
      if ((← get).anchors.lookup anchor).isSome then throw .malformed
      let number ← add node
      modify fun reader => { reader with anchors := (anchor, number) :: reader.anchors }
      return number

def addEmpty : Step Nat := add ⟨.null, .scalar []⟩

/-- Add a node whose content is left out; it has to have a property. -/
def addBare (anchor name : Option Text) : Step Nat := do
  if anchor.isNone && name.isNone then throw .malformed
  addNamed anchor ⟨scalarTag true name [], .scalar []⟩

def blockGaps : List Token := [.key, .value, .blockEnd]

def flowGaps : List Token := [.flowEntry, .flowMappingEnd]

mutual

/-- Read a node, with some levels left. In a block it may be a block itself; as the value
of a block mapping it may also be a sequence without further indentation. -/
def read (block indentless : Bool) (levels : Nat) : Nat → Step Nat
  | 0 => throw .malformed
  | fuel + 1 => do
      if levels = 0 then throw .tooDeep
      match ← peek with
      | .alias target =>
          skip
          match (← get).anchors.lookup target with
          | some number => return number
          | none => throw .malformed
      | _ =>
          let (anchor, name) ← properties
          match ← peek with
          | .blockEntry =>
              if !indentless then addBare anchor name
              else
                let number ← addNamed anchor ⟨collectionTag .sequence name, .sequence []⟩
                fill number (.sequence (← readIndentless (levels - 1) fuel))
                return number
          | .scalar plain text =>
              skip
              addNamed anchor ⟨scalarTag plain name text, .scalar text⟩
          -- A collection has its number before it is read, so that an alias inside can name it.
          | .flowSequenceStart =>
              let number ← addNamed anchor ⟨collectionTag .sequence name, .sequence []⟩
              skip
              fill number (.sequence (← readFlowItems true (levels - 1) fuel))
              return number
          | .flowMappingStart =>
              let number ← addNamed anchor ⟨collectionTag .mapping name, .mapping []⟩
              skip
              fill number (.mapping (← readFlowEntries true (levels - 1) fuel))
              return number
          | .blockSequenceStart =>
              if !block then addBare anchor name
              else
                let number ← addNamed anchor ⟨collectionTag .sequence name, .sequence []⟩
                skip
                fill number (.sequence (← readBlockItems (levels - 1) fuel))
                return number
          | .blockMappingStart =>
              if !block then addBare anchor name
              else
                let number ← addNamed anchor ⟨collectionTag .mapping name, .mapping []⟩
                skip
                fill number (.mapping (← readBlockEntries (levels - 1) fuel))
                return number
          | _ => addBare anchor name
termination_by structural fuel => fuel

def readBlockItems (levels : Nat) : Nat → Step (List Nat)
  | 0 => throw .malformed
  | fuel + 1 => do
      if ← skipIf .blockEntry then
        let item ←
          if ← isNext [.blockEntry, .blockEnd] then addEmpty else read true false levels fuel
        return item :: (← readBlockItems levels fuel)
      else
        expect .blockEnd
        return []
termination_by structural fuel => fuel

/-- The items of a sequence as indented as the mapping around it. -/
def readIndentless (levels : Nat) : Nat → Step (List Nat)
  | 0 => throw .malformed
  | fuel + 1 => do
      if ← skipIf .blockEntry then
        let item ←
          if ← isNext (.blockEntry :: blockGaps) then addEmpty else read true false levels fuel
        return item :: (← readIndentless levels fuel)
      else return []
termination_by structural fuel => fuel

def readBlockEntries (levels : Nat) : Nat → Step (List (Nat × Nat))
  | 0 => throw .malformed
  | fuel + 1 => do
      if ← skipIf .key then
        let key ← if ← isNext blockGaps then addEmpty else read true true levels fuel
        let value ← readBlockValue levels fuel
        return (key, value) :: (← readBlockEntries levels fuel)
      else
        expect .blockEnd
        return []
termination_by structural fuel => fuel

def readBlockValue (levels : Nat) : Nat → Step Nat
  | 0 => throw .malformed
  | fuel + 1 => do
      if ← skipIf .value then
        if ← isNext blockGaps then addEmpty else read true true levels fuel
      else addEmpty
termination_by structural fuel => fuel

/-- The items of a flow sequence up to its end. A key makes a mapping of one entry. -/
def readFlowItems (first : Bool) (levels : Nat) : Nat → Step (List Nat)
  | 0 => throw .malformed
  | fuel + 1 => do
      if ← skipIf .flowSequenceEnd then return []
      if !first then expect .flowEntry
      if ← isNext [.key] then
        if levels = 0 then throw .tooDeep
        let number ← add ⟨.mapping, .mapping []⟩
        skip
        let key ←
          if ← isNext [.value, .flowEntry, .flowSequenceEnd] then addEmpty
          else read false false (levels - 1) fuel
        let value ← readFlowValue [.flowEntry, .flowSequenceEnd] (levels - 1) fuel
        fill number (.mapping [(key, value)])
        return number :: (← readFlowItems false levels fuel)
      else if ← skipIf .flowSequenceEnd then return []
      else
        let item ← read false false levels fuel
        return item :: (← readFlowItems false levels fuel)
termination_by structural fuel => fuel

def readFlowValue (gaps : List Token) (levels : Nat) : Nat → Step Nat
  | 0 => throw .malformed
  | fuel + 1 => do
      if ← skipIf .value then
        if ← isNext gaps then addEmpty else read false false levels fuel
      else addEmpty
termination_by structural fuel => fuel

/-- The entries of a flow mapping up to its end. A node without a colon is a key. -/
def readFlowEntries (first : Bool) (levels : Nat) : Nat → Step (List (Nat × Nat))
  | 0 => throw .malformed
  | fuel + 1 => do
      if ← skipIf .flowMappingEnd then return []
      if !first then expect .flowEntry
      if ← skipIf .key then
        let key ← if ← isNext (.value :: flowGaps) then addEmpty else read false false levels fuel
        let value ← readFlowValue flowGaps levels fuel
        return (key, value) :: (← readFlowEntries false levels fuel)
      else if ← skipIf .flowMappingEnd then return []
      else
        let key ← read false false levels fuel
        let value ← addEmpty
        return (key, value) :: (← readFlowEntries false levels fuel)
termination_by structural fuel => fuel

end

/-! ## Documents -/

def defaultHandles : List (Text × Text) :=
  [(lit "!", lit "!"), (lit "!!", lit "tag:yaml.org,2002:")]

/-- Read directives: at most one version, whose major number is one, and handles that
differ from each other. -/
def readDirectives (versioned : Bool) (handles : List (Text × Text)) :
    Nat → Step (List (Text × Text))
  | 0 => throw .malformed
  | fuel + 1 => do
      match ← peek with
      | .directive said =>
          skip
          match said with
          | .other => readDirectives versioned handles fuel
          | .version major =>
              if versioned || major ≠ 1 then throw .malformed
              readDirectives true handles fuel
          | .handle name meant =>
              if (handles.lookup name).isSome then throw .malformed
              readDirectives versioned ((name, meant) :: handles) fuel
      | _ => return handles

def readStart (fuel : Nat) : Step Unit := do
  let handles ← readDirectives false [] fuel
  expect .documentStart
  modify fun reader => { reader with handles := handles ++ defaultHandles }

def skipEnds : Nat → Step Unit
  | 0 => throw .malformed
  | fuel + 1 => do
      if ← skipIf .documentEnd then skipEnds fuel

def readRoot (fuel : Nat) : Step (Option Nat) := do
  match ← peek with
  | .textEnd => return none
  | .directive _ | .documentStart =>
      readStart fuel
      match ← peek with
      | .directive _ | .documentStart | .documentEnd | .textEnd => return some (← addEmpty)
      | _ => return some (← read true false mostLevels fuel)
  | _ => return some (← read true false mostLevels fuel)

/-- Read a document. Nothing may follow it but marks of its end. -/
def readDocument (fuel : Nat) : Step (Option Nat) := do
  let root ← readRoot fuel
  skipEnds fuel
  if ← isNext [.textEnd] then return root
  readStart fuel
  throw .malformed

/-- How many steps suffice to read the document of a text: a place of a text makes a few
tokens, and a token takes a few steps. -/
def stepBound (text : Text) : Nat := 32 * (text.length + 2)

def ofText (text : Text) : Except Fault (Option Nat × Graph) := do
  let lexer ← Lexer.ofText text
  let (root, reader) ← (readDocument (stepBound text)).run ⟨lexer, #[], [], defaultHandles⟩
  return (root, reader.graph)

end Graph

end JsonTemplate.Yaml

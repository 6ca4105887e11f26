import JsonTemplate.Yaml.Graph

set_option autoImplicit false

/-!
# Merged mappings

A mapping can take over the entries of other mappings. Its merge keys are taken out one
after the other, and what they bring in goes in front, so that own entries take
precedence. A mapping that is merged has its own merge keys taken out first; since the
key that led to it is gone by then, a mapping may even be merged into itself.
-/

namespace JsonTemplate.Yaml.Graph

def tagOf (graph : Graph) (number : Nat) : Tag :=
  (graph[number]?.map (·.tag)).getD .unknown

def contentOf (graph : Graph) (number : Nat) : Content :=
  (graph[number]?.map (·.content)).getD (.scalar [])

def entriesOf (graph : Graph) (number : Nat) : List (Nat × Nat) :=
  match graph.contentOf number with
  | .mapping entries => entries
  | _ => []

def withEntries (graph : Graph) (number : Nat) (entries : List (Nat × Nat)) : Graph :=
  graph.modify number fun node => { node with content := .mapping entries }

def isMerge (graph : Graph) (entry : Nat × Nat) : Bool :=
  graph.tagOf entry.1 = .merge

def mergeCount (graph : Graph) : Nat :=
  (graph.toList.map fun node =>
    match node.content with
    | .mapping entries => entries.countP graph.isMerge
    | _ => 0).foldr (· + ·) 0

def takeMerge? (graph : Graph) (number : Nat) : Option (Nat × Graph) :=
  let entries := graph.entriesOf number
  let (before, rest) := entries.span fun entry => !graph.isMerge entry
  match rest with
  | [] => none
  | (_, source) :: after => some (source, graph.withEntries number (before ++ after))

/-- A default key is a text where it is the key of an entry. -/
def settleKey (graph : Graph) (entry : Nat × Nat) : Graph :=
  if graph.tagOf entry.1 = .default then
    graph.modify entry.1 fun node => { node with tag := .text }
  else graph

def putInFront (graph : Graph) (number : Nat) (merged : List (Nat × Nat)) : Graph :=
  let entries := graph.entriesOf number
  let graph := entries.foldl settleKey graph
  if merged.isEmpty then graph else graph.withEntries number (merged ++ entries)

/-- Take the merge keys of a mapping out, where some entries were already brought in. What
is merged is a mapping or a sequence of mappings, whose own merge keys are at most so many
levels deep. Every round takes out a merge key, so their number bounds the rounds. -/
def flattenFrom : (rounds levels : Nat) → List (Nat × Nat) → Nat → Graph → Except Fault Graph
  | 0, _, _, _, graph => .ok graph
  | rounds + 1, levels, merged, number, graph =>
      let inner (source : Nat) (graph : Graph) : Except Fault Graph :=
        if levels = 0 then .error .tooDeep
        else flattenFrom rounds (levels - 1) [] source graph
      match graph.takeMerge? number with
      | none => .ok (graph.putInFront number merged)
      | some (source, graph) =>
          match graph.contentOf source with
          | .scalar _ => .error .malformed
          | .mapping _ => do
              let graph ← inner source graph
              flattenFrom rounds levels (merged ++ graph.entriesOf source) number graph
          | .sequence items => do
              -- Later entries win, so the first mapping of the sequence comes last.
              let (graph, groups) ← items.foldlM (fun (graph, groups) item =>
                match graph.contentOf item with
                | .mapping _ => do
                    let graph ← inner item graph
                    return (graph, graph.entriesOf item :: groups)
                | _ => .error .malformed) (graph, ([] : List (List (Nat × Nat))))
              flattenFrom rounds levels (merged ++ groups.flatten) number graph

def mostMerged : Nat := 988

/-- Take the merge keys of a mapping out. Only a mapping that has one needs them counted. -/
def flatten (graph : Graph) (number : Nat) : Except Fault Graph :=
  let rounds := if (graph.entriesOf number).any graph.isMerge then graph.mergeCount + 1 else 1
  flattenFrom rounds mostMerged [] number graph

end JsonTemplate.Yaml.Graph

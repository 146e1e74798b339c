import TokenGate.Automaton.Catalog

/-!
# Automata

A definition is compiled to a graph of states: the phases with their fixed edges, and one state
for each token that the rules mention. The event of every rule is accepted in the main phase,
where it stays unless the rule is a constraint, which leads on to the executing phase.
-/

namespace TokenGate

/-- What an edge of the graph stands for: a gameplay event, a rule, or a change of a token. -/
inductive EdgeEvent where
  | gameplay (e : GameplayEvent)
  | rule (entry : CatalogEntry)
  | token (name : EventName)

/-- An edge of the graph. -/
structure Edge where
  label : String
  event : EdgeEvent
  target : Phase

/-- The catalog entry of an edge. -/
def Edge.entry? (e : Edge) : Option CatalogEntry :=
  match e.event with
  | .rule entry => some entry
  | _ => none

/-- A compiled definition: every state with its edges, in order, and the catalog. -/
structure Automaton where
  definition : Definition
  graph : List (State × List Edge)
  catalog : Catalog
  tokenTypes : List String

namespace Automaton

/-- The fixed edges of a phase. -/
def baseEdges (p : Phase) : List Edge :=
  p.edges.map fun (e, target) => ⟨e.label, .gameplay e, target⟩

/-- Where the event of a rule leads. -/
def ruleTarget : RuleKind → Phase
  | .constraint => .executing
  | _ => .main

/-- The edges of the rules. -/
def ruleEdges (c : Catalog) : List Edge :=
  c.map fun e => ⟨e.label, .rule e, ruleTarget e.rule.kind⟩

/-- The edges of a phase. -/
def phaseEdges (c : Catalog) (p : Phase) : List Edge :=
  match p with
  | .main => baseEdges .main ++ ruleEdges c
  | p => baseEdges p

/-- The edges of the state of a token: it is spent, or it is gained. -/
def tokenEdges (token : String) : Except LabelError (List Edge) := do
  let spend : EventName := ⟨.spend, token⟩
  let gain : EventName := ⟨.gain, token⟩
  return [⟨← spend.label, .token spend, .main⟩, ⟨← gain.label, .token gain, .main⟩]

/-- The states of a list of tokens with their edges. -/
def tokenStates : List String → Except LabelError (List (State × List Edge))
  | [] => .ok []
  | t :: rest => do return (.token t, ← tokenEdges t) :: (← tokenStates rest)

/-- Compiles a definition. -/
def build (d : Definition) : Except BuildError Automaton := do
  let catalog ← Catalog.build d
  let tokens ← (tokenStates d.tokenTypes).mapError .label
  return {
    definition := d
    graph := Phase.all.map (fun p => (.phase p, phaseEdges catalog p)) ++ tokens
    catalog := catalog
    tokenTypes := d.tokenTypes }

/-- The states, in order. -/
def states (a : Automaton) : List State := a.graph.map Prod.fst

/-- The edges that leave a state; none if the state is not in the graph. -/
def edgesFrom (a : Automaton) (s : State) : List Edge :=
  match a.graph.find? fun e => e.1 = s with
  | some e => e.2
  | none => []

/-- The edge for an event in a state. -/
def edge? (a : Automaton) (s : State) (label : String) : Option Edge :=
  (a.edgesFrom s).find? fun e => e.label == label

end Automaton
end TokenGate

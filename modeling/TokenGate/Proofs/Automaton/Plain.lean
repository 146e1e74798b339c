import TokenGate.Proofs.Automaton.Lookup

/-!
# Plain definitions

The name of a definition, the number of its players, the conditions and the actions of triggers, the
timing of actions and the messages of constraints describe a game. A definition without all that is
plain. What a definition is compiled to, or why it cannot be, does not depend on what describes the
game: compiling the plain definition gives the automaton that is plain as well.
-/

namespace TokenGate

/-- A trigger without its condition and its action. -/
def Trigger.plain (t : Trigger) : Trigger := { t with condition := none, action := none }

/-- An action without its timing. -/
def Action.plain (a : Action) : Action := { a with timing := none }

/-- A constraint without its message. -/
def Constraint.plain (c : Constraint) : Constraint := { c with message := none }

namespace Rule

/-- A rule without what only describes it. -/
def plain : Rule → Rule
  | trigger t => .trigger t.plain
  | action a => .action a.plain
  | constraint c => .constraint c.plain

@[simp] theorem kind_plain (r : Rule) : r.plain.kind = r.kind := by cases r <;> rfl

@[simp] theorem name_plain (r : Rule) : r.plain.name = r.name := by cases r <;> rfl

@[simp] theorem tokens_plain (r : Rule) : r.plain.tokens = r.tokens := by cases r <;> rfl

end Rule

namespace Definition

/-- A definition without what only describes the game. -/
def plain (d : Definition) : Definition where
  name := ""
  players := 1
  initial := d.initial
  triggers := d.triggers.map Trigger.plain
  actions := d.actions.map Action.plain
  constraints := d.constraints.map Constraint.plain

theorem rules_plain (d : Definition) : d.plain.rules = d.rules.map Rule.plain := by
  simp only [rules, plain, List.map_append, List.map_map]
  rfl

@[simp] theorem tokenTypes_plain (d : Definition) : d.plain.tokenTypes = d.tokenTypes := by
  simp only [tokenTypes, rules_plain, List.flatMap_map, Rule.tokens_plain]

end Definition

namespace CatalogEntry

/-- The entry of a plain rule. -/
def plain (e : CatalogEntry) : CatalogEntry := { e with rule := e.rule.plain }

@[simp] theorem rule_plain (e : CatalogEntry) : e.plain.rule = e.rule.plain := rfl

@[simp] theorem steps_plain (e : CatalogEntry) : e.plain.steps = e.steps := by
  rw [steps, rule_plain, Rule.kind_plain, steps]

end CatalogEntry

/-- What an edge stands for, with a plain rule if it is one. -/
def EdgeEvent.plain : EdgeEvent → EdgeEvent
  | .rule entry => .rule entry.plain
  | event => event

/-- An edge that stands for a plain rule if it stands for one. -/
def Edge.plain (e : Edge) : Edge := { e with event := e.event.plain }

theorem Edge.entry?_plain (e : Edge) : e.plain.entry? = e.entry?.map CatalogEntry.plain := by
  obtain ⟨label, event, target⟩ := e
  cases event <;> rfl

namespace Catalog

/-- A catalog of plain rules. -/
def plain (c : Catalog) : Catalog := c.map CatalogEntry.plain

theorem entry_plain (r : Rule) : entry r.plain = (entry r).map CatalogEntry.plain := by
  simp only [entry, Rule.kind_plain, Rule.name_plain]
  cases EventName.label ⟨.ofRule r.kind, r.name⟩ <;> rfl

theorem entries_plain (rs : List Rule) : entries (rs.map Rule.plain) = (entries rs).map plain := by
  induction rs with
  | nil => rfl
  | cons r rest ih =>
    simp only [List.map_cons, entries, entry_plain, ih]
    cases entry r with
    | error e => rfl
    | ok e => cases entries rest <;> rfl

theorem sources_plain (c : Catalog) : c.plain.sources = c.sources := by
  simp only [sources, plain, List.map_map]
  congr 2
  funext e
  simp only [Function.comp_apply, CatalogEntry.rule_plain, Rule.kind_plain, Rule.name_plain]
  rfl

theorem sourcesOf_plain (c : Catalog) : c.plain.sourcesOf = c.sourcesOf := by
  funext label
  simp only [sourcesOf, sources_plain]

theorem build_plain (d : Definition) : build d.plain = (build d).map plain := by
  simp only [build, Definition.rules_plain, entries_plain]
  cases entries d.rules with
  | error e => rfl
  | ok c =>
    simp only [Except.map, collision?, sources_plain, sourcesOf_plain]
    split <;> rfl

end Catalog

namespace Automaton

/-- A state with plain edges. -/
def plainState (s : State × List Edge) : State × List Edge := (s.1, s.2.map Edge.plain)

/-- The automaton with plain rules. -/
def plain (a : Automaton) : Automaton where
  definition := a.definition.plain
  graph := a.graph.map plainState
  catalog := a.catalog.plain
  tokenTypes := a.tokenTypes

theorem phaseEdges_plain (c : Catalog) (p : Phase) :
    phaseEdges c.plain p = (phaseEdges c p).map Edge.plain := by
  have fixed (p : Phase) : baseEdges p = (baseEdges p).map Edge.plain := by
    rw [baseEdges, List.map_map]
    rfl
  have rules : ruleEdges c.plain = (ruleEdges c).map Edge.plain := by
    simp only [ruleEdges, Catalog.plain, List.map_map]
    congr 1
    funext e
    simp only [Function.comp_apply, CatalogEntry.rule_plain, Rule.kind_plain]
    rfl
  cases p with
  | main =>
    show baseEdges .main ++ ruleEdges c.plain = (baseEdges .main ++ ruleEdges c).map Edge.plain
    rw [List.map_append, ← fixed, rules]
  | _ => exact fixed _

/-- The edges of the states of tokens do not stand for rules. -/
theorem map_plainState_of_tokenStates {tokens : List String} {states : List (State × List Edge)}
    (h : tokenStates tokens = .ok states) : states.map plainState = states := by
  refine (List.map_congr_left fun x hx => ?_).trans (List.map_id states)
  obtain ⟨t, -, -, hes⟩ := tokenStates_spec h hx
  have fixed : x.2.map Edge.plain = x.2 := by
    refine (List.map_congr_left fun edge hedge => ?_).trans (List.map_id x.2)
    obtain ⟨n, -, -, hevent⟩ := tokenEdges_spec hes hedge
    simp only [Edge.plain, hevent, EdgeEvent.plain, id]
    rw [← hevent]
  rw [plainState, fixed, id]

/-- Compiling a plain definition gives the plain automaton. -/
theorem build_plain (d : Definition) : build d.plain = (build d).map plain := by
  simp only [build, Catalog.build_plain, Definition.tokenTypes_plain]
  cases Catalog.build d with
  | error e => rfl
  | ok c =>
    cases htokens : tokenStates d.tokenTypes with
    | error e => rfl
    | ok tokens =>
      have graph : Phase.all.map (fun p => (State.phase p, phaseEdges c.plain p)) ++ tokens =
          (Phase.all.map (fun p => (State.phase p, phaseEdges c p)) ++ tokens).map plainState := by
        rw [List.map_append, map_plainState_of_tokenStates htokens, List.map_map]
        congr 2
        funext p
        rw [phaseEdges_plain]
        rfl
      show Except.ok (⟨_, _, _, _⟩ : Automaton) = .ok (plain ⟨_, _, _, _⟩)
      rw [graph]
      rfl

theorem edgesFrom_plain (a : Automaton) (s : State) :
    a.plain.edgesFrom s = (a.edgesFrom s).map Edge.plain := by
  have found : a.plain.graph.find? (fun e => e.1 = s) =
      (a.graph.find? fun e => e.1 = s).map plainState := List.find?_map
  simp only [edgesFrom, found]
  cases a.graph.find? fun e => e.1 = s <;> rfl

/-- A plain automaton leads along the same edges. -/
theorem edge?_plain (a : Automaton) (s : State) (label : String) :
    a.plain.edge? s label = (a.edge? s label).map Edge.plain := by
  rw [edge?, edgesFrom_plain]
  exact List.find?_map

end Automaton
end TokenGate

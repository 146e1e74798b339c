import TokenGate.Automaton.Label
import TokenGate.Definition
import TokenGate.Phase.Topology

/-!
# Event catalogs

The catalog of a definition binds the label of every rule to the rule and to the steps that are
carried out when the event is sent. Two rules may not have the same label, and none may have the
label of a gameplay event.
-/

namespace TokenGate

/-- The steps that rules are made of. -/
inductive Step where
  | grantTokens
  | logTrigger
  | consumeTokens
  | applyEffect
  | logAction
  | checkConstraint
  | logConstraint
  deriving DecidableEq, Repr

namespace Step

/-- All steps, in order. -/
def all : List Step :=
  [grantTokens, logTrigger, consumeTokens, applyEffect, logAction, checkConstraint, logConstraint]

/-- The name of a step. -/
def text : Step → String
  | grantTokens => "grant_tokens"
  | logTrigger => "log_trigger"
  | consumeTokens => "consume_tokens"
  | applyEffect => "apply_effect"
  | logAction => "log_action"
  | checkConstraint => "check_constraint"
  | logConstraint => "log_constraint"

/-- The steps of a rule, in order. -/
def chain : RuleKind → List Step
  | .trigger => [grantTokens, logTrigger]
  | .action => [consumeTokens, applyEffect, logAction]
  | .constraint => [checkConstraint, logConstraint]

end Step

/-- An entry of a catalog: a rule under the label of its event. -/
structure CatalogEntry where
  label : String
  rule : Rule

namespace CatalogEntry

/-- The event of an entry. -/
def name (e : CatalogEntry) : EventName := ⟨.ofRule e.rule.kind, e.rule.name⟩

/-- The steps of an entry. -/
def steps (e : CatalogEntry) : List Step := Step.chain e.rule.kind

end CatalogEntry

/-- A catalog: one entry for each rule, in order. -/
abbrev Catalog := List CatalogEntry

/-- What can be wrong with a definition when it is compiled. -/
inductive BuildError where
  | label (e : LabelError)
  | collision (label : String) (sources : List String)

/-- The message about a label with several sources. -/
def collisionText (label : String) (sources : List String) : String :=
  "Event name '" ++ label ++ "' is produced by more than one entry: " ++ ", ".intercalate sources

/-- The text of a build error. -/
def BuildError.message : BuildError → String
  | label e => e.message
  | collision l sources => collisionText l sources

namespace Catalog

/-- The entry of a rule. -/
def entry (r : Rule) : Except LabelError CatalogEntry :=
  (EventName.label ⟨.ofRule r.kind, r.name⟩).map fun l => ⟨l, r⟩

/-- The entries of a list of rules. -/
def entries : List Rule → Except LabelError Catalog
  | [] => .ok []
  | r :: rest => do return (← entry r) :: (← entries rest)

/-- Every label with what it comes from: the gameplay events, then the entries. -/
def sources (c : Catalog) : List (String × String) :=
  GameplayEvent.all.map (fun e => (e.label, "gameplay event " ++ e.label)) ++
    c.map fun e => (e.label, e.rule.kind.word ++ " '" ++ e.rule.name ++ "'")

/-- What a label comes from, in order. -/
def sourcesOf (c : Catalog) (label : String) : List String :=
  (c.sources.filter fun s => s.1 == label).map Prod.snd

/-- The first label that comes from several sources. -/
def collision? (c : Catalog) : Option String :=
  (c.sources.map Prod.fst).find? fun l => 1 < (c.sourcesOf l).length

/-- The entry under a label. -/
def find? (c : Catalog) (label : String) : Option CatalogEntry :=
  List.find? (fun e => e.label == label) c

/-- The entries whose events are of a kind. -/
def ofKind (c : Catalog) (kind : EventKind) : List CatalogEntry :=
  List.filter (fun e => EventKind.ofRule e.rule.kind = kind) c

/-- The catalog of a definition. -/
def build (d : Definition) : Except BuildError Catalog :=
  match entries d.rules with
  | .error e => .error (.label e)
  | .ok c =>
      match collision? c with
      | some l => .error (.collision l (sourcesOf c l))
      | none => .ok c

end Catalog
end TokenGate

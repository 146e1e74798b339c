import TokenGate.Definition.Problem
import TokenGate.Session

/-!
# Handling rules

The steps that rules are made of. The steps of one rule are carried out in order and tell each
other, in a `Progress`, what has been done: whether the cost was paid, whether the effect was
applied or why not, and what became of the constraint.
-/

namespace TokenGate

/-- What an event may be bound to. Only rules are ever in a catalog. -/
inductive Binding where
  | rule (r : Rule)
  | definition (d : Definition)

/-- How messages call what an event is bound to. -/
def Binding.title : Binding → String
  | rule r => r.kind.title
  | definition _ => definitionTitle

/-- The name of what an event is bound to. -/
def Binding.name : Binding → String
  | rule r => r.name
  | definition d => d.name

/-- A session with the progress of the rule at hand. -/
structure Handling (σ : Type) where
  session : Session σ
  progress : Progress

namespace Handling

variable {σ α : Type}

/-- An activity of the session. -/
def lift (x : Act (Session σ) α) : Act (Handling σ) α :=
  x.on session fun s h => { h with session := s }

/-- Changes the session. -/
def onSession (f : Session σ → Session σ) : Act (Handling σ) Unit :=
  Act.change fun h => { h with session := f h.session }

/-- Notes progress. -/
def note (f : Progress → Progress) : Act (Handling σ) Unit :=
  Act.change fun h => { h with progress := f h.progress }

end Handling

namespace Interpreter

open Handling

variable {σ : Type}

/-- The name under which the steps report. -/
def stepLogger : String := "automaton.handlers"

/-- Reports what a step does. -/
def reportStep (i : Interpreter σ) (level : Level) (message : String) : Act (Handling σ) Unit :=
  onSession (i.report stepLogger level message)

/-- Applies an effect to the game of the event at hand; whether there is such an effect. Any fault
of a custom effect becomes one of the effect. -/
def applyEffect (i : Interpreter σ) (name : String) (payload : Data) : Act (Session σ) Bool :=
  fun s =>
    match i.surroundings.effects.get? name with
    | none => (.ok false, s)
    | some .setFlag =>
        match Effect.setFlag s.edits s.current payload with
        | .ok edit => (.ok true, s.edit edit)
        | .error e => (.error (.effect e.message), s)
    | some .removePiece =>
        match Effect.removePiece s.edits s.current payload with
        | .ok edit => (.ok true, s.edit edit)
        | .error e => (.error (.effect e.message), s)
    | some (.custom play) =>
        match i.perform .current (play payload) s with
        | (.ok (), s) => (.ok true, s)
        | (.error (.effect text), s) => (.error (.effect text), s)
        | (.error f, s) => (.error (.effect (effectFailedText name f.message)), s)

/-- Pays from the ledger of the game of the event at hand; what is missing, if that is not
enough. -/
def payCurrent (b : TokenBag) : Act (Handling σ) (List (String × Nat)) := fun h =>
  match h.session.current.ledger.pay b with
  | .ok l =>
      (.ok [], { h with session := h.session.modifyCurrent fun c => { c with ledger := l } })
  | .error (.insufficient lack) => (.ok lack, h)
  | .error e => (.error (.ledger e), h)

/-- Logs that a rule has been handled. -/
def logRule (i : Interpreter σ) (e : Event) (kind : EventKind) (detail : String) :
    Act (Handling σ) Unit := do
  let log : RuleLog := ⟨kind, e, (← Act.get).session.current.ledger.entries, detail⟩
  i.reportStep .debug log.line
  lift (i.notifyLog log)

/-- Whether a constraint blocks in the game of the event at hand. -/
def blocks (i : Interpreter σ) (c : Constraint) (e : Event) : Act (Session σ) Bool :=
  match c.gate with
  | .condition cond => fun s =>
      (.ok (cond.holds (s.current.scope i.config.attributes s.edits e)), s)
  | .external key => do return (← i.perform .current (i.surroundings.predicate key e)).truth

/-- Lets a constraint block. -/
def block (i : Interpreter σ) (c : Constraint) (e : Event) : Act (Handling σ) Unit := do
  note fun p => { p with verdict := some .blocked }
  i.logRule e .constraint Verdict.blocked.text
  Act.fail (.blocked c.name c.message)

/-- Grants the tokens of a trigger. -/
def grantStep (t : Trigger) : Act (Handling σ) Unit :=
  onSession fun s => s.modifyCurrent fun c => { c with ledger := c.ledger.grantBag t.grants }

/-- Takes the cost of an action, if it can be paid. -/
def payStep (i : Interpreter σ) (a : Action) : Act (Handling σ) Unit := do
  match ← payCurrent a.costs with
  | [] => note fun p => { p with costPaid := some true }
  | lack =>
      note fun p => { p with costPaid := some false }
      i.reportStep .info
        ("Cost of action '" ++ a.name ++ "' not paid: " ++ (LedgerError.insufficient lack).message)

/-- Applies the effect of an action, unless its cost is unpaid and the effect is to be skipped
then. -/
def effectStep (i : Interpreter σ) (a : Action) (e : Event) : Act (Handling σ) Unit := do
  let p := (← Act.get).progress
  if p.costPaid = some false ∧ i.config.skipUnpaid = true then
    i.reportStep .info ("Skipping effect of action '" ++ a.name ++ "', cost unpaid")
  else
    match ← Act.attempt (lift (i.applyEffect a.effectName e.payload)) with
    | .error f =>
        note fun p => { p with effectError := some f.message }
        i.reportStep .warning
          ("Effect '" ++ a.effectName ++ "' of action '" ++ a.name ++ "' failed: " ++ f.message)
    | .ok handled =>
        if !handled then
          i.reportStep .debug
            ("No handler registered for effect '" ++ a.effectName ++ "', recorded only")
        onSession fun s => s.modifyCurrent fun c =>
          { c with applied := c.applied ++ [a.effectName] }
        note fun p => { p with effectApplied := true }

/-- Checks a constraint: it passes, its bypass cost is paid, or it blocks. -/
def checkStep (i : Interpreter σ) (c : Constraint) (e : Event) : Act (Handling σ) Unit := do
  if ← lift (i.blocks c e) then
    if c.bypass.isEmpty then i.block c e
    else
      match ← payCurrent c.bypass with
      | [] => note fun p => { p with verdict := some .bypassed }
      | _ => i.block c e
  else note fun p => { p with verdict := some .passed }

/-- What is logged of an action. -/
def actionDetail (p : Progress) : String :=
  if p.effectError.isSome then "effect failed"
  else if p.effectApplied then "executed"
  else "effect skipped"

/-- What is logged of a constraint. -/
def constraintDetail (p : Progress) : String :=
  match p.verdict with
  | some v => v.text
  | none => "checked"

/-- Carries out a step for an event that is bound to something. -/
def runStep (i : Interpreter σ) (b : Binding) (e : Event) (step : Step) : Act (Handling σ) Unit :=
  let wrong (kind : RuleKind) : Act (Handling σ) Unit :=
    Act.fail (.wrongRule e.type b.title kind.title)
  match step, b with
  | .grantTokens, .rule (.trigger t) => grantStep t
  | .grantTokens, _ => wrong .trigger
  | .consumeTokens, .rule (.action a) => i.payStep a
  | .consumeTokens, _ => wrong .action
  | .applyEffect, .rule (.action a) => i.effectStep a e
  | .applyEffect, _ => wrong .action
  | .checkConstraint, .rule (.constraint c) => i.checkStep c e
  | .checkConstraint, _ => wrong .constraint
  | .logTrigger, _ => i.logRule e .trigger "fired"
  | .logAction, _ => do i.logRule e .action (actionDetail (← Act.get).progress)
  | .logConstraint, _ => do i.logRule e .constraint (constraintDetail (← Act.get).progress)

/-- Carries out steps in order. -/
def runChain (i : Interpreter σ) (b : Binding) (e : Event) : List Step → Act (Handling σ) Unit
  | [] => pure ()
  | step :: rest => do
      i.runStep b e step
      i.runChain b e rest

end Interpreter
end TokenGate

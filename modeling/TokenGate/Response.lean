import TokenGate.Event

/-!
# Answers to events

What becomes of an event that is sent, and what the handling of its rule has come to: whether the
cost was paid, whether the effect was applied or why not, and what became of the constraint.
-/

namespace TokenGate

/-- What became of an event. -/
inductive Outcome where
  | ignored
  | transitioned
  | blocked
  | deferred
  deriving DecidableEq, Repr

/-- The word for an outcome. -/
def Outcome.text : Outcome → String
  | ignored => "ignored"
  | transitioned => "transitioned"
  | blocked => "blocked"
  | deferred => "deferred"

/-- What became of a constraint. -/
inductive Verdict where
  | passed
  | bypassed
  | blocked
  deriving DecidableEq, Repr

/-- The word for a verdict. -/
def Verdict.text : Verdict → String
  | passed => "passed"
  | bypassed => "bypassed"
  | blocked => "blocked"

/-- What the steps of a rule have done so far. -/
structure Progress where
  /-- Whether the cost was paid, once that has been tried. -/
  costPaid : Option Bool
  effectApplied : Bool
  verdict : Option Verdict
  /-- Why the effect failed, if it did. -/
  effectError : Option String
  deriving DecidableEq, Repr

/-- Nothing has been done yet. -/
def Progress.none : Progress := ⟨.none, false, .none, .none⟩

/-- The answer to an event. -/
structure Response where
  outcome : Outcome
  event : Event
  state : String
  progress : Progress

/-- The answer to an event that waits; `state` is the text of the state in which it does. -/
def Response.deferral (event : Event) (state : String) : Response :=
  ⟨.deferred, event, state, .none⟩

end TokenGate

import TokenGate.Interpreter
import TokenGate.Proofs.Act.Agree
import TokenGate.Proofs.Automaton.Plain

/-!
# Playing with plain rules

An interpreter does the same with plain rules, as long as nobody remembers its log: what only
describes a game is found in the log, and in the fault of a constraint that blocks, of which nothing
but the log tells.
-/

namespace TokenGate

open Act Handling

variable {σ α : Type}

/-- A fault without the message of the constraint that blocks. -/
def Fault.plain : Fault → Fault
  | blocked constraint _ => .blocked constraint none
  | f => f

/-- Faults that differ in a message only are the same, or those of one constraint that blocks. -/
theorem Fault.eq_or_blocked_of_plain {f f' : Fault} (h : f.plain = f'.plain) :
    f' = f ∨ ∃ c m m', f = .blocked c m ∧ f' = .blocked c m' := by
  cases f with
  | blocked c m =>
    cases f' with
    | blocked c' m' =>
      cases h
      exact .inr ⟨c, m, m', rfl, rfl⟩
    | _ => cases h
  | _ =>
    cases f' with
    | blocked c' m' => cases h
    | _ => exact .inl h.symm

namespace Interpreter

/-- The interpreter with plain rules. -/
def plain (i : Interpreter σ) : Interpreter σ := { i with automaton := i.automaton.plain }

/-- The interpreter in surroundings that do not remember its log. -/
def deaf (i : Interpreter σ) : Interpreter σ :=
  { i with surroundings := { i.surroundings with log := fun _ m => m } }

variable (i : Interpreter σ)

theorem start_plain (s : Session σ) : i.plain.deaf.start s = i.deaf.start s := rfl

theorem make_plain (x : Play σ α) : i.plain.deaf.make x = i.deaf.make x := by
  funext g
  induction x generalizing g with
  | done a => rfl
  | fail f => rfl
  | consult next ih => exact ih _ g
  | remember change next ih => exact ih _
  | look next ih => exact ih _ _ g
  | lookLive next ih => exact ih _ _ g
  | send e next ih =>
    simp only [make]
    cases g.session.defer? e with
    | some deferred => exact ih _ _
    | none => exact ih _ _
  | start next ih => exact ih _
  | alter change next ih => exact ih _
  | subscribe c n next ih => exact ih _
  | unsubscribe c n next ih => exact ih _

theorem perform_plain (hold : Hold) (x : Play σ α) :
    i.plain.deaf.perform hold x = i.deaf.perform hold x := by
  rw [perform, make_plain, perform]

theorem performAll_plain (play : String → Play σ Unit) (names : List String) :
    i.plain.deaf.performAll play names = i.deaf.performAll play names := by
  induction names with
  | nil => rfl
  | cons name rest ih => rw [performAll, perform_plain, ih, performAll]

theorem notify_plain (n : Notice) : i.plain.deaf.notify n = i.deaf.notify n := by
  simp only [notify, perform_plain, performAll_plain]
  rfl

theorem notifyLog_plain (l : RuleLog) : i.plain.deaf.notifyLog l = i.deaf.notifyLog l := by
  simp only [notifyLog, perform_plain, performAll_plain]
  rfl

theorem applyEffect_plain (name : String) (payload : Data) :
    i.plain.deaf.applyEffect name payload = i.deaf.applyEffect name payload := by
  funext s
  simp only [applyEffect, perform_plain]
  rfl

theorem logRule_plain (e : Event) (kind : EventKind) (detail : String) :
    i.plain.deaf.logRule e kind detail = i.deaf.logRule e kind detail := by
  simp only [logRule, notifyLog_plain]
  rfl

theorem effectStep_plain (a : Action) (e : Event) :
    i.plain.deaf.effectStep a.plain e = i.deaf.effectStep a e := by
  simp only [effectStep, applyEffect_plain]
  rfl

theorem blocks_plain (c : Constraint) (e : Event) :
    i.plain.deaf.blocks c.plain e = i.deaf.blocks c e := by
  simp only [blocks, perform_plain]
  rfl

/-- A constraint blocks in the same way, with its message or without. -/
theorem block_agree (c : Constraint) (e : Event) :
    (i.plain.deaf.block c.plain e).Agree Fault.plain (i.deaf.block c e) := by
  unfold block
  rw [logRule_plain]
  exact (Agree.refl _).bind fun _ => (Agree.refl _).bind fun _ => agree_fail rfl

theorem checkStep_agree (c : Constraint) (e : Event) :
    (i.plain.deaf.checkStep c.plain e).Agree Fault.plain (i.deaf.checkStep c e) := by
  unfold checkStep
  rw [blocks_plain]
  refine (Agree.refl _).bind fun closed => ?_
  cases closed with
  | false => exact .refl _
  | true =>
    show Agree _ (if c.bypass.isEmpty then _ else _) (if c.bypass.isEmpty then _ else _)
    split
    · exact i.block_agree c e
    · refine (Agree.refl _).bind fun lack => ?_
      cases lack with
      | nil => exact .refl _
      | cons x rest => exact i.block_agree c e

theorem runStep_agree (r : Rule) (e : Event) (step : Step) :
    (i.plain.deaf.runStep (.rule r.plain) e step).Agree Fault.plain
      (i.deaf.runStep (.rule r) e step) := by
  cases step with
  | grantTokens => cases r <;> exact .refl _
  | consumeTokens => cases r <;> exact .refl _
  | applyEffect =>
    cases r with
    | action a => exact .of_eq (i.effectStep_plain a e)
    | _ => exact .refl _
  | checkConstraint =>
    cases r with
    | constraint c => exact i.checkStep_agree c e
    | _ => exact .refl _
  | logTrigger => exact .of_eq (i.logRule_plain _ _ _)
  | logAction => exact (Agree.refl _).bind fun h => .of_eq (i.logRule_plain _ _ _)
  | logConstraint => exact (Agree.refl _).bind fun h => .of_eq (i.logRule_plain _ _ _)

theorem runChain_agree (r : Rule) (e : Event) (steps : List Step) :
    (i.plain.deaf.runChain (.rule r.plain) e steps).Agree Fault.plain
      (i.deaf.runChain (.rule r) e steps) := by
  induction steps with
  | nil => exact .refl _
  | cons step rest ih => exact (i.runStep_agree r e step).bind fun _ => ih

/-- Handling a rule comes to the same, but where it blocks the message may be missing. -/
theorem handle_plain (edge : Edge) (e : Event) (s : Session σ) :
    i.plain.deaf.handle edge.plain e s = i.deaf.handle edge e s ∨
    ∃ c m m' s', i.deaf.handle edge e s = (.ok (.error (.blocked c m)), s') ∧
      i.plain.deaf.handle edge.plain e s = (.ok (.error (.blocked c m')), s') := by
  unfold handle
  rw [Edge.entry?_plain]
  cases edge.entry? with
  | none => exact .inl rfl
  | some entry =>
    obtain ⟨outcome, state⟩ := i.runChain_agree entry.rule e entry.steps ⟨s, .none⟩
    simp only [Option.map_some, CatalogEntry.rule_plain, CatalogEntry.steps_plain]
    generalize i.plain.deaf.runChain (.rule entry.rule.plain) e entry.steps ⟨s, .none⟩ = ran
      at outcome state
    generalize i.deaf.runChain (.rule entry.rule) e entry.steps ⟨s, .none⟩ = ran' at outcome state
    obtain ⟨o, h⟩ := ran
    obtain ⟨o', h'⟩ := ran'
    cases state
    cases o with
    | ok _ =>
      cases o' with
      | ok _ => exact .inl rfl
      | error f => cases outcome
    | error f =>
      cases o' with
      | ok _ => cases outcome
      | error f' =>
        rcases Fault.eq_or_blocked_of_plain (Except.error.inj outcome) with
          rfl | ⟨c, m, m', rfl, rfl⟩
        · exact .inl rfl
        · exact .inr ⟨c, m', m, h.session, rfl, rfl⟩

theorem move_plain (edge : Edge) (e : Event) :
    i.plain.deaf.move edge.plain e = i.deaf.move edge e := by
  funext s
  obtain ⟨label, event, target⟩ := edge
  simp only [move, notify_plain]
  cases event <;> rfl

theorem follow_plain (edge : Edge) (e : Event) :
    i.plain.deaf.follow edge.plain e = i.deaf.follow edge e := by
  funext s
  simp only [follow, bind_apply]
  rcases i.handle_plain edge e s with same | ⟨c, m, m', s', blocked, blocked'⟩
  · rw [same]
    obtain ⟨_ | _ | g, s₁⟩ := i.deaf.handle edge e s
    · rfl
    · rfl
    · simp only [move_plain]
  · rw [blocked, blocked']
    rfl

/-- Every event is dispatched as it is with plain rules. -/
theorem dispatch_plain (e : Event) : i.plain.deaf.dispatch e = i.deaf.dispatch e := by
  funext s
  have found (c : Context) : i.plain.deaf.automaton.edge? c.state e.type =
      (i.deaf.automaton.edge? c.state e.type).map Edge.plain := i.automaton.edge?_plain _ _
  unfold dispatch
  cases s.live with
  | none => rfl
  | some c =>
    simp only [found]
    cases i.deaf.automaton.edge? c.state e.type with
    | none => rfl
    | some edge => simp only [Option.map_some, follow_plain]

end Interpreter
end TokenGate

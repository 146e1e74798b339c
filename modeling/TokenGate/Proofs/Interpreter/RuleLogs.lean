import TokenGate.Proofs.Interpreter.Answers
import TokenGate.Proofs.Interpreter.Chronicle

/-!
# One log for every rule

Whenever an event is dispatched that is bound to a rule in the state of the game, all who watch the
rule logs are told of it exactly once: before they are told of the move, if there is one, and with
the balances that the rule has left. What they are told of it agrees with the answer to the event.
Of other events there is no log. This is so whatever effects do, be it that they give up or start
the game anew.
-/

namespace TokenGate

open Act

variable {σ : Type}

/-- What is told of a rule agrees with what the answer to its event says. -/
def Rule.LoggedAs (rule : Rule) (g : Progress) (detail : String) : Prop :=
  match rule with
  | .trigger _ => detail = "fired"
  | .action _ =>
      (detail = "effect failed" ↔ g.effectError.isSome = true) ∧
      (detail = "executed" ↔ g.effectError = none ∧ g.effectApplied = true) ∧
      (detail = "effect skipped" ↔ g.effectError = none ∧ g.effectApplied = false)
  | .constraint _ => ∃ v, g.verdict = some v ∧ detail = v.text

/-- A log is about a rule, its event and the answer to that, with the balances of a session. -/
structure RuleLog.Tells (l : RuleLog) (rule : Rule) (e : Event) (r : Response) (s : Session σ) :
    Prop where
  kind : l.kind = .ofRule rule.kind
  event : l.event = e
  ledger : l.ledger = s.current.ledger.entries
  detail : rule.LoggedAs r.progress l.detail
  blocked : l.detail = "blocked" ↔ r.outcome = .blocked

/-- In the course of a dispatch all are told of the rule that the event is bound to, and of nothing
before; if it is bound to none, they are told of none. -/
inductive Interpreter.Logs (i : Interpreter σ) (e : Event) (s : Session (σ × List Telling)) :
    Chapter → Session (σ × List Telling) → Prop where
  | unbound {r : Response} {rounds : List Round} {s' : Session (σ × List Telling)}
      (answered : i.recording.dispatch e s = (.ok r, s'))
      (informed : s.Informs i.surroundings rounds s')
      (plain : ∀ c edge, s.live = some c → i.automaton.edge? c.state e.type = some edge →
        edge.entry? = none)
      (silent : (rounds.filterMap fun round => round.message.ruleLog?) = []) :
      Logs i e s ⟨.ok r, rounds⟩ s'
  | bound {c : Context} {edge : Edge} {entry : CatalogEntry} {o : Except Fault Progress}
      {r : Response} {l : RuleLog} {names : List String} {rest : List Round}
      {s₁ s' : Session (σ × List Telling)} (answered : i.recording.dispatch e s = (.ok r, s'))
      (informed : s.Informs i.surroundings (⟨.rule l, names⟩ :: rest) s')
      (live : s.live = some c) (found : i.automaton.edge? c.state e.type = some edge)
      (rule : edge.entry? = some entry) (handled : i.recording.handle edge e s = (.ok o, s₁))
      (tells : l.Tells entry.rule e r s₁)
      (moved : r.outcome = .transitioned →
        ∃ n others, rest = [⟨.transition n, others⟩] ∧ n.context.ledger = l.ledger)
      (stayed : r.outcome ≠ .transitioned → rest = []) :
      Logs i e s ⟨.ok r, ⟨.rule l, names⟩ :: rest⟩ s'

theorem Interpreter.actionDetail_eq (g : Progress) :
    (actionDetail g = "effect failed" ↔ g.effectError.isSome = true) ∧
    (actionDetail g = "executed" ↔ g.effectError = none ∧ g.effectApplied = true) ∧
    (actionDetail g = "effect skipped" ↔ g.effectError = none ∧ g.effectApplied = false) := by
  obtain ⟨costPaid, applied, verdict, error⟩ := g
  cases error with
  | some text => simp [actionDetail]
  | none => cases applied <;> simp [actionDetail]

namespace Rule.DescribedBy

variable {rule : Rule} {g : Progress} {detail : String}

theorem loggedAs (h : rule.DescribedBy g detail) : rule.LoggedAs g detail := by
  cases rule with
  | trigger t => exact h
  | action a =>
    have same : detail = Interpreter.actionDetail g := h
    rw [same]
    exact Interpreter.actionDetail_eq g
  | constraint c =>
    obtain ⟨v, hv, -, hdetail⟩ := h
    exact ⟨v, hv, hdetail⟩

/-- What is told of a rule that does not block is never that it does. -/
theorem ne_blocked (h : rule.DescribedBy g detail) : detail ≠ "blocked" := by
  cases rule with
  | trigger t =>
    have same : detail = "fired" := h
    rw [same]
    decide
  | action a =>
    have same : detail = Interpreter.actionDetail g := h
    rw [same, Interpreter.actionDetail]
    split
    · decide
    · split <;> decide
  | constraint c =>
    obtain ⟨v, -, passed, hdetail⟩ := h
    rw [hdetail]
    cases v with
    | passed => decide
    | bypassed => decide
    | blocked => exact absurd rfl passed

end Rule.DescribedBy

namespace Interpreter

variable {i : Interpreter σ} {e : Event}

section Run

variable {reader : Reader} {v : Value} {d : Definition}
  (hd : Definition.ofValue reader v = .ok d) (hb : Automaton.build d = .ok i.automaton)
  (limit : i.config.maxHistory.IsWhole) (hw : i.surroundings.Watching .attending)
  (hj : i.surroundings.Judging .unfailing)

include hd hb limit hw hj

theorem dispatch_logs (s : Session (σ × List Telling)) :
    (i.recording.dispatch e).Ensures s fun o s' => ∃ rounds, i.Logs e s ⟨o, rounds⟩ s' := by
  have recounts := dispatch_recounts hw hj limit (e := e) (s := s)
  have calm (f : Fault) : ¬ i.Fails .unfailing f := not_fails hd hb limit (fun _ => id) f
  unfold Ensures at recounts ⊢
  generalize answered : i.recording.dispatch e s = result at recounts
  obtain ⟨o, s'⟩ := result
  obtain ⟨rounds, recounts⟩ := recounts
  have informed := recounts.informs
  cases recounts with
  | ignored unknown =>
    refine ⟨[], .unbound answered informed (fun c edge live found => ?_) rfl⟩
    cases (unknown c live).symm.trans found
  | followed live found handled announced moved _ =>
    cases announced with
    | unbound plain =>
      refine ⟨_, .unbound answered informed (fun c edge live' found' => ?_) rfl⟩
      cases live.symm.trans live'
      cases found.symm.trans found'
      exact plain
    | finished rule _ described =>
      refine ⟨_, .bound answered informed live found rule handled ?_ (fun _ => ?_) fun other => ?_⟩
      · refine ⟨rfl, rfl, rfl, described.loggedAs, fun blocked => ?_, nofun⟩
        exact absurd blocked described.ne_blocked
      · exact ⟨_, _, rfl, rfl⟩
      · exact absurd rfl other
  | blocked live found handled announced =>
    cases announced with
    | @blocked entry _ _ _ rule constraint _ =>
      refine ⟨_, .bound answered informed live found rule handled ?_ nofun fun _ => rfl⟩
      refine ⟨rfl, rfl, rfl, ?_, fun _ => rfl, fun _ => rfl⟩
      cases hrule : entry.rule with
      | constraint c => exact ⟨.blocked, rfl, rfl⟩
      | trigger t => cases constraint.symm.trans (congrArg Rule.kind hrule)
      | action a => cases constraint.symm.trans (congrArg Rule.kind hrule)
    | refused _ fails => exact absurd fails (calm _)
  | failed live found handled announced =>
    cases announced with
    | failed _ fails => exact absurd fails (calm _)

/-- In any run of a game whose rules were read from data, as long as those who watch only look on
and send events and predicates do not give up, every event is answered, and whenever it is bound to
a rule in the state of the game, all who watch the rule logs are told of that once. The observer is
told of all these rules in order, and a watcher that nobody adds or removes meanwhile is told of each
as often as it has been added. -/
theorem ruleLogs_of_run {fuel : Nat} {es : List Event} {s s' : Session σ} {log : List Response}
    {answers : List (Except Fault Response)}
    (hrun : i.sendAllLog fuel es s = some (log, answers, s')) :
    ∃ chapters r', i.recording.sendAllLog fuel es s.unrecorded = some (log, answers, r') ∧
      r'.mapMemory Prod.fst = s' ∧ Chronicle i.Logs s.unrecorded chapters r' ∧
      chapters.map Chapter.answer = log.map .ok ∧
      let logs := chapters.flatMap Chapter.ruleLogs
      r'.ruleLogs none = logs ∧
      ∀ name, i.surroundings.LeaveAlone .logs name →
        r'.ruleLogs (some name) = logs.flatMap (List.replicate (s.logWatchers.count name)) := by
  obtain ⟨r', recorded, seen⟩ := recording_sendAllLog hrun
  obtain ⟨chapters, chronicle, rfl⟩ := Chronicle.of_sendAllLog (J := fun _ => True)
    (fun _ _ _ => trivial) (fun e s _ => ⟨trivial, dispatch_logs hd hb limit hw hj s⟩) trivial recorded
  have informed := chronicle.informs fun logs => by
    cases logs with
    | unbound _ informed => exact informed
    | bound _ informed => exact informed
  have all : ((chapters.flatMap Chapter.rounds).filterMap fun r => r.message.ruleLog?) =
      chapters.flatMap Chapter.ruleLogs := List.filterMap_flatMap
  refine ⟨chapters, r', recorded, seen, chronicle, ?_, ?_, fun name alone => ?_⟩
  · refine chronicle.map_answer fun logs => ?_
    cases logs with
    | unbound => exact ⟨_, rfl⟩
    | bound => exact ⟨_, rfl⟩
  · rw [Session.ruleLogs_observer informed, all]
  · rw [Session.ruleLogs_watcher informed alone, all]

end Run

end Interpreter

/-- Nobody in the game with the gate adds or removes a watcher. -/
theorem gate_leaveAlone (channel : Channel) (name : String) :
    Interpreter.gate.surroundings.LeaveAlone channel name where
  effects effect play hplay := absurd hplay (Surroundings.get?_ne_custom_of_usual rfl effect play)
  predicate _ _ := trivial
  onTransition _ := trivial
  onRuleLog _ := trivial
  transitionWatcher _ _ := trivial
  logWatcher _ _ := trivial

/-- A scribe at the gate is told that it has blocked at first, and that it has let pass in the
end. -/
theorem gate_ruleLogs_of_run :
    ∃ s log answers s' chapters r',
      (Interpreter.gate.start (.idle 0)).watch? .logs "scribe" = some s ∧
      Interpreter.gate.sendAllLog 0 gateEvents s = some (log, answers, s') ∧
      Interpreter.gate.recording.sendAllLog 0 gateEvents s.unrecorded = some (log, answers, r') ∧
      Chronicle Interpreter.gate.Logs s.unrecorded chapters r' ∧
      chapters.map Chapter.answer = log.map .ok ∧
      r'.ruleLogs none = chapters.flatMap Chapter.ruleLogs ∧
      r'.ruleLogs (some "scribe") = r'.ruleLogs none ∧
      ((r'.ruleLogs none).map fun l => (l.event.type, l.detail, l.ledger)) =
        [("CONSTRAINT_GATE", "blocked", [("gold", 0)]), ("TRIGGER_DIG", "fired", [("gold", 1)]),
          ("TRIGGER_DIG", "fired", [("gold", 2)]), ("CONSTRAINT_GATE", "passed", [("gold", 2)])] := by
  let s := (Interpreter.gate.start (.idle 0)).subscribe .logs "scribe"
  have ends : (Interpreter.gate.sendAllLog 0 gateEvents s).isSome = true := by decide +kernel
  have told : (Interpreter.gate.recording.sendAllLog 0 gateEvents s.unrecorded).map
      (fun run => (run.2.2.ruleLogs none).map fun l => (l.event.type, l.detail, l.ledger)) =
        some [("CONSTRAINT_GATE", "blocked", [("gold", 0)]), ("TRIGGER_DIG", "fired", [("gold", 1)]),
          ("TRIGGER_DIG", "fired", [("gold", 2)]), ("CONSTRAINT_GATE", "passed", [("gold", 2)])] := by
    decide +kernel
  obtain ⟨⟨log, answers, s'⟩, hrun⟩ := Option.isSome_iff_exists.1 ends
  obtain ⟨chapters, r', recorded, -, chronicle, answered, observer, watcher⟩ :=
    Interpreter.ruleLogs_of_run (i := .gate) ofValue_gateRules build_gate trivial gate_watching
      (fun _ _ => trivial) hrun
  refine ⟨s, log, answers, s', chapters, r', rfl, hrun, recorded, chronicle, answered, observer,
    ?_, ?_⟩
  · rw [watcher "scribe" (gate_leaveAlone _ _), observer]
    exact List.flatMap_singleton' _
  · rw [recorded] at told
    exact Option.some.inj told

end TokenGate

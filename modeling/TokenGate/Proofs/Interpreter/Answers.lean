import TokenGate.Proofs.Interpreter.Erasure
import TokenGate.Proofs.Interpreter.Reachable
import TokenGate.Proofs.Interpreter.Upkeep

/-!
# Every event is answered

A game whose rules were read from data has no fault of its own. As long as those who watch neither
give up nor send events, whatever else they do, every event that is sent to it is answered.
-/

namespace TokenGate

open Act

variable {σ : Type}

/-- Everything is permitted, new starts too, but giving up and sending events. -/
def Permit.steady : Permit where
  fails _ := False
  sends := False
  starts := True
  changes _ _ := True
  refl _ := trivial
  trans _ _ := trivial

/-- What a running game shows to conditions has a value for every path. -/
theorem Condition.holds?_scope (cond : Condition) (a : Attributes) (edits : Edits) (c : Context)
    (e : Event) : cond.holds? (c.scope a edits e) = .ok (cond.holds (c.scope a edits e)) := by
  have object : (c.scope a edits e).game.fields?.isSome = true := rfl
  rw [holds?, Expr.fails_of_isSome object, if_neg Bool.false_ne_true]

namespace Interpreter

variable {i : Interpreter σ} {reader : Reader} {integer? : String → Option Int} {v : Value}
  {d : Definition} {p : Permit}

/-- The rules that events are bound to were read from data, so that their tokens form sound
bags. -/
theorem sound_of_binds (hd : Definition.ofValue reader v = .ok d)
    (hb : Automaton.build d = .ok i.automaton) {r : Rule} (bound : i.automaton.Binds r) :
    r.tokens.Sound :=
  (Definition.legible_of_ofValue hd (Automaton.mem_rules_of_binds hb bound)).tokens

/-- If the surroundings do not give up, there is nothing that an event could fail with. -/
theorem not_fails (hd : Definition.ofValue reader v = .ok d)
    (hb : Automaton.build d = .ok i.automaton) (limit : i.config.maxHistory.IsWhole)
    (calm : ∀ f, ¬ p.fails f) (f : Fault) : ¬ i.Fails p f := by
  rintro (permitted | ⟨bound, refused⟩ | refused)
  · exact calm _ permitted
  · rename_i r l token
    rcases l.pay_cases_of_sound (sound_of_binds hd hb bound) with ⟨l', hpay⟩ | ⟨-, hpay⟩
    · cases hpay.symm.trans refused
    · cases hpay.symm.trans refused
  · obtain ⟨kept, hkept⟩ := limit.keepLast _
    cases hkept.symm.trans refused

theorem upholds_steady (a : Automaton) : a.Upholds .steady fun _ => True :=
  ⟨⟨fun _ _ => trivial, fun _ _ => trivial⟩, fun _ _ => trivial, fun _ _ => trivial,
    fun _ _ _ => trivial⟩

/-- Gates that are conditions ask nothing of the surroundings, so that only those who watch and
custom effects have to abide by the permit. -/
theorem abides_of_watching (hd : Definition.ofValue (.data integer?) v = .ok d)
    (hb : Automaton.build d = .ok i.automaton) (ha : i.surroundings.Acting p.failing)
    (hw : i.surroundings.Watching p) : i.Abides p where
  watching := hw
  acting := ha
  judging {c key} bound hgate := by
    obtain ⟨cond, hcond⟩ := gate_of_binds hd hb bound
    cases hcond.symm.trans hgate

/-- An event that is dispatched when none waits is answered, and none waits afterwards. -/
theorem dispatch_answers (hd : Definition.ofValue (.data integer?) v = .ok d)
    (hb : Automaton.build d = .ok i.automaton) (limit : i.config.maxHistory.IsWhole)
    (k : i.Abides .steady) {s : Session σ} (hs : s.detached = none) (hq : s.queue = []) (e : Event) :
    ∃ r s', i.dispatch e s = (.ok r, s') ∧ r.outcome ≠ .deferred ∧ s'.queue = [] := by
  cases hlive : s.live with
  | none =>
    simp only [dispatch, hlive]
    exact ⟨_, _, rfl, (fun hr => by cases hr), hq⟩
  | some c =>
    have u := upholds_steady i.automaton
    have held : s.Holds .steady fun _ => True := .of_live hlive hs trivial fun _ => hq
    have proceeds := dispatch_proceeds k u (Q := fun _ _ => True) e hlive held
      fun _ _ => ⟨u.toPreserves, fun _ _ _ => trivial, fun _ _ => trivial⟩
    simp only [Ensures] at proceeds
    generalize i.dispatch e s = result at proceeds
    obtain ⟨o, s'⟩ := result
    cases proceeds with
    | ignored _ after => exact ⟨_, s', rfl, (fun hr => by cases hr), after.queue id⟩
    | blocked _ after => exact ⟨_, s', rfl, (fun hr => by cases hr), after.queue id⟩
    | followed _ after => exact ⟨_, s', rfl, (fun hr => by cases hr), after.queue id⟩
    | failed _ fails _ => exact absurd fails (not_fails hd hb limit (fun _ => id) _)

/-- Every event that is sent to a game whose rules were read from data is answered, whatever has
happened to the game before. What might have failed does not: the gates of its constraints are
conditions that have been compiled and have a value in every game, and every token that its rules
ask for has an entry or is missing. -/
theorem send_answers (hd : Definition.ofValue (.data integer?) v = .ok d)
    (hb : Automaton.build d = .ok i.automaton) (limit : i.config.maxHistory.IsWhole)
    (effects : i.surroundings.effects = EffectHandler.usual)
    (hw : i.surroundings.Watching .steady) {s : Session σ} (h : i.Reachable s) (e : Event) :
    (∃ r s', r.event = e ∧ r.outcome ≠ .deferred ∧
      ∀ fuel, i.send fuel e s = some (.ok r, s')) ∧
    (∀ c, i.automaton.Binds (.constraint c) →
      ∃ cond, c.gate = .condition cond ∧ Condition.compile cond.text = .ok cond ∧
        ∀ edits game, cond.holds? (Context.scope i.config.attributes edits game e) =
          .ok (cond.holds (game.scope i.config.attributes edits e))) ∧
    ∀ r, i.automaton.Binds r → ∀ (l : Ledger) token, l.pay r.tokens ≠ .error (.noEntry token) := by
  refine ⟨?_, fun c bound => ?_, fun r bound l token refused => ?_⟩
  · have rest := h.rests
    obtain ⟨r, s', hdispatch, hr, hq'⟩ :=
      dispatch_answers (s := s.engage) hd hb limit
        (abides_of_watching hd hb (Surroundings.acting_of_usual effects) hw) rest.detached
        rest.queue e
    exact ⟨r, s'.release, event_of_dispatch i hdispatch, hr,
      fun fuel => send_of_dispatch i rest.idle hdispatch hq'⟩
  · have rule := Automaton.mem_rules_of_binds hb bound
    obtain ⟨cond, hgate, compiled⟩ := Definition.compile_of_ofValue hd rule
    exact ⟨cond, hgate, compiled, fun edits game => cond.holds?_scope _ edits game e⟩
  · exact not_fails (p := .steady) hd hb limit (fun _ => id) _ (.noEntry bound refused)

end Interpreter

/-- The event of the gate is answered in the game that has begun. -/
theorem gate_send_answers :
    ∃ s, Interpreter.gate.Reachable s ∧ s.stateText = "main" ∧
      (∃ r s', r.event = ⟨"CONSTRAINT_GATE", .null⟩ ∧ r.outcome ≠ .deferred ∧
        ∀ fuel, Interpreter.gate.send fuel ⟨"CONSTRAINT_GATE", .null⟩ s = some (.ok r, s')) ∧
      (∀ c, Interpreter.gate.automaton.Binds (.constraint c) →
        ∃ cond, c.gate = .condition cond ∧ Condition.compile cond.text = .ok cond ∧
          ∀ edits game,
            cond.holds? (Context.scope .usual edits game ⟨"CONSTRAINT_GATE", .null⟩) =
              .ok (cond.holds (game.scope .usual edits ⟨"CONSTRAINT_GATE", .null⟩))) ∧
      ∀ r, Interpreter.gate.automaton.Binds r →
        ∀ (l : Ledger) token, l.pay r.tokens ≠ .error (.noEntry token) := by
  have begun : (Interpreter.gate.send 0 ⟨"START_GAME", .null⟩
      (Interpreter.gate.start (.idle 0))).map (fun run => run.2.stateText) = some "main" := by
    decide +kernel
  obtain ⟨⟨o, s⟩, hrun, htext⟩ := Option.map_eq_some_iff.1 begun
  have reached : Interpreter.gate.Reachable s := (Interpreter.Reachable.start (.idle 0)).send hrun
  exact ⟨s, reached, htext, Interpreter.send_answers (i := .gate) ofValue_gateRules build_gate
    trivial rfl gate_watching reached _⟩

end TokenGate

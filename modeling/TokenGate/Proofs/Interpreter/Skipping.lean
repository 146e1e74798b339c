import TokenGate.Proofs.Interpreter.Conservation
import TokenGate.Proofs.Interpreter.Reaction

/-!
# Skipping effects

Whether the effects of actions whose cost is not paid are skipped decides what is noted of effects
and nothing else, as long as there are no effects that could change the game. Two games of one
definition, one of which skips them, go through the same conditions; what has been applied in the
one is what has been applied in the other but for one effect for each action that was not paid.
-/

namespace TokenGate

variable {σ τ : Type}

/-- The effect that a rule applies, if it is an action. -/
def Rule.effect? : Rule → Option String
  | .action a => some a.effectName
  | _ => none

namespace Response

/-- The effect of the action that was carried out for the event of an answer, if that is bound to
one. -/
def effect? (a : Automaton) (r : Response) : Option String :=
  if r.outcome = .transitioned then (a.rule? r.event.type).bind Rule.effect? else none

/-- Whether the event of an answer is that of an action whose cost was not paid. -/
def unpaid (r : Response) : Bool := r.progress.costPaid == some false

/-- What an answer says apart from the effect. -/
def apartFromEffect (r : Response) : Event × Outcome × String × Option Bool × Option Verdict :=
  (r.event, r.outcome, r.state, r.progress.costPaid, r.progress.verdict)

end Response

namespace World

/-- The game with other effects having been applied. -/
def withApplied (names : List String) (w : World) : World := ({ w.1 with applied := names }, w.2)

theorem pay?_withApplied (b : TokenBag) (names : List String) (w : World) :
    (w.withApplied names).pay? b = (w.pay? b).map (withApplied names) := by
  simp only [pay?, Option.map_map]
  rfl

theorem applied_pay? {b : TokenBag} {w after : World} (h : w.pay? b = some after) :
    after.1.applied = w.1.applied := by
  obtain ⟨l, -, rfl⟩ := Option.map_eq_some_iff.1 h
  rfl

end World

/-- Where there are no effects, that of an action is noted, unless it is skipped. -/
theorem Action.affect_empty (skip : Bool) (payload : Data) (a : Action) (w : World) (g : Progress) :
    a.affect skip (∅ : Table (EffectHandler σ)) payload w g =
      if g.costPaid = some false ∧ skip = true then (w, g)
      else (w.noted a.effectName, { g with effectApplied := true }) := by
  have unknown : (∅ : Table (EffectHandler σ)).get? a.effectName = none := rfl
  simp only [affect, unknown, World.affect]

theorem Constraint.play?_withApplied (a : Condition.Attributes) (e : Event) (c : Constraint)
    (w : World) (names : List String) : c.play? a e (w.withApplied names) =
      (c.play? a e w).map fun (after, g) => (after.withApplied names, g) := by
  have closed : c.gate.closed a e (w.withApplied names) = c.gate.closed a e w := rfl
  unfold play?
  rw [closed, World.pay?_withApplied]
  split
  · split
    · rfl
    · simp only [Option.map_map]
      rfl
  · rfl

/-- What a constraint makes of a game has nothing to do with effects. -/
theorem Constraint.applied_play? {a : Condition.Attributes} {e : Event} {c : Constraint}
    {w after : World} {g : Progress} (h : c.play? a e w = some (after, g)) :
    after.1.applied = w.1.applied ∧ g.costPaid = none := by
  unfold play? at h
  split at h
  · split at h
    · cases h
    · obtain ⟨paid, hpay, heq⟩ := Option.map_eq_some_iff.1 h
      cases heq
      exact ⟨World.applied_pay? hpay, rfl⟩
  · cases h
    exact ⟨rfl, rfl⟩

/-- What a rule makes of a game in which effects are skipped, and what it makes of one in which they
are not, and which is the same but for the effects that have been applied. -/
structure Rule.Skipping (effect : Option String) (w : World) (names : List String)
    (skipped : World × Progress) (played : World × Progress) : Prop where
  game : played.1 = skipped.1.withApplied (names ++ effect.toList)
  applied : skipped.1.1.applied =
    w.1.applied ++ if skipped.2.costPaid = some false then [] else effect.toList
  costPaid : played.2.costPaid = skipped.2.costPaid
  verdict : played.2.verdict = skipped.2.verdict
  named : skipped.2.costPaid = some false → effect.isSome = true

theorem Action.play_skipping (a : Action) (payload : Data) (w : World) (names : List String) :
    Rule.Skipping (some a.effectName) w names
      (a.play true (∅ : Table (EffectHandler σ)) payload w)
      (a.play false (∅ : Table (EffectHandler τ)) payload (w.withApplied names)) := by
  simp only [Action.play, affect_empty, World.pay?_withApplied]
  cases hpay : w.pay? a.costs with
  | none => exact ⟨rfl, (List.append_nil _).symm, rfl, rfl, fun _ => rfl⟩
  | some after =>
    refine ⟨rfl, ?_, rfl, rfl, nofun⟩
    show after.1.applied ++ [a.effectName] = w.1.applied ++ [a.effectName]
    rw [World.applied_pay? hpay]

/-- What is otherwise the same skips no effects. -/
def Config.applying (config : Config) : Config := { config with skipUnpaid := false }

theorem Rule.play?_skipping {config : Config} (skips : config.skipUnpaid = true) (r : Rule)
    (e : Event) (w : World) (names : List String) :
    Option.Rel (Rule.Skipping r.effect? w names)
      (r.play? config (∅ : Table (EffectHandler σ)) e w)
      (r.play? config.applying (∅ : Table (EffectHandler τ)) e (w.withApplied names)) := by
  cases r with
  | trigger t =>
    refine .some ⟨?_, (List.append_nil _).symm, rfl, rfl, nofun⟩
    show _ = World.withApplied (names ++ []) _
    rw [List.append_nil]
    rfl
  | action a =>
    simp only [play?, skips]
    exact .some (a.play_skipping e.payload w names)
  | constraint c =>
    simp only [play?, Config.applying, c.play?_withApplied]
    cases hplay : c.play? config.attributes e w with
    | none => exact .none
    | some result =>
      obtain ⟨applied, free⟩ := Constraint.applied_play? hplay
      refine .some ⟨?_, ?_, rfl, rfl, fun unpaid => ?_⟩
      · show _ = World.withApplied (names ++ []) _
        rw [List.append_nil]
      · simp [applied, effect?]
      · cases free.symm.trans unpaid

/-- The effect that the rule of an edge applies, if it has one and that is an action. -/
def Edge.effect? (edge : Edge) : Option String := edge.entry?.bind fun entry => entry.rule.effect?

theorem Edge.play?_skipping {config : Config} (skips : config.skipUnpaid = true) (edge : Edge)
    (e : Event) (w : World) (names : List String) :
    Option.Rel (Rule.Skipping edge.effect? w names)
      (edge.play? config (∅ : Table (EffectHandler σ)) e w)
      (edge.play? config.applying (∅ : Table (EffectHandler τ)) e (w.withApplied names)) := by
  unfold Edge.play? Edge.effect?
  cases edge.entry? with
  | none =>
    refine .some ⟨?_, (List.append_nil _).symm, rfl, rfl, nofun⟩
    show _ = World.withApplied (names ++ []) _
    rw [List.append_nil]
  | some entry => exact entry.rule.play?_skipping skips e w names

namespace Interpreter

/-- Two interpreters of one definition without any effects, of which the first one skips the effects
of actions whose cost is not paid and the second one does not. -/
structure SkipsBeside (i : Interpreter σ) (j : Interpreter τ) : Prop where
  automaton : j.automaton = i.automaton
  configs : j.config = i.config.applying
  skips : i.config.skipUnpaid = true
  effects : i.surroundings.effects = ∅
  effects' : j.surroundings.effects = ∅

variable {i : Interpreter σ} {j : Interpreter τ} {d : Definition}

/-- How an event is answered does not depend on effects, and each action that is carried out adds
one effect, unless that is skipped. -/
theorem react_skipping (k : i.SkipsBeside j) (hb : Automaton.build d = .ok i.automaton) (e : Event)
    (w : World) (names : List String) :
    (j.react e (w.withApplied names)).1.apartFromEffect = (i.react e w).1.apartFromEffect ∧
    (j.react e (w.withApplied names)).2 =
      (i.react e w).2.withApplied (names ++ ((i.react e w).1.effect? i.automaton).toList) ∧
    (i.react e w).2.1.applied = w.1.applied ++
      (if (i.react e w).1.unpaid then [] else ((i.react e w).1.effect? i.automaton).toList) ∧
    ((i.react e w).1.unpaid → ((i.react e w).1.effect? i.automaton).isSome) := by
  have state : (w.withApplied names).1.state = w.1.state := rfl
  unfold react reactAlong
  rw [k.automaton, k.configs, k.effects, k.effects', state]
  cases hedge : i.automaton.edge? w.1.state e.type with
  | none =>
    simp [Response.apartFromEffect, Response.effect?, Response.unpaid, Progress.none,
      World.withApplied]
  | some edge =>
    have played := edge.play?_skipping (σ := σ) (τ := τ) k.skips e w names
    have rule : edge.effect? = (i.automaton.rule? e.type).bind Rule.effect? := by
      rw [Edge.effect?, Automaton.entry?_of_edge? hb hedge, Automaton.rule?, Option.bind_map]
      rfl
    simp only
    generalize edge.play? i.config (∅ : Table (EffectHandler σ)) e w = skipped at played ⊢
    generalize edge.play? i.config.applying (∅ : Table (EffectHandler τ)) e (w.withApplied names) =
      all at played ⊢
    cases played with
    | none =>
      simp [Response.apartFromEffect, Response.effect?, Response.unpaid, Progress.none,
        World.withApplied]
    | @some first second same =>
      obtain ⟨after, g⟩ := first
      obtain ⟨after', g'⟩ := second
      have costPaid : g'.costPaid = g.costPaid := same.costPaid
      have verdict : g'.verdict = g.verdict := same.verdict
      have effect : Response.effect? i.automaton ⟨.transitioned, e, edge.target.text, g⟩ =
          edge.effect? := rule.symm
      have unpaid : (⟨.transitioned, e, edge.target.text, g⟩ : Response).unpaid = true ↔
          g.costPaid = some false := beq_iff_eq
      simp only [effect, unpaid]
      refine ⟨?_, ?_, same.applied, same.named⟩
      · simp only [Response.apartFromEffect, costPaid, verdict]
      · rw [show after' = _ from same.game]
        rfl

/-- Of events that are sent one after another, each action that is carried out has one effect, and
the ones that are skipped are missing. -/
theorem reactAll_skipping (k : i.SkipsBeside j) (hb : Automaton.build d = .ok i.automaton)
    (es : List Event) (w : World) (names : List String) :
    (j.reactAll es (w.withApplied names)).1.map Response.apartFromEffect =
      (i.reactAll es w).1.map Response.apartFromEffect ∧
    (j.reactAll es (w.withApplied names)).2 = (i.reactAll es w).2.withApplied
      (names ++ (i.reactAll es w).1.filterMap (Response.effect? i.automaton)) ∧
    (i.reactAll es w).2.1.applied = w.1.applied ++
      ((i.reactAll es w).1.filter fun r => !r.unpaid).filterMap (Response.effect? i.automaton) ∧
    ∀ r ∈ (i.reactAll es w).1, r.unpaid → (r.effect? i.automaton).isSome := by
  induction es generalizing w names with
  | nil => exact ⟨rfl, by simp [reactAll], by simp [reactAll], nofun⟩
  | cons e rest ih =>
    obtain ⟨answer, game, applied, named⟩ := react_skipping k hb e w names
    simp only [reactAll]
    generalize i.react e w = first at answer game applied named ⊢
    obtain ⟨r, w₁⟩ := first
    simp only at answer game applied named ⊢
    rw [game]
    obtain ⟨answers, games, applied', named'⟩ := ih w₁ (names ++ (r.effect? i.automaton).toList)
    refine ⟨?_, ?_, ?_, ?_⟩
    · rw [List.map_cons, List.map_cons, answer, answers]
    · rw [games, List.append_assoc]
      cases heffect : r.effect? i.automaton <;> simp [heffect]
    · rw [applied', applied, List.append_assoc]
      cases hunpaid : r.unpaid <;> cases heffect : r.effect? i.automaton <;>
        simp [hunpaid, heffect]
    · intro r' hr'
      rcases List.mem_cons.1 hr' with rfl | hr'
      · exact named
      · exact named' r' hr'

/-- Two games of one definition are sent the same events, and neither has any effects; the first one
skips the effects of actions whose cost is not paid and the second one does not. The events are
answered alike but for what is said of the effect, and apart from the effects that have been applied
the games end in the same condition. In the second one these are the effects of all actions that
were carried out, in order; in the first one those of the unpaid ones are missing, one for each of
them. Both sessions count their games alike. -/
theorem sendAll_skip {integer? : String → Option Int} {v : Value}
    (hd : Definition.ofValue (.data integer?) v = .ok d)
    (hi : Automaton.build d = .ok i.automaton) (hj : Automaton.build d = .ok j.automaton)
    (limit : i.config.maxHistory.IsWhole) (skips : i.config.skipUnpaid = true)
    (configs : j.config = { i.config with skipUnpaid := false })
    (effects : i.surroundings.effects = ∅) (effects' : j.surroundings.effects = ∅)
    (hw : i.surroundings.Watching .listening) (hw' : j.surroundings.Watching .listening)
    {s : Session σ} {t : Session τ} (idle : s.dispatching = false) (idle' : t.dispatching = false)
    (edits : t.edits = s.edits) (number : t.newNumber = s.newNumber) (fuel : Nat)
    (es : List Event) :
    ∃ (answers answers' : List Response) (s' : Session σ) (t' : Session τ) (c c' : Context),
      i.sendAll fuel es (i.start s) = some (answers.map .ok, s') ∧ s'.live = some c ∧
      j.sendAll fuel es (j.start t) = some (answers'.map .ok, t') ∧ t'.live = some c' ∧
      answers.map Response.event = es ∧
      answers'.map Response.apartFromEffect = answers.map Response.apartFromEffect ∧
      c' = { c with applied := c'.applied } ∧ t'.edits = s'.edits ∧
      c.applied.Sublist c'.applied ∧
      c'.applied = answers.filterMap (Response.effect? i.automaton) ∧
      c.applied = (answers.filter fun r => !r.unpaid).filterMap (Response.effect? i.automaton) ∧
      ∀ r ∈ answers, r.unpaid → (r.effect? i.automaton).isSome := by
  have k : i.SkipsBeside j :=
    ⟨Except.ok.inj (hj.symm.trans hi), configs, skips, effects, effects'⟩
  have builtIn {ρ : Type} {S : Surroundings ρ} (h : S.effects = ∅) (name : String)
      (play : Data → Play ρ Unit) : S.effects.get? name ≠ some (.custom play) := by
    rw [h]
    nofun
  have alone := rulesOnly_of_ofValue hd hi limit (builtIn effects) hw
  have alone' := rulesOnly_of_ofValue hd hj (configs ▸ limit) (builtIn effects') hw'
  have opening : j.opening t.newNumber t.edits =
      (i.opening s.newNumber s.edits).withApplied [] := by
    rw [Interpreter.opening, k.automaton, edits, number]
    rfl
  obtain ⟨s', hrun, hs'⟩ := sendAll_shows (s := i.start s) alone fuel es idle (i.start_shows s)
  obtain ⟨t', hrun', ht'⟩ :=
    sendAll_shows (s := j.start t) alone' fuel es idle' (j.start_shows t)
  obtain ⟨answers, game, applied, named⟩ :=
    reactAll_skipping k hi es (i.opening s.newNumber s.edits) []
  rw [← opening] at answers game
  have applied' := congrArg (fun w : World => w.1.applied) game
  refine ⟨_, _, s', t', _, _, hrun, hs'.live_eq, hrun', ht'.live_eq, i.event_reactAll es _, answers,
    ?_, ?_, ?_, applied', applied, named⟩
  · rw [game]
    rfl
  · rw [ht'.edits, hs'.edits, game]
    rfl
  · rw [applied, applied']
    exact List.Sublist.filterMap _ List.filter_sublist

end Interpreter

/-- The rules of a smithy, in which ore is forged or polished. -/
def smithyRules : Value :=
  .object [
    ("name", .str "smithy"),
    ("triggers", .list [.object [("event", .str "dig"), ("grants", .str "ore")]]),
    ("actions", .list [
      .object [("name", .str "forge"), ("effect", .str "sword"), ("costs", .str "ore")],
      .object [("name", .str "polish"), ("effect", .str ""), ("costs", .str "ore")]])]

def Definition.smithy : Definition :=
  (Definition.ofValue .usual smithyRules).toOption.getD ⟨"", 2, [], [], [], []⟩

def Automaton.smithy : Automaton := (build .smithy).toOption.getD ⟨.smithy, [], [], []⟩

/-- The smithy without effects; whether they are skipped is left open. -/
def Interpreter.smithy (skip : Bool) : Interpreter Unit where
  automaton := .smithy
  config := ⟨skip, .atMost 3, .none⟩
  surroundings := { Surroundings.quiet fun _ m => m with effects := ∅ }

/-- There is ore for the second of four actions only. -/
def smithyEvents : List Event :=
  ["START_GAME", "ACTION_POLISH", "TRIGGER_DIG", "ACTION_FORGE", "ACTION_FORGE",
    "ACTION_POLISH"].map fun type => ⟨type, .object []⟩

theorem smithy_sendAll_skip :
    ∃ (answers answers' : List Response) (s' t' : Session Unit) (c c' : Context),
      (Interpreter.smithy true).sendAll 0 smithyEvents
        ((Interpreter.smithy true).start (.idle ())) = some (answers.map .ok, s') ∧
      s'.live = some c ∧
      (Interpreter.smithy false).sendAll 0 smithyEvents
        ((Interpreter.smithy false).start (.idle ())) = some (answers'.map .ok, t') ∧
      t'.live = some c' ∧
      answers'.map Response.apartFromEffect = answers.map Response.apartFromEffect ∧
      c' = { c with applied := c'.applied } ∧ t'.edits = s'.edits ∧
      c.applied = ["sword"] ∧ c'.applied = ["polish", "sword", "sword", "polish"] := by
  have hd : Definition.ofValue .usual smithyRules = .ok .smithy :=
    Result.eq_ok_getD _ (by decide +kernel)
  have hb (skip : Bool) : Automaton.build .smithy = .ok (Interpreter.smithy skip).automaton := by
    simp only [Interpreter.smithy]
    exact Result.eq_ok_getD _ (by decide +kernel)
  have listening (skip : Bool) : (Interpreter.smithy skip).surroundings.Watching .listening :=
    ⟨fun _ => trivial, fun _ => trivial, fun _ _ => trivial, fun _ _ => trivial⟩
  have ends (skip : Bool) : ((Interpreter.smithy skip).sendAll 0 smithyEvents
      ((Interpreter.smithy skip).start (.idle ()))).map
        (fun run => run.2.live.map Context.applied) =
      some (some (if skip then ["sword"] else ["polish", "sword", "sword", "polish"])) := by
    cases skip <;> decide +kernel
  obtain ⟨answers, answers', s', t', c, c', hrun, hlive, hrun', hlive', -, same, rest, edits,
      -⟩ :=
    Interpreter.sendAll_skip (i := .smithy true) (j := .smithy false) (s := .idle ())
      (t := .idle ()) hd (hb true) (hb false) trivial rfl rfl rfl rfl (listening true)
      (listening false) rfl rfl rfl rfl 0 smithyEvents
  have skipped := ends true
  have all := ends false
  rw [hrun, Option.map_some, hlive] at skipped
  rw [hrun', Option.map_some, hlive'] at all
  exact ⟨answers, answers', s', t', c, c', hrun, hlive, hrun', hlive', same, rest, edits,
    Option.some.inj (Option.some.inj skipped), Option.some.inj (Option.some.inj all)⟩

end TokenGate

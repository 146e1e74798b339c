import TokenGate.Proofs.Interpreter.Failure
import TokenGate.Proofs.Interpreter.Reaction
import TokenGate.Proofs.Interpreter.Regularity
import TokenGate.Proofs.Ledger.Consumption

/-!
# What answers report

The answer to an event that has an edge is a full account of what has become of the game. What it
says of costs, effects and constraints can be read off the ledger, the data and the applied effects
before and after, and nothing else happens to these.
-/

namespace TokenGate

variable {σ : Type}

/-- A bag has been added to a ledger: every balance has risen by the multiplicity of its token, and
the entries are those from before. -/
structure Ledger.Grants (l : Ledger) (b : TokenBag) (l' : Ledger) : Prop where
  balance : ∀ token, l'.balance token = l.balance token + b.count token
  keys : l'.balances.keys = l.balances.keys

namespace World

/-- The data of a game: what it began with, and what has been done to that and to all other data
since. -/
def data (w : World) : Data × Edits := (w.1.data, w.2)

/-- The game with another ledger. -/
def withLedger (l : Ledger) (w : World) : World := ({ w.1 with ledger := l }, w.2)

/-- The ledger, the data and the applied effects of a game are those from before. -/
structure Rests (w w' : World) : Prop where
  ledger : w'.1.ledger = w.1.ledger
  data : w'.data = w.data
  applied : w'.1.applied = w.1.applied

/-- A bag has been taken from the ledger of a game; its data and the applied effects are those from
before. -/
structure Spends (b : TokenBag) (w w' : World) : Prop where
  ledger : w.1.ledger.Pays b w'.1.ledger
  data : w'.data = w.data
  applied : w'.1.applied = w.1.applied

end World

/-- A trigger adds what it grants and nothing else. -/
structure Trigger.Reports (t : Trigger) (w w' : World) (g : Progress) : Prop where
  silent : g = .none
  granted : w.1.ledger.Grants t.grants w'.1.ledger
  data : w'.data = w.data
  applied : w'.1.applied = w.1.applied

/-- An action reports its cost as paid if it could be afforded; then it has been paid, and otherwise
nothing has. -/
structure Action.ReportsCost (a : Action) (w w' : World) (g : Progress) : Prop where
  afforded : ∃ able, w.1.ledger.canAfford (.bag a.costs) = .ok able ∧ g.costPaid = some able
  covered : g.costPaid = some true ↔ w.1.ledger.Covers a.costs
  paid : g.costPaid = some true → w.1.ledger.Pays a.costs w'.1.ledger
  unpaid : g.costPaid = some false → w'.1.ledger = w.1.ledger

/-- An action reports its effect as applied if its name has been noted. If it is skipped because the
cost was not paid, the game has no part of it; if it is not, either it has been applied or an error
says why not, and the data of the game are what the effect makes of them. -/
structure Action.ReportsEffect (skip : Bool) (effects : Table (EffectHandler σ)) (payload : Data)
    (a : Action) (w w' : World) (g : Progress) : Prop where
  applied : g.effectApplied = true ↔ w'.1.applied = w.1.applied ++ [a.effectName]
  skipped : skip = true ∧ g.costPaid = some false →
    g.effectApplied = false ∧ g.effectError = none ∧ w'.data = w.data ∧
      w'.1.applied = w.1.applied
  tried : ¬ (skip = true ∧ g.costPaid = some false) →
    (g.effectError.isSome ↔ w'.1.applied ≠ w.1.applied ++ [a.effectName]) ∧
    match w.affect (effects.get? a.effectName) payload with
    | .error f => g.effectError = some f.message
    | .ok after => g.effectError = none ∧ w'.data = after.data
  failed : g.effectError.isSome → w'.data = w.data ∧ w'.1.applied = w.1.applied

/-- What an action reports of its cost and its effect is so, and of constraints it reports
nothing. -/
structure Action.Reports (skip : Bool) (effects : Table (EffectHandler σ)) (payload : Data)
    (a : Action) (w w' : World) (g : Progress) : Prop where
  cost : a.ReportsCost w w' g
  effect : a.ReportsEffect skip effects payload w w' g
  verdict : g.verdict = none

/-- A constraint has passed if its condition is false. If it is true the constraint has been
bypassed, which has cost what it asks for, if that is something and could be afforded; otherwise it
has blocked and the game is as it was. -/
structure Constraint.Reports (a : Condition.Attributes) (cond : Condition) (e : Event)
    (c : Constraint) (w w' : World) (r : Response) : Prop where
  only : r.progress = { Progress.none with verdict := r.progress.verdict }
  passes : r.progress.verdict = some .passed ↔ cond.holds (w.1.scope a w.2 e) = false
  bypasses : r.progress.verdict = some .bypassed ↔
    cond.holds (w.1.scope a w.2 e) = true ∧ c.bypass.isEmpty = false ∧ w.1.ledger.Covers c.bypass
  blocks : r.progress.verdict = some .blocked ↔
    cond.holds (w.1.scope a w.2 e) = true ∧
      (c.bypass.isEmpty = true ∨ ¬ w.1.ledger.Covers c.bypass)
  outcome : r.outcome = if r.progress.verdict = some .blocked then .blocked else .transitioned
  passed : r.progress.verdict = some .passed → w.Rests w'
  bypassed : r.progress.verdict = some .bypassed → w.Spends c.bypass w'
  blocked : r.progress.verdict = some .blocked → w' = w

/-- What the answer to the event of a rule reports is so. Only constraints may block. -/
def Rule.Reports (config : Config) (effects : Table (EffectHandler σ)) (e : Event) (w w' : World)
    (r : Response) : Rule → Prop
  | .trigger t => r.outcome = .transitioned ∧ t.Reports w w' r.progress
  | .action a =>
      r.outcome = .transitioned ∧ a.Reports config.skipUnpaid effects e.payload w w' r.progress
  | .constraint c =>
      ∃ cond, c.gate = .condition cond ∧ c.Reports config.attributes cond e w w' r

/-- What the answer to an event along an edge reports is so. An event that has no rule moves the
game and does nothing else. -/
structure Edge.Reports (i : Interpreter σ) (e : Event) (edge : Edge) (w w' : World)
    (r : Response) : Prop where
  event : r.event = e
  state : r.state = w'.1.state.text
  moved : r.outcome = .transitioned →
    w'.1.story = (w.1.advance edge e i.config.maxHistory).story
  rule : match edge.entry? with
    | none => r.outcome = .transitioned ∧ r.progress = .none ∧ w.Rests w'
    | some entry => entry.rule.Reports i.config i.surroundings.effects e w w' r

namespace World

variable {w after : World} {b : TokenBag} {payload : Data} {effect : Option (EffectHandler σ)}

theorem pay?_cases (w : World) (sound : b.Sound) :
    (w.1.ledger.Covers b ∧ ∃ l, w.pay? b = some (w.withLedger l) ∧ w.1.ledger.Pays b l) ∨
    (¬ w.1.ledger.Covers b ∧ w.pay? b = none) := by
  have whole : (Cost.bag b).Whole := TokenBag.whole_iff_counted.2 sound.counted
  rcases w.1.ledger.consume_cases whole rfl with ⟨covers, l, hpay, pays⟩ | ⟨short, hpay⟩
  · have paid : w.1.ledger.pay b = .ok l := hpay
    exact .inl ⟨covers, l, by rw [pay?, paid]; rfl, pays⟩
  · have unpaid : w.1.ledger.pay b = .error (.insufficient (w.1.ledger.missing b)) := hpay
    exact .inr ⟨short, by rw [pay?, unpaid]; rfl⟩

/-- A built-in effect does not look at the ledger. -/
theorem affect_withLedger (w : World) (l : Ledger) (effect : Option (EffectHandler σ))
    (payload : Data) :
    (w.withLedger l).affect effect payload = (w.affect effect payload).map (withLedger l) := by
  unfold affect
  split
  · show (Effect.setFlag w.2 w.1 payload).map (w.withLedger l).edit = _
    cases Effect.setFlag w.2 w.1 payload <;> rfl
  · show (Effect.removePiece w.2 w.1 payload).map (w.withLedger l).edit = _
    cases Effect.removePiece w.2 w.1 payload <;> rfl
  · rfl

/-- Moving a game along an edge leaves its ledger, its data and the applied effects. -/
theorem rests_advance (w : World) (edge : Edge) (e : Event) (limit : HistoryLimit) :
    w.Rests (w.1.advance edge e limit, w.2) := ⟨rfl, rfl, rfl⟩

end World

section Actions

variable {a : Action} {skip : Bool} {effects : Table (EffectHandler σ)} {payload : Data}
  {w w' : World} {g : Progress}

/-- The effect of an action is skipped, or it fails, or it is applied. -/
theorem Action.affect_cases (a : Action) (skip : Bool) (effects : Table (EffectHandler σ))
    (payload : Data) (w : World) (g : Progress) :
    ((skip = true ∧ g.costPaid = some false) ∧ a.affect skip effects payload w g = (w, g)) ∨
    (¬ (skip = true ∧ g.costPaid = some false) ∧
      ((∃ f, w.affect (effects.get? a.effectName) payload = .error f ∧
        a.affect skip effects payload w g = (w, { g with effectError := some f.message })) ∨
      ∃ after, w.affect (effects.get? a.effectName) payload = .ok after ∧
        a.affect skip effects payload w g =
          (after.noted a.effectName, { g with effectApplied := true }))) := by
  unfold affect
  by_cases skipped : skip = true ∧ g.costPaid = some false
  · exact .inl ⟨skipped, if_pos skipped.symm⟩
  · refine .inr ⟨skipped, ?_⟩
    rw [if_neg (mt And.symm skipped)]
    cases w.affect (effects.get? a.effectName) payload with
    | error f => exact .inl ⟨f, rfl, rfl⟩
    | ok after => exact .inr ⟨after, rfl, rfl⟩

/-- Whatever becomes of the effect of an action, it has nothing to do with the ledger and does not
move the game, and what is known of the cost stays so. -/
theorem Action.affect_keeps (a : Action) (skip : Bool) (effects : Table (EffectHandler σ))
    (payload : Data) (w : World) (g : Progress) :
    (a.affect skip effects payload w g).1.1.ledger = w.1.ledger ∧
      (a.affect skip effects payload w g).1.1.story = w.1.story ∧
      (a.affect skip effects payload w g).2.costPaid = g.costPaid ∧
      (a.affect skip effects payload w g).2.verdict = g.verdict := by
  rcases a.affect_cases skip effects payload w g with
    ⟨-, h⟩ | ⟨-, ⟨f, -, h⟩ | ⟨after, applied, h⟩⟩
  · simp only [h, and_self]
  · simp only [h, and_self]
  · have same := World.affect_spec applied
    simp only [h, World.noted, same, Context.story, and_self]

namespace Action.ReportsEffect

/-- What is reported of an effect that is skipped is so if nothing has changed. -/
theorem of_skipped (skipped : skip = true ∧ g.costPaid = some false)
    (fresh : g.effectApplied = false) (smooth : g.effectError = none) (data : w'.data = w.data)
    (left : w'.1.applied = w.1.applied) : a.ReportsEffect skip effects payload w w' g where
  applied := by
    rw [left, fresh]
    exact iff_of_false nofun (by simp)
  skipped _ := ⟨fresh, smooth, data, left⟩
  tried tried := absurd skipped tried
  failed := by
    rw [smooth]
    exact nofun

/-- What is reported of an effect that fails is so if nothing has changed. -/
theorem of_failed (tried : ¬ (skip = true ∧ g.costPaid = some false)) {f : EffectError}
    (failed : w.affect (effects.get? a.effectName) payload = .error f)
    (fresh : g.effectApplied = false) (data : w'.data = w.data)
    (left : w'.1.applied = w.1.applied) :
    a.ReportsEffect skip effects payload w w' { g with effectError := some f.message } where
  applied := by
    rw [left]
    exact iff_of_false (fresh ▸ nofun) (by simp)
  skipped skipped := absurd skipped tried
  tried _ := by
    rw [left, failed]
    exact ⟨iff_of_true rfl (by simp), rfl⟩
  failed _ := ⟨data, left⟩

/-- What is reported of an effect that is applied is so if it has been noted. -/
theorem of_applied (tried : ¬ (skip = true ∧ g.costPaid = some false)) {after : World}
    (applied : w.affect (effects.get? a.effectName) payload = .ok after)
    (smooth : g.effectError = none) (data : w'.data = after.data)
    (noted : w'.1.applied = w.1.applied ++ [a.effectName]) :
    a.ReportsEffect skip effects payload w w' { g with effectApplied := true } where
  applied := iff_of_true rfl noted
  skipped skipped := absurd skipped tried
  tried _ := by
    rw [noted, applied, smooth]
    exact ⟨iff_of_false nofun (not_not_intro rfl), rfl, data⟩
  failed := by
    rw [smooth]
    exact nofun

end Action.ReportsEffect

/-- What is reported of an effect is so, also if the ledger has changed before. -/
theorem Action.reportsEffect_affect {l : Ledger} (fresh : g.effectApplied = false)
    (smooth : g.effectError = none)
    (rests : (a.affect skip effects payload (w.withLedger l) g).1.Rests w') :
    a.ReportsEffect skip effects payload w w'
      (a.affect skip effects payload (w.withLedger l) g).2 := by
  have same := w.affect_withLedger l (effects.get? a.effectName) payload
  rcases a.affect_cases skip effects payload (w.withLedger l) g with
    ⟨skipped, h⟩ | ⟨tried, ⟨f, failed, h⟩ | ⟨after, applied, h⟩⟩
  · rw [h] at rests ⊢
    exact .of_skipped skipped fresh smooth rests.data rests.applied
  · rw [h] at rests ⊢
    have unaffected := Result.map_eq_error.1 (same.symm.trans failed)
    exact .of_failed tried unaffected fresh rests.data rests.applied
  · rw [h] at rests ⊢
    obtain ⟨after, affected, rfl⟩ := Result.map_eq_ok.1 (same.symm.trans applied)
    have kept : after.1.applied = w.1.applied := congrArg _ (World.affect_spec affected)
    have noted : w'.1.applied = w.1.applied ++ [a.effectName] := kept ▸ rests.applied
    exact .of_applied tried affected smooth rests.data noted

/-- What an action makes of a game: its cost is paid, or not, and its effect follows. -/
theorem Action.play_cases (a : Action) (sound : a.costs.Sound) (skip : Bool)
    (effects : Table (EffectHandler σ)) (payload : Data) (w : World) :
    ∃ l able, a.play skip effects payload w = a.affect skip effects payload (w.withLedger l)
        { Progress.none with costPaid := some able } ∧
      ((able = true ∧ w.1.ledger.Covers a.costs ∧ w.1.ledger.Pays a.costs l) ∨
        (able = false ∧ ¬ w.1.ledger.Covers a.costs ∧ l = w.1.ledger)) := by
  rcases w.pay?_cases sound with ⟨covers, l, paid, pays⟩ | ⟨short, unpaid⟩
  · exact ⟨l, true, by rw [play, paid]; rfl, .inl ⟨rfl, covers, pays⟩⟩
  · exact ⟨w.1.ledger, false, by rw [play, unpaid]; rfl, .inr ⟨rfl, short, rfl⟩⟩

theorem Action.reports_play (sound : a.costs.Sound)
    (rests : (a.play skip effects payload w).1.Rests w') :
    a.Reports skip effects payload w w' (a.play skip effects payload w).2 := by
  obtain ⟨l, able, played, paid⟩ := a.play_cases sound skip effects payload w
  rw [played] at rests ⊢
  obtain ⟨ledger, -, costPaid, verdict⟩ := a.affect_keeps skip effects payload (w.withLedger l)
    { Progress.none with costPaid := some able }
  have left : w'.1.ledger = l := rests.ledger.trans ledger
  have asked := w.1.ledger.canAfford_eq (show (Cost.bag a.costs).toBag = .ok a.costs from rfl)
  refine ⟨?_, Action.reportsEffect_affect rfl rfl rests, verdict⟩
  rcases paid with ⟨rfl, covers, pays⟩ | ⟨rfl, short, rfl⟩
  · rw [Ledger.missing_eq_nil_iff_covers.2 covers] at asked
    refine ⟨⟨true, asked, costPaid⟩, iff_of_true costPaid covers, fun _ => left ▸ pays, ?_⟩
    rw [costPaid]
    exact nofun
  · rw [List.isEmpty_eq_false_iff.2 (mt Ledger.missing_eq_nil_iff_covers.1 short)] at asked
    refine ⟨⟨false, asked, costPaid⟩, ?_, ?_, fun _ => left⟩
    · rw [costPaid]
      exact iff_of_false nofun short
    · rw [costPaid]
      exact nofun

end Actions

/-- A constraint lets an event through because its condition is false or because it is paid for, or
it blocks. -/
theorem Constraint.play?_cases {c : Constraint} {cond : Condition} (gate : c.gate = .condition cond)
    (sound : c.bypass.Sound) (a : Condition.Attributes) (e : Event) (w : World) :
    (cond.holds (w.1.scope a w.2 e) = false ∧
      c.play? a e w = some (w, { Progress.none with verdict := some .passed })) ∨
    (cond.holds (w.1.scope a w.2 e) = true ∧ c.bypass.isEmpty = false ∧ w.1.ledger.Covers c.bypass ∧
      ∃ l, w.1.ledger.Pays c.bypass l ∧
        c.play? a e w = some (w.withLedger l, { Progress.none with verdict := some .bypassed })) ∨
    (cond.holds (w.1.scope a w.2 e) = true ∧
      (c.bypass.isEmpty = true ∨ ¬ w.1.ledger.Covers c.bypass) ∧ c.play? a e w = none) := by
  simp only [play?, gate, Gate.closed]
  cases cond.holds (w.1.scope a w.2 e) with
  | false => exact .inl ⟨rfl, rfl⟩
  | true =>
    cases free : c.bypass.isEmpty with
    | true => exact .inr (.inr ⟨rfl, .inl rfl, rfl⟩)
    | false =>
      rcases w.pay?_cases sound with ⟨covers, l, paid, pays⟩ | ⟨short, unpaid⟩
      · exact .inr (.inl ⟨rfl, rfl, covers, l, pays, by rw [paid]; rfl⟩)
      · exact .inr (.inr ⟨rfl, .inr short, by rw [unpaid]; rfl⟩)

section Stories

variable {config : Config} {effects : Table (EffectHandler σ)} {e : Event} {w after : World}
  {g : Progress}

theorem World.story_pay? (w : World) (b : TokenBag) :
    ((w.pay? b).getD w).1.story = w.1.story := by
  unfold pay?
  cases w.1.ledger.pay b <;> rfl

theorem Constraint.story_play? {a : Condition.Attributes} {c : Constraint}
    (h : c.play? a e w = some (after, g)) : after.1.story = w.1.story := by
  unfold play? at h
  split at h
  · split at h
    · cases h
    · obtain ⟨paid, hpaid, same⟩ := Option.map_eq_some_iff.1 h
      cases same
      rw [← w.story_pay? c.bypass, hpaid, Option.getD_some]
  · cases h
    rfl

/-- What a rule does not decide is where the game goes. -/
theorem Rule.story_play? {r : Rule} (h : r.play? config effects e w = some (after, g)) :
    after.1.story = w.1.story := by
  cases r with
  | trigger t =>
    cases h
    rfl
  | action a =>
    obtain ⟨-, story, -⟩ := a.affect_keeps config.skipUnpaid effects e.payload ((w.pay? a.costs).getD w)
      { Progress.none with costPaid := some (w.pay? a.costs).isSome }
    have played : a.play config.skipUnpaid effects e.payload w = (after, g) := Option.some.inj h
    rw [Action.play] at played
    rw [played] at story
    exact story.trans (w.story_pay? a.costs)
  | constraint c => exact Constraint.story_play? h

theorem Edge.story_play? {edge : Edge} (h : edge.play? config effects e w = some (after, g)) :
    after.1.story = w.1.story := by
  unfold play? at h
  split at h
  · cases h
    rfl
  · exact Rule.story_play? h

end Stories

namespace Interpreter

variable {i : Interpreter σ} {edge : Edge} {e : Event} {w : World}

/-- An event that is let through is answered by what its rule has done, and it moves the game. -/
theorem reactAlong_of_some {after : World} {g : Progress}
    (h : edge.play? i.config i.surroundings.effects e w = some (after, g)) :
    i.reactAlong edge e w = (⟨.transitioned, e, edge.target.text, g⟩,
      (after.1.advance edge e i.config.maxHistory, after.2)) := by
  rw [reactAlong, h]

theorem reactAlong_of_none
    (h : edge.play? i.config i.surroundings.effects e w = none) :
    i.reactAlong edge e w =
      (⟨.blocked, e, w.1.state.text, { Progress.none with verdict := some .blocked }⟩, w) := by
  rw [reactAlong, h]

/-- What is reported of a constraint is so. -/
theorem constraint_reports {c : Constraint} {cond : Condition} (gate : c.gate = .condition cond)
    (sound : c.bypass.Sound)
    (played : edge.play? i.config i.surroundings.effects e w =
      c.play? i.config.attributes e w) :
    c.Reports i.config.attributes cond e w (i.reactAlong edge e w).2 (i.reactAlong edge e w).1 := by
  rcases Constraint.play?_cases gate sound i.config.attributes e w with
    ⟨opened, h⟩ | ⟨shut, asks, covers, l, pays, h⟩ | ⟨shut, barred, h⟩
  · rw [reactAlong_of_some (played.trans h)]
    constructor <;> simp [opened, World.rests_advance]
  · rw [reactAlong_of_some (played.trans h)]
    have spent : w.Spends c.bypass
        ((w.withLedger l).1.advance edge e i.config.maxHistory, (w.withLedger l).2) :=
      ⟨pays, rfl, rfl⟩
    constructor <;> simp [shut, asks, covers, spent]
  · rw [reactAlong_of_none (played.trans h)]
    have unpaid : ¬ (c.bypass.isEmpty = false ∧ w.1.ledger.Covers c.bypass) := by
      rintro ⟨asks, covers⟩
      exact barred.elim (fun free => Bool.false_ne_true (asks.symm.trans free)) (absurd covers)
    constructor <;> simp [shut, barred, unpaid]

section Rules

variable {integer? : String → Option Int} {v : Value} {d : Definition}
  (hd : Definition.ofValue (.data integer?) v = .ok d)
  (hb : Automaton.build d = .ok i.automaton)

include hd hb

/-- What is reported of a rule that was read from data is so. -/
theorem rule_reports {r : Rule} (bound : i.automaton.Binds r) (regular : w.1.Regular i.automaton)
    (played : edge.play? i.config i.surroundings.effects e w =
      r.play? i.config i.surroundings.effects e w) :
    r.Reports i.config i.surroundings.effects e w (i.reactAlong edge e w).2
      (i.reactAlong edge e w).1 := by
  cases r with
  | trigger t =>
    have granted : w.1.ledger.Grants t.grants (w.1.ledger.grantBag t.grants) :=
      ⟨w.1.ledger.balance_grantBag t.grants,
        Ledger.keys_grantBag (Automaton.mem_keys_of_binds hb bound regular)⟩
    rw [reactAlong_of_some played]
    exact ⟨rfl, rfl, granted, rfl, rfl⟩
  | action a =>
    rw [reactAlong_of_some played]
    exact ⟨rfl, Action.reports_play (sound_of_binds hd hb bound) (World.rests_advance _ edge e _)⟩
  | constraint c =>
    obtain ⟨cond, gate⟩ := gate_of_binds hd hb bound
    exact ⟨cond, gate, constraint_reports gate (sound_of_binds hd hb bound) played⟩

/-- Along an edge an event is answered with a report that is so. -/
theorem reports_reactAlong {state : State}
    (found : i.automaton.edge? state e.type = some edge) (regular : w.1.Regular i.automaton) :
    edge.Reports i e w (i.reactAlong edge e w).2 (i.reactAlong edge e w).1 where
  event := by
    unfold reactAlong
    split <;> rfl
  state := by
    unfold reactAlong
    split <;> rfl
  moved := by
    intro transitioned
    cases played : edge.play? i.config i.surroundings.effects e w with
    | none =>
      rw [reactAlong_of_none played] at transitioned
      cases transitioned
    | some result =>
      rw [reactAlong_of_some played]
      exact Context.story_advance (Edge.story_play? played) edge e _
  rule := by
    cases hentry : edge.entry? with
    | none =>
      have played : edge.play? i.config i.surroundings.effects e w =
          some (w, .none) := by
        rw [Edge.play?, hentry]
      rw [reactAlong_of_some played]
      exact ⟨rfl, rfl, w.rests_advance edge e _⟩
    | some entry =>
      have played : edge.play? i.config i.surroundings.effects e w =
          entry.rule.play? i.config i.surroundings.effects e w := by
        rw [Edge.play?, hentry]
      exact rule_reports hd hb ⟨_, _, edge, entry, found, hentry, rfl⟩ regular played

end Rules

/-- In every session that calls from outside lead to, an event that has an edge is answered, and the
answer reports what has become of the game. An event that has no rule changes neither the ledger nor
the data, and a trigger adds what it grants. An action pays its cost if it can be afforded, and its
effect is skipped, or fails and changes nothing, or is applied and noted. A constraint lets
the event pass, for nothing or for its bypass, or it blocks and nothing changes. -/
theorem send_reports {integer? : String → Option Int} {v : Value} {d : Definition}
    (hd : Definition.ofValue (.data integer?) v = .ok d)
    (hb : Automaton.build d = .ok i.automaton) (limit : i.config.maxHistory.IsWhole)
    (effects : i.surroundings.effects = EffectHandler.usual)
    (hw : i.surroundings.Watching .listening) {s : Session σ} (h : i.Reachable s) {c : Context}
    (hlive : s.live = some c) (found : i.automaton.edge? c.state e.type = some edge) :
    ∃ r s' c', (∀ fuel, i.send fuel e s = some (.ok r, s')) ∧ s'.live = some c' ∧
      edge.Reports i e (c, s.edits) (c', s'.edits) r := by
  have only : i.RulesOnly :=
    rulesOnly_of_ofValue hd hb limit (Surroundings.get?_ne_custom_of_usual effects) hw
  have handsOff : i.Abides .handsOff :=
    abides_of_watching hd hb (Surroundings.acting_of_usual effects) hw.of_listening
  have rests := h.rests
  have running := Session.running_of_live hlive rests.detached
  have current : s.current = c := Option.some.inj (running.current_eq.symm.trans hlive)
  have shows : s.Shows (c, s.edits) [] :=
    ⟨running, by rw [Session.world, current], rests.queue⟩
  obtain ⟨s', dispatched, shows'⟩ := dispatch_shows only shows.engage e
  have reacted : i.react e (c, s.edits) = i.reactAlong edge e (c, s.edits) := by
    rw [react, found]
  rw [reacted] at dispatched shows'
  refine ⟨_, s'.release, _, fun fuel => send_of_dispatch i rests.idle dispatched shows'.queue,
    shows'.release.live_eq, ?_⟩
  rw [shows'.release.edits]
  exact reports_reactAlong hd hb found ((h.regular hb handsOff).game c hlive)

end Interpreter

/-- The rules of a quay, where a coin buys a flag. -/
def quayRules : Value :=
  .object [
    ("name", .str "quay"),
    ("triggers", .list [.object [("event", .str "unload"), ("grants", .str "coin")]]),
    ("actions", .list [
      .object [("name", .str "hoist"), ("effect", .str "set_flag"), ("costs", .str "coin")]])]

def Definition.quay : Definition :=
  (Definition.ofValue .usual quayRules).toOption.getD ⟨"", 2, [], [], [], []⟩

def Interpreter.quay : Interpreter Unit where
  automaton := (Automaton.build .quay).toOption.getD ⟨.quay, [], [], []⟩
  config := .usual
  surroundings := .quiet fun _ m => m

theorem quay_watching : Interpreter.quay.surroundings.Watching .listening :=
  ⟨fun _ => trivial, fun _ => trivial, fun _ _ => trivial, fun _ _ => trivial⟩

/-- A flag that has no name cannot be set, but the coin for it has been spent. -/
theorem quay_send_reports :
    ∃ s c edge r s' c', Interpreter.quay.Reachable s ∧ s.live = some c ∧
      Interpreter.quay.automaton.edge? c.state "ACTION_HOIST" = some edge ∧
      (∀ fuel, Interpreter.quay.send fuel ⟨"ACTION_HOIST", .object []⟩ s = some (.ok r, s')) ∧
      s'.live = some c' ∧
      edge.Reports .quay ⟨"ACTION_HOIST", .object []⟩ (c, s.edits) (c', s'.edits) r ∧
      c.ledger.balance "coin" = 1 ∧ c'.ledger.balance "coin" = 0 ∧
      r.progress.costPaid = some true ∧ r.progress.effectError.isSome = true := by
  have hd : Definition.ofValue .usual quayRules = .ok .quay :=
    Result.eq_ok_getD _ (by decide +kernel)
  have hb : Automaton.build .quay = .ok Interpreter.quay.automaton := by
    simp only [Interpreter.quay]
    exact Result.eq_ok_getD _ (by decide +kernel)
  have facts : ((Interpreter.quay.sendAll 0 [⟨"START_GAME", .null⟩, ⟨"TRIGGER_UNLOAD", .null⟩]
      (Interpreter.quay.start (.idle ()))).bind fun run => run.2.live.bind fun c =>
        (Interpreter.quay.automaton.edge? c.state "ACTION_HOIST").bind fun _ =>
          (Interpreter.quay.send 0 ⟨"ACTION_HOIST", .object []⟩ run.2).bind fun run' =>
            run'.1.toOption.bind fun r => run'.2.live.map fun c' =>
              (c.ledger.balance "coin", c'.ledger.balance "coin", r.progress.costPaid,
                r.progress.effectError.isSome)) = some (1, 0, some true, true) := by
    decide +kernel
  simp only [Option.bind_eq_some_iff, Option.map_eq_some_iff, Prod.mk.injEq] at facts
  obtain ⟨⟨answers, s⟩, hrun, c, hlive, edge, found, ⟨o, s₁⟩, hsend, r₁, answered, c₁, hlive₁,
    before, after, paid, failed⟩ := facts
  have reached : Interpreter.quay.Reachable s :=
    (Interpreter.Reachable.start (.idle ())).sendAll hrun
  obtain ⟨r, s', c', sent, hlive', reports⟩ := Interpreter.send_reports (i := .quay)
    (e := ⟨"ACTION_HOIST", .object []⟩) hd hb trivial rfl quay_watching reached hlive found
  cases hsend.symm.trans (sent 0)
  cases answered
  cases hlive₁.symm.trans hlive'
  exact ⟨s, c, edge, r₁, s₁, c₁, reached, hlive, found, sent, hlive', reports, before, after, paid,
    failed⟩

end TokenGate

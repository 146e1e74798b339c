import TokenGate.Definition.Numeral
import TokenGate.Proofs.Definition.Reading
import TokenGate.Proofs.Result

/-!
# Which data are accepted

An object is read as a definition exactly if it is well formed: each of its fields on its own, and
the names that it gives to the rules of a kind all different. What is accepted is what the object
describes, and the rest can rely on it; everything else is refused with a report on its problems.
-/

namespace TokenGate

section Lists

variable {β γ δ : Type} {R : β → γ → Prop}

theorem exists_forall₂ {bs : List β} :
    (∃ cs, List.Forall₂ R bs cs) ↔ ∀ b ∈ bs, ∃ c, R b c := by
  induction bs with
  | nil => simp
  | cons b bs ih =>
    rw [List.forall_mem_cons, ← ih]
    constructor
    · rintro ⟨_, each⟩
      cases each with
      | cons hb hbs => exact ⟨⟨_, hb⟩, _, hbs⟩
    · rintro ⟨⟨c, hb⟩, cs, hbs⟩
      exact ⟨c :: cs, .cons hb hbs⟩

theorem map_eq_filterMap_of_forall₂ {f : β → Option δ} {g : γ → δ}
    (h : ∀ b c, R b c → f b = some (g c)) {bs : List β} {cs : List γ}
    (each : List.Forall₂ R bs cs) : cs.map g = bs.filterMap f := by
  induction each with
  | nil => rfl
  | cons head _ ih => rw [List.filterMap_cons_some (h _ _ head), List.map_cons, ih]

end Lists

namespace Field

variable {α : Type} {fs : Fields} {key : String} {R : Value → α → Prop}

/-- There is a field, and it has a meaning. -/
def Demands (fs : Fields) (key : String) (R : Value → α → Prop) : Prop :=
  ∃ v, Entries.get? key fs = some v ∧ ∃ a, R v a

/-- If there is a field, it has a meaning. -/
def Allows (fs : Fields) (key : String) (R : Value → α → Prop) : Prop :=
  ∀ v, Entries.get? key fs = some v → ∃ a, R v a

theorem exists_gives : (∃ a, Gives fs key R a) ↔ Demands fs key R := by
  constructor
  · rintro ⟨a, v, there, ha⟩
    exact ⟨v, there, a, ha⟩
  · rintro ⟨v, there, a, ha⟩
    exact ⟨a, v, there, ha⟩

theorem exists_mayGive {value : α} : (∃ a, MayGive fs key value R a) ↔ Allows fs key R := by
  constructor
  · rintro ⟨a, ⟨absent, -⟩ | ⟨v, there, ha⟩⟩ w hw
    · rw [absent] at hw
      cases hw
    · rw [there] at hw
      cases hw
      exact ⟨a, ha⟩
  · intro h
    cases there : Entries.get? key fs with
    | none => exact ⟨value, .inl ⟨there, rfl⟩⟩
    | some v =>
      obtain ⟨a, ha⟩ := h v there
      exact ⟨a, .inr ⟨v, there, ha⟩⟩

theorem exists_saysEach {R : Fields → α → Prop} {v : Value} :
    (∃ as, SaysEach R v as) ↔
      ∃ items, v = .list items ∧ ∀ item ∈ items, ∃ fs, item = .object fs ∧ ∃ a, R fs a := by
  constructor
  · rintro ⟨as, ⟨each⟩⟩
    rename_i items
    refine ⟨items, rfl, fun item hitem => ?_⟩
    obtain ⟨a, fs, rfl, ha⟩ := exists_forall₂.1 ⟨as, each⟩ item hitem
    exact ⟨fs, rfl, a, ha⟩
  · rintro ⟨items, rfl, each⟩
    have members : ∀ item ∈ items, ∃ a fs, item = .object fs ∧ R fs a := by
      intro item hitem
      obtain ⟨fs, rfl, a, ha⟩ := each item hitem
      exact ⟨a, fs, rfl, ha⟩
    obtain ⟨as, has⟩ := exists_forall₂.2 members
    exact ⟨as, .list has⟩

end Field

/-- The fields of a trigger are well formed. -/
structure Trigger.WellFormed (fs : Fields) : Prop where
  known : ∀ key ∈ Entries.keys fs, key ∈ keys
  event : Field.Demands fs "event" Field.SaysName
  condition : Field.Allows fs "condition" Field.SaysCondition
  action : Field.Allows fs "action" Field.SaysText
  grants : Field.Allows fs "grants" Field.SaysTokens

/-- The fields of an action are well formed. -/
structure Action.WellFormed (fs : Fields) : Prop where
  known : ∀ key ∈ Entries.keys fs, key ∈ keys
  name : Field.Demands fs "name" Field.SaysName
  effect : Field.Allows fs "effect" Field.SaysText
  timing : Field.Allows fs "when" Field.SaysText
  costs : Field.Allows fs "costs" Field.SaysTokens

/-- The fields of a constraint are well formed. -/
structure Constraint.WellFormed (fs : Fields) : Prop where
  known : ∀ key ∈ Entries.keys fs, key ∈ keys
  name : Field.Demands fs "name" Field.SaysName
  gate : Field.Demands fs "condition" Field.SaysGate
  message : Field.Allows fs "message" Field.SaysText
  bypass : Field.Allows fs "bypass_cost" Field.SaysTokens

namespace RuleKind

/-- The key under which the rules of a kind are listed. -/
def listKey : RuleKind → String
  | trigger => "triggers"
  | action => "actions"
  | constraint => "constraints"

/-- The key under which a rule of a kind has its name. -/
def nameKey : RuleKind → String
  | trigger => "event"
  | action => "name"
  | constraint => "name"

/-- The fields of a rule of a kind are well formed. -/
def WellFormed : RuleKind → Fields → Prop
  | trigger => Trigger.WellFormed
  | action => Action.WellFormed
  | constraint => Constraint.WellFormed

/-- The name that a value gives to a rule of a kind, without the blanks at its ends. -/
def givenName? (kind : RuleKind) : Value → Option String
  | .object fs =>
      match Entries.get? kind.nameKey fs with
      | some (.str s) => some (Text.strip s)
      | _ => none
  | _ => none

/-- The names that fields give to the rules of a kind. -/
def givenNames (kind : RuleKind) (fs : Fields) : List String :=
  match Entries.get? kind.listKey fs with
  | some (.list items) => items.filterMap kind.givenName?
  | _ => []

end RuleKind

/-- The fields of a definition are well formed, and the names that they give to the rules of a kind
are all different. -/
structure Definition.WellFormed (integer? : String → Option Int) (fs : Fields) : Prop where
  known : ∀ key ∈ Entries.keys fs, key ∈ keys
  name : Field.Demands fs "name" Field.SaysName
  players : Field.Allows fs "players" (Field.SaysPlayers integer?)
  initial : Field.Allows fs "initial_state" Field.SaysFields
  rules : ∀ (kind : RuleKind) (v : Value), Entries.get? kind.listKey fs = some v →
    ∃ items, v = .list items ∧
      ∀ item ∈ items, ∃ fields, item = .object fields ∧ kind.WellFormed fields
  distinct : ∀ kind : RuleKind, (kind.givenNames fs).Nodup

theorem Trigger.exists_described {fs : Fields} : (∃ t, Described fs t) ↔ WellFormed fs := by
  constructor
  · rintro ⟨t, h⟩
    exact ⟨h.known, Field.exists_gives.1 ⟨_, h.event⟩, Field.exists_mayGive.1 ⟨_, h.condition⟩,
      Field.exists_mayGive.1 ⟨_, h.action⟩, Field.exists_mayGive.1 ⟨_, h.grants⟩⟩
  · intro h
    obtain ⟨event, hevent⟩ := Field.exists_gives.2 h.event
    obtain ⟨condition, hcondition⟩ := Field.exists_mayGive.2 h.condition
    obtain ⟨action, haction⟩ := Field.exists_mayGive.2 h.action
    obtain ⟨grants, hgrants⟩ := Field.exists_mayGive.2 h.grants
    exact ⟨⟨event, condition, action, grants⟩, h.known, hevent, hcondition, haction, hgrants⟩

theorem Action.exists_described {fs : Fields} : (∃ a, Described fs a) ↔ WellFormed fs := by
  constructor
  · rintro ⟨a, h⟩
    exact ⟨h.known, Field.exists_gives.1 ⟨_, h.name⟩, Field.exists_mayGive.1 ⟨_, h.effect⟩,
      Field.exists_mayGive.1 ⟨_, h.timing⟩, Field.exists_mayGive.1 ⟨_, h.costs⟩⟩
  · intro h
    obtain ⟨name, hname⟩ := Field.exists_gives.2 h.name
    obtain ⟨effect, heffect⟩ := Field.exists_mayGive.2 h.effect
    obtain ⟨timing, htiming⟩ := Field.exists_mayGive.2 h.timing
    obtain ⟨costs, hcosts⟩ := Field.exists_mayGive.2 h.costs
    exact ⟨⟨name, effect, timing, costs⟩, h.known, hname, heffect, htiming, hcosts⟩

theorem Constraint.exists_described {fs : Fields} : (∃ c, Described fs c) ↔ WellFormed fs := by
  constructor
  · rintro ⟨c, h⟩
    exact ⟨h.known, Field.exists_gives.1 ⟨_, h.name⟩, Field.exists_gives.1 ⟨_, h.gate⟩,
      Field.exists_mayGive.1 ⟨_, h.message⟩, Field.exists_mayGive.1 ⟨_, h.bypass⟩⟩
  · intro h
    obtain ⟨name, hname⟩ := Field.exists_gives.2 h.name
    obtain ⟨gate, hgate⟩ := Field.exists_gives.2 h.gate
    obtain ⟨message, hmessage⟩ := Field.exists_mayGive.2 h.message
    obtain ⟨bypass, hbypass⟩ := Field.exists_mayGive.2 h.bypass
    exact ⟨⟨name, gate, message, bypass⟩, h.known, hname, hgate, hmessage, hbypass⟩

section Names

variable {α : Type} {kind : RuleKind} {R : Fields → α → Prop} {named : α → String}
  (h : ∀ fs a, R fs a → Field.Gives fs kind.nameKey Field.SaysName (named a))

include h

/-- The rules that fields describe have the names that the fields give to them. -/
theorem names_of_described {fs : Fields} {as : List α}
    (described : Field.MayGive fs kind.listKey [] (Field.SaysEach R) as) :
    as.map named = kind.givenNames fs := by
  have single (v : Value) (a : α) (hv : ∃ fields, v = .object fields ∧ R fields a) :
      kind.givenName? v = some (named a) := by
    obtain ⟨fields, rfl, ha⟩ := hv
    obtain ⟨w, there, name⟩ := h fields a ha
    generalize named a = n at name
    cases name
    simp only [RuleKind.givenName?, there]
  rcases described with ⟨absent, rfl⟩ | ⟨v, there, ⟨each⟩⟩
  · rw [RuleKind.givenNames, absent]
    rfl
  · simp only [RuleKind.givenNames, there]
    exact map_eq_filterMap_of_forall₂ single each

end Names

namespace Definition

/-- The rules of a kind are those that the definition has of it. -/
theorem names_rulesOf (d : Definition) (kind : RuleKind) :
    (d.rulesOf kind).map Rule.name = match kind with
      | .trigger => d.triggers.map Trigger.event
      | .action => d.actions.map Action.name
      | .constraint => d.constraints.map Constraint.name := by
  cases kind <;>
    simp [rulesOf, rules, List.filter_map, Function.comp_def, Rule.kind, Rule.name]

theorem names_eq_givenNames {fs : Fields} {d : Definition}
    (triggers : Field.MayGive fs "triggers" [] (Field.SaysEach Trigger.Described) d.triggers)
    (actions : Field.MayGive fs "actions" [] (Field.SaysEach Action.Described) d.actions)
    (constraints : Field.MayGive fs "constraints" [] (Field.SaysEach Constraint.Described)
      d.constraints) (kind : RuleKind) :
    (d.rulesOf kind).map Rule.name = kind.givenNames fs := by
  rw [names_rulesOf]
  cases kind with
  | trigger => exact names_of_described (fun _ _ ht => ht.event) triggers
  | action => exact names_of_described (fun _ _ ha => ha.name) actions
  | constraint => exact names_of_described (fun _ _ hc => hc.name) constraints

theorem exists_rules {α : Type} {R : Fields → α → Prop} {W : Fields → Prop}
    (h : ∀ fields, (∃ a, R fields a) ↔ W fields) {fs : Fields} {key : String} :
    (∃ as, Field.MayGive fs key [] (Field.SaysEach R) as) ↔
      ∀ v, Entries.get? key fs = some v → ∃ items, v = .list items ∧
        ∀ item ∈ items, ∃ fields, item = .object fields ∧ W fields := by
  rw [Field.exists_mayGive]
  simp only [Field.Allows, Field.exists_saysEach, h]

theorem exists_described {integer? : String → Option Int} {fs : Fields} :
    (∃ d, Described integer? fs d) ↔ WellFormed integer? fs := by
  constructor
  · rintro ⟨d, h⟩
    refine ⟨h.known, Field.exists_gives.1 ⟨_, h.name⟩, Field.exists_mayGive.1 ⟨_, h.players⟩,
      Field.exists_mayGive.1 ⟨_, h.initial⟩, fun kind => ?_, fun kind => ?_⟩
    · cases kind with
      | trigger => exact (exists_rules fun _ => Trigger.exists_described).1 ⟨_, h.triggers⟩
      | action => exact (exists_rules fun _ => Action.exists_described).1 ⟨_, h.actions⟩
      | constraint => exact (exists_rules fun _ => Constraint.exists_described).1 ⟨_, h.constraints⟩
    · rw [← names_eq_givenNames h.triggers h.actions h.constraints]
      exact h.distinct kind
  · intro h
    obtain ⟨name, hname⟩ := Field.exists_gives.2 h.name
    obtain ⟨players, hplayers⟩ := Field.exists_mayGive.2 h.players
    obtain ⟨initial, hinitial⟩ := Field.exists_mayGive.2 h.initial
    obtain ⟨triggers, ht⟩ := (exists_rules fun _ => Trigger.exists_described).2 (h.rules .trigger)
    obtain ⟨actions, ha⟩ := (exists_rules fun _ => Action.exists_described).2 (h.rules .action)
    obtain ⟨constraints, hc⟩ :=
      (exists_rules fun _ => Constraint.exists_described).2 (h.rules .constraint)
    let d : Definition := ⟨name, players, initial, triggers, actions, constraints⟩
    refine ⟨d, h.known, hname, hplayers, hinitial, ht, ha, hc, fun kind => ?_⟩
    have names := names_eq_givenNames (d := d) ht ha hc kind
    rw [names]
    exact h.distinct kind

end Definition

/-- There is a letter or digit in a text, and no blank at its ends. -/
structure Text.IsName (s : String) : Prop where
  legible : hasLetterOrDigit s = true
  stripped : strip s = s

theorem Field.Gives.isName {fs : Fields} {key n : String} (h : Gives fs key SaysName n) :
    Text.IsName n := by
  obtain ⟨v, -, ⟨legible⟩⟩ := h
  exact ⟨by rwa [Text.hasLetterOrDigit_strip], Text.strip_strip _⟩

theorem Rule.isName_of_ofFields {integer? : String → Option Int} {kind : RuleKind} {fs : Fields}
    {r : Rule} (h : ofFields (.data integer?) kind fs = .valid r) : Text.IsName r.name := by
  cases kind with
  | trigger =>
    obtain ⟨t, ht, rfl⟩ := Checked.map_eq_valid.1 h
    exact ((Trigger.ofFields_eq_valid fs t).1 ht).event.isName
  | action =>
    obtain ⟨a, ha, rfl⟩ := Checked.map_eq_valid.1 h
    exact ((Action.ofFields_eq_valid fs a).1 ha).name.isName
  | constraint =>
    obtain ⟨c, hc, rfl⟩ := Checked.map_eq_valid.1 h
    exact ((Constraint.ofFields_eq_valid integer? fs c).1 hc).name.isName

theorem Trigger.compile_of_described {fs : Fields} {t : Trigger} (h : t.Described fs)
    {c : Condition} (hc : t.condition = some c) : Condition.compile c.text = .ok c := by
  rcases h.condition with ⟨-, none⟩ | ⟨v, -, given⟩
  · rw [none] at hc
    cases hc
  · rw [hc] at given
    cases given with
    | text compiled => exact Condition.compile_text compiled

namespace Definition

/-- What the rest relies on: names are names and differ within a kind, there is somebody to play,
tokens have token names, and conditions are compiled. -/
structure Reliable (d : Definition) : Prop where
  name : Text.IsName d.name
  players : 1 ≤ d.players
  names : ∀ r ∈ d.rules, Text.IsName r.name
  distinct : ∀ kind, ((d.rulesOf kind).map Rule.name).Nodup
  tokens : ∀ r ∈ d.rules, r.tokens.Sound
  conditions : ∀ t ∈ d.triggers, ∀ c, t.condition = some c → Condition.compile c.text = .ok c
  gates : ∀ c ∈ d.constraints,
    ∃ cond, c.gate = .condition cond ∧ Condition.compile cond.text = .ok cond

theorem ofValue_eq_ok {integer? : String → Option Int} {fs : Fields} {d : Definition} :
    ofValue (.data integer?) (.object fs) = .ok d ↔ Described integer? fs d := by
  rw [ofValue, Checked.orReport_eq_ok, ofFields_eq_valid]

theorem Described.players_pos {integer? : String → Option Int} {fs : Fields} {d : Definition}
    (h : Described integer? fs d) : 1 ≤ d.players := by
  rcases h.players with ⟨-, usual⟩ | ⟨v, -, given⟩
  · rw [usual]
    decide
  · generalize d.players = n at given
    cases given with
    | integer _ low => omega

theorem reliable_of_ofValue {integer? : String → Option Int} {fs : Fields}
    {d : Definition} (h : ofValue (.data integer?) (.object fs) = .ok d) : d.Reliable := by
  have described := ofValue_eq_ok.1 h
  refine ⟨described.name.isName, described.players_pos, fun r hr => ?_, described.distinct,
    fun r hr => (legible_of_ofValue h hr).tokens, fun t ht c hc => ?_, fun c hc => ?_⟩
  · obtain ⟨fields, hread⟩ := ofFields_of_ofValue h hr
    exact Rule.isName_of_ofFields hread
  · have rule : .trigger t ∈ d.rules := by simp [rules, ht]
    obtain ⟨fields, hread⟩ := ofFields_of_ofValue h rule
    obtain ⟨t', ht', same⟩ := Checked.map_eq_valid.1 hread
    cases same
    exact Trigger.compile_of_described ((Trigger.ofFields_eq_valid fields t).1 ht') hc
  · have rule : .constraint c ∈ d.rules := by simp [rules, hc]
    exact compile_of_ofValue h rule

/-- An object is read as a definition exactly if it is well formed. The definition is then the one
that the object describes, and the rest can rely on it. Any other object is refused with a report on
its problems. Which texts count as integers is left open. -/
theorem ofValue_wellFormed (integer? : String → Option Int) (fs : Fields) :
    ((∃ d, ofValue (.data integer?) (.object fs) = .ok d) ↔ WellFormed integer? fs) ∧
      (∀ d, ofValue (.data integer?) (.object fs) = .ok d → Described integer? fs d ∧ d.Reliable) ∧
      (¬ WellFormed integer? fs →
        ∃ problems, ofValue (.data integer?) (.object fs) = .error (.definition problems)) := by
  have accepted : (∃ d, ofValue (.data integer?) (.object fs) = .ok d) ↔ WellFormed integer? fs := by
    simp only [ofValue_eq_ok, exists_described]
  refine ⟨accepted, fun d h => ⟨ofValue_eq_ok.1 h, reliable_of_ofValue h⟩, fun ill => ?_⟩
  cases read : ofFields (.data integer?) fs with
  | valid d => exact absurd (accepted.1 ⟨d, Checked.orReport_eq_ok.2 read⟩) ill
  | invalid problems =>
    refine ⟨problems, ?_⟩
    rw [ofValue, read]
    rfl

/-- What describes a quarry with two triggers. -/
def quarryFields (first second : String) : Fields :=
  [("name", .str " Quarry "), ("players", .str "+3.0"), ("triggers", .list
    [.object [("event", .str first), ("grants", .str "ore ore"), ("condition", .null)],
      .object [("event", .str second), ("grants", .list [.str "gold"])]])]

/-- The names of triggers may differ in more than the blanks at their ends only. -/
theorem ofValue_quarryFields :
    (WellFormed Numeral.ofText? (quarryFields " dig" "blast") ∧
      ∃ d, ofValue .usual (.object (quarryFields " dig" "blast")) = .ok d ∧ d.Reliable) ∧
    ∃ problems, ofValue .usual (.object (quarryFields " dig" "dig ")) =
      .error (.definition problems) := by
  obtain ⟨accepted, reliable, -⟩ := ofValue_wellFormed Numeral.ofText? (quarryFields " dig" "blast")
  obtain ⟨-, -, refused⟩ := ofValue_wellFormed Numeral.ofText? (quarryFields " dig" "dig ")
  have valid : (ofValue .usual (.object (quarryFields " dig" "blast"))).toOption.isSome = true := by
    decide +kernel
  obtain ⟨d, hd⟩ := Option.isSome_iff_exists.1 valid
  have read := Result.toOption_eq_some.1 hd
  refine ⟨⟨accepted.1 ⟨d, read⟩, d, read, (reliable d read).2⟩, refused fun twins => ?_⟩
  exact absurd (twins.distinct .trigger) (by decide +kernel)

end Definition
end TokenGate

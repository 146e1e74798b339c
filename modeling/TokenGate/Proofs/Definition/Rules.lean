import TokenGate.Definition.Reader
import TokenGate.Proofs.Text
import TokenGate.Proofs.Token.Bag

/-!
# Rules of definitions that are read from data

How a check of several parts comes to a result: all of its parts do. Every rule of a definition
that is read from data has been read from fields of its own. Therefore its name has a letter or a
digit, its tokens have token names, and the gate of a constraint is a condition, unless it is a
predicate of the surroundings.
-/

namespace TokenGate

namespace Checked

variable {π ρ α β : Type}

theorem map_eq_valid {f : α → β} {x : Checked π α} {b : β} :
    f <$> x = valid b ↔ ∃ a, x = valid a ∧ f a = b := by
  show x.map f = valid b ↔ _
  cases x <;> simp [map]

theorem seq_eq_valid {f : Checked π (α → β)} {x : Checked π α} {b : β} :
    f <*> x = valid b ↔ ∃ g a, f = valid g ∧ x = valid a ∧ g a = b := by
  show f.seq x = valid b ↔ _
  cases f <;> cases x <;> simp [seq, map]

theorem withProblems_eq_valid {x : Checked π α} {ps : List π} {a : α} :
    x.withProblems ps = valid a ↔ ps = [] ∧ x = valid a := by
  cases ps <;> cases x <;> simp [withProblems]

theorem mapProblems_eq_valid {x : Checked π α} {f : List π → List ρ} {a : α} :
    x.mapProblems f = valid a ↔ x = valid a := by
  cases x <;> simp [mapProblems]

theorem orReport_eq_ok {ε : Type} {report : List π → ε} {x : Checked π α} {a : α} :
    x.orReport report = .ok a ↔ x = valid a := by
  cases x <;> simp [orReport]

/-- The results of a list of checks are those of its members. -/
theorem sequence_eq_valid {xs : List (Checked π α)} {as : List α} :
    sequence xs = valid as ↔ xs = as.map valid := by
  induction xs generalizing as with
  | nil => cases as <;> simp [sequence]
  | cons x rest ih =>
    rw [sequence, seq_eq_valid]
    constructor
    · rintro ⟨g, as', hg, hrest, rfl⟩
      obtain ⟨a, rfl, rfl⟩ := map_eq_valid.1 hg
      rw [ih.1 hrest]
      rfl
    · intro h
      cases as with
      | nil => cases h
      | cons a as' =>
        rw [List.map_cons, List.cons.injEq] at h
        exact ⟨List.cons a, as', map_eq_valid.2 ⟨a, h.1, rfl⟩, ih.2 h.2, rfl⟩

/-- A check of four parts and of what is left over comes to a result if all parts do and nothing is
left over. -/
theorem four_eq_valid {α₁ α₂ α₃ α₄ : Type} {f : α₁ → α₂ → α₃ → α₄ → β} {x₁ : Checked π α₁}
    {x₂ : Checked π α₂} {x₃ : Checked π α₃} {x₄ : Checked π α₄} {ps : List π} {b : β} :
    (f <$> x₁ <*> x₂ <*> x₃ <*> x₄).withProblems ps = valid b ↔
      ps = [] ∧ ∃ a₁ a₂ a₃ a₄, x₁ = valid a₁ ∧ x₂ = valid a₂ ∧ x₃ = valid a₃ ∧ x₄ = valid a₄ ∧
        f a₁ a₂ a₃ a₄ = b := by
  rw [withProblems_eq_valid]
  refine and_congr_right fun _ => ?_
  constructor
  · intro h
    obtain ⟨_, a₄, three, h₄, rfl⟩ := seq_eq_valid.1 h
    obtain ⟨_, a₃, two, h₃, rfl⟩ := seq_eq_valid.1 three
    obtain ⟨_, a₂, one, h₂, rfl⟩ := seq_eq_valid.1 two
    obtain ⟨a₁, h₁, rfl⟩ := map_eq_valid.1 one
    exact ⟨a₁, a₂, a₃, a₄, h₁, h₂, h₃, h₄, rfl⟩
  · rintro ⟨a₁, a₂, a₃, a₄, rfl, rfl, rfl, rfl, rfl⟩
    rfl

/-- The same for a check of six parts. -/
theorem six_eq_valid {α₁ α₂ α₃ α₄ α₅ α₆ : Type} {f : α₁ → α₂ → α₃ → α₄ → α₅ → α₆ → β}
    {x₁ : Checked π α₁} {x₂ : Checked π α₂} {x₃ : Checked π α₃} {x₄ : Checked π α₄}
    {x₅ : Checked π α₅} {x₆ : Checked π α₆} {ps : List π} {b : β} :
    (f <$> x₁ <*> x₂ <*> x₃ <*> x₄ <*> x₅ <*> x₆).withProblems ps = valid b ↔
      ps = [] ∧ ∃ a₁ a₂ a₃ a₄ a₅ a₆, x₁ = valid a₁ ∧ x₂ = valid a₂ ∧ x₃ = valid a₃ ∧
        x₄ = valid a₄ ∧ x₅ = valid a₅ ∧ x₆ = valid a₆ ∧ f a₁ a₂ a₃ a₄ a₅ a₆ = b := by
  rw [withProblems_eq_valid]
  refine and_congr_right fun _ => ?_
  constructor
  · intro h
    obtain ⟨_, a₆, five, h₆, rfl⟩ := seq_eq_valid.1 h
    obtain ⟨_, a₅, four, h₅, rfl⟩ := seq_eq_valid.1 five
    obtain ⟨-, a₁, a₂, a₃, a₄, h₁, h₂, h₃, h₄, rfl⟩ :=
      four_eq_valid.1 (withProblems_eq_valid.2 ⟨rfl, four⟩)
    exact ⟨a₁, a₂, a₃, a₄, a₅, a₆, h₁, h₂, h₃, h₄, h₅, h₆, rfl⟩
  · rintro ⟨a₁, a₂, a₃, a₄, a₅, a₆, rfl, rfl, rfl, rfl, rfl, rfl, rfl⟩
    rfl

end Checked

open Checked

/-- A condition that has been compiled is compiled once more from its text. -/
theorem Condition.compile_text {text : String} {c : Condition} (h : compile text = .ok c) :
    compile c.text = .ok c := by
  have same : c.text = text := by
    unfold compile at h
    split at h
    · cases h
    · cases h
      rfl
  rwa [same]

namespace Field

variable {α : Type} {fs : Fields} {key : String} {check : Check α} {a : α}

theorem required_eq_valid :
    required fs key check = .valid a ↔ ∃ v, Entries.get? key fs = some v ∧ check v = .valid a := by
  unfold required
  split
  · rename_i v hv
    rw [under, mapProblems_eq_valid]
    simp [hv]
  · rename_i hnone
    simp [hnone, refuse]

/-- A field that may be absent has a value that was checked, or the one for want of any. -/
theorem optional_eq_valid {value : α} :
    optional fs key value check = .valid a ↔
      (Entries.get? key fs = none ∧ a = value) ∨
        ∃ v, Entries.get? key fs = some v ∧ check v = .valid a := by
  unfold optional
  split
  · rename_i v hv
    rw [under, mapProblems_eq_valid]
    simp [hv]
  · rename_i absent
    constructor
    · intro h
      cases h
      exact .inl ⟨absent, rfl⟩
    · rintro (⟨-, rfl⟩ | ⟨v, hv, -⟩)
      · rfl
      · rw [absent] at hv
        cases hv

/-- A name has a letter or digit, also without the blanks at its ends. -/
theorem hasLetterOrDigit_of_name {owner : String} {v : Value} {n : String}
    (h : name owner v = .valid n) : Text.hasLetterOrDigit n = true := by
  unfold name at h
  split at h
  · rename_i s
    split at h
    · cases h
    · split at h
      · rename_i hs
        cases h
        rwa [Text.hasLetterOrDigit_strip]
      · cases h
  · cases h

theorem tokens_eq_valid {v : Value} {b : TokenBag} :
    tokens v = .valid b ↔ TokenBag.parse v = .ok b := by
  unfold tokens
  cases TokenBag.parse v <;> simp [refuse]

/-- Tokens, where there may be none, form a sound bag. -/
theorem sound_of_optional_tokens {b : TokenBag}
    (h : optional fs key .empty tokens = .valid b) : b.Sound := by
  rcases optional_eq_valid.1 h with ⟨-, rfl⟩ | ⟨v, -, hv⟩
  · exact TokenBag.sound_empty
  · exact TokenBag.sound_of_parse (tokens_eq_valid.1 hv)

/-- Without predicates of the surroundings a gate is a condition that was compiled. -/
theorem compile_of_gate {v : Value} {g : Gate} (h : gate none v = .valid g) :
    ∃ c, g = .condition c ∧ Condition.compile c.text = .ok c := by
  unfold gate at h
  split at h
  · rename_i s
    obtain ⟨c, hc, rfl⟩ := map_eq_valid.1 h
    refine ⟨c, rfl, ?_⟩
    unfold conditionText at hc
    split at hc
    · rename_i c' hcompile
      cases hc
      exact Condition.compile_text hcompile
    · cases hc
  · cases h

end Field

/-- The name of a rule has a letter or digit in it, and its tokens form a sound bag. -/
structure Rule.Legible (r : Rule) : Prop where
  name : Text.hasLetterOrDigit r.name = true
  tokens : r.tokens.Sound

theorem Trigger.legible_of_ofFields {fs : Fields} {t : Trigger} (h : ofFields fs = .valid t) :
    (Rule.trigger t).Legible := by
  obtain ⟨-, name, _, _, grants, hname, -, -, hgrants, rfl⟩ := four_eq_valid.1 h
  obtain ⟨v, -, hv⟩ := Field.required_eq_valid.1 hname
  exact ⟨Field.hasLetterOrDigit_of_name hv, Field.sound_of_optional_tokens hgrants⟩

theorem Action.legible_of_ofFields {fs : Fields} {a : Action} (h : ofFields fs = .valid a) :
    (Rule.action a).Legible := by
  obtain ⟨-, name, _, _, costs, hname, -, -, hcosts, rfl⟩ := four_eq_valid.1 h
  obtain ⟨v, -, hv⟩ := Field.required_eq_valid.1 hname
  exact ⟨Field.hasLetterOrDigit_of_name hv, Field.sound_of_optional_tokens hcosts⟩

theorem Constraint.legible_of_ofFields {reader : Reader} {fs : Fields} {c : Constraint}
    (h : ofFields reader fs = .valid c) : (Rule.constraint c).Legible := by
  obtain ⟨-, name, _, _, bypass, hname, -, -, hbypass, rfl⟩ := four_eq_valid.1 h
  obtain ⟨v, -, hv⟩ := Field.required_eq_valid.1 hname
  exact ⟨Field.hasLetterOrDigit_of_name hv, Field.sound_of_optional_tokens hbypass⟩

theorem Constraint.compile_of_ofFields {integer? : String → Option Int} {fs : Fields}
    {c : Constraint} (h : ofFields (.data integer?) fs = .valid c) :
    ∃ cond, c.gate = .condition cond ∧ Condition.compile cond.text = .ok cond := by
  obtain ⟨-, _, gate, _, _, -, hgate, -, -, rfl⟩ := four_eq_valid.1 h
  obtain ⟨v, -, hv⟩ := Field.required_eq_valid.1 hgate
  exact Field.compile_of_gate hv

theorem Rule.legible_of_ofFields {reader : Reader} {kind : RuleKind} {fs : Fields} {r : Rule}
    (h : ofFields reader kind fs = .valid r) : r.Legible := by
  cases kind with
  | trigger =>
    obtain ⟨t, ht, rfl⟩ := map_eq_valid.1 h
    exact Trigger.legible_of_ofFields ht
  | action =>
    obtain ⟨a, ha, rfl⟩ := map_eq_valid.1 h
    exact Action.legible_of_ofFields ha
  | constraint =>
    obtain ⟨c, hc, rfl⟩ := map_eq_valid.1 h
    exact Constraint.legible_of_ofFields hc

namespace Definition

theorem mem_readRules {α : Type} {kind : RuleKind} {read : Fields → Checked Problem α}
    {key : String} {fs : Fields} {rules : List α} (h : readRules kind read key fs = .valid rules)
    {r : α} (hr : r ∈ rules) : ∃ fields, read fields = .valid r := by
  unfold readRules at h
  split at h
  · cases h
    cases hr
  · rename_i items _
    have single : Checked.valid (π := DefinitionProblem) r ∈ rules.map .valid :=
      List.mem_map_of_mem hr
    rw [← sequence_eq_valid.1 h] at single
    obtain ⟨⟨v, n⟩, -, hread⟩ := List.mem_map.1 single
    cases v with
    | object fields => exact ⟨fields, mapProblems_eq_valid.1 hread⟩
    | _ => cases hread
  · cases h

theorem own_eq_valid {α : Type} {x : Checked Problem α} {a : α} :
    own x = .valid a ↔ x = .valid a :=
  mapProblems_eq_valid

/-- A definition is read if all of its parts are, and no two rules of a kind share a name. -/
theorem ofFields_parts {reader : Reader} {fs : Fields} {d : Definition} :
    ofFields reader fs = .valid d ↔ Field.unknown keys fs = [] ∧
      Field.required fs "name" (Field.name "Rule definition name") = .valid d.name ∧
      Field.optional fs "players" Players.default (Field.players reader.integer?) =
        .valid d.players ∧
      Field.optional fs "initial_state" [] Field.object = .valid d.initial ∧
      readRules .trigger Trigger.ofFields "triggers" fs = .valid d.triggers ∧
      readRules .action Action.ofFields "actions" fs = .valid d.actions ∧
      readRules .constraint (Constraint.ofFields reader) "constraints" fs =
        .valid d.constraints ∧
      d.duplicateNames = none := by
  constructor
  · intro h
    unfold ofFields at h
    simp only at h
    split at h
    · cases h
    · rename_i d' hread
      split at h
      · cases h
      · rename_i distinct
        cases h
        obtain ⟨left, _, _, _, _, _, _, name, players, initial, triggers, actions, constraints,
          rfl⟩ := six_eq_valid.1 hread
        exact ⟨List.map_eq_nil_iff.1 left, own_eq_valid.1 name, own_eq_valid.1 players,
          own_eq_valid.1 initial, triggers, actions, constraints, distinct⟩
  · rintro ⟨left, name, players, initial, triggers, actions, constraints, distinct⟩
    have left : (Field.unknown keys fs).map DefinitionProblem.own = [] := List.map_eq_nil_iff.2 left
    have read := (six_eq_valid (f := Definition.mk)).2 ⟨left, _, _, _, _, _, _, own_eq_valid.2 name,
      own_eq_valid.2 players, own_eq_valid.2 initial, triggers, actions, constraints, rfl⟩
    simp only [ofFields, read, distinct]

/-- Each rule of a definition that is read from data has fields of its own from which it is
read. -/
theorem ofFields_of_ofValue {reader : Reader} {v : Value} {d : Definition}
    (h : ofValue reader v = .ok d) {r : Rule} (hr : r ∈ d.rules) :
    ∃ fs, Rule.ofFields reader r.kind fs = .valid r := by
  unfold ofValue at h
  split at h
  · obtain ⟨-, -, -, -, triggers, actions, constraints, -⟩ := ofFields_parts.1 (orReport_eq_ok.1 h)
    simp only [rules, List.mem_append, List.mem_map] at hr
    rcases hr with (⟨t, ht, rfl⟩ | ⟨a, ha, rfl⟩) | ⟨c, hc, rfl⟩
    · obtain ⟨fields, hread⟩ := mem_readRules triggers ht
      exact ⟨fields, map_eq_valid.2 ⟨t, hread, rfl⟩⟩
    · obtain ⟨fields, hread⟩ := mem_readRules actions ha
      exact ⟨fields, map_eq_valid.2 ⟨a, hread, rfl⟩⟩
    · obtain ⟨fields, hread⟩ := mem_readRules constraints hc
      exact ⟨fields, map_eq_valid.2 ⟨c, hread, rfl⟩⟩
  · cases h

theorem legible_of_ofValue {reader : Reader} {v : Value} {d : Definition}
    (h : ofValue reader v = .ok d) {r : Rule} (hr : r ∈ d.rules) : r.Legible := by
  obtain ⟨fs, hread⟩ := ofFields_of_ofValue h hr
  exact Rule.legible_of_ofFields hread

theorem compile_of_ofValue {integer? : String → Option Int} {v : Value} {d : Definition}
    (h : ofValue (.data integer?) v = .ok d) {c : Constraint} (hc : .constraint c ∈ d.rules) :
    ∃ cond, c.gate = .condition cond ∧ Condition.compile cond.text = .ok cond := by
  obtain ⟨fs, hread⟩ := ofFields_of_ofValue h hc
  obtain ⟨c', hc', heq⟩ := map_eq_valid.1 hread
  cases heq
  exact Constraint.compile_of_ofFields hc'

end Definition
end TokenGate

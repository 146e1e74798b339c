import Mathlib.Data.List.Forall2
import Mathlib.Data.List.Nodup
import TokenGate.Proofs.Definition.Rules

/-!
# What data say

How the values of fields say names, texts, conditions, tokens and numbers, and how the fields of an
object describe a rule or a definition. The reader comes to a result exactly if the data describe
one, and then it is this one.
-/

namespace TokenGate

open Checked

/-- A value counts as an integer: a truth value, an integer, a double without fractional part that
fits into 64 bits, or a text that writes an integer, as `integer?` reads it. -/
inductive Players.Says (integer? : String → Option Int) : Value → Int → Prop
  | no : Says integer? (.bool false) 0
  | yes : Says integer? (.bool true) 1
  | int (n : Int) : Says integer? (.int n) n
  | float {x : Number.Double} : x.isFinite = true → x.isWhole = true →
      x.truncate.natAbs < Nat.pow 2 63 → Says integer? (.float x) x.truncate
  | text {s : String} {n : Int} : integer? s = some n → Says integer? (.str s) n

namespace Field

/-- A text with a letter or digit in it is a name, without the blanks at its ends. -/
inductive SaysName : Value → String → Prop
  | text {s : String} : Text.hasLetterOrDigit s = true → SaysName (.str s) (Text.strip s)

inductive SaysText : Value → Option String → Prop
  | null : SaysText .null none
  | text (s : String) : SaysText (.str s) (some s)

inductive SaysCondition : Value → Option Condition → Prop
  | null : SaysCondition .null none
  | text {s : String} {c : Condition} : Condition.compile s = .ok c →
      SaysCondition (.str s) (some c)

inductive SaysGate : Value → Gate → Prop
  | text {s : String} {c : Condition} : Condition.compile s = .ok c →
      SaysGate (.str s) (.condition c)

def SaysTokens (v : Value) (b : TokenBag) : Prop := TokenBag.parse v = .ok b

inductive SaysFields : Value → Fields → Prop
  | object (fs : Fields) : SaysFields (.object fs) fs

/-- An integer that is at least one is a number of players. -/
inductive SaysPlayers (integer? : String → Option Int) : Value → Nat → Prop
  | integer {v : Value} {n : Int} : Players.Says integer? v n → 1 ≤ n →
      SaysPlayers integer? v n.toNat

/-- The members of a list are objects that describe something, one after another. -/
inductive SaysEach {α : Type} (R : Fields → α → Prop) : Value → List α → Prop
  | list {items : List Value} {as : List α} :
      List.Forall₂ (fun v a => ∃ fs, v = .object fs ∧ R fs a) items as → SaysEach R (.list items) as

/-- There is a field, and it says something. -/
def Gives {α : Type} (fs : Fields) (key : String) (R : Value → α → Prop) (a : α) : Prop :=
  ∃ v, Entries.get? key fs = some v ∧ R v a

/-- There is no field, or it says something. -/
def MayGive {α : Type} (fs : Fields) (key : String) (value : α) (R : Value → α → Prop) (a : α) :
    Prop :=
  (Entries.get? key fs = none ∧ a = value) ∨ Gives fs key R a

end Field

/-- The fields describe a trigger. -/
structure Trigger.Described (fs : Fields) (t : Trigger) : Prop where
  known : ∀ key ∈ Entries.keys fs, key ∈ keys
  event : Field.Gives fs "event" Field.SaysName t.event
  condition : Field.MayGive fs "condition" none Field.SaysCondition t.condition
  action : Field.MayGive fs "action" none Field.SaysText t.action
  grants : Field.MayGive fs "grants" .empty Field.SaysTokens t.grants

/-- The fields describe an action. -/
structure Action.Described (fs : Fields) (a : Action) : Prop where
  known : ∀ key ∈ Entries.keys fs, key ∈ keys
  name : Field.Gives fs "name" Field.SaysName a.name
  effect : Field.MayGive fs "effect" none Field.SaysText a.effect
  timing : Field.MayGive fs "when" none Field.SaysText a.timing
  costs : Field.MayGive fs "costs" .empty Field.SaysTokens a.costs

/-- The fields describe a constraint. -/
structure Constraint.Described (fs : Fields) (c : Constraint) : Prop where
  known : ∀ key ∈ Entries.keys fs, key ∈ keys
  name : Field.Gives fs "name" Field.SaysName c.name
  gate : Field.Gives fs "condition" Field.SaysGate c.gate
  message : Field.MayGive fs "message" none Field.SaysText c.message
  bypass : Field.MayGive fs "bypass_cost" .empty Field.SaysTokens c.bypass

namespace Definition

/-- The rules of a kind. -/
def rulesOf (d : Definition) (kind : RuleKind) : List Rule := d.rules.filter (·.kind = kind)

/-- The fields describe a definition. -/
structure Described (integer? : String → Option Int) (fs : Fields) (d : Definition) : Prop where
  known : ∀ key ∈ Entries.keys fs, key ∈ keys
  name : Field.Gives fs "name" Field.SaysName d.name
  players : Field.MayGive fs "players" Players.default (Field.SaysPlayers integer?) d.players
  initial : Field.MayGive fs "initial_state" [] Field.SaysFields d.initial
  triggers : Field.MayGive fs "triggers" [] (Field.SaysEach Trigger.Described) d.triggers
  actions : Field.MayGive fs "actions" [] (Field.SaysEach Action.Described) d.actions
  constraints :
    Field.MayGive fs "constraints" [] (Field.SaysEach Constraint.Described) d.constraints
  distinct : ∀ kind, ((d.rulesOf kind).map Rule.name).Nodup

end Definition

namespace Players

theorem ofInt_eq_ok {n : Int} {m : Nat} : ofInt n = .ok m ↔ 1 ≤ n ∧ n.toNat = m := by
  unfold ofInt
  by_cases h : 1 ≤ n
  · simp [h]
  · simp [h]

/-- The number of players is the integer that the value counts as. -/
theorem ofValue_eq_ok {integer? : String → Option Int} {v : Value} {m : Nat} :
    ofValue integer? v = .ok m ↔ ∃ n, Says integer? v n ∧ 1 ≤ n ∧ n.toNat = m := by
  constructor
  · intro h
    cases v with
    | bool b =>
      obtain ⟨low, rfl⟩ := ofInt_eq_ok.1 h
      cases b with
      | false => exact ⟨0, .no, low, rfl⟩
      | true => exact ⟨1, .yes, low, rfl⟩
    | int n => exact ⟨n, .int n, ofInt_eq_ok.1 h⟩
    | float x =>
      simp only [ofValue] at h
      split at h
      · cases h
      · rename_i finite
        split at h
        · cases h
        · rename_i whole
          split at h
          · rename_i small
            exact ⟨_, .float (by simpa using finite) (by simpa using whole) small, ofInt_eq_ok.1 h⟩
          · cases h
    | str s =>
      simp only [ofValue] at h
      split at h
      · rename_i n hn
        exact ⟨n, .text hn, ofInt_eq_ok.1 h⟩
      · cases h
    | _ => cases h
  · rintro ⟨n, counts, low, rfl⟩
    have counted := ofInt_eq_ok.2 ⟨low, rfl⟩
    cases counts with
    | no => exact counted
    | yes => exact counted
    | int n => exact counted
    | float finite whole small =>
      simpa only [ofValue, finite, whole, small, Bool.not_true, Bool.false_eq_true, ↓reduceIte]
        using counted
    | text hn => simpa only [ofValue, hn] using counted

end Players

namespace Field

variable {α : Type} {fs : Fields} {key : String} {check : Check α} {R : Value → α → Prop}

/-- A check of a required field decides what the field gives. -/
theorem required_iff (h : ∀ v a, check v = .valid a ↔ R v a) {a : α} :
    required fs key check = .valid a ↔ Gives fs key R a := by
  rw [required_eq_valid, Gives]
  simp only [h]

theorem optional_iff (h : ∀ v a, check v = .valid a ↔ R v a) {value a : α} :
    optional fs key value check = .valid a ↔ MayGive fs key value R a := by
  rw [optional_eq_valid, MayGive, Gives]
  simp only [h]

theorem name_eq_valid {owner : String} (v : Value) (n : String) :
    name owner v = .valid n ↔ SaysName v n := by
  constructor
  · intro h
    have legible := hasLetterOrDigit_of_name h
    unfold name at h
    split at h
    · split at h
      · cases h
      · split at h
        · cases h
          exact .text (by rwa [Text.hasLetterOrDigit_strip] at legible)
        · cases h
    · cases h
  · rintro ⟨legible⟩
    rename_i s
    have full : (Text.strip s).isEmpty = false := by
      rw [← Bool.not_eq_true, String.isEmpty_iff]
      intro blank
      rw [← Text.hasLetterOrDigit_strip, blank] at legible
      exact absurd legible (by decide)
    have marked : s.toList.any Text.isLetterOrDigit = true := legible
    rw [name, full, if_neg Bool.false_ne_true, if_pos marked]

theorem text_eq_valid (v : Value) (t : Option String) : text v = .valid t ↔ SaysText v t := by
  constructor
  · intro h
    cases v with
    | null => cases h; exact .null
    | str s => cases h; exact .text s
    | _ => cases h
  · intro h
    cases h <;> rfl

theorem tokens_iff (v : Value) (b : TokenBag) : tokens v = .valid b ↔ SaysTokens v b :=
  tokens_eq_valid

theorem conditionText_eq_valid {s : String} {c : Condition} :
    conditionText s = .valid c ↔ Condition.compile s = .ok c := by
  unfold conditionText
  cases Condition.compile s <;> simp [refuse]

theorem condition_eq_valid (v : Value) (c : Option Condition) :
    condition v = .valid c ↔ SaysCondition v c := by
  constructor
  · intro h
    cases v with
    | null => cases h; exact .null
    | str s =>
      obtain ⟨c, hc, rfl⟩ := map_eq_valid.1 h
      exact .text (conditionText_eq_valid.1 hc)
    | _ => cases h
  · intro h
    cases h with
    | null => rfl
    | text hc => exact map_eq_valid.2 ⟨_, conditionText_eq_valid.2 hc, rfl⟩

theorem gate_eq_valid (v : Value) (g : Gate) : gate none v = .valid g ↔ SaysGate v g := by
  constructor
  · intro h
    cases v with
    | str s =>
      obtain ⟨c, hc, rfl⟩ := map_eq_valid.1 h
      exact .text (conditionText_eq_valid.1 hc)
    | _ => cases h
  · rintro ⟨hc⟩
    exact map_eq_valid.2 ⟨_, conditionText_eq_valid.2 hc, rfl⟩

theorem object_eq_valid (v : Value) (fields : Fields) :
    object v = .valid fields ↔ SaysFields v fields := by
  constructor
  · intro h
    cases v with
    | object fields => cases h; exact .object fields
    | _ => cases h
  · rintro ⟨⟩
    rfl

theorem players_eq_valid (integer? : String → Option Int) (v : Value) (n : Nat) :
    players integer? v = .valid n ↔ SaysPlayers integer? v n := by
  have read : players integer? v = .valid n ↔ Players.ofValue integer? v = .ok n := by
    unfold players
    cases Players.ofValue integer? v <;> simp [refuse]
  rw [read, Players.ofValue_eq_ok]
  constructor
  · rintro ⟨m, counts, low, rfl⟩
    exact .integer counts low
  · rintro ⟨counts, low⟩
    exact ⟨_, counts, low, rfl⟩

theorem unknown_eq_nil {known : List String} :
    unknown known fs = [] ↔ ∀ key ∈ Entries.keys fs, key ∈ known := by
  rw [unknown, List.map_eq_nil_iff, List.filter_eq_nil_iff]
  simp

end Field

/-- A trigger is read exactly from the fields that describe it. -/
theorem Trigger.ofFields_eq_valid (fs : Fields) (t : Trigger) :
    ofFields fs = .valid t ↔ Described fs t := by
  simp only [ofFields, four_eq_valid, Field.unknown_eq_nil, Field.required_iff Field.name_eq_valid,
    Field.optional_iff Field.condition_eq_valid, Field.optional_iff Field.text_eq_valid,
    Field.optional_iff Field.tokens_iff]
  constructor
  · rintro ⟨known, _, _, _, _, event, condition, action, grants, rfl⟩
    exact ⟨known, event, condition, action, grants⟩
  · intro h
    exact ⟨h.known, _, _, _, _, h.event, h.condition, h.action, h.grants, rfl⟩

/-- An action is read exactly from the fields that describe it. -/
theorem Action.ofFields_eq_valid (fs : Fields) (a : Action) :
    ofFields fs = .valid a ↔ Described fs a := by
  simp only [ofFields, four_eq_valid, Field.unknown_eq_nil, Field.required_iff Field.name_eq_valid,
    Field.optional_iff Field.text_eq_valid, Field.optional_iff Field.tokens_iff]
  constructor
  · rintro ⟨known, _, _, _, _, name, effect, timing, costs, rfl⟩
    exact ⟨known, name, effect, timing, costs⟩
  · intro h
    exact ⟨h.known, _, _, _, _, h.name, h.effect, h.timing, h.costs, rfl⟩

/-- Without predicates of the surroundings, a constraint is read exactly from the fields that
describe it. -/
theorem Constraint.ofFields_eq_valid (integer? : String → Option Int) (fs : Fields) (c : Constraint) :
    ofFields (.data integer?) fs = .valid c ↔ Described fs c := by
  simp only [ofFields, Reader.data, four_eq_valid, Field.unknown_eq_nil,
    Field.required_iff Field.name_eq_valid, Field.required_iff Field.gate_eq_valid,
    Field.optional_iff Field.text_eq_valid, Field.optional_iff Field.tokens_iff]
  constructor
  · rintro ⟨known, _, _, _, _, name, gate, message, bypass, rfl⟩
    exact ⟨known, name, gate, message, bypass⟩
  · intro h
    exact ⟨h.known, _, _, _, _, h.name, h.gate, h.message, h.bypass, rfl⟩

namespace Definition

section List

variable {α : Type} {kind : RuleKind} {read : Fields → Checked Problem α} {key : String}
  {R : Fields → α → Prop} (h : ∀ fs a, read fs = .valid a ↔ R fs a)

include h

theorem readRule_eq_valid {v : Value} {position : Nat} {a : α} :
    readRule kind read key v position = .valid a ↔ ∃ fs, v = .object fs ∧ R fs a := by
  cases v with
  | object fs =>
    rw [readRule, mapProblems_eq_valid, h]
    simp
  | _ => simp [readRule, own, refuse, mapProblems]

theorem readRules_members {items : List Value} {start : Nat} {as : List α} :
    (items.zipIdx start).map (fun (v, i) => readRule kind read key v i) = as.map .valid ↔
      List.Forall₂ (fun v a => ∃ fs, v = .object fs ∧ R fs a) items as := by
  induction items generalizing start as with
  | nil =>
    cases as with
    | nil => simp
    | cons a as => simp
  | cons v items ih =>
    cases as with
    | nil => simp
    | cons a as =>
      rw [List.zipIdx_cons, List.map_cons, List.map_cons, List.cons.injEq, List.forall₂_cons,
        readRule_eq_valid h, ih]

/-- A list of rules is read exactly from a list of what describes them, or from nothing. -/
theorem readRules_eq_valid {fs : Fields} {as : List α} :
    readRules kind read key fs = .valid as ↔ Field.MayGive fs key [] (Field.SaysEach R) as := by
  unfold readRules
  cases hv : Entries.get? key fs with
  | none =>
    constructor
    · intro none
      cases none
      exact .inl ⟨hv, rfl⟩
    · rintro (⟨-, rfl⟩ | ⟨v, there, -⟩)
      · rfl
      · rw [hv] at there
        cases there
  | some v =>
    have given : Field.MayGive fs key [] (Field.SaysEach R) as ↔ Field.SaysEach R v as := by
      simp [Field.MayGive, Field.Gives, hv]
    rw [given]
    cases v with
    | list items =>
      rw [sequence_eq_valid, readRules_members h]
      constructor
      · exact .list
      · rintro ⟨each⟩
        exact each
    | _ =>
      constructor
      · intro refused
        cases refused
      · intro each
        cases each

end List

theorem duplicates_eq_nil {names : List String} : duplicates names = [] ↔ names.Nodup := by
  rw [duplicates, List.nodup_iff_count_le_one]
  constructor
  · intro none name
    by_contra many
    have listed : name ∈ names.eraseDups.filter fun n => 1 < names.count n := by
      rw [List.mem_filter, List.mem_eraseDups]
      exact ⟨List.count_pos_iff.1 (by omega), by simpa using many⟩
    rw [← (List.mergeSort_perm _ fun a b => a ≤ b).mem_iff, none] at listed
    cases listed
  · intro few
    have none : (names.eraseDups.filter fun n => 1 < names.count n) = [] := by
      rw [List.filter_eq_nil_iff]
      intro name _
      simpa using few name
    rw [none, List.mergeSort_nil]

/-- No name is complained about if the rules of each kind have names of their own. -/
theorem duplicateNames_eq_none {d : Definition} :
    d.duplicateNames = none ↔ ∀ kind, ((d.rulesOf kind).map Rule.name).Nodup := by
  simp only [duplicateNames, Option.map_eq_none_iff, List.find?_eq_none, Bool.not_eq_true,
    Bool.not_eq_false', List.isEmpty_iff, duplicates_eq_nil]
  constructor
  · intro each kind
    exact each kind (by cases kind <;> decide)
  · intro each kind _
    exact each kind

/-- Without predicates of the surroundings, a definition is read exactly from the fields that
describe it. -/
theorem ofFields_eq_valid {integer? : String → Option Int} {fs : Fields} {d : Definition} :
    ofFields (.data integer?) fs = .valid d ↔ Described integer? fs d := by
  have triggers := @readRules_eq_valid _ .trigger _ "triggers" _ Trigger.ofFields_eq_valid fs
  have actions := @readRules_eq_valid _ .action _ "actions" _ Action.ofFields_eq_valid fs
  have constraints :=
    @readRules_eq_valid _ .constraint _ "constraints" _ (Constraint.ofFields_eq_valid integer?) fs
  rw [ofFields_parts, Reader.integer?_data, Field.unknown_eq_nil,
    Field.required_iff Field.name_eq_valid, Field.optional_iff (Field.players_eq_valid integer?),
    Field.optional_iff Field.object_eq_valid, triggers, actions, constraints,
    duplicateNames_eq_none]
  constructor
  · rintro ⟨known, name, players, initial, triggers, actions, constraints, distinct⟩
    exact ⟨known, name, players, initial, triggers, actions, constraints, distinct⟩
  · intro h
    exact ⟨h.known, h.name, h.players, h.initial, h.triggers, h.actions, h.constraints, h.distinct⟩

end Definition
end TokenGate

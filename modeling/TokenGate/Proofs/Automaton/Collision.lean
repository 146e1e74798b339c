import TokenGate.Proofs.Automaton.Naming
import TokenGate.Proofs.Table

/-!
# Labels that collide

Two rules have the same label exactly if they are of one kind and their names have the same normal
form, and only two of the gameplay events have labels that a rule may have as well. A definition is
compiled to a catalog unless there is such a pair. The catalog then has all rules under their
labels; otherwise the first label that several events have is reported, with all of these events.
-/

namespace TokenGate

open Text Result

theorem EventKind.ofRule_inj {k k' : RuleKind} (h : ofRule k = ofRule k') : k = k' := by
  cases k <;> cases k' <;> first | rfl | cases h

namespace Rule

theorem labels_eventLabel (r : Rule) : (EventKind.ofRule r.kind).Labels r.eventLabel := ⟨_, rfl⟩

theorem eventLabel_of_normalize {r : Rule} {form : String} (h : normalize r.name = .ok form) :
    r.eventLabel = (EventKind.ofRule r.kind).text ++ "_" ++ form := by
  have some : hasLetterOrDigit r.name = true := by
    cases hn : hasLetterOrDigit r.name with
    | true => rfl
    | false =>
      rw [normalize_eq_error hn] at h
      cases h
  rw [normalize_eq_ok some] at h
  cases h
  rfl

/-- Rules with the same label are of one kind, and their names have the same normal form. -/
theorem eventLabel_eq_iff {r r' : Rule} (h : hasLetterOrDigit r.name = true)
    (h' : hasLetterOrDigit r'.name = true) :
    r.eventLabel = r'.eventLabel ↔ r.kind = r'.kind ∧ normalize r.name = normalize r'.name := by
  rw [normalize_eq_ok h, normalize_eq_ok h']
  constructor
  · intro heq
    have heads := r.labels_eventLabel.head
    rw [heq, r'.labels_eventLabel.head] at heads
    have kinds : r.kind = r'.kind := EventKind.ofRule_inj (EventKind.eq_of_head heads.symm)
    unfold eventLabel at heq
    rw [kinds, String.append_right_inj] at heq
    exact ⟨kinds, congrArg _ heq⟩
  · rintro ⟨kinds, names⟩
    unfold eventLabel
    rw [kinds, Except.ok.inj names]

end Rule

/-- The labels of gameplay events that begin like those of rules. -/
theorem GameplayEvent.eq_of_isPrefix {k : RuleKind} {g : GameplayEvent}
    (h : ((EventKind.ofRule k).text ++ "_").toList.isPrefixOf g.label.toList = true) :
    (k = .trigger ∧ g = .triggerFired) ∨ (k = .action ∧ g = .actionCostPaid) := by
  cases k <;> cases g <;> first | decide | (revert h; decide)

/-- A rule has the label of a gameplay event only if it is a trigger named after the firing of
triggers or an action named after the payment of costs. -/
theorem Rule.eventLabel_eq_label_iff {r : Rule} (h : hasLetterOrDigit r.name = true)
    (g : GameplayEvent) :
    r.eventLabel = g.label ↔
      (r.kind = .trigger ∧ normalize r.name = .ok "FIRED" ∧ g = .triggerFired) ∨
      (r.kind = .action ∧ normalize r.name = .ok "COST_PAID" ∧ g = .actionCostPaid) := by
  constructor
  · intro heq
    have pre := r.labels_eventLabel.isPrefix
    rw [heq] at pre
    unfold eventLabel at heq
    rcases GameplayEvent.eq_of_isPrefix pre with ⟨kind, rfl⟩ | ⟨kind, rfl⟩
    · have named : normalText r.name = "FIRED" := by
        rw [kind] at heq
        exact (String.append_right_inj "TRIGGER_").1 heq
      exact .inl ⟨kind, by rw [normalize_eq_ok h, named], rfl⟩
    · have named : normalText r.name = "COST_PAID" := by
        rw [kind] at heq
        exact (String.append_right_inj "ACTION_").1 heq
      exact .inr ⟨kind, by rw [normalize_eq_ok h, named], rfl⟩
  · rintro (⟨kind, named, rfl⟩ | ⟨kind, named, rfl⟩) <;>
      rw [eventLabel_of_normalize named, kind] <;> rfl

namespace Definition

/-- What its events come from, in order, each under the label of the event. -/
def producers (d : Definition) : List (String × String) :=
  GameplayEvent.all.map (fun g => (g.label, "gameplay event " ++ g.label)) ++
    d.rules.map fun r => (r.eventLabel, r.kind.word ++ " '" ++ r.name ++ "'")

/-- Two rules of one kind have names with the same normal form, or a trigger or an action is named
after a gameplay event. -/
inductive Clashes (d : Definition) : Prop where
  | triggers (twice : ¬ (d.triggers.map fun t => normalize t.event).Nodup)
  | actions (twice : ¬ (d.actions.map fun a => normalize a.name).Nodup)
  | constraints (twice : ¬ (d.constraints.map fun c => normalize c.name).Nodup)
  | fired {t : Trigger} (mem : t ∈ d.triggers) (named : normalize t.event = .ok "FIRED")
  | costPaid {a : Action} (mem : a ∈ d.actions) (named : normalize a.name = .ok "COST_PAID")

variable {d : Definition}

theorem trigger_mem_rules {t : Trigger} : .trigger t ∈ d.rules ↔ t ∈ d.triggers := by
  simp [rules]

theorem action_mem_rules {a : Action} : .action a ∈ d.rules ↔ a ∈ d.actions := by
  simp [rules]

/-- Rules of one kind are told apart by the normal forms of their names. -/
theorem pairwise_map_rule_iff {α : Type} (l : List α) (rule : α → Rule) {k : RuleKind}
    (hk : ∀ x, (rule x).kind = k) :
    (l.map rule).Pairwise (fun r r' => r.kind = r'.kind → normalize r.name ≠ normalize r'.name) ↔
      (l.map fun x => normalize (rule x).name).Nodup := by
  rw [List.Nodup, List.pairwise_map, List.pairwise_map]
  simp only [hk, forall_const]

/-- Rules of different kinds are told apart anyway. -/
theorem apart_of_kinds {α β : Type} {l : List α} {l' : List β} {rule : α → Rule}
    {rule' : β → Rule} (hk : ∀ x y, (rule x).kind ≠ (rule' y).kind) {r r' : Rule}
    (hr : r ∈ l.map rule) (hr' : r' ∈ l'.map rule') (same : r.kind = r'.kind) :
    normalize r.name ≠ normalize r'.name := by
  obtain ⟨x, -, rfl⟩ := List.mem_map.1 hr
  obtain ⟨y, -, rfl⟩ := List.mem_map.1 hr'
  exact absurd same (hk x y)

/-- The labels of rules differ if the normal forms do within each kind. -/
theorem nodup_eventLabels_iff (names : ∀ r ∈ d.rules, hasLetterOrDigit r.name = true) :
    (d.rules.map Rule.eventLabel).Nodup ↔
      (d.triggers.map fun t => normalize t.event).Nodup ∧
      (d.actions.map fun a => normalize a.name).Nodup ∧
      (d.constraints.map fun c => normalize c.name).Nodup := by
  have forms : (d.rules.map Rule.eventLabel).Nodup ↔
      d.rules.Pairwise fun r r' => r.kind = r'.kind → normalize r.name ≠ normalize r'.name := by
    rw [List.Nodup, List.pairwise_map]
    refine List.Pairwise.iff_of_mem fun hr hr' => ?_
    rw [ne_eq, Rule.eventLabel_eq_iff (names _ hr) (names _ hr'), not_and]
  have triggers := pairwise_map_rule_iff d.triggers .trigger (k := .trigger) fun _ => rfl
  have actions := pairwise_map_rule_iff d.actions .action (k := .action) fun _ => rfl
  have constraints := pairwise_map_rule_iff d.constraints .constraint (k := .constraint) fun _ => rfl
  rw [forms, rules, List.pairwise_append, List.pairwise_append, triggers, actions, constraints]
  constructor
  · rintro ⟨⟨first, second, -⟩, third, -⟩
    exact ⟨first, second, third⟩
  · rintro ⟨first, second, third⟩
    refine ⟨⟨first, second, fun r hr r' hr' => ?_⟩, third, fun r hr r' hr' => ?_⟩
    · exact apart_of_kinds (fun _ _ hk => by cases hk) hr hr'
    · rcases List.mem_append.1 hr with hr | hr
      · exact apart_of_kinds (fun _ _ hk => by cases hk) hr hr'
      · exact apart_of_kinds (fun _ _ hk => by cases hk) hr hr'

theorem nodup_producers_iff (names : ∀ r ∈ d.rules, hasLetterOrDigit r.name = true) :
    (d.producers.map Prod.fst).Nodup ↔ ¬ d.Clashes := by
  have labels : d.producers.map Prod.fst =
      GameplayEvent.all.map GameplayEvent.label ++ d.rules.map Rule.eventLabel := by
    simp [producers, Function.comp_def]
  have gameplay : (GameplayEvent.all.map GameplayEvent.label).Nodup :=
    List.Nodup.map (fun _ _ => GameplayEvent.eq_of_label) (by decide)
  rw [labels, List.nodup_append, nodup_eventLabels_iff names]
  constructor
  · rintro ⟨-, ⟨triggers, actions, constraints⟩, apart⟩ clash
    have different {r : Rule} (hr : r ∈ d.rules) (g : GameplayEvent) : r.eventLabel ≠ g.label :=
      fun heq => apart _ (List.mem_map_of_mem g.mem_all) _ (List.mem_map_of_mem hr) heq.symm
    cases clash with
    | triggers twice => exact twice triggers
    | actions twice => exact twice actions
    | constraints twice => exact twice constraints
    | fired mem named =>
      have hr := trigger_mem_rules.2 mem
      exact different hr _ ((Rule.eventLabel_eq_label_iff (names _ hr) _).2 (.inl ⟨rfl, named, rfl⟩))
    | costPaid mem named =>
      have hr := action_mem_rules.2 mem
      exact different hr _ ((Rule.eventLabel_eq_label_iff (names _ hr) _).2 (.inr ⟨rfl, named, rfl⟩))
  · intro clear
    refine ⟨gameplay, ⟨?_, ?_, ?_⟩, ?_⟩
    · exact Classical.byContradiction fun twice => clear (.triggers twice)
    · exact Classical.byContradiction fun twice => clear (.actions twice)
    · exact Classical.byContradiction fun twice => clear (.constraints twice)
    · intro l hl l' hl' heq
      obtain ⟨g, -, rfl⟩ := List.mem_map.1 hl
      obtain ⟨r, hr, rfl⟩ := List.mem_map.1 hl'
      rcases (Rule.eventLabel_eq_label_iff (names r hr) g).1 heq.symm with
        ⟨kind, named, -⟩ | ⟨kind, named, -⟩
      · cases r with
        | trigger t => exact clear (.fired (trigger_mem_rules.1 hr) named)
        | _ => cases kind
      · cases r with
        | action a => exact clear (.costPaid (action_mem_rules.1 hr) named)
        | _ => cases kind

end Definition

namespace Catalog

/-- The label that collides is the first one that occurs twice. -/
theorem collision?_eq_some {c : Catalog} {label : String} (h : c.collision? = some label) :
    ∃ before after, c.sources.map Prod.fst = before ++ label :: after ∧ label ∈ after ∧
      ∀ l ∈ before, (c.sources.map Prod.fst).count l = 1 := by
  obtain ⟨several, before, after, parts, once⟩ := List.find?_eq_some_iff_append.1 h
  simp only [length_sourcesOf, decide_eq_true_eq, Bool.not_eq_true', decide_eq_false_iff_not,
    Nat.not_lt] at several once
  have single (l : String) (hl : l ∈ before) : (c.sources.map Prod.fst).count l = 1 := by
    have positive : 0 < (c.sources.map Prod.fst).count l :=
      List.count_pos_iff.2 (parts ▸ List.mem_append_left _ hl)
    exact Nat.le_antisymm (once l hl) positive
  have fresh : label ∉ before := fun hl => by
    rw [single label hl] at several
    exact absurd several (Nat.lt_irrefl 1)
  refine ⟨before, after, parts, ?_, single⟩
  rw [parts, List.count_append, List.count_eq_zero_of_not_mem fresh, List.count_cons_self] at several
  exact List.count_pos_iff.1 (by omega)

variable {d : Definition}

theorem sources_eq_producers (d : Definition) :
    sources (d.rules.map fun r => ⟨r.eventLabel, r⟩) = d.producers := by
  simp only [sources, Definition.producers, List.map_map]
  rfl

/-- What becomes of a definition whose rules have normal forms: the first label that occurs twice
among its events is reported with all that it comes from, or there is one entry for each rule. -/
theorem build_eq (names : ∀ r ∈ d.rules, hasLetterOrDigit r.name = true) :
    (∃ label before after, d.Clashes ∧
      d.producers.map Prod.fst = before ++ label :: after ∧ label ∈ after ∧
      (∀ l ∈ before, (d.producers.map Prod.fst).count l = 1) ∧
      build d = .error (.collision label
        ((d.producers.filter fun x => x.1 == label).map Prod.snd))) ∨
    (¬ d.Clashes ∧ build d = .ok (d.rules.map fun r => ⟨r.eventLabel, r⟩)) := by
  have sources := sources_eq_producers d
  simp only [build, entries_eq_ok names]
  cases hl : collision? (d.rules.map fun r => (⟨r.eventLabel, r⟩ : CatalogEntry)) with
  | none =>
    rw [collision?_eq_none_iff, sources, Definition.nodup_producers_iff names] at hl
    exact .inr ⟨hl, rfl⟩
  | some label =>
    obtain ⟨before, after, parts, again, once⟩ := collision?_eq_some hl
    rw [sources] at parts once
    refine .inl ⟨label, before, after, ?_, parts, again, once, ?_⟩
    · refine Classical.byContradiction fun clear => ?_
      rw [← Definition.nodup_producers_iff names, parts, List.nodup_append] at clear
      exact (List.nodup_cons.1 clear.2.1).1 again
    · simp only [sourcesOf, sources]

/-- A catalog that has every rule of a definition under the label of its event, in order and with
the steps of its kind, and none in the place of another. -/
structure Lists (d : Definition) (c : Catalog) : Prop where
  rules : c.map CatalogEntry.rule = d.rules
  labels : ∀ e ∈ c, e.name.label = .ok e.label
  steps : c.map CatalogEntry.steps =
    d.triggers.map (fun _ => [.grantTokens, .logTrigger]) ++
      d.actions.map (fun _ => [.consumeTokens, .applyEffect, .logAction]) ++
      d.constraints.map fun _ => [.checkConstraint, .logConstraint]
  found : ∀ e ∈ c, c.find? e.label = some e
  stored : (Table.ofList (c.map fun e => (e.label, e))).entries = c.map fun e => (e.label, e)

theorem lists_of_entries {c : Catalog} (h : entries d.rules = .ok c)
    (distinct : (c.map CatalogEntry.label).Nodup) : Lists d c := by
  obtain ⟨rules, labels⟩ := entries_spec h
  refine ⟨rules, labels, ?_, fun e he => find?_mem distinct he, Table.entries_ofList ?_⟩
  · have chains : c.map CatalogEntry.steps =
        (c.map CatalogEntry.rule).map fun r => Step.chain r.kind := by
      rw [List.map_map]
      rfl
    rw [chains, rules, Definition.rules, List.map_append, List.map_append, List.map_map,
      List.map_map, List.map_map]
    rfl
  · have keys : Entries.keys (c.map fun e => (e.label, e)) = c.map CatalogEntry.label := by
      rw [Entries.keys, List.map_map]
      rfl
    rwa [keys]

/-- Collisions are detected exactly. A definition that is read from data is refused if and only if
two of its rules of one kind have names with the same normal form or one of them is named after a
gameplay event; no other events have the same label. What is reported is the first label that
several events have, with all that it comes from. Otherwise the catalog lists every rule. -/
theorem collisions_of_ofValue {reader : Reader} {v : Value}
    (h : Definition.ofValue reader v = .ok d) :
    ((∃ label sources, build d = .error (.collision label sources)) ↔ d.Clashes) ∧
    (∀ e, build d ≠ .error (.label e)) ∧
    (∀ r ∈ d.rules, ∀ r' ∈ d.rules, r.eventLabel = r'.eventLabel ↔
      r.kind = r'.kind ∧ normalize r.name = normalize r'.name) ∧
    (∀ r ∈ d.rules, ∀ g : GameplayEvent, r.eventLabel = g.label ↔
      (r.kind = .trigger ∧ normalize r.name = .ok "FIRED" ∧ g = .triggerFired) ∨
      (r.kind = .action ∧ normalize r.name = .ok "COST_PAID" ∧ g = .actionCostPaid)) ∧
    (∀ g g' : GameplayEvent, g.label = g'.label → g = g') ∧
    (∀ label sources, build d = .error (.collision label sources) →
      (∃ before after, d.producers.map Prod.fst = before ++ label :: after ∧ label ∈ after ∧
        ∀ l ∈ before, (d.producers.map Prod.fst).count l = 1) ∧
      sources = (d.producers.filter fun x => x.1 == label).map Prod.snd) ∧
    (∀ c, build d = .ok c → Lists d c) := by
  have names (r : Rule) (hr : r ∈ d.rules) : hasLetterOrDigit r.name = true :=
    (Definition.legible_of_ofValue h hr).name
  refine ⟨?_, ?_, fun r hr r' hr' => Rule.eventLabel_eq_iff (names r hr) (names r' hr'),
    fun r hr => Rule.eventLabel_eq_label_iff (names r hr), fun _ _ => GameplayEvent.eq_of_label,
    ?_, ?_⟩
  · rcases build_eq names with ⟨label, _, _, clash, -, -, -, refused⟩ | ⟨clear, built⟩
    · exact ⟨fun _ => clash, fun _ => ⟨label, _, refused⟩⟩
    · refine ⟨?_, fun clash => absurd clash clear⟩
      rintro ⟨label, sources, refused⟩
      cases built.symm.trans refused
  · intro e refused
    rcases build_eq names with ⟨_, _, _, -, -, -, -, other⟩ | ⟨-, built⟩
    · cases other.symm.trans refused
    · cases built.symm.trans refused
  · intro label sources refused
    rcases build_eq names with ⟨first, before, after, -, parts, again, once, other⟩ | ⟨-, built⟩
    · cases other.symm.trans refused
      exact ⟨⟨before, after, parts, again, once⟩, rfl⟩
    · cases built.symm.trans refused
  · intro c built
    obtain ⟨hentries, hnone⟩ := build_spec built
    rw [collision?_eq_none_iff, labels_eq] at hnone
    exact lists_of_entries hentries (List.nodup_append.1 hnone).2.1

end Catalog

/-- Rules whose trigger is named after the firing of triggers, and whose actions differ in
punctuation and in case only. -/
def clashingRules : Value :=
  .object [
    ("name", .str "clashing"),
    ("triggers", .list [.object [("event", .str "fired")]]),
    ("actions", .list [.object [("name", .str "Move")], .object [("name", .str "move!")]])]

def Definition.clashing : Definition :=
  (Definition.ofValue .usual clashingRules).toOption.getD ⟨"", 2, [], [], [], []⟩

theorem ofValue_clashingRules : Definition.ofValue .usual clashingRules = .ok .clashing :=
  eq_ok_getD _ (by decide +kernel)

/-- The trigger comes first and is reported with the gameplay event. -/
theorem Catalog.collisions_of_clashing :
    Definition.clashing.Clashes ∧
      build .clashing = .error (.collision "TRIGGER_FIRED"
        ["gameplay event TRIGGER_FIRED", "trigger 'fired'"]) := by
  have refused : (match build .clashing with
      | .error (.collision label _) => label == "TRIGGER_FIRED"
      | _ => false) = true := by
    decide +kernel
  obtain ⟨clash, -, -, -, -, reported, -⟩ := collisions_of_ofValue ofValue_clashingRules
  split at refused
  · rename_i label sources hbuild
    rw [beq_iff_eq] at refused
    subst refused
    obtain ⟨-, hsources⟩ := reported _ _ hbuild
    refine ⟨clash.1 ⟨_, _, hbuild⟩, ?_⟩
    rw [hbuild, hsources]
    have known : (Definition.clashing.producers.filter fun x => x.1 == "TRIGGER_FIRED").map
        Prod.snd = ["gameplay event TRIGGER_FIRED", "trigger 'fired'"] := by
      decide +kernel
    rw [known]
  · cases refused

end TokenGate

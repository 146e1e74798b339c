import TokenGate.Proofs.Automaton.Collision
import TokenGate.Proofs.FirstSeen

/-!
# The graph of a compiled definition

The graph of a definition is the fixed topology and what the rules add to it: one state for each
token that they mention, with the two events of that token, and in the main phase one edge for each
rule. No two states have the same text and no two edges of a state the same label, so that nothing
is lost when the graph is written down state by state and edge by edge.
-/

namespace TokenGate

open Result

namespace Definition

/-- The tokens in the order in which the rules mention them: what triggers grant, what actions cost,
and what it costs to bypass constraints. -/
def mentions (d : Definition) : List String :=
  d.triggers.flatMap (fun t => t.grants.types) ++ d.actions.flatMap (fun a => a.costs.types) ++
    d.constraints.flatMap fun c => c.bypass.types

/-- Every token of the rules is listed once, where it is first mentioned. -/
theorem firstSeen_tokenTypes (d : Definition) : FirstSeen d.mentions d.tokenTypes := by
  have mentions : d.rules.flatMap (fun r => r.tokens.types) = d.mentions := by
    simp only [rules, Definition.mentions, List.flatMap_append, List.flatMap_map, Rule.tokens]
  rw [tokenTypes, mentions]
  exact FirstSeen.nil.foldl d.mentions

end Definition

namespace State

theorem text_phase_ne (p : Phase) (token : String) : (phase p).text ≠ (State.token token).text := by
  intro heq
  have ends : "_available".toList <:+ p.text.toList := by
    have parts : p.text.toList = token.toList ++ "_available".toList := by
      rw [← String.toList_append]
      exact congrArg _ heq
    exact parts ▸ List.suffix_append _ _
  cases p <;> exact absurd ends (by decide)

/-- Different phases and tokens have states with different texts. -/
theorem nodup_texts {tokens : List String} (h : tokens.Nodup) :
    ((Phase.all.map phase ++ tokens.map State.token).map text).Nodup := by
  rw [List.map_append, List.map_map, List.map_map, List.nodup_append]
  refine ⟨by decide, List.Nodup.map (fun t t' heq => ?_) h, ?_⟩
  · exact (String.append_left_inj "_available").1 heq
  · intro s hs s' hs'
    obtain ⟨p, -, rfl⟩ := List.mem_map.1 hs
    obtain ⟨t, -, rfl⟩ := List.mem_map.1 hs'
    exact text_phase_ne p t

end State

/-- The label of what an edge stands for. -/
def EdgeEvent.label : EdgeEvent → Except LabelError String
  | gameplay g => .ok g.label
  | rule entry => entry.name.label
  | token n => n.label

/-- The edge of a catalog entry: a constraint leads on to the executing phase, and any other rule
back to the main phase. -/
def CatalogEntry.edge (entry : CatalogEntry) : Edge :=
  ⟨entry.label, .rule entry, if entry.rule.kind = .constraint then .executing else .main⟩

namespace Automaton

/-- The graph of an automaton is the fixed topology together with what the rules of a definition add
to it. -/
structure Expands (d : Definition) (a : Automaton) : Prop where
  catalog : Catalog.build d = .ok a.catalog
  tokens : FirstSeen d.mentions a.tokenTypes
  states : a.states = Phase.all.map .phase ++ a.tokenTypes.map .token
  texts : (a.states.map State.text).Nodup
  /-- Every state is in the graph once, with the edges that leave it. -/
  graph : a.graph = a.states.map fun s => (s, a.edgesFrom s)
  phase : ∀ p, p ≠ .main →
    a.edgesFrom (.phase p) = p.edges.map fun (g, target) => ⟨g.label, .gameplay g, target⟩
  main : a.edgesFrom (.phase .main) =
    (Phase.main.edges.map fun (g, target) => ⟨g.label, .gameplay g, target⟩) ++
      a.catalog.map CatalogEntry.edge
  token : ∀ t ∈ a.tokenTypes, ∃ name, normalize t = .ok name ∧
    a.edgesFrom (.token t) =
      [⟨"SPEND_" ++ name, .token ⟨.spend, t⟩, .main⟩, ⟨"GAIN_" ++ name, .token ⟨.gain, t⟩, .main⟩]
  /-- No edge takes the place of another one when they are stored under their labels in order. -/
  stored : ∀ s, (Table.ofList ((a.edgesFrom s).map fun e => (e.label, e))).entries =
    (a.edgesFrom s).map fun e => (e.label, e)
  found : ∀ s, ∀ e ∈ a.edgesFrom s, a.edge? s e.label = some e
  label : ∀ s, ∀ e ∈ a.edgesFrom s, e.event.label = .ok e.label
  target : ∀ s, ∀ e ∈ a.edgesFrom s, .phase e.target ∈ a.states
  entry : ∀ s, ∀ e ∈ a.edgesFrom s, ∀ entry, e.entry? = some entry ↔
    s = .phase .main ∧ entry ∈ a.catalog ∧ e = entry.edge
  entryLabel : ∀ s, ∀ e ∈ a.edgesFrom s, ∀ entry, e.entry? = some entry →
    entry.label = e.label ∧ entry.name.label = .ok e.label

theorem tokenEdges_eq {t : String} {es : List Edge} (h : tokenEdges t = .ok es) :
    ∃ name, normalize t = .ok name ∧ es =
      [⟨"SPEND_" ++ name, .token ⟨.spend, t⟩, .main⟩, ⟨"GAIN_" ++ name, .token ⟨.gain, t⟩, .main⟩] := by
  simp only [tokenEdges, bind_eq_ok, pure_eq_ok] at h
  obtain ⟨spend, hspend, gain, hgain, rfl⟩ := h
  obtain ⟨name, hname, rfl⟩ := map_eq_ok.1 hspend
  obtain ⟨name', hname', rfl⟩ := map_eq_ok.1 hgain
  cases hname.symm.trans hname'
  exact ⟨name, hname, rfl⟩

theorem states_of_tokenStates {ts : List String} {states : List (State × List Edge)}
    (h : tokenStates ts = .ok states) : states.map Prod.fst = ts.map .token := by
  induction ts generalizing states with
  | nil =>
    cases h
    rfl
  | cons t rest ih =>
    simp only [tokenStates, bind_eq_ok, pure_eq_ok] at h
    obtain ⟨edges, -, states', hrest, rfl⟩ := h
    rw [List.map_cons, List.map_cons, ih hrest]

/-- A state that is in the graph once is left by the edges that it has there. -/
theorem edgesFrom_of_mem {a : Automaton} (h : a.states.Nodup) {s : State} {es : List Edge}
    (hs : (s, es) ∈ a.graph) : a.edgesFrom s = es := by
  have found : a.graph.find? (fun x => x.1 = s) = some (s, es) := find?_key_of_mem h hs
  simp only [edgesFrom, found]

variable {d : Definition} {a : Automaton}

theorem states_of_build (hb : build d = .ok a) :
    a.states = Phase.all.map .phase ++ a.tokenTypes.map .token := by
  obtain ⟨tokens, -, ht, hgraph, htypes, -⟩ := build_spec hb
  rw [states, hgraph, List.map_append, states_of_tokenStates ht, List.map_map, htypes]
  rfl

theorem nodup_texts_of_build (hb : build d = .ok a) : (a.states.map State.text).Nodup := by
  obtain ⟨-, -, -, -, htypes, -⟩ := build_spec hb
  rw [states_of_build hb, htypes]
  exact State.nodup_texts d.nodup_tokenTypes

theorem nodup_states_of_build (hb : build d = .ok a) : a.states.Nodup :=
  .of_map State.text (nodup_texts_of_build hb)

theorem edgesFrom_phase (hb : build d = .ok a) (p : Phase) :
    a.edgesFrom (.phase p) = phaseEdges a.catalog p := by
  obtain ⟨tokens, -, -, hgraph, -⟩ := build_spec hb
  refine edgesFrom_of_mem (nodup_states_of_build hb) ?_
  rw [hgraph]
  exact List.mem_append_left _ (List.mem_map_of_mem (f := fun p => (State.phase p, _)) p.mem_all)

theorem edgesFrom_token (hb : build d = .ok a) {t : String} (h : t ∈ a.tokenTypes) :
    tokenEdges t = .ok (a.edgesFrom (.token t)) := by
  obtain ⟨tokens, -, ht, hgraph, htypes, -⟩ := build_spec hb
  have listed : State.token t ∈ tokens.map Prod.fst := by
    rw [states_of_tokenStates ht, ← htypes]
    exact List.mem_map_of_mem h
  obtain ⟨⟨s, es⟩, hmem, rfl⟩ := List.mem_map.1 listed
  obtain ⟨t', -, hst, hes⟩ := tokenStates_spec ht hmem
  cases hst
  rw [hes, edgesFrom_of_mem (nodup_states_of_build hb)]
  rw [hgraph]
  exact List.mem_append_right _ hmem

/-- Only states of the graph have edges. -/
theorem mem_states_of_mem_edgesFrom {s : State} {e : Edge} (h : e ∈ a.edgesFrom s) :
    s ∈ a.states := by
  unfold edgesFrom at h
  split at h
  · rename_i x hx
    have hs : x.1 = s := by simpa using List.find?_some hx
    exact hs ▸ List.mem_map_of_mem (List.mem_of_find?_eq_some hx)
  · cases h

/-- No two edges that leave a state have the same label. -/
theorem nodup_labels (hb : build d = .ok a) (s : State) :
    ((a.edgesFrom s).map Edge.label).Nodup := by
  by_cases hs : s ∈ a.states
  · rw [states_of_build hb, List.mem_append] at hs
    rcases hs with hs | hs
    · obtain ⟨p, -, rfl⟩ := List.mem_map.1 hs
      have fixed : ((baseEdges p).map Edge.label).Nodup := by
        cases p <;> decide
      rw [edgesFrom_phase hb]
      cases p with
      | main =>
        obtain ⟨-, hc, -⟩ := build_spec hb
        have distinct := Catalog.collision?_eq_none_iff.1 (Catalog.build_spec hc).2
        rw [Catalog.labels_eq, List.nodup_append] at distinct
        have rules : (ruleEdges a.catalog).map Edge.label = a.catalog.map CatalogEntry.label := by
          rw [ruleEdges, List.map_map]
          rfl
        rw [phaseEdges, List.map_append, rules, List.nodup_append]
        refine ⟨fixed, distinct.2.1, fun l hl => distinct.2.2 l ?_⟩
        have gameplay : (baseEdges .main).map Edge.label ⊆
            GameplayEvent.all.map GameplayEvent.label := by decide
        exact gameplay hl
      | _ => exact fixed
    · obtain ⟨t, ht, rfl⟩ := List.mem_map.1 hs
      obtain ⟨name, -, hes⟩ := tokenEdges_eq (edgesFrom_token hb ht)
      have apart : "SPEND_" ++ name ≠ "GAIN_" ++ name := by
        intro heq
        have spend : EventKind.spend.Labels ("SPEND_" ++ name) := ⟨name, rfl⟩
        have gain : EventKind.gain.Labels ("SPEND_" ++ name) := ⟨name, heq⟩
        cases EventKind.eq_of_head (spend.head.symm.trans gain.head)
      simp [hes, apart]
  · have none : a.edgesFrom s = [] :=
      List.eq_nil_iff_forall_not_mem.2 fun e he => hs (mem_states_of_mem_edgesFrom he)
    rw [none]
    exact List.nodup_nil

theorem edge?_of_mem (hb : build d = .ok a) {s : State} {e : Edge} (he : e ∈ a.edgesFrom s) :
    a.edge? s e.label = some e :=
  find?_key_of_mem (nodup_labels hb s) he

theorem label_of_mem (hb : build d = .ok a) {s : State} {e : Edge} (he : e ∈ a.edgesFrom s) :
    e.event.label = .ok e.label := by
  obtain ⟨-, hc, -⟩ := build_spec hb
  rcases edge?_cases hb (edge?_of_mem hb he) with
    ⟨p, g, -, hevent, hl⟩ | ⟨entry, hentry, -, hevent, hl⟩ | ⟨t, n, -, hevent, -, hl⟩
  · rw [hevent, hl]
    rfl
  · rw [hevent, hl]
    exact (Catalog.entries_spec (Catalog.build_spec hc).1).2 entry hentry
  · rw [hevent]
    exact hl

theorem ruleEdges_eq (c : Catalog) : ruleEdges c = c.map CatalogEntry.edge := by
  refine List.map_congr_left fun entry _ => ?_
  unfold CatalogEntry.edge
  cases entry.rule.kind <;> rfl

/-- The edges of all entries leave the main phase. -/
theorem edge_mem_edgesFrom (hb : build d = .ok a) {entry : CatalogEntry} (h : entry ∈ a.catalog) :
    entry.edge ∈ a.edgesFrom (.phase .main) := by
  rw [edgesFrom_phase hb, phaseEdges, ruleEdges_eq]
  exact List.mem_append_right _ (List.mem_map_of_mem h)

/-- The event of a rule leads from the main phase along the edge of its entry. -/
theorem edge?_of_rule (hb : build d = .ok a) {r : Rule} (hr : r ∈ d.rules) {label : String}
    (hlabel : EventName.label ⟨.ofRule r.kind, r.name⟩ = .ok label) :
    a.edge? (.phase .main) label = some (CatalogEntry.edge ⟨label, r⟩) := by
  obtain ⟨-, hc, -⟩ := build_spec hb
  obtain ⟨rules, labels⟩ := Catalog.entries_spec (Catalog.build_spec hc).1
  rw [← rules] at hr
  obtain ⟨entry, hentry, rule⟩ := List.mem_map.1 hr
  have labelled := labels entry hentry
  rw [CatalogEntry.name, rule, hlabel] at labelled
  have same : entry = ⟨label, r⟩ := by rw [Except.ok.inj labelled, ← rule]
  have found := edge?_of_mem hb (edge_mem_edgesFrom hb hentry)
  rwa [same] at found

theorem entry?_of_mem (hb : build d = .ok a) {s : State} {e : Edge} (he : e ∈ a.edgesFrom s)
    (entry : CatalogEntry) :
    e.entry? = some entry ↔ s = .phase .main ∧ entry ∈ a.catalog ∧ e = entry.edge := by
  constructor
  · intro h
    have found := edge?_of_mem hb he
    rcases edge?_cases hb found with ⟨p, g, -, hevent, -⟩ | ⟨entry', hentry, rfl, hevent, hl⟩ |
      ⟨t, n, -, hevent, -⟩
    · rw [Edge.entry?, hevent] at h
      cases h
    · rw [Edge.entry?, hevent] at h
      cases h
      refine ⟨rfl, hentry, ?_⟩
      have same := edge?_of_mem hb (edge_mem_edgesFrom hb hentry)
      rw [show entry.edge.label = e.label from hl.symm, found] at same
      exact Option.some.inj same
    · rw [Edge.entry?, hevent] at h
      cases h
  · rintro ⟨-, -, rfl⟩
    rfl

/-- Compiling a definition yields the fixed topology and exactly what the rules add to it. -/
theorem expands_of_build (hb : build d = .ok a) : a.Expands d := by
  obtain ⟨tokens, hc, ht, hgraph, htypes, -⟩ := build_spec hb
  refine {
    catalog := hc
    tokens := htypes ▸ d.firstSeen_tokenTypes
    states := states_of_build hb
    texts := nodup_texts_of_build hb
    graph := ?graph
    phase := ?phase
    main := ?main
    token := fun t h => tokenEdges_eq (edgesFrom_token hb h)
    stored := ?stored
    found := fun s e he => edge?_of_mem hb he
    label := fun s e he => label_of_mem hb he
    target := ?target
    entry := fun s e he => entry?_of_mem hb he
    entryLabel := ?entryLabel }
  case graph =>
    have same (x : State × List Edge) (hx : x ∈ a.graph) : x = (x.1, a.edgesFrom x.1) := by
      rw [edgesFrom_of_mem (nodup_states_of_build hb) hx]
    rw [states, List.map_map]
    exact (List.map_id _).symm.trans (List.map_congr_left same)
  case phase =>
    intro p hp
    rw [edgesFrom_phase hb]
    cases p with
    | main => exact absurd rfl hp
    | _ => rfl
  case main =>
    rw [edgesFrom_phase hb, phaseEdges, ruleEdges_eq]
    rfl
  case stored =>
    intro s
    refine Table.entries_ofList ?_
    have keys : Entries.keys ((a.edgesFrom s).map fun e => (e.label, e)) =
        (a.edgesFrom s).map Edge.label := by
      rw [Entries.keys, List.map_map]
      rfl
    rw [keys]
    exact nodup_labels hb s
  case target =>
    intro s e _
    rw [states_of_build hb]
    exact List.mem_append_left _ (List.mem_map_of_mem e.target.mem_all)
  case entryLabel =>
    intro s e he entry hentry
    obtain ⟨-, hmem, rfl⟩ := (entry?_of_mem hb he entry).1 hentry
    exact ⟨rfl, (Catalog.entries_spec (Catalog.build_spec hc).1).2 entry hmem⟩

end Automaton

/-- The rules of a quarry, in which ore is dug up with some gold and smelted with coal, and a toll
may be paid in gold or iron. -/
def quarryRules : Value :=
  .object [
    ("name", .str "quarry"),
    ("triggers", .list [.object [("event", .str "dig"), ("grants", .str "gold ore ore")]]),
    ("actions", .list [.object [("name", .str "smelt"), ("costs", .str "ore coal")]]),
    ("constraints", .list [.object [
      ("name", .str "toll"),
      ("condition", .str "turn > 1"),
      ("bypass_cost", .str "iron gold")]])]

def Definition.quarry : Definition :=
  (Definition.ofValue .usual quarryRules).toOption.getD ⟨"", 2, [], [], [], []⟩

/-- The tokens come in the order in which trigger, action and constraint mention them, and their
three rules come after the fixed events of the main phase. -/
theorem Automaton.quarry_expands :
    ∃ a, build .quarry = .ok a ∧ a.Expands .quarry ∧
      a.states.map State.text =
        ["setup", "main", "selecting", "moving", "validating", "executing", "checking_win", "end",
          "gold_available", "ore_available", "coal_available", "iron_available"] ∧
      (a.edgesFrom (.phase .main)).map (fun e => (e.label, e.target.text)) =
        [("SELECT_PIECE", "selecting"), ("MOVE_PIECE", "moving"), ("VALIDATE_MOVE", "validating"),
          ("EXECUTE_MOVE", "executing"), ("CHECK_WIN", "checking_win"), ("NEXT_TURN", "main"),
          ("TRIGGER_DIG", "main"), ("ACTION_SMELT", "main"), ("CONSTRAINT_TOLL", "executing")] := by
  have built : (build .quarry).toOption.map (fun a => (a.tokenTypes,
      a.catalog.map fun entry => (entry.label, entry.rule.kind))) =
      some (["gold", "ore", "coal", "iron"], [("TRIGGER_DIG", .trigger), ("ACTION_SMELT", .action),
        ("CONSTRAINT_TOLL", .constraint)]) := by
    decide +kernel
  obtain ⟨a, ha, heq⟩ := Option.map_eq_some_iff.1 built
  obtain ⟨tokens, catalog⟩ := Prod.mk.inj heq
  have expands := expands_of_build (toOption_eq_some.1 ha)
  refine ⟨a, toOption_eq_some.1 ha, expands, ?_, ?_⟩
  · rw [expands.states, tokens]
    decide
  · have rules : (a.catalog.map CatalogEntry.edge).map (fun e => (e.label, e.target.text)) =
        (a.catalog.map fun entry => (entry.label, entry.rule.kind)).map fun (label, kind) =>
          (label, if kind = .constraint then "executing" else "main") := by
      rw [List.map_map, List.map_map]
      refine List.map_congr_left fun entry _ => ?_
      simp only [Function.comp_apply, CatalogEntry.edge, Prod.mk.injEq, true_and]
      split <;> rfl
    rw [expands.main, List.map_append, rules, catalog]
    decide

end TokenGate

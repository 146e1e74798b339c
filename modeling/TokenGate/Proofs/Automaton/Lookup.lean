import TokenGate.Automaton
import TokenGate.Proofs.Result
import Mathlib.Data.List.Nodup
import TokenGate.Proofs.FirstSeen

/-!
# Edges and the catalog

In a compiled automaton every label stands for one thing only. An edge, in whatever state it is
found, therefore carries exactly what the catalog has under the label of the event: the rule of
that label, or nothing if the label is that of a gameplay event or of a token.
-/

namespace TokenGate

open Result

/-- Where no two items have the same key, every item is found by its own. -/
theorem find?_key_of_mem {α κ : Type} [DecidableEq κ] {key : α → κ} {items : List α}
    (h : (items.map key).Nodup) {x : α} (hx : x ∈ items) :
    items.find? (fun y => key y == key x) = some x := by
  induction items with
  | nil => cases hx
  | cons y rest ih =>
    rw [List.map_cons, List.nodup_cons] at h
    rw [List.find?_cons]
    rcases List.mem_cons.1 hx with rfl | hx
    · simp
    · have other : (key y == key x) = false := by
        rw [beq_eq_false_iff_ne]
        intro heq
        exact h.1 (heq ▸ List.mem_map_of_mem hx)
      rw [other]
      exact ih h.2 hx

/-- A gameplay event is found by its label. -/
theorem GameplayEvent.find?_label (g : GameplayEvent) :
    all.find? (fun x => x.label == g.label) = some g := by
  cases g <;> decide

theorem GameplayEvent.eq_of_label {g g' : GameplayEvent} (h : g.label = g'.label) : g = g' := by
  have found := find?_label g
  rw [h, find?_label g'] at found
  exact (Option.some.inj found).symm

/-- The first letter of a label tells what kind of event it is. -/
theorem EventKind.eq_of_head {k k' : EventKind}
    (h : k.text.toList.head? = k'.text.toList.head?) : k = k' := by
  cases k <;> cases k' <;> first | rfl | exact absurd h (by decide)

theorem EventKind.ofRule_ne (k : RuleKind) : ofRule k ≠ .spend ∧ ofRule k ≠ .gain := by
  cases k <;> exact ⟨nofun, nofun⟩

/-- A label as the events of a kind have it: the word for the kind comes first. -/
def EventKind.Labels (k : EventKind) (label : String) : Prop :=
  ∃ rest, label = k.text ++ "_" ++ rest

theorem EventKind.Labels.isPrefix {k : EventKind} {label : String} (h : k.Labels label) :
    (k.text ++ "_").toList.isPrefixOf label.toList = true := by
  obtain ⟨rest, rfl⟩ := h
  have parts : (k.text ++ "_" ++ rest).toList = (k.text ++ "_").toList ++ rest.toList :=
    String.toList_append
  rw [parts, List.isPrefixOf_iff_prefix]
  exact List.prefix_append _ _

theorem EventKind.Labels.head {k : EventKind} {label : String} (h : k.Labels label) :
    label.toList.head? = k.text.toList.head? := by
  obtain ⟨rest, rfl⟩ := h
  simp only [String.toList_append, List.append_assoc]
  cases k <;> rfl

theorem EventName.labels_label {n : EventName} {l : String} (h : n.label = .ok l) :
    n.kind.Labels l := by
  obtain ⟨s, -, rfl⟩ := map_eq_ok.1 h
  exact ⟨s, rfl⟩

theorem EventName.head_label {n : EventName} {l : String} (h : n.label = .ok l) :
    l.toList.head? = n.kind.text.toList.head? :=
  (labels_label h).head

namespace Catalog

theorem label_of_entry {r : Rule} {e : CatalogEntry} (h : entry r = .ok e) :
    EventName.label ⟨.ofRule r.kind, r.name⟩ = .ok e.label ∧ e.rule = r := by
  obtain ⟨l, hl, rfl⟩ := map_eq_ok.1 h
  exact ⟨hl, rfl⟩

/-- The entries of a list of rules are labelled by these rules, in order. -/
theorem entries_spec {rs : List Rule} {c : Catalog} (h : entries rs = .ok c) :
    c.map CatalogEntry.rule = rs ∧ ∀ e ∈ c, e.name.label = .ok e.label := by
  induction rs generalizing c with
  | nil =>
    cases h
    exact ⟨rfl, fun e he => absurd he List.not_mem_nil⟩
  | cons r rest ih =>
    simp only [entries, bind_eq_ok, pure_eq_ok] at h
    obtain ⟨e, he, c', hrest, rfl⟩ := h
    obtain ⟨hl, rfl⟩ := label_of_entry he
    obtain ⟨hrules, hlabels⟩ := ih hrest
    refine ⟨by rw [List.map_cons, hrules], ?_⟩
    intro x hx
    rcases List.mem_cons.1 hx with rfl | hx
    · exact hl
    · exact hlabels x hx

theorem build_spec {d : Definition} {c : Catalog} (h : build d = .ok c) :
    entries d.rules = .ok c ∧ c.collision? = none := by
  simp only [build] at h
  split at h
  · cases h
  · split at h
    · cases h
    · cases h
      exact ⟨‹_›, ‹_›⟩

/-- A label has as many sources as it occurs among the labels. -/
theorem length_sourcesOf (c : Catalog) (label : String) :
    (c.sourcesOf label).length = (c.sources.map Prod.fst).count label := by
  rw [sourcesOf, List.length_map, List.count_eq_countP, List.countP_map,
    List.countP_eq_length_filter]
  rfl

/-- There is no collision exactly if no label has two sources. -/
theorem collision?_eq_none_iff {c : Catalog} :
    c.collision? = none ↔ (c.sources.map Prod.fst).Nodup := by
  rw [collision?, List.find?_eq_none, List.nodup_iff_count_le_one]
  simp only [length_sourcesOf, decide_eq_true_eq, Nat.not_lt]
  constructor
  · intro h label
    by_cases hl : label ∈ c.sources.map Prod.fst
    · exact h label hl
    · rw [List.count_eq_zero_of_not_mem hl]
      exact Nat.zero_le 1
  · exact fun h label _ => h label

theorem labels_eq (c : Catalog) :
    c.sources.map Prod.fst =
      GameplayEvent.all.map GameplayEvent.label ++ c.map CatalogEntry.label := by
  simp only [sources, List.map_append, List.map_map]
  rfl

theorem find?_mem {c : Catalog} (h : (c.map CatalogEntry.label).Nodup) {e : CatalogEntry}
    (he : e ∈ c) : c.find? e.label = some e :=
  find?_key_of_mem h he

theorem find?_eq_none_of {c : Catalog} {label : String}
    (h : ∀ e ∈ c, e.label ≠ label) : c.find? label = none := by
  rw [find?, List.find?_eq_none]
  intro e he
  simpa using h e he

end Catalog

namespace Automaton

/-- What a compiled automaton is made of. -/
theorem build_spec {d : Definition} {a : Automaton} (h : build d = .ok a) :
    ∃ tokens, Catalog.build d = .ok a.catalog ∧ tokenStates d.tokenTypes = .ok tokens ∧
      a.graph = Phase.all.map (fun p => (.phase p, phaseEdges a.catalog p)) ++ tokens ∧
      a.tokenTypes = d.tokenTypes ∧ a.definition = d := by
  simp only [build, bind_eq_ok, mapError_eq_ok, pure_eq_ok] at h
  obtain ⟨c, hc, tokens, ht, rfl⟩ := h
  exact ⟨tokens, hc, ht, rfl, rfl, rfl⟩

theorem tokenEdges_spec {t : String} {es : List Edge} (h : tokenEdges t = .ok es) {e : Edge}
    (he : e ∈ es) :
    ∃ n : EventName, (n.kind = .spend ∨ n.kind = .gain) ∧ n.label = .ok e.label ∧
      e.event = .token n := by
  simp only [tokenEdges, bind_eq_ok, pure_eq_ok] at h
  obtain ⟨spend, hs, gain, hg, rfl⟩ := h
  rcases List.mem_cons.1 he with rfl | he
  · exact ⟨_, .inl rfl, hs, rfl⟩
  · rw [List.mem_singleton] at he
    subst he
    exact ⟨_, .inr rfl, hg, rfl⟩

theorem tokenStates_spec {ts : List String} {states : List (State × List Edge)}
    (h : tokenStates ts = .ok states) {s : State} {es : List Edge} (hs : (s, es) ∈ states) :
    ∃ t ∈ ts, s = .token t ∧ tokenEdges t = .ok es := by
  induction ts generalizing states with
  | nil =>
    cases h
    cases hs
  | cons t rest ih =>
    simp only [tokenStates, bind_eq_ok, pure_eq_ok] at h
    obtain ⟨edges, ht, states', hrest, rfl⟩ := h
    rcases List.mem_cons.1 hs with heq | hs
    · cases heq
      exact ⟨t, List.mem_cons_self, rfl, ht⟩
    · obtain ⟨t', ht', hst, hes⟩ := ih hrest hs
      exact ⟨t', List.mem_cons_of_mem _ ht', hst, hes⟩

theorem edge?_spec {a : Automaton} {s : State} {label : String} {edge : Edge}
    (h : a.edge? s label = some edge) :
    edge.label = label ∧ ∃ es, (s, es) ∈ a.graph ∧ edge ∈ es := by
  simp only [edge?, edgesFrom] at h
  refine ⟨by simpa using List.find?_some h, ?_⟩
  split at h
  · rename_i x hx
    have hs : x.1 = s := by simpa using List.find?_some hx
    exact ⟨x.2, hs ▸ List.mem_of_find?_eq_some hx, List.mem_of_find?_eq_some h⟩
  · cases h

/-- A rule that an event is bound to in some state. -/
def Binds (a : Automaton) (r : Rule) : Prop :=
  ∃ state label edge entry,
    a.edge? state label = some edge ∧ edge.entry? = some entry ∧ entry.rule = r

/-- Where an edge is found: among the fixed edges of a phase, among those of the rules in the main
phase, or in the state of a token. -/
theorem edge?_cases {d : Definition} {a : Automaton} (hb : build d = .ok a) {s : State}
    {label : String} {edge : Edge} (h : a.edge? s label = some edge) :
    (∃ p g, s = .phase p ∧ edge.event = .gameplay g ∧ label = GameplayEvent.label g) ∨
    (∃ entry ∈ a.catalog, s = .phase .main ∧ edge.event = .rule entry ∧ label = entry.label) ∨
    (∃ t, ∃ n : EventName, s = .token t ∧ edge.event = .token n ∧
      (n.kind = .spend ∨ n.kind = .gain) ∧ n.label = .ok label) := by
  obtain ⟨tokens, -, ht, hgraph, -, -⟩ := build_spec hb
  obtain ⟨rfl, es, hes, hedge⟩ := edge?_spec h
  have base {p : Phase} (hp : edge ∈ baseEdges p) :
      ∃ g, edge.event = .gameplay g ∧ edge.label = GameplayEvent.label g := by
    obtain ⟨⟨g, target⟩, -, rfl⟩ := List.mem_map.1 hp
    exact ⟨g, rfl, rfl⟩
  rw [hgraph, List.mem_append] at hes
  rcases hes with hes | hes
  · obtain ⟨p, -, hp⟩ := List.mem_map.1 hes
    cases hp
    cases p with
    | main =>
      rcases List.mem_append.1 hedge with hedge | hedge
      · obtain ⟨g, hg⟩ := base hedge
        exact .inl ⟨.main, g, rfl, hg⟩
      · obtain ⟨e, he, rfl⟩ := List.mem_map.1 hedge
        exact .inr (.inl ⟨e, he, rfl, rfl, rfl⟩)
    | _ =>
      obtain ⟨g, hg⟩ := base hedge
      exact .inl ⟨_, g, rfl, hg⟩
  · obtain ⟨t, -, hst, hes⟩ := tokenStates_spec ht hes
    obtain ⟨n, hkind, hlabel, hevent⟩ := tokenEdges_spec hes hedge
    exact .inr (.inr ⟨t, n, hst, hevent, hkind, hlabel⟩)

/-- No rule has the label of a gameplay event. -/
theorem label_ne_of_mem {d : Definition} {a : Automaton} (hb : build d = .ok a)
    {entry : CatalogEntry} (he : entry ∈ a.catalog) (g : GameplayEvent) :
    entry.label ≠ GameplayEvent.label g := by
  obtain ⟨-, hc, -⟩ := build_spec hb
  have distinct := Catalog.collision?_eq_none_iff.1 (Catalog.build_spec hc).2
  rw [Catalog.labels_eq, List.nodup_append] at distinct
  intro heq
  exact distinct.2.2 _ (List.mem_map_of_mem (GameplayEvent.mem_all g)) _ (List.mem_map_of_mem he)
    heq.symm

/-- No rule has a label as the events of tokens have them. -/
theorem kind_ne_of_mem {d : Definition} {a : Automaton} (hb : build d = .ok a)
    {entry : CatalogEntry} (he : entry ∈ a.catalog) {k : EventKind} (hk : k = .spend ∨ k = .gain) :
    entry.label.toList.head? ≠ k.text.toList.head? := by
  obtain ⟨-, hc, -⟩ := build_spec hb
  have labelled := (Catalog.entries_spec (Catalog.build_spec hc).1).2 entry he
  intro heq
  have same : EventKind.ofRule entry.rule.kind = k :=
    EventKind.eq_of_head ((EventName.head_label labelled).symm.trans heq)
  obtain ⟨notSpend, notGain⟩ := EventKind.ofRule_ne entry.rule.kind
  rcases hk with rfl | rfl
  · exact notSpend same
  · exact notGain same

/-- An edge carries what the catalog has under the label that it was found by. -/
theorem entry?_of_edge? {d : Definition} {a : Automaton} (hb : build d = .ok a) {s : State}
    {label : String} {edge : Edge} (h : a.edge? s label = some edge) :
    edge.entry? = a.catalog.find? label := by
  obtain ⟨-, hc, -⟩ := build_spec hb
  have distinct := Catalog.collision?_eq_none_iff.1 (Catalog.build_spec hc).2
  rw [Catalog.labels_eq, List.nodup_append] at distinct
  rcases edge?_cases hb h with ⟨p, g, -, hevent, rfl⟩ | ⟨entry, he, -, hevent, rfl⟩ |
    ⟨t, n, -, hevent, hkind, hlabel⟩
  · rw [Edge.entry?, hevent]
    exact (Catalog.find?_eq_none_of fun e he => label_ne_of_mem hb he g).symm
  · rw [Edge.entry?, hevent]
    exact (Catalog.find?_mem distinct.2.1 he).symm
  · rw [Edge.entry?, hevent]
    refine (Catalog.find?_eq_none_of fun e he hl => ?_).symm
    refine kind_ne_of_mem hb he hkind ?_
    rw [hl, EventName.head_label hlabel]

/-- A gameplay event leads along its own edges only. -/
theorem event_of_edge? {d : Definition} {a : Automaton} (hb : build d = .ok a) {p : Phase}
    {label : String} {edge : Edge} (h : a.edge? (.phase p) label = some edge) (g : GameplayEvent) :
    edge.event = .gameplay g ↔ label = GameplayEvent.label g := by
  rcases edge?_cases hb h with ⟨p', g', -, hevent, rfl⟩ | ⟨entry, he, -, hevent, rfl⟩ |
    ⟨t, n, hs, -⟩
  · rw [hevent, EdgeEvent.gameplay.injEq]
    exact ⟨congrArg _, GameplayEvent.eq_of_label⟩
  · rw [hevent]
    exact ⟨nofun, fun heq => absurd heq (label_ne_of_mem hb he g)⟩
  · cases hs

/-- Events are bound to the rules of the definition. -/
theorem mem_rules_of_binds {d : Definition} {a : Automaton} (hb : build d = .ok a) {r : Rule}
    (h : a.Binds r) : r ∈ d.rules := by
  obtain ⟨state, label, edge, entry, hedge, hentry, rfl⟩ := h
  obtain ⟨tokens, hc, -⟩ := build_spec hb
  rw [entry?_of_edge? hb hedge] at hentry
  rw [← (Catalog.entries_spec (Catalog.build_spec hc).1).1]
  exact List.mem_map_of_mem (List.mem_of_find?_eq_some hentry)

end Automaton

namespace Definition

/-- No token is mentioned twice. -/
theorem nodup_tokenTypes (d : Definition) : d.tokenTypes.Nodup :=
  FirstSeen.nodup_foldl_distinct List.nodup_nil

/-- The tokens of a definition are those of its rules. -/
theorem mem_tokenTypes {d : Definition} {t : String} :
    t ∈ d.tokenTypes ↔ ∃ r ∈ d.rules, t ∈ r.tokens.types := by
  rw [tokenTypes, FirstSeen.mem_foldl_distinct, List.mem_flatMap]
  simp

end Definition
end TokenGate

import Mathlib.Data.List.Forall2
import TokenGate.Context
import TokenGate.Proofs.Data
import TokenGate.Proofs.Json.RoundTrip

/-!
# What the digest of a snapshot is taken of

The canonical text of discrete data says everything about it but the order of the fields in
objects: it is read back as the data in order, and data in order is equal exactly if the data is
alike. So two snapshots have the same text exactly if they tell the same state, turn, balances,
history, game data and effects, whatever the order in which tokens were registered and game data
was stored.
-/

namespace TokenGate

open Value

/-- Discrete values have the same canonical text exactly if they are alike. -/
theorem Json.canonical_eq_iff {v w : Value} (hv : v.Discrete) (hw : w.Discrete) :
    canonical v = canonical w ↔ v.Alike w := by
  rw [← sorted_eq_iff hv hw]
  constructor
  · intro h
    have read := read?_render (discrete_sorted hv)
    have read' := read?_render (discrete_sorted hw)
    rw [canonical, canonical] at h
    rw [h, read'] at read
    exact (Option.some.inj read).symm
  · intro h
    rw [canonical, canonical, h]

namespace Value

theorem alike_str_iff {text other : String} : (str text).Alike (str other) ↔ text = other := by
  constructor
  · intro h
    cases h
    rfl
  · rintro rfl
    exact .str text

theorem alike_list_iff {items others : List Value} :
    (list items).Alike (list others) ↔ AlikeItems items others := by
  constructor
  · intro h
    cases h with
    | list same => exact same
  · exact .list

theorem alike_object_iff {fields others : Fields} :
    (object fields).Alike (object others) ↔ AlikeFields fields others := by
  constructor
  · intro h
    cases h with
    | object same => exact same
  · exact .object

theorem alikeItems_iff {items others : List Value} :
    AlikeItems items others ↔ List.Forall₂ Alike items others := by
  constructor
  · intro h
    induction items generalizing others with
    | nil =>
      cases h
      exact .nil
    | cons v rest ih =>
      cases h with
      | cons first more => exact .cons first (ih more)
  · intro h
    induction h with
    | nil => exact .nil
    | cons first _ ih => exact .cons first ih

/-- Where the fields of two objects come under the same keys in the same order, they are compared
one by one. -/
theorem alikeFields_cons_iff {key : String} {v w : Value} {rest others : Fields}
    (h : key ∉ Entries.keys others) :
    AlikeFields ((key, v) :: rest) ((key, w) :: others) ↔ v.Alike w ∧ AlikeFields rest others := by
  constructor
  · intro alike
    generalize hothers : (key, w) :: others = all at alike
    cases alike with
    | @cons _ _ w' _ before after first more =>
      cases before with
      | nil =>
        cases hothers
        exact ⟨first, more⟩
      | cons field before =>
        rw [List.cons_append, List.cons.injEq] at hothers
        have member : (key, w') ∈ others := by
          rw [hothers.2]
          exact List.mem_append_right _ List.mem_cons_self
        exact absurd (List.mem_map_of_mem (f := Prod.fst) member) h
  · rintro ⟨first, more⟩
    exact @AlikeFields.cons key v w rest [] others first more

theorem alikeFields_singleton_iff {key : String} {v w : Value} :
    AlikeFields [(key, v)] [(key, w)] ↔ v.Alike w := by
  rw [alikeFields_cons_iff List.not_mem_nil]
  exact and_iff_left .nil

/-- Objects that hold counts are alike exactly if they hold the same ones. -/
theorem alikeFields_counts_iff {counts others : List (String × Nat)} :
    AlikeFields (counts.map fun (t, k) => (t, int k)) (others.map fun (t, k) => (t, int k)) ↔
      counts.Perm others := by
  constructor
  · intro h
    induction counts generalizing others with
    | nil =>
      generalize hothers : others.map (fun (t, k) => (t, int (k : Nat))) = all at h
      cases h
      rw [List.map_eq_nil_iff.1 hothers]
    | cons count rest ih =>
      obtain ⟨t, k⟩ := count
      generalize hothers : others.map (fun (t, k) => (t, int (k : Nat))) = all at h
      cases h with
      | cons first more =>
        obtain ⟨before, middle, rfl, rfl, hmiddle⟩ := List.map_eq_append_iff.1 hothers
        obtain ⟨⟨t', k'⟩, after, rfl, same, rfl⟩ := List.map_eq_cons_iff.1 hmiddle
        cases same
        cases first
        rw [← List.map_append] at more
        exact ((ih more).cons _).trans List.perm_middle.symm
  · intro h
    induction counts generalizing others with
    | nil =>
      rw [← h.nil_eq]
      exact .nil
    | cons count rest ih =>
      obtain ⟨t, k⟩ := count
      obtain ⟨before, after, rfl⟩ := List.append_of_mem (h.mem_iff.1 List.mem_cons_self)
      have more := ih (h.trans List.perm_middle).cons_inv
      rw [List.map_append] at more ⊢
      exact .cons (.int k) more

end Value

theorem Event.alike_iff {s s' : Edits} {e e' : Event} :
    (e.toValue s).Alike (e'.toValue s') ↔
      e.type = e'.type ∧ (e.payload.read s.view).Alike (e'.payload.read s'.view) := by
  rw [toValue, toValue, alike_object_iff, alikeFields_cons_iff (by simp), alike_str_iff,
    alikeFields_singleton_iff]

namespace Snapshot

/-- Two snapshots tell the same: balances in any order, and data that is alike. -/
structure Matches (s s' : Edits) (n n' : Snapshot) : Prop where
  state : n.state = n'.state
  turn : n.turn.Alike n'.turn
  ledger : n.ledger.Perm n'.ledger
  history : List.Forall₂
    (fun e e' => e.type = e'.type ∧ (e.payload.read s.view).Alike (e'.payload.read s'.view))
    n.history n'.history
  game : (n.game.read s.view).Alike (n'.game.read s'.view)
  applied : List.Forall₂ Value.Alike n.applied n'.applied

variable {s s' : Edits} {n n' : Snapshot}

theorem alike_iff_matches : (n.toValue s).Alike (n'.toValue s') ↔ Matches s s' n n' := by
  have history : (Value.list (n.history.map (Event.toValue s))).Alike
      (.list (n'.history.map (Event.toValue s'))) ↔ List.Forall₂
        (fun e e' => e.type = e'.type ∧ (e.payload.read s.view).Alike (e'.payload.read s'.view))
        n.history n'.history := by
    rw [alike_list_iff, alikeItems_iff, List.forall₂_map_left_iff, List.forall₂_map_right_iff]
    simp only [Event.alike_iff]
  rw [toValue, toValue, alike_object_iff, alikeFields_cons_iff (by simp),
    alikeFields_cons_iff (by simp), alikeFields_cons_iff (by simp),
    alikeFields_cons_iff (by simp), alikeFields_cons_iff (by simp), alikeFields_singleton_iff,
    alike_str_iff, alike_object_iff, alikeFields_counts_iff, history, alike_list_iff,
    alikeItems_iff]
  constructor
  · rintro ⟨state, turn, ledger, history, game, applied⟩
    exact ⟨state, turn, ledger, history, game, applied⟩
  · rintro ⟨state, turn, ledger, history, game, applied⟩
    exact ⟨state, turn, ledger, history, game, applied⟩

/-- Snapshots of discrete data have the same text exactly if they are alike as data, and that is if
they tell the same. The digest is the hash of this text, so that their digests then are the same as
well. -/
theorem canonicalText_eq_iff (h : (n.toValue s).Discrete) (h' : (n'.toValue s').Discrete) :
    (n.canonicalText s = n'.canonicalText s' ↔ (n.toValue s).Alike (n'.toValue s')) ∧
      ((n.toValue s).Alike (n'.toValue s') ↔ Matches s s' n n') ∧
      n.digest s = Sha256.hashText (n.canonicalText s) ∧
      n'.digest s' = Sha256.hashText (n'.canonicalText s') ∧
      (Matches s s' n n' → n.digest s = n'.digest s') := by
  have text : n.canonicalText s = n'.canonicalText s' ↔ (n.toValue s).Alike (n'.toValue s') :=
    Json.canonical_eq_iff h h'
  refine ⟨text, alike_iff_matches, rfl, rfl, ?_⟩
  intro same
  rw [digest, digest, text.2 (alike_iff_matches.2 same)]

/-- A snapshot of a mine: the balances, the data of the game and what has been dug. -/
def mined (ledger : List (String × Nat)) (game dug : Fields) : Snapshot where
  state := "main"
  turn := .int 2
  ledger := ledger
  history := [⟨"TRIGGER_DIG", (Data.share 0 (.object dug)).1⟩]
  game := .object (Data.ownFields 1 game)
  applied := [.str "set_flag"]

/-- What is known of a mine whose name needs escapes of several kinds. -/
def mineData : Fields :=
  [("name", .str "the \"old\" shaft \\ 💎"), ("levels", .list [.int (-3), .bool true, .null])]

theorem canonicalText_mined :
    let first := mined [("gold", 1), ("ore", 0)] mineData [("depth", .int 1)]
    let second := mined [("ore", 0), ("gold", 1)] mineData.reverse [("depth", .int 1)]
    let third := mined [("gold", 1), ("ore", 0)] mineData [("depth", .bool true)]
    (first.toValue []).Discrete ∧ (second.toValue []).Discrete ∧ (third.toValue []).Discrete ∧
      first.canonicalText [] = second.canonicalText [] ∧ first.digest [] = second.digest [] ∧
      first.canonicalText [] ≠ third.canonicalText [] := by
  intro first second third
  have made (mark : Nat → Mark) (next : Nat) (x : Value) :
      (Data.mint mark next x).1.read (Edits.view []) = x := Data.read_mint (fun _ _ => rfl) next x
  have owned (game : Fields) :
      (Data.object (Data.ownFields 1 game)).read (Edits.view []) = .object game :=
    congrArg Value.object (Data.readFields_mint (fun _ _ => rfl) 0 game)
  have discrete (ledger : List (String × Nat)) (game dug : Fields)
      (hledger : (Value.object (ledger.map fun (t, k) => (t, .int k))).Discrete)
      (hgame : (Value.object game).Discrete) (hdug : (Value.object dug).Discrete) :
      ((mined ledger game dug).toValue []).Discrete := by
    simpa [mined, toValue, Event.toValue, Data.share, made, owned, Discrete, DiscreteItems,
      DiscreteFields] using ⟨hledger, hdug, hgame⟩
  have hfirst : (first.toValue []).Discrete := discrete _ _ _
    (by simp [Discrete, DiscreteFields])
    (by simp [mineData, Discrete, DiscreteFields, DiscreteItems])
    (by simp [Discrete, DiscreteFields])
  have hsecond : (second.toValue []).Discrete := discrete _ _ _
    (by simp [Discrete, DiscreteFields])
    (by simp [mineData, Discrete, DiscreteFields, DiscreteItems])
    (by simp [Discrete, DiscreteFields])
  have hthird : (third.toValue []).Discrete := discrete _ _ _
    (by simp [Discrete, DiscreteFields])
    (by simp [mineData, Discrete, DiscreteFields, DiscreteItems])
    (by simp [Discrete, DiscreteFields])
  have same : Matches [] [] first second := by
    refine ⟨rfl, .int 2, .swap .., .cons ⟨rfl, .refl _⟩ .nil, ?_, .cons (.str _) .nil⟩
    simp only [first, second, mined, owned]
    exact .object (@AlikeFields.cons "name" _ _ _ [("levels", _)] [] (.refl _)
      (@AlikeFields.cons "levels" _ _ _ [] [] (.refl _) .nil))
  have other : ¬ Matches [] [] first third := by
    intro matched
    cases matched.history with
    | cons event _ =>
      have payload := event.2
      simp only [Data.share, made, alike_object_iff, alikeFields_singleton_iff] at payload
      cases payload
  obtain ⟨text, matched, -, -, digests⟩ := canonicalText_eq_iff hfirst hsecond
  obtain ⟨text', matched', -⟩ := canonicalText_eq_iff hfirst hthird
  exact ⟨hfirst, hsecond, hthird, text.2 (matched.2 same), digests same,
    fun h => other (matched'.1 (text'.1 h))⟩

end Snapshot
end TokenGate

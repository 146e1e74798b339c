import TokenGate.Proofs.Table
import TokenGate.Token.Bag

/-!
# Bags that are read from token lists

Whatever a token list is given as, the bag that is read from it holds token names only, and each of
them at least once.
-/

namespace TokenGate

namespace TokenBag

/-- A bag holds token names only, and each of them at least once. -/
structure Sound (b : TokenBag) : Prop where
  named : ∀ t ∈ b.types, isTokenName t = true
  counted : ∀ e ∈ b.items, 0 < e.2

theorem sound_empty : empty.Sound := ⟨nofun, nofun⟩

theorem Sound.add {b : TokenBag} (h : b.Sound) {token : String} (ht : isTokenName token = true) :
    (b.add token).Sound := by
  refine ⟨fun t hmem => ?_, fun e he => ?_⟩
  · rw [types_add] at hmem
    split at hmem
    · exact h.named t hmem
    · rcases List.mem_append.1 hmem with hmem | hmem
      · exact h.named t hmem
      · rw [List.mem_singleton] at hmem
        rwa [hmem]
  · rcases Entries.mem_put he with rfl | he
    · exact Nat.succ_pos _
    · exact h.counted e he

theorem sound_of_collect {source : String} {parts : List Value} {b b' : TokenBag} (h : b.Sound)
    (hcollect : ofParts.collect source b parts = .ok b') : b'.Sound := by
  induction parts generalizing b with
  | nil =>
    cases hcollect
    exact h
  | cons part rest ih =>
    cases part with
    | str s =>
      simp only [ofParts.collect] at hcollect
      split at hcollect
      · rename_i hs
        exact ih (h.add hs) hcollect
      · cases hcollect
    | _ => cases hcollect

theorem sound_of_ofParts {source : String} {parts : List Value} {b : TokenBag}
    (h : ofParts source parts = .ok b) : b.Sound := by
  unfold ofParts at h
  split at h
  · cases h
  · exact sound_of_collect sound_empty h

theorem sound_of_parse {v : Value} {b : TokenBag} (h : parse v = .ok b) : b.Sound := by
  unfold parse at h
  split at h
  · cases h
    exact sound_empty
  · exact sound_of_ofParts h
  · split at h
    · exact sound_of_ofParts h
    · cases h

/-- A bag that is made of whole multiplicities, as every bag is that is read from a token list. -/
def Whole (b : TokenBag) : Prop :=
  ∃ counts : List (String × Int), ofCounts (counts.map fun e => (e.1, .int e.2)) = .ok b

theorem counted_of_collect {counts : List (String × Int)} {t : Table Nat} {b : TokenBag}
    (h : ∀ e ∈ t.entries, 0 < e.2)
    (hcollect : ofCounts.collect t (counts.map fun e => (e.1, .int e.2)) = .ok b) :
    ∀ e ∈ b.items, 0 < e.2 := by
  induction counts generalizing t with
  | nil =>
    cases hcollect
    exact h
  | cons count rest ih =>
    obtain ⟨token, n⟩ := count
    rw [List.map_cons, ofCounts.collect] at hcollect
    cases n with
    | negSucc n => cases hcollect
    | ofNat n =>
      refine ih (fun e he => ?_) hcollect
      split at he
      · exact h e he
      · rename_i nonzero
        rcases Entries.mem_put he with rfl | he
        · exact Nat.pos_of_ne_zero fun zero => nonzero (beq_iff_eq.2 zero)
        · exact h e he

theorem collect_of_counted {entries : List (String × Nat)} (h : ∀ e ∈ entries, 0 < e.2)
    (t : Table Nat) : ofCounts.collect t (entries.map fun e => (e.1, .int e.2)) =
      .ok ⟨entries.foldl (fun t e => t.put e.1 e.2) t⟩ := by
  induction entries generalizing t with
  | nil => rfl
  | cons e rest ih =>
    have positive : (e.2 == 0) = false := by
      have := h e List.mem_cons_self
      rw [beq_eq_false_iff_ne]
      omega
    rw [List.map_cons, ofCounts.collect, List.foldl_cons,
      ← ih fun x hx => h x (List.mem_cons_of_mem e hx)]
    simp only [Amount.ofValue?, Amount.ofInt, positive]
    rfl

/-- The bags that are made of whole multiplicities are those that hold each of their tokens. -/
theorem whole_iff_counted {b : TokenBag} : b.Whole ↔ ∀ e ∈ b.items, 0 < e.2 := by
  constructor
  · rintro ⟨counts, made⟩
    exact counted_of_collect (t := ∅) nofun made
  · intro counted
    refine ⟨b.items.map fun e => (e.1, (e.2 : Int)), ?_⟩
    have stored : Table.ofList b.items = b.counts := Table.ext (Table.entries_ofList b.counts.nodup)
    rw [List.map_map]
    exact (collect_of_counted counted ∅).trans (congrArg _ (congrArg _ stored))

end TokenBag
end TokenGate

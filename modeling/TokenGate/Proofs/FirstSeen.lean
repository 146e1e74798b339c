import Mathlib.Data.List.Nodup

/-!
# Lists without repetitions

What a list mentions, each item once and in the order in which it first occurs there. Whatever adds
an item at the end unless it is there already comes to such a list.
-/

namespace TokenGate

/-- The items of a list, each of them once, in the order in which they first occur there. -/
structure FirstSeen (mentions items : List String) : Prop where
  mem : ∀ t, t ∈ items ↔ t ∈ mentions
  ordered : items.Pairwise fun t t' => mentions.idxOf t < mentions.idxOf t'

namespace FirstSeen

variable {mentions items : List String}

theorem nil : FirstSeen [] [] := ⟨fun _ => Iff.rfl, .nil⟩

/-- One more mention adds an item at the end unless it has been seen. -/
theorem append_singleton (h : FirstSeen mentions items) (x : String) :
    FirstSeen (mentions ++ [x]) (if x ∈ items then items else items ++ [x]) := by
  have known {t : String} (ht : t ∈ items) : (mentions ++ [x]).idxOf t = mentions.idxOf t := by
    rw [List.idxOf_append, if_pos ((h.mem t).1 ht)]
  have ordered : items.Pairwise fun t t' =>
      (mentions ++ [x]).idxOf t < (mentions ++ [x]).idxOf t' := by
    refine h.ordered.imp_of_mem fun ht ht' lt => ?_
    rwa [known ht, known ht']
  by_cases hx : x ∈ items
  · rw [if_pos hx]
    refine ⟨fun t => ?_, ordered⟩
    rw [h.mem, List.mem_append, List.mem_singleton]
    constructor
    · exact .inl
    · rintro (ht | rfl)
      · exact ht
      · exact (h.mem _).1 hx
  · rw [if_neg hx]
    refine ⟨fun t => ?_, ?_⟩
    · rw [List.mem_append, List.mem_append, h.mem]
    · rw [List.pairwise_append]
      refine ⟨ordered, List.pairwise_singleton _ _, fun t ht t' ht' => ?_⟩
      rw [List.mem_singleton] at ht'
      subst ht'
      have seen : t ∈ mentions := (h.mem t).1 ht
      have new : t' ∉ mentions := fun hmem => hx ((h.mem t').2 hmem)
      rw [known ht, List.idxOf_append, if_neg new]
      have bound := List.idxOf_lt_length_of_mem seen
      omega

theorem foldl (h : FirstSeen mentions items) (rest : List String) :
    FirstSeen (mentions ++ rest)
      (rest.foldl (fun seen t => if t ∈ seen then seen else seen ++ [t]) items) := by
  induction rest generalizing mentions items with
  | nil => rwa [List.append_nil]
  | cons x rest ih =>
    have step := ih (h.append_singleton x)
    rwa [List.append_assoc, List.singleton_append] at step

theorem mem_foldl_distinct {tokens : List String} {seen : List String} {t : String} :
    t ∈ tokens.foldl (fun seen t => if t ∈ seen then seen else seen ++ [t]) seen ↔
      t ∈ seen ∨ t ∈ tokens := by
  induction tokens generalizing seen with
  | nil => simp
  | cons x rest ih =>
    rw [List.foldl_cons, ih]
    split
    · rename_i hx
      constructor
      · rintro (h | h)
        · exact .inl h
        · exact .inr (List.mem_cons_of_mem x h)
      · rintro (h | h)
        · exact .inl h
        · rcases List.mem_cons.1 h with rfl | h
          · exact .inl hx
          · exact .inr h
    · simp [or_assoc]

theorem nodup_foldl_distinct {tokens : List String} {seen : List String} (h : seen.Nodup) :
    (tokens.foldl (fun seen t => if t ∈ seen then seen else seen ++ [t]) seen).Nodup := by
  induction tokens generalizing seen with
  | nil => exact h
  | cons x rest ih =>
    rw [List.foldl_cons]
    split
    · exact ih h
    · rename_i hx
      refine ih (List.nodup_append.2 ⟨h, List.nodup_singleton x, ?_⟩)
      intro a ha b hb
      rw [List.mem_singleton] at hb
      rintro rfl
      exact hx (hb ▸ ha)

/-- Further mentions only add to what has been seen. -/
theorem prefix_foldl (items rest : List String) :
    items <+: rest.foldl (fun seen t => if t ∈ seen then seen else seen ++ [t]) items := by
  induction rest generalizing items with
  | nil => exact List.prefix_refl items
  | cons x rest ih =>
    rw [List.foldl_cons]
    split
    · exact ih items
    · exact (List.prefix_append items [x]).trans (ih _)

end FirstSeen

end TokenGate

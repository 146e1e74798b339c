import TokenGate.History

/-!
# Keeping histories to whole limits

Where the limit is a whole number, or there is none, every history can be kept to it.
-/

namespace TokenGate

/-- The limit is a whole number, or there is none. -/
def HistoryLimit.IsWhole : HistoryLimit → Prop
  | unlimited | atMost _ => True
  | double _ | other _ => False

/-- A history can be kept to a whole limit. -/
theorem HistoryLimit.IsWhole.keepLast {limit : HistoryLimit} (h : limit.IsWhole) {α : Type}
    (items : List α) : ∃ kept, limit.keepLast items = .ok kept := by
  cases limit with
  | unlimited => exact ⟨items, rfl⟩
  | atMost n => exact ⟨_, rfl⟩
  | double x => exact h.elim
  | other kind => exact h.elim

/-- What becomes of a history at a limit: what the limit keeps, or all of it if it fails. -/
def HistoryLimit.cut (limit : HistoryLimit) {α : Type} (items : List α) : List α :=
  (limit.keepLast items).toOption.getD items

/-- Cutting a history each time that it becomes longer leaves what cutting it once would. -/
theorem HistoryLimit.cut_cut_append {limit : HistoryLimit} (h : limit.IsWhole) {α : Type}
    (items : List α) (item : α) :
    limit.cut (limit.cut items ++ [item]) = limit.cut (items ++ [item]) := by
  cases limit with
  | unlimited => rfl
  | atMost n =>
    have cut_eq (l : List α) : (atMost n).cut l = l.drop (l.length - n.toNat) := rfl
    simp only [cut_eq]
    rw [← List.drop_append_of_le_length (Nat.sub_le _ _), List.drop_drop]
    congr 1
    simp only [List.length_drop, List.length_append, List.length_singleton]
    omega
  | double x => exact h.elim
  | other kind => exact h.elim

/-- Where there is room for an event at all, the latest one is kept. -/
theorem HistoryLimit.getLast?_cut {limit : HistoryLimit} (h : limit.IsWhole)
    (room : ∀ n, limit = .atMost n → 0 < n) {α : Type} (items : List α) (item : α) :
    (limit.cut (items ++ [item])).getLast? = some item := by
  cases limit with
  | unlimited => exact List.getLast?_concat
  | atMost n =>
    have positive := room n rfl
    have cut : (atMost n).cut (items ++ [item]) =
        (items ++ [item]).drop ((items ++ [item]).length - n.toNat) := rfl
    have short : (items ++ [item]).length - n.toNat ≤ items.length := by
      simp only [List.length_append, List.length_singleton]
      omega
    rw [cut, List.drop_append_of_le_length short]
    exact List.getLast?_concat
  | double x => exact h.elim
  | other kind => exact h.elim

end TokenGate

import TokenGate.Ledger
import TokenGate.Proofs.Token.Bag

/-!
# Payments

What paying does to the balances of a ledger. A payment is made only if every balance covers its
part of the cost, so no subtraction is cut off at zero, and each balance falls by exactly the
count of its token.
-/

namespace TokenGate.Ledger

theorem balance_mk_put (l : Ledger) (token other : String) (n : Nat) :
    balance ⟨l.balances.put token n⟩ other = if token = other then n else l.balance other := by
  simp only [balance, Table.get?_put]
  split <;> rfl

theorem balance_of_get? {l : Ledger} {token : String} {n : Nat}
    (h : l.balances.get? token = some n) : l.balance token = n := by
  rw [balance, h, Option.getD_some]

/-- Withdrawing covered amounts lowers the balance of each token by its own amount. -/
theorem balance_withdraw {entries : List (String × Nat)} {l l' : Ledger} (token : String)
    (distinct : (Entries.keys entries).Nodup) (covered : ∀ e ∈ entries, e.2 ≤ l.balance e.1)
    (h : l.withdraw entries = .ok l') :
    l'.balance token + (Entries.get? token entries).getD 0 = l.balance token := by
  induction entries generalizing l with
  | nil =>
    cases h
    rfl
  | cons e rest ih =>
    obtain ⟨k, n⟩ := e
    rw [Entries.keys_cons, List.nodup_cons] at distinct
    simp only [withdraw] at h
    split at h
    · rename_i b hb
      have enough : n ≤ b := by
        have := covered (k, n) List.mem_cons_self
        rwa [balance_of_get? hb] at this
      have others : ∀ e ∈ rest, e.2 ≤ balance ⟨l.balances.put k (b - n)⟩ e.1 := by
        intro e he
        have : k ≠ e.1 := by
          rintro rfl
          exact distinct.1 (List.mem_map.2 ⟨e, he, rfl⟩)
        rw [balance_mk_put, if_neg this]
        exact covered e (List.mem_cons_of_mem _ he)
      have after := ih distinct.2 others h
      rw [balance_mk_put] at after
      by_cases hk : k = token
      · subst hk
        have absent : Entries.get? k rest = none := Entries.get?_eq_none_iff.2 distinct.1
        simp only [absent, Option.getD_none, ↓reduceIte] at after
        simp only [Entries.get?, ↓reduceIte, Option.getD_some, balance_of_get? hb]
        omega
      · simpa only [Entries.get?, hk, ↓reduceIte] using after
    · cases h

/-- An amount is withdrawn of every token, unless one of them has no entry. -/
theorem withdraw_cases (entries : List (String × Nat)) (l : Ledger) :
    (∃ l', l.withdraw entries = .ok l') ∨
    (∃ e ∈ entries, l.balances.get? e.1 = none ∧ l.withdraw entries = .error (.noEntry e.1)) := by
  induction entries generalizing l with
  | nil => exact .inl ⟨l, rfl⟩
  | cons e rest ih =>
    obtain ⟨k, n⟩ := e
    simp only [withdraw]
    cases hk : l.balances.get? k with
    | none => exact .inr ⟨(k, n), List.mem_cons_self, hk, rfl⟩
    | some b =>
      rcases ih ⟨l.balances.put k (b - n)⟩ with hok | ⟨e, he, hget, hw⟩
      · exact .inl hok
      · refine .inr ⟨e, List.mem_cons_of_mem _ he, ?_, hw⟩
        rw [Table.get?_put] at hget
        split at hget
        · cases hget
        · exact hget

/-- A payment is made, or something is missing, or a token of the bag has no entry. -/
theorem pay_cases (l : Ledger) (b : TokenBag) :
    (∃ l', l.pay b = .ok l') ∨
    (l.missing b ≠ [] ∧ l.pay b = .error (.insufficient (l.missing b))) ∨
    (∃ token ∈ b.types, l.balances.get? token = none ∧ l.pay b = .error (.noEntry token)) := by
  unfold pay
  split
  · rcases l.withdraw_cases b.items with hok | ⟨e, he, hget, hw⟩
    · exact .inl hok
    · exact .inr (.inr ⟨e.1, List.mem_map_of_mem he, hget, hw⟩)
  · rename_i hne
    exact .inr (.inl ⟨hne, rfl⟩)

/-- What has been paid was covered. -/
theorem missing_of_pay {l l' : Ledger} {b : TokenBag} (h : l.pay b = .ok l') :
    l.missing b = [] := by
  rw [pay] at h
  split at h
  · assumption
  · cases h

/-- A bag that asks for each of its tokens is paid for, or something is missing: a token without an
entry is missing. -/
theorem pay_cases_of_counted (l : Ledger) {b : TokenBag} (h : ∀ e ∈ b.items, 0 < e.2) :
    (∃ l', l.pay b = .ok l') ∨
    (l.missing b ≠ [] ∧ l.pay b = .error (.insufficient (l.missing b))) := by
  rcases l.pay_cases b with hok | hlack | ⟨token, ht, hget, hpay⟩
  · exact .inl hok
  · exact .inr hlack
  · have covered : l.missing b = [] := by
      rw [pay] at hpay
      split at hpay
      · assumption
      · cases hpay
    obtain ⟨e, he, rfl⟩ := List.mem_map.1 ht
    have enough := (l.missing_eq_nil_iff b).1 covered e he
    have none : l.balance e.1 = 0 := by rw [balance, hget, Option.getD_none]
    have some := h e he
    omega

theorem pay_cases_of_sound (l : Ledger) {b : TokenBag} (h : b.Sound) :
    (∃ l', l.pay b = .ok l') ∨
    (l.missing b ≠ [] ∧ l.pay b = .error (.insufficient (l.missing b))) :=
  l.pay_cases_of_counted h.counted

/-- Paying for a bag lowers each balance by the count of its token. -/
theorem balance_pay {l l' : Ledger} {b : TokenBag} (h : l.pay b = .ok l') (token : String) :
    l'.balance token + b.count token = l.balance token := by
  have covered := missing_of_pay h
  rw [pay, covered] at h
  exact balance_withdraw token b.counts.nodup ((l.missing_eq_nil_iff b).1 covered) h

end TokenGate.Ledger

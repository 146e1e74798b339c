import TokenGate.Proofs.Ledger.Payment

/-!
# Entries of ledgers

A token that has an entry keeps it, whatever is granted or paid. Only a token without an entry can
stand in the way of a payment that is covered. No entries are added by payments, and by grants only
those of tokens that had none.
-/

namespace TokenGate.Ledger

/-- A token has an entry. -/
def Lists (l : Ledger) (token : String) : Prop := (l.balances.get? token).isSome = true

theorem lists_iff_mem_keys {l : Ledger} {token : String} :
    l.Lists token ↔ token ∈ l.balances.keys :=
  l.balances.contains_iff token

/-- What is found under a token is its balance, unless it has no entry. -/
theorem get?_eq_balance (l : Ledger) (token : String) :
    l.balances.get? token = if token ∈ l.balances.keys then some (l.balance token) else none := by
  by_cases known : token ∈ l.balances.keys
  · obtain ⟨n, hn⟩ := Option.isSome_iff_exists.1 ((l.balances.contains_iff token).2 known)
    rw [if_pos known, balance, hn, Option.getD_some]
  · rw [if_neg known]
    exact Option.not_isSome_iff_eq_none.1 (mt (l.balances.contains_iff token).1 known)

/-- Whatever has an entry in one ledger has one in another. -/
def Within (l l' : Ledger) : Prop := ∀ token, l.Lists token → l'.Lists token

theorem Within.refl (l : Ledger) : l.Within l := fun _ h => h

theorem Within.trans {l l' l'' : Ledger} (h₁ : l.Within l') (h₂ : l'.Within l'') : l.Within l'' :=
  fun token h => h₂ token (h₁ token h)

theorem lists_put (l : Ledger) (token : String) (n : Nat) :
    Lists ⟨l.balances.put token n⟩ token := by
  rw [Lists, Table.get?_put, if_pos rfl]
  rfl

theorem within_put (l : Ledger) (token : String) (n : Nat) :
    l.Within ⟨l.balances.put token n⟩ := by
  intro other h
  rw [Lists, Table.get?_put]
  split
  · rfl
  · exact h

theorem within_withdraw {entries : List (String × Nat)} {l l' : Ledger}
    (h : l.withdraw entries = .ok l') : l.Within l' := by
  induction entries generalizing l with
  | nil =>
    cases h
    exact .refl _
  | cons e rest ih =>
    obtain ⟨k, n⟩ := e
    simp only [withdraw] at h
    split at h
    · exact (l.within_put k _).trans (ih h)
    · cases h

/-- Paying takes no entry away. -/
theorem within_pay {l l' : Ledger} {b : TokenBag} (h : l.pay b = .ok l') : l.Within l' := by
  rw [pay, missing_of_pay h] at h
  exact within_withdraw h

/-- Granting takes no entry away. -/
theorem within_grantBag (l : Ledger) (b : TokenBag) : l.Within (l.grantBag b) := by
  unfold grantBag
  induction b.items generalizing l with
  | nil => exact .refl l
  | cons e rest ih => exact (l.within_put e.1 _).trans (ih (l.grant e.1 e.2))

theorem within_register (l : Ledger) (tokens : List String) : l.Within (l.register tokens) := by
  unfold register
  induction tokens generalizing l with
  | nil => exact .refl l
  | cons t rest ih => exact (l.within_put t _).trans (ih (l.registerOne t))

/-- Tokens that are registered have entries. -/
theorem lists_register (l : Ledger) {tokens : List String} {token : String} (h : token ∈ tokens) :
    (l.register tokens).Lists token := by
  induction tokens generalizing l with
  | nil => cases h
  | cons t rest ih =>
    rcases List.mem_cons.1 h with rfl | h
    · exact (l.registerOne token).within_register rest token (l.lists_put token _)
    · exact ih (l.registerOne t) h

theorem mem_keys_of_get? {l : Ledger} {token : String} {n : Nat}
    (h : l.balances.get? token = some n) : token ∈ l.balances.keys := by
  rw [← Table.contains_iff, Table.contains, h]
  rfl

theorem keys_put_of_mem {l : Ledger} {token : String} (h : token ∈ l.balances.keys) (n : Nat) :
    (l.balances.put token n).keys = l.balances.keys := by
  rw [Table.keys_put, if_pos h]

theorem keys_withdraw {entries : List (String × Nat)} {l l' : Ledger}
    (h : l.withdraw entries = .ok l') : l'.balances.keys = l.balances.keys := by
  induction entries generalizing l with
  | nil =>
    cases h
    rfl
  | cons e rest ih =>
    obtain ⟨k, n⟩ := e
    simp only [withdraw] at h
    split at h
    · rename_i b hb
      exact (ih h).trans (keys_put_of_mem (mem_keys_of_get? hb) _)
    · cases h

/-- Paying leaves the entries in their order. -/
theorem keys_pay {l l' : Ledger} {b : TokenBag} (h : l.pay b = .ok l') :
    l'.balances.keys = l.balances.keys := by
  rw [pay, missing_of_pay h] at h
  exact keys_withdraw h

theorem keys_foldl_grant {entries : List (String × Nat)} {l : Ledger}
    (h : ∀ e ∈ entries, e.1 ∈ l.balances.keys) :
    (entries.foldl (fun l e => l.grant e.1 e.2) l).balances.keys = l.balances.keys := by
  induction entries generalizing l with
  | nil => rfl
  | cons e rest ih =>
    have first : (l.grant e.1 e.2).balances.keys = l.balances.keys :=
      keys_put_of_mem (h e List.mem_cons_self) _
    refine (ih (l := l.grant e.1 e.2) fun x hx => ?_).trans first
    rw [first]
    exact h x (List.mem_cons_of_mem e hx)

/-- Granting tokens that have entries leaves the entries in their order. -/
theorem keys_grantBag {l : Ledger} {b : TokenBag} (h : ∀ t ∈ b.types, t ∈ l.balances.keys) :
    (l.grantBag b).balances.keys = l.balances.keys :=
  keys_foldl_grant fun e he => h e.1 (List.mem_map_of_mem he)

theorem keys_register {l : Ledger} {tokens : List String}
    (h : (l.balances.keys ++ tokens).Nodup) :
    (l.register tokens).balances.keys = l.balances.keys ++ tokens := by
  unfold register
  induction tokens generalizing l with
  | nil => simp
  | cons t rest ih =>
    have absent : t ∉ l.balances.keys := by
      intro hmem
      exact (List.nodup_append.1 h).2.2 t hmem t List.mem_cons_self rfl
    have first : (l.registerOne t).balances.keys = l.balances.keys ++ [t] := by
      rw [registerOne, Table.keys_adjust, if_neg absent]
    rw [List.foldl_cons, ih (l := l.registerOne t), first, List.append_assoc]
    · rfl
    · rw [first, List.append_assoc]
      exact h

/-- A new ledger has the tokens that it is made for, in their order. -/
theorem keys_ofTokens {tokens : List String} (h : tokens.Nodup) :
    (ofTokens tokens).balances.keys = tokens :=
  keys_register h

end TokenGate.Ledger

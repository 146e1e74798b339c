import TokenGate.Proofs.Ledger.Consumption

/-!
# Payments that stop halfway

A bag may hold a token none of which it asks for. A ledger covers that without an entry for the
token, and so the second pass of a payment finds nothing to take it from: it stops there, and what
it has taken before stays taken. Bags that ask for each of their tokens are the only ones that every
ledger pays in full or not at all.
-/

namespace TokenGate.Ledger

variable {l l' : Ledger} {b : TokenBag}

theorem lists_mk_put {token other : String} {n : Nat} (h : l.Lists token) :
    Lists ⟨l.balances.put token n⟩ other ↔ l.Lists other := by
  rw [Lists, Table.get?_put]
  split
  · rename_i same
    exact iff_of_true rfl (same ▸ h)
  · rfl

theorem get?_of_lists {token : String} (h : l.Lists token) :
    l.balances.get? token = some (l.balance token) := by
  rw [get?_eq_balance, if_pos (lists_iff_mem_keys.1 h)]

theorem balance_of_not_lists {token : String} (h : ¬ l.Lists token) : l.balance token = 0 := by
  rw [balance, Option.not_isSome_iff_eq_none.1 h, Option.getD_none]

/-- Taking from one balance after another comes to the end if all tokens have entries, and otherwise
stops before the first that has none. -/
theorem takeEach_cases (entries : List (String × Nat)) (l : Ledger) :
    ((∀ e ∈ entries, l.Lists e.1) ∧ ∃ l', l.withdraw entries = .ok l') ∨
    ∃ before token n after l', entries = before ++ (token, n) :: after ∧
      (∀ e ∈ before, l.Lists e.1) ∧ ¬ l.Lists token ∧ l.withdraw before = .ok l' ∧
      l.takeEach entries = (.error (.noEntry token), l') := by
  induction entries generalizing l with
  | nil => exact .inl ⟨nofun, l, rfl⟩
  | cons e rest ih =>
    obtain ⟨token, n⟩ := e
    by_cases listed : l.Lists token
    · have found := get?_of_lists listed
      -- What has been taken so far took no entry away, so that the rest lacks the same ones.
      have kept {other : String} : Lists ⟨l.balances.put token (l.balance token - n)⟩ other ↔
          l.Lists other := lists_mk_put listed
      have grown {entries : List (String × Nat)}
          (h : ∀ e ∈ entries, Lists ⟨l.balances.put token (l.balance token - n)⟩ e.1) :
          ∀ e ∈ (token, n) :: entries, l.Lists e.1 :=
        List.forall_mem_cons.2 ⟨listed, fun e he => kept.1 (h e he)⟩
      rcases ih ⟨l.balances.put token (l.balance token - n)⟩ with
        ⟨all, l', taken⟩ | ⟨before, other, m, after, l', rfl, all, unlisted, taken, stopped⟩
      · refine .inl ⟨grown all, l', ?_⟩
        rw [withdraw, found]
        exact taken
      · refine .inr ⟨(token, n) :: before, other, m, after, l', rfl, grown all,
          mt kept.2 unlisted, ?_, ?_⟩
        · rw [withdraw, found]
          exact taken
        · rw [takeEach, found]
          exact stopped
    · refine .inr ⟨[], token, n, rest, l, rfl, nofun, listed, rfl, ?_⟩
      rw [takeEach, Option.not_isSome_iff_eq_none.1 listed]

/-- What comes of the call to pay a bag, and the ledger that it leaves. -/
inductive Consumes (l : Ledger) (b : TokenBag) : Except LedgerError Unit → Ledger → Prop
  /-- The bag is covered and all its tokens have entries, and it has been taken. -/
  | paid {l' : Ledger} (covers : l.Covers b) (listed : ∀ t ∈ b.types, l.Lists t)
      (pays : l.Pays b l') : Consumes l b (.ok ()) l'
  /-- The bag is not covered, and nothing has been taken. -/
  | refused (short : ¬ l.Covers b) : Consumes l b (.error (.insufficient (l.missing b))) l
  /-- The bag is covered, but its first token without an entry is one that it asks none of. The
  tokens before that one have been taken, and no other. -/
  | stopped {l' : Ledger} {before after : List (String × Nat)} {token : String}
      (covers : l.Covers b) (split : b.items = before ++ (token, 0) :: after)
      (listed : ∀ e ∈ before, l.Lists e.1) (unlisted : ¬ l.Lists token)
      (taken : l.Pays ⟨.ofList before⟩ l') : Consumes l b (.error (.noEntry token)) l'

/-- Withdrawing what is covered takes the bag of it. -/
theorem pays_of_withdraw {entries : List (String × Nat)} (distinct : (Entries.keys entries).Nodup)
    (covered : ∀ e ∈ entries, e.2 ≤ l.balance e.1) (h : l.withdraw entries = .ok l') :
    l.Pays ⟨.ofList entries⟩ l' where
  balance token := by
    have taken := balance_withdraw token distinct covered h
    have count : TokenBag.count ⟨.ofList entries⟩ token = (Entries.get? token entries).getD 0 := by
      rw [TokenBag.count, Table.get?, Table.entries_ofList distinct]
    omega
  keys := keys_withdraw h

/-- The second pass over a bag that is covered takes all of it, or stops at a token that the bag
asks none of: any other token without an entry would not be covered. -/
theorem consumes_of_takeEach {outcome : Except LedgerError Unit} (covers : l.Covers b)
    (h : l.takeEach b.items = (outcome, l')) : l.Consumes b outcome l' := by
  have covered : ∀ e ∈ b.items, e.2 ≤ l.balance e.1 := covers_iff_items.1 covers
  rcases l.takeEach_cases b.items with
    ⟨listed, l', taken⟩ | ⟨before, token, n, after, l', split, listed, unlisted, taken, stopped⟩
  · cases (takeEach_of_withdraw taken).symm.trans h
    refine .paid covers (fun t ht => ?_) (pays_of_pay ?_)
    · obtain ⟨e, he, rfl⟩ := List.mem_map.1 ht
      exact listed e he
    · rw [pay, missing_eq_nil_iff_covers.2 covers]
      exact taken
  · cases stopped.symm.trans h
    have none : n = 0 := by
      have enough := covered (token, n) (split ▸ List.mem_append_right _ List.mem_cons_self)
      rw [balance_of_not_lists unlisted] at enough
      exact Nat.le_zero.1 enough
    have distinct : (Entries.keys before).Nodup := by
      have all : (Entries.keys b.items).Nodup := b.counts.nodup
      rw [split, Entries.keys, List.map_append] at all
      exact (List.nodup_append.1 all).1
    have first : ∀ e ∈ before, e.2 ≤ l.balance e.1 :=
      fun e he => covered e (split ▸ List.mem_append_left _ he)
    exact .stopped covers (none ▸ split) listed unlisted (pays_of_withdraw distinct first taken)

/-- Every call to pay a bag ends in one of the three ways. -/
theorem consumes_of_perform {outcome : Except LedgerError Unit}
    (h : l.perform (.consume (.bag b)) = (outcome, l')) : l.Consumes b outcome l' := by
  cases lack : l.missing b with
  | nil =>
    have second : l.perform (.consume (.bag b)) = l.takeEach b.items := by
      simp only [perform, Cost.toBag, lack]
    exact consumes_of_takeEach (missing_eq_nil_iff_covers.1 lack) (second.symm.trans h)
  | cons e rest =>
    have short : ¬ l.Covers b := mt missing_eq_nil_iff_covers.2 (lack ▸ List.cons_ne_nil _ _)
    have told : l.perform (.consume (.bag b)) = (.error (.insufficient (l.missing b)), l) := by
      simp only [perform, Cost.toBag, lack]
    cases told.symm.trans h
    exact .refused short

/-- A bag is paid in full, or nothing of it is and the shortfall is told. -/
def AllOrNothing (l : Ledger) (b : TokenBag) : Prop :=
  (∃ l', l.perform (.consume (.bag b)) = (.ok (), l') ∧ l.Pays b l') ∨
    l.perform (.consume (.bag b)) = (.error (.insufficient (l.missing b)), l)

/-- A bag that asks for each of its tokens never stops a payment. -/
theorem allOrNothing_of_counted (counted : ∀ e ∈ b.items, 0 < e.2) (l : Ledger) :
    l.AllOrNothing b := by
  obtain ⟨⟨outcome, l'⟩, done⟩ : ∃ result, l.perform (.consume (.bag b)) = result := ⟨_, rfl⟩
  cases consumes_of_perform done with
  | paid _ _ pays => exact .inl ⟨l', done, pays⟩
  | refused _ => exact .inr done
  | stopped _ split _ _ _ =>
    have asked := counted _ (split ▸ List.mem_append_right _ List.mem_cons_self)
    exact absurd asked (Nat.lt_irrefl 0)

/-- The ledger that has of each token what a bag asks for, and no entry for one of them. -/
def without (b : TokenBag) (token : String) : Ledger :=
  ⟨.ofList (b.items.filter fun e => e.1 ≠ token)⟩

theorem entries_without (b : TokenBag) (token : String) :
    (without b token).balances.entries = b.items.filter fun e => e.1 ≠ token :=
  Table.entries_ofList (List.Nodup.sublist (List.filter_sublist.map _) b.counts.nodup)

theorem not_lists_without (b : TokenBag) (token : String) : ¬ (without b token).Lists token := by
  intro listed
  obtain ⟨e, he, same⟩ := List.mem_map.1 (lists_iff_mem_keys.1 listed)
  rw [entries_without] at he
  exact of_decide_eq_true (List.mem_filter.1 he).2 same

theorem covers_without {token : String} (h : (token, 0) ∈ b.items) :
    (without b token).Covers b := by
  rw [covers_iff_items]
  intro e he
  by_cases same : e.1 = token
  · have zero : e.2 = 0 := by
      rw [← TokenBag.count_of_mem he, same]
      exact TokenBag.count_of_mem h
    rw [zero]
    exact Nat.zero_le _
  · have kept : e ∈ (without b token).balances.entries := by
      rw [entries_without]
      exact List.mem_filter.2 ⟨he, decide_eq_true same⟩
    have found := Entries.get?_of_mem (without b token).balances.nodup kept
    exact Nat.le_of_eq (balance_of_get? found).symm

/-- The bags that every ledger pays in full or not at all are those that ask for each of their
tokens. -/
theorem allOrNothing_iff_counted :
    (∀ l : Ledger, l.AllOrNothing b) ↔ ∀ e ∈ b.items, 0 < e.2 := by
  refine ⟨fun always e he => Nat.pos_of_ne_zero fun zero => ?_, allOrNothing_of_counted⟩
  obtain ⟨token, n⟩ := e
  obtain rfl : n = 0 := zero
  rcases always (without b token) with ⟨l', done, -⟩ | done
  · cases consumes_of_perform done with
    | paid _ listed _ => exact not_lists_without b token (listed token (List.mem_map_of_mem he))
  · cases consumes_of_perform done with
    | refused short => exact short (covers_without he)

end TokenGate.Ledger

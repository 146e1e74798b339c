import TokenGate.Ledger.Call
import TokenGate.Proofs.Ledger.Entries

/-!
# Costs are paid in full or not at all

A call to pay a cost first compares and then takes, in two passes over the bag. The passes agree: if
nothing is missing, every token that something is taken of has an entry, as it is asked for at least
once and covered. So the second pass never stops halfway.
-/

namespace TokenGate

theorem TokenBag.count_of_mem {b : TokenBag} {e : String × Nat} (h : e ∈ b.items) :
    b.count e.1 = e.2 := by
  have found : b.counts.get? e.1 = some e.2 := Entries.get?_of_mem b.counts.nodup h
  rw [count, found, Option.getD_some]

theorem TokenBag.count_of_not_mem {b : TokenBag} {token : String} (h : token ∉ b.types) :
    b.count token = 0 := by
  have missing : b.counts.get? token = none :=
    Option.not_isSome_iff_eq_none.1 fun found => h ((b.counts.contains_iff token).1 found)
  rw [count, missing, Option.getD_none]

/-- A cost that is a token list, or a bag that is made of whole multiplicities. -/
def Cost.Whole : Cost → Prop
  | listed _ => True
  | bag b => b.Whole

/-- Of each of its tokens a whole cost asks for at least one. -/
theorem Cost.Whole.counted {cost : Cost} (h : cost.Whole) {b : TokenBag} (hb : cost.toBag = .ok b) :
    ∀ e ∈ b.items, 0 < e.2 := by
  cases cost with
  | listed v => exact (TokenBag.sound_of_parse hb).counted
  | bag b' =>
    cases hb
    exact TokenBag.whole_iff_counted.1 h

namespace Ledger

/-- The balances of a ledger cover a bag. -/
def Covers (l : Ledger) (b : TokenBag) : Prop := ∀ token, b.count token ≤ l.balance token

/-- A bag has been taken from a ledger: every balance has fallen by the multiplicity of its token,
and the entries are those from before. -/
structure Pays (l : Ledger) (b : TokenBag) (l' : Ledger) : Prop where
  balance : ∀ token, (l'.balance token : Int) = l.balance token - b.count token
  keys : l'.balances.keys = l.balances.keys

/-- What a ledger lacks to pay for a bag: the tokens of which the balance is too small, in the order
of the bag, each with the difference. -/
structure Lacks (l : Ledger) (b : TokenBag) (lack : List (String × Nat)) : Prop where
  tokens : Entries.keys lack = b.types.filter fun token => l.balance token < b.count token
  amount : ∀ e ∈ lack, (e.2 : Int) = b.count e.1 - l.balance e.1

variable {l l' : Ledger} {b : TokenBag} {cost : Cost}

theorem covers_iff_items : l.Covers b ↔ ∀ e ∈ b.items, e.2 ≤ l.balance e.1 := by
  constructor
  · intro covers e he
    exact TokenBag.count_of_mem he ▸ covers e.1
  · intro covered token
    by_cases h : token ∈ b.types
    · obtain ⟨e, he, rfl⟩ := List.mem_map.1 h
      exact (TokenBag.count_of_mem he).symm ▸ covered e he
    · rw [TokenBag.count_of_not_mem h]
      exact Nat.zero_le _

theorem missing_eq_nil_iff_covers : l.missing b = [] ↔ l.Covers b :=
  (l.missing_eq_nil_iff b).trans covers_iff_items.symm

/-- A cost can be afforded if nothing is missing. -/
theorem canAfford_eq (l : Ledger) (hb : cost.toBag = .ok b) :
    l.canAfford cost = .ok (l.missing b).isEmpty := by
  simp only [canAfford, shortfall, hb, Except.map]

/-- What is reported missing is what is lacking. -/
theorem lacks_missing (l : Ledger) (b : TokenBag) : l.Lacks b (l.missing b) := by
  constructor
  · rw [Entries.keys, missing, List.map_filterMap, TokenBag.types, Table.keys, Entries.keys,
      List.filter_map, ← List.filterMap_eq_filter, List.map_filterMap]
    refine List.filterMap_congr fun e he => ?_
    have count : b.count e.1 = e.2 := TokenBag.count_of_mem he
    by_cases h : l.balance e.1 < e.2 <;> simp [count, h, Option.guard]
  · intro e he
    obtain ⟨⟨token, n⟩, hx, lacking⟩ := List.mem_filterMap.1 he
    have count : b.count token = n := TokenBag.count_of_mem hx
    obtain ⟨short, same⟩ := Option.ite_none_right_eq_some.1 lacking
    cases same
    simp only [count]
    omega

theorem pays_of_pay (h : l.pay b = .ok l') : l.Pays b l' where
  balance token := by
    have paid := balance_pay h token
    omega
  keys := keys_pay h

/-- The second pass takes what can be withdrawn. -/
theorem takeEach_of_withdraw {entries : List (String × Nat)} (h : l.withdraw entries = .ok l') :
    l.takeEach entries = (.ok (), l') := by
  induction entries generalizing l with
  | nil =>
    cases h
    rfl
  | cons e rest ih =>
    obtain ⟨token, n⟩ := e
    rw [withdraw] at h
    rw [takeEach]
    cases hget : l.balances.get? token with
    | none =>
      rw [hget] at h
      cases h
    | some balance =>
      rw [hget] at h
      exact ih h

/-- A whole cost is paid in one piece, whatever the balances. -/
theorem perform_consume (l : Ledger) (whole : cost.Whole) :
    l.perform (.consume cost) = l.settle (l.consume cost) := by
  cases hb : cost.toBag with
  | error e => simp only [perform, consume, hb, settle]
  | ok b =>
    simp only [perform, consume, hb]
    rcases l.pay_cases_of_counted (whole.counted hb) with ⟨l', hpay⟩ | ⟨lacking, hpay⟩
    · have nothing := missing_of_pay hpay
      rw [hpay, nothing]
      rw [pay, nothing] at hpay
      exact takeEach_of_withdraw hpay
    · obtain ⟨first, rest, missing⟩ := List.exists_cons_of_ne_nil lacking
      rw [hpay, missing]
      rfl

/-- A whole cost is paid if it is covered, and otherwise what is missing is told. -/
theorem consume_cases (l : Ledger) (whole : cost.Whole) (hb : cost.toBag = .ok b) :
    (l.Covers b ∧ ∃ l', l.consume cost = .ok l' ∧ l.Pays b l') ∨
    (¬ l.Covers b ∧ l.consume cost = .error (.insufficient (l.missing b))) := by
  simp only [consume, hb]
  rcases l.pay_cases_of_counted (whole.counted hb) with ⟨l', hpay⟩ | ⟨lacking, hpay⟩
  · exact .inl ⟨missing_eq_nil_iff_covers.1 (missing_of_pay hpay), l', hpay, pays_of_pay hpay⟩
  · exact .inr ⟨mt missing_eq_nil_iff_covers.2 lacking, hpay⟩

/-- A cost is paid in full or not at all. If it is no token list, nothing is paid and nothing is
answered. Otherwise it is paid exactly if it can be afforded, which is if nothing is missing, which
is if every balance covers what is asked for; then every balance falls by that and nothing else
changes. If it is not paid, the shortfall is told and nothing changes. -/
theorem consume_all_or_nothing (l : Ledger) {cost : Cost} (whole : cost.Whole) :
    (∀ e, cost.toBag = .error e →
      l.perform (.consume cost) = (.error (.cost e), l) ∧
      l.canAfford cost = .error (.cost e) ∧ l.shortfall cost = .error (.cost e)) ∧
    ∀ b, cost.toBag = .ok b → ∃ outcome l' able lack,
      l.perform (.consume cost) = (outcome, l') ∧ l.canAfford cost = .ok able ∧
      l.shortfall cost = .ok lack ∧
      (outcome = .ok () ↔ able = true) ∧ (able = true ↔ lack = []) ∧ (lack = [] ↔ l.Covers b) ∧
      (outcome = .ok () → l.Pays b l') ∧
      (∀ e, outcome = .error e → e = .insufficient lack ∧ l' = l) ∧ l.Lacks b lack ∧
      ∀ token, outcome ≠ .error (.noEntry token) := by
  constructor
  · intro e malformed
    simp only [perform, canAfford, shortfall, malformed, Except.map, and_self]
  · intro b hb
    have able := l.canAfford_eq hb
    have lack : l.shortfall cost = .ok (l.missing b) := by simp only [shortfall, hb]
    rw [perform_consume l whole]
    rcases l.consume_cases whole hb with ⟨covers, l', hpay, pays⟩ | ⟨short, hpay⟩
    · refine ⟨.ok (), l', _, _, by rw [hpay, settle], able, lack, ?_, List.isEmpty_iff,
        missing_eq_nil_iff_covers, fun _ => pays, nofun, l.lacks_missing b, nofun⟩
      rw [List.isEmpty_iff, missing_eq_nil_iff_covers]
      exact ⟨fun _ => covers, fun _ => rfl⟩
    · refine ⟨.error (.insufficient (l.missing b)), l, _, _, by rw [hpay, settle], able, lack, ?_,
        List.isEmpty_iff, missing_eq_nil_iff_covers, nofun, fun e he => ?_, l.lacks_missing b,
        nofun⟩
      · rw [List.isEmpty_iff, missing_eq_nil_iff_covers]
        exact ⟨nofun, fun covers => absurd covers short⟩
      · cases he
        exact ⟨rfl, rfl⟩

/-- Three pieces of gold, and an entry for silver. -/
def purse : Ledger := (ofTokens ["gold", "silver"]).grant "gold" 3

/-- A bag that is made of multiplicities, of which one is zero. -/
def toll : TokenBag := (TokenBag.ofCounts
  [("ghost", .int 1), ("gold", .int 2), ("silver", .int 0)]).toOption.getD .empty

/-- There is gold enough, but a token that is not known is missing, so nothing is paid. -/
theorem purse_consume_toll :
    toll.Whole ∧ ∃ l', purse.perform (.consume (.bag toll)) =
        (.error (.insufficient [("ghost", 1)]), l') ∧
      purse.canAfford (.bag toll) = .ok false ∧ purse.shortfall (.bag toll) = .ok [("ghost", 1)] ∧
      ¬ purse.Covers toll ∧ l' = purse := by
  have whole : (Cost.bag toll).Whole := ⟨[("ghost", 1), ("gold", 2), ("silver", 0)], by rfl⟩
  have unable : purse.canAfford (.bag toll) = .ok false := by rfl
  have missing : purse.shortfall (.bag toll) = .ok [("ghost", 1)] := by rfl
  obtain ⟨outcome, l', able, lack, hperform, hable, hlack, success, -, covered, -, failed, -⟩ :=
    (consume_all_or_nothing purse whole).2 toll rfl
  obtain rfl : able = false := Except.ok.inj (hable.symm.trans unable)
  obtain rfl : lack = [("ghost", 1)] := Except.ok.inj (hlack.symm.trans missing)
  cases outcome with
  | ok _ => exact absurd (success.1 rfl) Bool.false_ne_true
  | error e =>
    obtain ⟨rfl, rfl⟩ := failed e rfl
    exact ⟨whole, _, hperform, unable, missing, mt covered.2 (List.cons_ne_nil _ _), rfl⟩

end Ledger
end TokenGate

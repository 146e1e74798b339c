import TokenGate.Proofs.Ledger.Sums
import TokenGate.Proofs.Token.Words

/-!
# Paying in parts

A list of token names is a cost that asks for each token as often as it is named. What is paid or
granted in two parts, in either order, is therefore what is paid or granted at once, and what has
been granted can always be paid.
-/

namespace TokenGate

/-- A list of words as a cost. -/
def Cost.words (ws : List String) : Cost := .listed (.list (ws.map .str))

/-- A list of token names is read as the bag of these names. -/
theorem Cost.toBag_words {ws : List String} (nonempty : ws ≠ [])
    (named : ∀ w ∈ ws, isTokenName w = true) : (words ws).toBag = .ok (.ofWords ws) := by
  have there : Value.list (ws.map .str) ≠ .null := nofun
  exact (TokenBag.parse_eq_ok there).2 ⟨ws, .list ws, nonempty, named, rfl⟩

namespace Ledger

open TokenBag

variable {l l' l'' : Ledger} {b b' : TokenBag} {ws xs ys : List String}

/-- Ledgers with the same entries and the same balances are the same. -/
theorem eq_of_balance (keys : l.balances.keys = l'.balances.keys)
    (balance : ∀ token, l.balance token = l'.balance token) : l = l' := by
  have same : l.balances = l'.balances := Table.eq_of_get? keys fun token => by
    rw [get?_eq_balance, get?_eq_balance, keys, balance]
  cases l
  exact congrArg mk same

/-- A payment leaves one ledger only, however the bag is ordered. -/
theorem Pays.unique (h : l.Pays b l') (h' : l.Pays b' l'') (same : ∀ t, b.count t = b'.count t) :
    l' = l'' := by
  refine eq_of_balance (h.keys.trans h'.keys.symm) fun token => ?_
  have first := h.balance token
  have second := h'.balance token
  have count := same token
  omega

theorem count_ofWords_append (token : String) :
    (ofWords (xs ++ ys)).count token = (ofWords xs).count token + (ofWords ys).count token := by
  rw [count_ofWords, count_ofWords, count_ofWords, List.count_append]

theorem count_ofWords_comm (token : String) :
    (ofWords (xs ++ ys)).count token = (ofWords (ys ++ xs)).count token := by
  rw [count_ofWords_append, count_ofWords_append, Nat.add_comm]

theorem covers_comm : l.Covers (ofWords (xs ++ ys)) ↔ l.Covers (ofWords (ys ++ xs)) :=
  forall_congr' fun token => by rw [count_ofWords_comm]

theorem perform_words_cases (l : Ledger) (nonempty : ws ≠ [])
    (named : ∀ w ∈ ws, isTokenName w = true) :
    (l.Covers (ofWords ws) ∧ l.canAfford (.words ws) = .ok true ∧
      ∃ l', l.perform (.consume (.words ws)) = (.ok (), l') ∧ l.Pays (ofWords ws) l') ∨
    (¬ l.Covers (ofWords ws) ∧ l.canAfford (.words ws) = .ok false ∧
      ∃ e, l.perform (.consume (.words ws)) = (.error e, l)) := by
  have whole : (Cost.words ws).Whole := trivial
  have hb := Cost.toBag_words nonempty named
  rw [l.canAfford_eq hb, l.perform_consume whole]
  rcases l.consume_cases whole hb with ⟨covers, l', hpay, pays⟩ | ⟨short, hpay⟩
  · rw [hpay, missing_eq_nil_iff_covers.2 covers]
    exact .inl ⟨covers, rfl, l', rfl, pays⟩
  · have lacking := List.isEmpty_eq_false_iff.2 (mt missing_eq_nil_iff_covers.1 short)
    rw [hpay, lacking]
    exact .inr ⟨short, rfl, _, rfl⟩

theorem canAfford_words_iff (nonempty : ws ≠ []) (named : ∀ w ∈ ws, isTokenName w = true) :
    l.canAfford (.words ws) = .ok true ↔ l.Covers (ofWords ws) := by
  rcases l.perform_words_cases nonempty named with ⟨covers, able, -⟩ | ⟨short, unable, -⟩
  · exact iff_of_true able covers
  · rw [unable]
    exact iff_of_false nofun short

section Parts

variable (hxs : xs ≠ []) (hys : ys ≠ []) (named : ∀ w ∈ xs ++ ys, isTokenName w = true)

include hxs hys named

/-- Two lists are paid one after the other exactly if they can be paid together, and that is what
has been paid then. -/
theorem consume_parts (l : Ledger) :
    (l.Covers (ofWords (xs ++ ys)) ∧
      ∃ l', l.performAll [.consume (.words xs), .consume (.words ys)] = ([.ok (), .ok ()], l') ∧
        l.Pays (ofWords (xs ++ ys)) l') ∨
    (¬ l.Covers (ofWords (xs ++ ys)) ∧
      (l.performAll [.consume (.words xs), .consume (.words ys)]).1 ≠ [.ok (), .ok ()]) := by
  obtain ⟨named₁, named₂⟩ := List.forall_mem_append.1 named
  rcases l.perform_words_cases hxs named₁ with ⟨-, -, l₁, first, pays⟩ | ⟨short, -, e, first⟩
  · rcases l₁.perform_words_cases hys named₂ with ⟨covers, -, l₂, second, pays'⟩ |
      ⟨short, -, e, second⟩
    · refine .inl ⟨fun token => ?_, l₂, ?_, fun token => ?_, pays'.keys.trans pays.keys⟩
      · have left := pays.balance token
        have enough := covers token
        rw [count_ofWords_append]
        omega
      · simp only [performAll, first, second]
      · have left := pays.balance token
        have left' := pays'.balance token
        rw [count_ofWords_append]
        omega
    · refine .inr ⟨fun covers => short fun token => ?_, ?_⟩
      · have left := pays.balance token
        have enough := covers token
        rw [count_ofWords_append] at enough
        omega
      · simp [performAll, first, second]
  · refine .inr ⟨fun covers => short fun token => ?_, ?_⟩
    · have enough := covers token
      rw [count_ofWords_append] at enough
      omega
    · simp [performAll, first]

theorem consume_parts_iff (l : Ledger) :
    (l.performAll [.consume (.words xs), .consume (.words ys)]).1 = [.ok (), .ok ()] ↔
      l.Covers (ofWords (xs ++ ys)) := by
  rcases consume_parts hxs hys named l with ⟨covers, l', paid, -⟩ | ⟨short, failed⟩
  · exact iff_of_true (congrArg Prod.fst paid) covers
  · exact iff_of_false failed short

end Parts

theorem perform_grantAll_words (l : Ledger) (nonempty : ws ≠ [])
    (named : ∀ w ∈ ws, isTokenName w = true) :
    l.perform (.grantAll (.words ws)) = (.ok (), l.grantBag (ofWords ws)) := by
  simp only [perform, grantAll, Cost.toBag_words nonempty named, settle]

theorem mem_keys_grantBag {token : String} :
    token ∈ (l.grantBag (ofWords ws)).balances.keys ↔ token ∈ l.balances.keys ∨ token ∈ ws := by
  rw [keys_grantBag_eq_foldl, FirstSeen.mem_foldl_distinct, mem_types_ofWords]

/-- What has been granted can be paid. That leaves every balance as it was, with an entry for each
of the tokens. -/
theorem grantAll_consume (l : Ledger) (nonempty : ws ≠ [])
    (named : ∀ w ∈ ws, isTokenName w = true) :
    ∃ l', l.performAll [.grantAll (.words ws), .consume (.words ws)] = ([.ok (), .ok ()], l') ∧
      (∀ token, l'.balance token = l.balance token) ∧
      ∀ token, l'.balances.get? token =
        if token ∈ ws then some (l.balance token) else l.balances.get? token := by
  have granted := l.perform_grantAll_words nonempty named
  have covers : (l.grantBag (ofWords ws)).Covers (ofWords ws) := fun token => by
    rw [balance_grantBag]
    omega
  obtain ⟨-, -, l', paid, pays⟩ :=
    ((l.grantBag (ofWords ws)).perform_words_cases nonempty named).resolve_right
      fun short => short.1 covers
  have restored (token : String) : l'.balance token = l.balance token := by
    have left := pays.balance token
    rw [balance_grantBag] at left
    omega
  refine ⟨l', by simp only [performAll, granted, paid], restored, fun token => ?_⟩
  have known : token ∈ l'.balances.keys ↔ token ∈ l.balances.keys ∨ token ∈ ws := by
    rw [pays.keys, mem_keys_grantBag]
  by_cases mem : token ∈ ws
  · rw [get?_eq_balance, if_pos (known.2 (.inr mem)), if_pos mem, restored]
  · rw [if_neg mem, get?_eq_balance, get?_eq_balance, restored]
    simp only [known, mem, or_false]

section Parts

variable (hxs : xs ≠ []) (hys : ys ≠ []) (named : ∀ w ∈ xs ++ ys, isTokenName w = true)

include hxs hys named

theorem grantAll_parts (l : Ledger) :
    ∃ l', l.performAll [.grantAll (.words xs), .grantAll (.words ys)] = ([.ok (), .ok ()], l') ∧
      ∀ token, l'.balance token = l.balance token + (ofWords (xs ++ ys)).count token := by
  obtain ⟨named₁, named₂⟩ := List.forall_mem_append.1 named
  refine ⟨(l.grantBag (ofWords xs)).grantBag (ofWords ys), ?_, fun token => ?_⟩
  · simp only [performAll, perform_grantAll_words _ hxs named₁, perform_grantAll_words _ hys named₂]
  · rw [balance_grantBag, balance_grantBag, count_ofWords_append, Nat.add_assoc]

/-- Two lists of tokens are paid one after the other, in whichever order, exactly if they can be
afforded together, and all three ways leave the same ledger. What has been granted can be paid, and
then every balance is as it was and tokens that were not known have an entry of zero. Two lists that
are granted one after the other, in whichever order, come to what they do together. -/
theorem consume_append (l : Ledger) :
    ((l.performAll [.consume (.words xs), .consume (.words ys)]).1 = [.ok (), .ok ()] ↔
      l.canAfford (.words (xs ++ ys)) = .ok true) ∧
    ((l.performAll [.consume (.words ys), .consume (.words xs)]).1 = [.ok (), .ok ()] ↔
      l.canAfford (.words (xs ++ ys)) = .ok true) ∧
    (l.canAfford (.words (xs ++ ys)) = .ok true → ∃ l',
      l.perform (.consume (.words (xs ++ ys))) = (.ok (), l') ∧
      l.performAll [.consume (.words xs), .consume (.words ys)] = ([.ok (), .ok ()], l') ∧
      l.performAll [.consume (.words ys), .consume (.words xs)] = ([.ok (), .ok ()], l')) ∧
    (∃ l', l.performAll [.grantAll (.words xs), .consume (.words xs)] =
        ([.ok (), .ok ()], l') ∧
      (∀ token, l'.balance token = l.balance token) ∧
      ∀ token, l'.balances.get? token =
        if token ∈ xs then some (l.balance token) else l.balances.get? token) ∧
    ∃ l₁ l₂ l₃, l.performAll [.grantAll (.words xs), .grantAll (.words ys)] =
        ([.ok (), .ok ()], l₁) ∧
      l.performAll [.grantAll (.words ys), .grantAll (.words xs)] = ([.ok (), .ok ()], l₂) ∧
      l.perform (.grantAll (.words (xs ++ ys))) = (.ok (), l₃) ∧
      ∀ token, l₁.balance token = l₃.balance token ∧ l₂.balance token = l₃.balance token := by
  have nonempty : xs ++ ys ≠ [] := List.append_ne_nil_of_left_ne_nil hxs ys
  have named' : ∀ w ∈ ys ++ xs, isTokenName w = true :=
    List.forall_mem_append.2 (List.forall_mem_append.1 named).symm
  have able := canAfford_words_iff (l := l) nonempty named
  refine ⟨?_, ?_, fun afforded => ?_,
    l.grantAll_consume hxs (List.forall_mem_append.1 named).1, ?_⟩
  · rw [able, consume_parts_iff hxs hys named]
  · rw [able, consume_parts_iff hys hxs named', covers_comm]
  · have covers := able.1 afforded
    obtain ⟨-, -, l', whole, pays⟩ :=
      (l.perform_words_cases nonempty named).resolve_right fun short => short.1 covers
    obtain ⟨-, l₁, first, pays₁⟩ :=
      (consume_parts hxs hys named l).resolve_right fun short => short.1 covers
    obtain ⟨-, l₂, second, pays₂⟩ :=
      (consume_parts hys hxs named' l).resolve_right fun short => short.1 (covers_comm.1 covers)
    obtain rfl : l₁ = l' := pays₁.unique pays fun _ => rfl
    obtain rfl : l₂ = l₁ := pays₂.unique pays count_ofWords_comm
    exact ⟨l₂, whole, first, second⟩
  · obtain ⟨l₁, first, balance₁⟩ := grantAll_parts hxs hys named l
    obtain ⟨l₂, second, balance₂⟩ := grantAll_parts hys hxs named' l
    refine ⟨l₁, l₂, _, first, second, l.perform_grantAll_words nonempty named, fun token => ?_⟩
    rw [balance₁, balance₂, balance_grantBag, count_ofWords_comm]
    exact ⟨rfl, rfl⟩

end Parts

/-- Two pieces of gold and one of iron. -/
def satchel : Ledger := ((ofTokens ["iron", "gold"]).grant "gold" 2).grant "iron" 1

/-- Gold and iron, and then gold again, are just affordable, in whichever order. -/
theorem satchel_consume_append :
    satchel.canAfford (.words (["gold", "iron"] ++ ["gold"])) = .ok true ∧
    (satchel.performAll [.consume (.words ["gold", "iron"]), .consume (.words ["gold"])]).1 =
      [.ok (), .ok ()] ∧
    (satchel.performAll [.consume (.words ["gold"]), .consume (.words ["gold", "iron"])]).1 =
      [.ok (), .ok ()] ∧
    (∃ l', satchel.perform (.consume (.words (["gold", "iron"] ++ ["gold"]))) = (.ok (), l') ∧
      satchel.performAll [.consume (.words ["gold", "iron"]), .consume (.words ["gold"])] =
        ([.ok (), .ok ()], l') ∧
      satchel.performAll [.consume (.words ["gold"]), .consume (.words ["gold", "iron"])] =
        ([.ok (), .ok ()], l')) ∧
    ∃ l', satchel.performAll
        [.grantAll (.words ["gold", "iron"]), .consume (.words ["gold", "iron"])] =
          ([.ok (), .ok ()], l') ∧
      ∀ token, l'.balance token = satchel.balance token := by
  have afforded : satchel.canAfford (.words (["gold", "iron"] ++ ["gold"])) = .ok true := by rfl
  obtain ⟨first, second, same, ⟨l', granted, restored, -⟩, -⟩ :=
    consume_append (show ["gold", "iron"] ≠ [] from List.cons_ne_nil _ _)
      (show ["gold"] ≠ [] from List.cons_ne_nil _ _) (by decide +kernel) satchel
  exact ⟨afforded, first.2 afforded, second.2 afforded, same afforded, l', granted, restored⟩

end Ledger
end TokenGate

import TokenGate.Proofs.Ledger.Halting
import TokenGate.Proofs.Token.Multiset
import TokenGate.Proofs.Value.Amount

/-!
# Bags that are made of numbers

A bag is made of any numbers that are not below zero. Zeros are left out and the others are cut down
to whole numbers, in that order, so that a number between zero and one leaves a token in the bag
that counts zero. Such a bag has entries but no size and no text, and it can stop a payment halfway;
if there is no such number, none of this can happen.
-/

namespace TokenGate.TokenBag

variable {counts : Fields} {numbers : List (String × Rat)} {b : TokenBag}

/-- A table of multiplicities has finite numbers as its values. -/
def Holds (counts : Fields) (numbers : List (String × Rat)) : Prop :=
  List.Forall₂ (fun e n => e.1 = n.1 ∧ e.2.number? = some (.finite n.2)) counts numbers

/-- A table of finite numbers in which each name stands once and none is the empty text. -/
structure Tally (counts : Fields) (numbers : List (String × Rat)) : Prop where
  holds : Holds counts numbers
  distinct : (Entries.keys numbers).Nodup
  named : ∀ n ∈ numbers, n.1 ≠ ""

/-- What a bag keeps of numbers: those that are not zero, cut down to whole ones. -/
def kept (numbers : List (String × Rat)) : List (String × Nat) :=
  (numbers.filter fun n => n.2 ≠ 0).map fun n => (n.1, ⌊n.2⌋₊)

theorem mem_kept {e : String × Nat} :
    e ∈ kept numbers ↔ ∃ n ∈ numbers, n.2 ≠ 0 ∧ (n.1, ⌊n.2⌋₊) = e := by
  simp only [kept, List.mem_map, List.mem_filter, decide_eq_true_eq, and_assoc]

theorem keys_kept_sublist (numbers : List (String × Rat)) :
    (Entries.keys (kept numbers)).Sublist (Entries.keys numbers) := by
  rw [Entries.keys, kept, List.map_map]
  exact List.filter_sublist.map _

section Made

theorem collect_of_nonneg (holds : Holds counts numbers) (above : ∀ n ∈ numbers, 0 ≤ n.2)
    (t : Table Nat) : ofCounts.collect t counts =
      .ok ⟨(kept numbers).foldl (fun t e => t.put e.1 e.2) t⟩ := by
  induction holds generalizing t with
  | nil => rfl
  | @cons e n counts numbers same _ ih =>
    obtain ⟨token, v⟩ := e
    obtain ⟨rfl, value⟩ := same
    obtain ⟨first, rest⟩ := List.forall_mem_cons.1 above
    rw [ofCounts.collect, Amount.ofValue?_of_number? value, if_neg first.not_gt]
    refine (ih rest _).trans ?_
    by_cases zero : n.2 = 0 <;> simp [kept, zero]

theorem collect_of_neg (holds : Holds counts numbers) {before after : List (String × Rat)}
    {n : String × Rat} (split : numbers = before ++ n :: after) (above : ∀ n ∈ before, 0 ≤ n.2)
    (below : n.2 < 0) (t : Table Nat) : ofCounts.collect t counts = .error (.negative n.1) := by
  subst split
  induction before generalizing counts t with
  | nil =>
    obtain ⟨⟨token, v⟩, rest, ⟨rfl, value⟩, -, rfl⟩ := List.forall₂_cons_right_iff.1 holds
    rw [ofCounts.collect, Amount.ofValue?_of_number? value, if_pos below]
  | cons m before ih =>
    obtain ⟨⟨token, v⟩, rest, ⟨rfl, value⟩, tail, rfl⟩ := List.forall₂_cons_right_iff.1 holds
    obtain ⟨first, above⟩ := List.forall_mem_cons.1 above
    rw [ofCounts.collect, Amount.ofValue?_of_number? value, if_neg first.not_gt]
    exact ih above _ tail

/-- Either no number is below zero, or one of them is the first. -/
theorem nonneg_or_split (numbers : List (String × Rat)) :
    (∀ n ∈ numbers, 0 ≤ n.2) ∨ ∃ before n after, numbers = before ++ n :: after ∧
      (∀ n ∈ before, 0 ≤ n.2) ∧ n.2 < 0 := by
  cases found : numbers.find? fun n => n.2 < 0 with
  | none =>
    refine .inl fun n hn => ?_
    simpa using List.find?_eq_none.1 found n hn
  | some n =>
    obtain ⟨below, before, after, split, above⟩ := List.find?_eq_some_iff_append.1 found
    exact .inr ⟨before, n, after, split, by simpa using above, of_decide_eq_true below⟩

variable (tally : Tally counts numbers)
include tally

/-- A bag is made of numbers exactly if none is below zero, and then keeps what is to be kept. -/
theorem ofCounts_eq_ok_iff :
    ofCounts counts = .ok b ↔ (∀ n ∈ numbers, 0 ≤ n.2) ∧ b.items = kept numbers := by
  have distinct : (Entries.keys (kept numbers)).Nodup :=
    tally.distinct.sublist (keys_kept_sublist numbers)
  rcases nonneg_or_split numbers with above | ⟨before, n, after, split, above, below⟩
  · have made : ofCounts counts = .ok ⟨.ofList (kept numbers)⟩ :=
      collect_of_nonneg tally.holds above ∅
    have items : items ⟨.ofList (kept numbers)⟩ = kept numbers := Table.entries_ofList distinct
    rw [made]
    constructor
    · rintro ⟨⟩
      exact ⟨above, items⟩
    · rintro ⟨-, same⟩
      exact congrArg _ (congrArg mk (Table.ext (items.trans same.symm)))
  · have refused : ofCounts counts = .error (.negative n.1) :=
      collect_of_neg tally.holds split above below ∅
    rw [refused]
    refine iff_of_false nofun fun made => ?_
    exact (made.1 n (split ▸ List.mem_append_right _ List.mem_cons_self)).not_gt below

/-- Numbers of which no bag is made are refused for the first that is below zero. -/
theorem ofCounts_eq_error_iff {e : CountError} :
    ofCounts counts = .error e ↔ ∃ before n after, numbers = before ++ n :: after ∧
      (∀ n ∈ before, 0 ≤ n.2) ∧ n.2 < 0 ∧ e = .negative n.1 := by
  constructor
  · intro refused
    rcases nonneg_or_split numbers with above | ⟨before, n, after, split, above, below⟩
    · cases refused.symm.trans (collect_of_nonneg tally.holds above ∅)
    · cases refused.symm.trans (collect_of_neg tally.holds split above below ∅)
      exact ⟨before, n, after, split, above, below, rfl⟩
  · rintro ⟨before, n, after, split, above, below, rfl⟩
    exact collect_of_neg tally.holds split above below ∅

end Made

section Size

theorem toList_eq_nil_iff : b.toList = [] ↔ ∀ e ∈ b.items, e.2 = 0 := by
  simp only [toList, List.flatMap_eq_nil_iff, List.replicate_eq_nil_iff]

/-- A bag has the size zero exactly if it lists nothing. One that is too large to have a size lists
something. -/
theorem size?_eq_zero_iff : b.size? = some 0 ↔ b.toList = [] := by
  rw [size?, ← length_toList, ← List.length_eq_zero_iff]
  split
  · exact Option.some_inj
  · rename_i many
    refine iff_of_false (Option.some_ne_none 0).symm fun none => many ?_
    rw [none]
    exact Nat.zero_le _

theorem mem_types_of_mem_toList {t : String} (h : t ∈ b.toList) : t ∈ b.types := by
  obtain ⟨e, he, ht⟩ := List.mem_flatMap.1 h
  rw [List.eq_of_mem_replicate ht]
  exact List.mem_map_of_mem he

/-- A bag whose tokens have names has no text exactly if it lists nothing. -/
theorem toText_eq_empty_iff (named : ∀ t ∈ b.types, t ≠ "") : b.toText = "" ↔ b.toList = [] := by
  rw [toText]
  refine ⟨fun blank => ?_, fun none => none ▸ rfl⟩
  cases listed : b.toList with
  | nil => rfl
  | cons t rest =>
    have nonempty : t ≠ "" := named t (mem_types_of_mem_toList (listed ▸ List.mem_cons_self))
    rw [listed] at blank
    cases rest with
    | nil =>
      rw [String.intercalate_singleton] at blank
      exact absurd blank nonempty
    | cons u rest =>
      rw [String.intercalate_cons_cons, String.append_eq_empty_iff, String.append_eq_empty_iff]
        at blank
      exact absurd blank.1.1 nonempty

end Size

section Kept

/-- The least that is kept of a number is one, unless it lies between zero and one. -/
theorem kept_pos_iff (above : ∀ n ∈ numbers, 0 ≤ n.2) :
    (∀ e ∈ kept numbers, 0 < e.2) ↔ ∀ n ∈ numbers, ¬ (0 < n.2 ∧ n.2 < 1) := by
  constructor
  · rintro counted n hn ⟨positive, small⟩
    have some := counted (n.1, ⌊n.2⌋₊) (mem_kept.2 ⟨n, hn, positive.ne', rfl⟩)
    exact small.not_ge (Nat.floor_pos.1 some)
  · rintro far e he
    obtain ⟨n, hn, nonzero, rfl⟩ := mem_kept.1 he
    have positive : 0 < n.2 := (above n hn).lt_of_ne' nonzero
    exact Nat.floor_pos.2 (not_lt.1 fun small => far n hn ⟨positive, small⟩)

theorem kept_ne_nil_iff (above : ∀ n ∈ numbers, 0 ≤ n.2) :
    kept numbers ≠ [] ↔ ∃ n ∈ numbers, 0 < n.2 := by
  constructor
  · intro some
    obtain ⟨e, he⟩ := List.exists_mem_of_ne_nil _ some
    obtain ⟨n, hn, nonzero, -⟩ := mem_kept.1 he
    exact ⟨n, hn, (above n hn).lt_of_ne' nonzero⟩
  · rintro ⟨n, hn, positive⟩
    exact List.ne_nil_of_mem (mem_kept.2 ⟨n, hn, positive.ne', rfl⟩)

/-- What is kept of numbers is all zero exactly if all of them are below one. -/
theorem kept_eq_zero_iff : (∀ e ∈ kept numbers, e.2 = 0) ↔ ∀ n ∈ numbers, n.2 < 1 := by
  constructor
  · intro zero n hn
    by_contra one
    have nonzero : n.2 ≠ 0 := fun none => one (none ▸ one_pos)
    have small := zero (n.1, ⌊n.2⌋₊) (mem_kept.2 ⟨n, hn, nonzero, rfl⟩)
    exact one (Nat.floor_eq_zero.1 small)
  · rintro small e he
    obtain ⟨n, hn, -, rfl⟩ := mem_kept.1 he
    exact Nat.floor_eq_zero.2 (small n hn)

end Kept

/-- A bag is made of numbers exactly if none of them is below zero, and otherwise the first that is
so is told. It has entries exactly if one of the numbers is above zero, but a size other than zero
and a text exactly if one is at least one. A payment of it is made in full, or refused with nothing
taken, or stopped at a token that counts zero and has no entry. Each of its tokens counts at least
one, and every ledger pays it in full or not at all, exactly if no number lies between zero and
one. -/
theorem ofCounts_numbers (tally : Tally counts numbers) :
    (∀ e, ofCounts counts = .error e ↔ ∃ before n after, numbers = before ++ n :: after ∧
      (∀ n ∈ before, 0 ≤ n.2) ∧ n.2 < 0 ∧ e = .negative n.1) ∧
    ((∃ b, ofCounts counts = .ok b) ↔ ∀ n ∈ numbers, 0 ≤ n.2) ∧
    ∀ b, ofCounts counts = .ok b → b.items = kept numbers ∧
      (b.isEmpty = false ↔ ∃ n ∈ numbers, 0 < n.2) ∧
      (b.size? ≠ some 0 ↔ ∃ n ∈ numbers, 1 ≤ n.2) ∧
      (b.toText ≠ "" ↔ ∃ n ∈ numbers, 1 ≤ n.2) ∧
      (∀ (l : Ledger) outcome l', l.perform (.consume (.bag b)) = (outcome, l') →
        l.Consumes b outcome l') ∧
      ((∀ e ∈ b.items, 1 ≤ e.2) ↔ ∀ n ∈ numbers, ¬ (0 < n.2 ∧ n.2 < 1)) ∧
      ((∀ l : Ledger, l.AllOrNothing b) ↔ ∀ n ∈ numbers, ¬ (0 < n.2 ∧ n.2 < 1)) := by
  refine ⟨fun e => ofCounts_eq_error_iff tally, ⟨?_, fun above => ?_⟩, fun b made => ?_⟩
  · rintro ⟨b, made⟩
    exact ((ofCounts_eq_ok_iff tally).1 made).1
  · exact ⟨_, collect_of_nonneg tally.holds above ∅⟩
  · obtain ⟨above, items⟩ := (ofCounts_eq_ok_iff tally).1 made
    have named : ∀ t ∈ b.types, t ≠ "" := by
      intro t ht
      have mentioned : t ∈ Entries.keys (kept numbers) := items ▸ ht
      obtain ⟨n, hn, rfl⟩ := List.mem_map.1 ((keys_kept_sublist numbers).subset mentioned)
      exact tally.named n hn
    have listed : b.toList ≠ [] ↔ ∃ n ∈ numbers, 1 ≤ n.2 := by
      rw [Ne, toList_eq_nil_iff, items, kept_eq_zero_iff]
      simp only [not_forall, not_lt, exists_prop]
    have counted : (∀ e ∈ b.items, 0 < e.2) ↔ ∀ n ∈ numbers, ¬ (0 < n.2 ∧ n.2 < 1) := by
      rw [items, kept_pos_iff above]
    refine ⟨items, ?_, ?_, ?_, fun l outcome l' => Ledger.consumes_of_perform, counted,
      Ledger.allOrNothing_iff_counted.trans counted⟩
    · rw [isEmpty, List.isEmpty_eq_false_iff, items, kept_ne_nil_iff above]
    · rw [Ne, size?_eq_zero_iff, ← listed]
    · rw [Ne, toText_eq_empty_iff named, ← listed]

/-- A piece of gold and half a piece of silver. -/
def cutting : Fields := [("gold", .int 1), ("silver", .float ⟨0x3FE0000000000000⟩)]

/-- The bag that is made of them. -/
def cut : TokenBag := ⟨.ofList [("gold", 1), ("silver", 0)]⟩

/-- A ledger with one piece of gold. -/
def pouch : Ledger := (Ledger.ofTokens ["gold"]).grant "gold" 1

theorem tally_cutting : Tally cutting [("gold", 1), ("silver", 1 / 2)] where
  holds := .cons ⟨rfl, by decide +kernel⟩ (.cons ⟨rfl, by decide +kernel⟩ .nil)
  distinct := by decide
  named := by decide

theorem ofCounts_cutting : ofCounts cutting = .ok cut := by rfl

theorem pouch_perform_cut : pouch.perform (.consume (.bag cut)) =
    (.error (.noEntry "silver"), Ledger.ofTokens ["gold"]) := by rfl

/-- A payment of them takes the gold and then finds no silver to take nothing of. -/
theorem cutting_ofCounts_numbers : Tally cutting [("gold", 1), ("silver", 1 / 2)] ∧
    ofCounts cutting = .ok cut ∧ cut.items = kept [("gold", 1), ("silver", 1 / 2)] ∧
    cut.isEmpty = false ∧ cut.size? ≠ some 0 ∧ cut.toText ≠ "" ∧ ¬ (∀ e ∈ cut.items, 1 ≤ e.2) ∧
    pouch.Consumes cut (.error (.noEntry "silver")) (Ledger.ofTokens ["gold"]) ∧
    ¬ ∀ l : Ledger, l.AllOrNothing cut := by
  obtain ⟨-, -, made⟩ := ofCounts_numbers tally_cutting
  obtain ⟨items, entries, size, text, consumes, counted, always⟩ := made cut ofCounts_cutting
  have between : ¬ ∀ n ∈ [("gold", (1 : Rat)), ("silver", 1 / 2)], ¬ (0 < n.2 ∧ n.2 < 1) := by
    decide +kernel
  exact ⟨tally_cutting, ofCounts_cutting, items, entries.2 (by decide +kernel),
    size.2 (by decide +kernel), text.2 (by decide +kernel), mt counted.1 between,
    consumes _ _ _ pouch_perform_cut, mt always.1 between⟩

/-- Half a piece of silver alone. -/
def clipping : Fields := [("silver", .float ⟨0x3FE0000000000000⟩)]

theorem tally_clipping : Tally clipping [("silver", 1 / 2)] where
  holds := .cons ⟨rfl, by decide +kernel⟩ .nil
  distinct := by decide
  named := by decide

/-- A bag can hold a token that counts zero. Such a bag can be there without having a size or a
text, and can be paid with an outcome that is neither a success nor a shortfall, and in part. -/
theorem not_counted_of_ofCounts :
    (¬ ∀ counts numbers b, Tally counts numbers → ofCounts counts = .ok b →
      ∀ e ∈ b.items, 1 ≤ e.2) ∧
    (¬ ∀ counts numbers b, Tally counts numbers → ofCounts counts = .ok b →
      (b.isEmpty = false ↔ ∃ n, b.size? = some n ∧ 0 < n)) ∧
    (¬ ∀ counts numbers b, Tally counts numbers → ofCounts counts = .ok b →
      (b.isEmpty = false ↔ b.toText ≠ "")) ∧
    ¬ ∀ counts numbers b, Tally counts numbers → ofCounts counts = .ok b → ∀ l : Ledger,
      (∃ l', l.perform (.consume (.bag b)) = (.ok (), l')) ∨
        ∃ lack, l.perform (.consume (.bag b)) = (.error (.insufficient lack), l) := by
  have alone : ofCounts clipping = .ok ⟨.ofList [("silver", 0)]⟩ := by rfl
  refine ⟨fun always => ?_, fun always => ?_, fun always => ?_, fun always => ?_⟩
  · have counted := always _ _ _ tally_clipping alone ("silver", 0) List.mem_cons_self
    exact absurd counted (by decide)
  · obtain ⟨n, size, positive⟩ := (always _ _ _ tally_clipping alone).1 rfl
    cases size
    exact absurd positive (by decide)
  · exact (always _ _ _ tally_clipping alone).1 rfl rfl
  · have ended := always _ _ _ tally_cutting ofCounts_cutting pouch
    rw [pouch_perform_cut] at ended
    rcases ended with ⟨l', done⟩ | ⟨lack, done⟩
    · cases done
    · cases done

end TokenGate.TokenBag

import Mathlib.Data.List.Perm.Subperm
import TokenGate.Proofs.Ledger.Consumption
import TokenGate.Proofs.Token.Words

/-!
# Bags are multisets

The bag of a list of words holds each word as often as it occurs there. Its several ways of counting
agree, and listing all that it holds gives the words back, each next to those like it. Bags are the
same exactly if they come from the same words in some order, and nothing that is computed from bags
that are the same tells them apart.
-/

namespace TokenGate

/-- Of several mentions in a row only the first can be new. -/
theorem FirstSeen.foldl_replicate (n : Nat) (t : String) (seen : List String) :
    (List.replicate (n + 1) t).foldl (fun seen t => if t ∈ seen then seen else seen ++ [t]) seen =
      if t ∈ seen then seen else seen ++ [t] := by
  induction n generalizing seen with
  | zero => rfl
  | succ n ih =>
    rw [List.replicate_succ, List.foldl_cons, ih]
    split <;> simp_all

namespace TokenBag

variable {a b : TokenBag} {ws : List String}

section Listing

variable {entries : List (String × Nat)}

theorem count_listing (distinct : (Entries.keys entries).Nodup) (token : String) :
    (entries.flatMap fun (t, n) => List.replicate n t).count token =
      (Entries.get? token entries).getD 0 := by
  induction entries with
  | nil => rfl
  | cons e rest ih =>
    obtain ⟨t, n⟩ := e
    rw [Entries.keys_cons, List.nodup_cons] at distinct
    rw [List.flatMap_cons, List.count_append, ih distinct.2, List.count_replicate, Entries.get?]
    by_cases same : t = token
    · subst same
      have none : Entries.get? t rest = none := Entries.get?_eq_none_iff.2 distinct.1
      simp [none]
    · simp [same]

theorem length_listing (entries : List (String × Nat)) (n : Nat) :
    entries.foldl (fun n e => n + e.2) n =
      n + (entries.flatMap fun (t, n) => List.replicate n t).length := by
  induction entries generalizing n with
  | nil => rfl
  | cons e rest ih =>
    rw [List.foldl_cons, ih, List.flatMap_cons, List.length_append, List.length_replicate,
      Nat.add_assoc]

theorem types_listing (counted : ∀ e ∈ entries, 0 < e.2) (seen : List String)
    (distinct : (seen ++ Entries.keys entries).Nodup) :
    (entries.flatMap fun (t, n) => List.replicate n t).foldl
        (fun seen t => if t ∈ seen then seen else seen ++ [t]) seen =
      seen ++ Entries.keys entries := by
  induction entries generalizing seen with
  | nil => exact (List.append_nil seen).symm
  | cons e rest ih =>
    obtain ⟨t, n⟩ := e
    obtain ⟨n, rfl⟩ := Nat.exists_eq_succ_of_ne_zero (counted (t, n) List.mem_cons_self).ne'
    have new : t ∉ seen := fun old =>
      (List.nodup_append.1 distinct).2.2 t old t List.mem_cons_self rfl
    rw [Entries.keys_cons, List.append_cons] at distinct ⊢
    rw [List.flatMap_cons, List.foldl_append, FirstSeen.foldl_replicate, if_neg new]
    exact ih (fun e he => counted e (List.mem_cons_of_mem _ he)) _ distinct

end Listing

/-- A bag lists each token as often as it counts it. -/
theorem count_toList (b : TokenBag) (token : String) : b.toList.count token = b.count token :=
  count_listing b.counts.nodup token

theorem length_toList (b : TokenBag) : b.toList.length = b.total := by
  rw [total, length_listing, Nat.zero_add]
  rfl

theorem perm_toList_ofWords (ws : List String) : (ofWords ws).toList.Perm ws := by
  rw [List.perm_iff_count]
  intro token
  rw [count_toList, count_ofWords]

theorem counted_ofWords (ws : List String) : ∀ e ∈ (ofWords ws).items, 0 < e.2 := by
  intro e he
  rw [← count_of_mem he, count_ofWords, List.count_pos_iff, ← mem_types_ofWords]
  exact List.mem_map_of_mem he

/-- The words of a list stand in its bag side by side with those like them. -/
theorem toList_ofWords (ws : List String) :
    (ofWords ws).toList = (ofWords ws).types.flatMap fun t => ws.filter (· == t) := by
  rw [types, Table.keys, Entries.keys, List.flatMap_map, toList]
  refine List.flatMap_congr fun e he => ?_
  rw [List.filter_beq, ← count_ofWords, count_of_mem he]

/-- What is found under a token is how often it counts, unless it does not. -/
theorem get?_of_counted (counted : ∀ e ∈ b.items, 0 < e.2) (token : String) :
    b.counts.get? token = if b.count token = 0 then none else some (b.count token) := by
  cases found : b.counts.get? token with
  | none => simp [count, found]
  | some n =>
    have positive := counted (token, n) ((Entries.get?_eq_some_iff b.counts.nodup).1 found)
    simp only [count, found, Option.getD_some]
    rw [if_neg positive.ne']

/-- A bag that asks for each of its tokens is the bag of all that it lists. -/
theorem ofWords_toList (counted : ∀ e ∈ b.items, 0 < e.2) : ofWords b.toList = b := by
  have keys : (ofWords b.toList).counts.keys = b.counts.keys := by
    have listed := types_listing counted [] b.counts.nodup
    rw [List.nil_append] at listed
    refine Eq.trans ?_ listed
    exact types_foldl_add b.toList empty
  have found (token : String) : (ofWords b.toList).counts.get? token = b.counts.get? token := by
    rw [get?_of_counted (counted_ofWords _), get?_of_counted counted, count_ofWords, count_toList]
  exact congrArg mk (Table.eq_of_get? keys found)

section Same

/-- Bags are the same exactly if they have the same entries in some order. -/
theorem same_iff_perm : a.same b = true ↔ a.items.Perm b.items := by
  have inside {e : String × Nat} : b.counts.get? e.1 = some e.2 ↔ e ∈ b.items :=
    Entries.get?_eq_some_iff b.counts.nodup
  rw [same, Bool.and_eq_true, beq_iff_eq, List.all_eq_true]
  constructor
  · rintro ⟨length, found⟩
    have subset : a.items ⊆ b.items := fun e he => inside.1 (beq_iff_eq.1 (found e he))
    have distinct : a.items.Nodup := List.Nodup.of_map Prod.fst a.counts.nodup
    exact (List.subperm_of_subset distinct subset).perm_of_length_le length.ge
  · intro perm
    exact ⟨perm.length_eq, fun e he => beq_iff_eq.2 (inside.2 (perm.mem_iff.1 he))⟩

theorem same_iff_get? : a.same b = true ↔ ∀ token, a.counts.get? token = b.counts.get? token :=
  same_iff_perm.trans Table.perm_entries_iff

/-- Bags of words are the same exactly if the words are, in some order. -/
theorem same_ofWords_iff {ws' : List String} :
    (ofWords ws).same (ofWords ws') = true ↔ ws.Perm ws' := by
  rw [same_iff_get?, List.perm_iff_count]
  constructor
  · intro h token
    rw [← count_ofWords, ← count_ofWords, count, count, h]
  · intro h token
    rw [get?_of_counted (counted_ofWords ws), get?_of_counted (counted_ofWords ws'), count_ofWords,
      count_ofWords, h]

/-- Bags that are the same have one fingerprint. -/
theorem fingerprint_eq_of_same (h : a.same b = true) : a.fingerprint = b.fingerprint := by
  have perm : a.fingerprint.Perm b.fingerprint :=
    (List.mergeSort_perm _ _).trans ((same_iff_perm.1 h).trans (List.mergeSort_perm _ _).symm)
  have sorted (b : TokenBag) : b.fingerprint.Pairwise fun p q => decide (p.1 ≤ q.1) = true := by
    refine List.pairwise_mergeSort (fun p q r below above => ?_) (fun p q => ?_) b.items
    · exact decide_eq_true (String.le_trans (of_decide_eq_true below) (of_decide_eq_true above))
    · simpa using String.le_total p.1 q.1
  refine perm.eq_of_pairwise (fun p q hp hq below above => ?_) (sorted a) (sorted b)
  have token : p.1 = q.1 :=
    String.le_antisymm (of_decide_eq_true below) (of_decide_eq_true above)
  have hp' := count_of_mem ((List.mergeSort_perm _ _).mem_iff.1 hp)
  have hq' := count_of_mem ((List.mergeSort_perm _ _).mem_iff.1 hq)
  refine Prod.ext token ?_
  rw [← hp', ← hq', token, count, count, same_iff_get?.1 h]

/-- Of bags that are the same, every ledger lacks the same. -/
theorem get?_missing_of_same (h : a.same b = true) (l : Ledger) (token : String) :
    Entries.get? token (l.missing a) = Entries.get? token (l.missing b) := by
  have distinct : (Entries.keys (l.missing a)).Nodup := by
    rw [(l.lacks_missing a).tokens]
    exact a.nodup_types.filter _
  exact Entries.get?_of_perm distinct ((same_iff_perm.1 h).filterMap _)

end Same

/-- A bag holds the words of a list: it counts each as often as it occurs there, mentions them in
the order in which they first occur, counts them all, unless there are too many to be counted, lists
those that are alike side by side, and is read again from what it lists. -/
structure Denotes (b : TokenBag) (ws : List String) : Prop where
  count : ∀ token, b.count token = ws.count token
  types : FirstSeen ws b.types
  total : b.total = ws.length
  size : b.size? = if ws.length ≤ sizeLimit then some ws.length else none
  length : b.toList.length = ws.length
  grouped : b.toList = b.types.flatMap fun t => ws.filter (· == t)
  reread : parse (.list (b.toList.map .str)) = .ok b

theorem denotes_ofWords (nonempty : ws ≠ []) (named : ∀ w ∈ ws, isTokenName w = true) :
    (ofWords ws).Denotes ws := by
  have perm := perm_toList_ofWords ws
  have total : (ofWords ws).total = ws.length := (length_toList _).symm.trans perm.length_eq
  have there : Value.list ((ofWords ws).toList.map .str) ≠ .null := nofun
  refine ⟨count_ofWords ws, firstSeen_types_ofWords ws, total, by rw [size?, total],
    perm.length_eq, toList_ofWords ws, (parse_eq_ok there).2 ⟨_, .list _, ?_, ?_, ?_⟩⟩
  · exact fun none => nonempty (List.nil_perm.1 (none ▸ perm))
  · exact fun w hw => named w (perm.mem_iff.1 hw)
  · exact (ofWords_toList (counted_ofWords ws)).symm

/-- A word of a text is a token name exactly if it is an identifier. -/
theorem isTokenName_of_mem_words {s w : String} (h : w ∈ Text.words s) :
    isTokenName w = Text.isIdentifier w.toList := by
  rw [Bool.eq_iff_iff, isTokenName_iff]
  refine ⟨fun named => named.resolve_right ?_, .inl⟩
  rintro ⟨u, -, rfl⟩
  have solid := Text.solid_of_mem_words h '\n' (by simp)
  exact absurd solid (by decide)

/-- A text is a token list exactly if it has words and all of them are identifiers; otherwise the
first that is none is told. What is read from a text or a list is the multiset of its words. Bags
that are read are the same exactly if their words are, in some order; and bags that are the same,
wherever they come from, have one fingerprint, and every ledger lacks the same of both. -/
theorem parse_words :
    (∀ s, ((∃ b, parse (.str s) = .ok b) ↔
        Text.words s ≠ [] ∧ ∀ w ∈ Text.words s, Text.isIdentifier w.toList = true) ∧
      ∀ e, parse (.str s) = .error e → (Text.words s = [] ∧ e = .empty s) ∨
        ∃ before w after, Text.words s = before ++ w :: after ∧
          (∀ u ∈ before, Text.isIdentifier u.toList = true) ∧
          Text.isIdentifier w.toList = false ∧ e = .invalid (.str w) s) ∧
    (∀ v b, v ≠ .null → parse v = .ok b → ∃ ws, Wording v ws ∧ b.Denotes ws) ∧
    (∀ v v' ws ws' b b', Wording v ws → Wording v' ws' → parse v = .ok b → parse v' = .ok b' →
      (b.same b' = true ↔ ws.Perm ws')) ∧
    ∀ b b' : TokenBag, b.same b' = true → b.fingerprint = b'.fingerprint ∧
      ∀ l : Ledger, ∃ lack lack', l.shortfall (.bag b) = .ok lack ∧
        l.shortfall (.bag b') = .ok lack' ∧
        ∀ token, Entries.get? token lack = Entries.get? token lack' := by
  have read {v : Value} {ws : List String} {b : TokenBag} (given : Wording v ws)
      (h : parse v = .ok b) : b = ofWords ws ∧ b.Denotes ws := by
    obtain ⟨ws', given', nonempty, named, rfl⟩ := (parse_eq_ok given.there).1 h
    rw [given.unique given']
    exact ⟨rfl, denotes_ofWords nonempty named⟩
  refine ⟨fun s => ⟨?_, fun e h => ?_⟩, fun v b there h => ?_,
    fun v v' ws ws' b b' given given' h h' => ?_,
    fun b b' same => ⟨fingerprint_eq_of_same same, fun l => ?_⟩⟩
  · rw [parse_str_iff]
    exact and_congr_right fun _ => forall₂_congr fun w hw => by rw [isTokenName_of_mem_words hw]
  · refine (parse_str_error h).imp_right ?_
    rintro ⟨before, w, after, split, named, unnamed, rfl⟩
    have same {u : String} (hu : u ∈ before ++ w :: after) :
        isTokenName u = Text.isIdentifier u.toList := isTokenName_of_mem_words (split ▸ hu)
    refine ⟨before, w, after, split, fun u hu => ?_, ?_, rfl⟩
    · rw [← same (List.mem_append_left _ hu), named u hu]
    · rw [← same (List.mem_append_right _ List.mem_cons_self), unnamed]
  · obtain ⟨ws, given, -⟩ := (parse_eq_ok there).1 h
    exact ⟨ws, given, (read given h).2⟩
  · rw [(read given h).1, (read given' h').1, same_ofWords_iff]
  · exact ⟨_, _, rfl, rfl, get?_missing_of_same same l⟩

/-- A text, and a list of the same words in another order. -/
theorem parse_words_toll :
    Text.words " gold iron\tgold" = ["gold", "iron", "gold"] ∧
    ∃ b b', parse (.str " gold iron\tgold") = .ok b ∧
      parse (.list [.str "iron", .str "gold", .str "gold"]) = .ok b' ∧
      b.Denotes ["gold", "iron", "gold"] ∧ b.same b' = true ∧ b.fingerprint = b'.fingerprint := by
  obtain ⟨texts, multiset, same, alike⟩ := parse_words
  have words : Text.words " gold iron\tgold" = ["gold", "iron", "gold"] := by decide +kernel
  obtain ⟨b, hb⟩ := (texts " gold iron\tgold").1.2 (by rw [words]; decide +kernel)
  have written : Wording (.str " gold iron\tgold") ["gold", "iron", "gold"] := words ▸ .text _
  have listed : Wording (.list [.str "iron", .str "gold", .str "gold"]) ["iron", "gold", "gold"] :=
    .list ["iron", "gold", "gold"]
  obtain ⟨ws, given, denotes⟩ := multiset _ b written.there hb
  obtain rfl : ws = ["gold", "iron", "gold"] := given.unique written
  have hb' := (parse_eq_ok listed.there).2
    ⟨_, listed, List.cons_ne_nil _ _, by decide +kernel, rfl⟩
  have equal := (same _ _ _ _ b _ written listed hb hb').2 (by decide)
  exact ⟨words, b, _, hb, hb', denotes, equal, (alike _ _ equal).1⟩

end TokenBag
end TokenGate

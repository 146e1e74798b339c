import Mathlib.Algebra.Order.Ring.Rat
import Mathlib.Data.List.Forall2
import Mathlib.Data.List.Perm.Subperm
import Mathlib.Data.String.Basic
import Mathlib.Order.Compare
import Mathlib.Order.WithBot
import TokenGate.Proofs.Table
import TokenGate.Value.Order

/-!
# Laws of the order of values

Where no object has a key twice and doubles are numbers, the equality of values is an equivalence,
and equal values stand in the same order to all others. The order is that of a linear order as far
as it goes: what comes before something comes before all that comes after it, and two values with an
order are equal exactly if neither comes first. Values of different sorts, and lists whose first
unequal items are of different sorts, have no order.
-/

namespace TokenGate

open Number

namespace Number.Extended

/-- The place of a number on the rational line with an end at either side. -/
def place : Extended → WithBot (WithTop Rat)
  | negInfinite => ⊥
  | finite q => ((q : WithTop Rat) : WithBot (WithTop Rat))
  | posInfinite => ((⊤ : WithTop Rat) : WithBot (WithTop Rat))

theorem lt_iff (p q : Extended) : p.lt q = true ↔ p.place < q.place := by
  cases p <;> cases q <;> simp [lt, place, -WithBot.coe_top]

theorem place_inj {p q : Extended} : p.place = q.place ↔ p = q := by
  cases p <;> cases q <;> simp [place]

end Number.Extended

namespace Value

variable {u v w : Value} {p q : Extended} {o : Ordering} {us vs ws : List Value}

/-- No object in a value has a key twice, and all doubles in it are numbers. -/
inductive Keyed : Value → Prop where
  | null : Keyed null
  | number {v : Value} {p : Extended} (hp : v.number? = some p) : Keyed v
  | str (s : String) : Keyed (str s)
  | list {items : List Value} (each : ∀ v ∈ items, Keyed v) : Keyed (list items)
  | object {fields : Fields} (distinct : (Entries.keys fields).Nodup)
      (each : ∀ e ∈ fields, Keyed e.2) : Keyed (object fields)

section Equality

/-- What it takes for two values to be equal. -/
inductive Equals : Value → Value → Prop where
  | null : Equals null null
  | numbers {v w : Value} {p : Extended} (hv : v.number? = some p) (hw : w.number? = some p) :
      Equals v w
  | texts (s : String) : Equals (str s) (str s)
  | lists {items others : List Value}
      (each : List.Forall₂ (fun v w => v.same w = true) items others) :
      Equals (list items) (list others)
  | objects {fields others : Fields} (length : fields.length = others.length)
      (each : ∀ e ∈ fields, ∃ x, Entries.get? e.1 others = some x ∧ e.2.same x = true) :
      Equals (object fields) (object others)

theorem equalItems_cons (v w : Value) (vs ws : List Value) :
    equalItems (v :: vs) (w :: ws) = (v.same w && equalItems vs ws) := by
  rw [equalItems, same]

theorem equalItems_iff {items others : List Value} :
    equalItems items others = true ↔
      List.Forall₂ (fun v w => v.same w = true) items others := by
  induction items generalizing others with
  | nil => cases others <;> simp [equalItems]
  | cons v rest ih =>
    cases others with
    | nil => simp [equalItems]
    | cons w others => simp [equalItems_cons, ih]

theorem equalFields_iff {fields others : Fields} :
    equalFields fields others = true ↔
      ∀ e ∈ fields, ∃ x, Entries.get? e.1 others = some x ∧ e.2.same x = true := by
  induction fields with
  | nil => simp [equalFields]
  | cons e rest ih =>
    obtain ⟨k, v⟩ := e
    rw [equalFields, Bool.and_eq_true, ih, List.forall_mem_cons]
    refine and_congr_left fun _ => ?_
    cases Entries.get? k others <;> simp [same]

theorem equal_of_number? (hp : v.number? = some p) (w : Value) :
    v.equal w = true ↔ w.number? = some p := by
  cases v <;> simp_all [number?, equal]

theorem isNaN_of_keyed (hv : v.Keyed) : v.isNaN = false := by
  cases hv with
  | number hp =>
    cases v with
    | float x =>
      rw [number?, Double.extended?] at hp
      cases h : x.isNaN with
      | false => exact h
      | true =>
        have bounded : x.isFinite = false := by
          simp only [Double.isNaN, Bool.and_eq_true, Bool.not_eq_true'] at h
          exact h.1
        simp [h, bounded] at hp
    | _ => rfl
  | _ => rfl

/-- Numbers are the same to what holds them exactly if they are equal. -/
theorem same_of_keyed (hv : v.Keyed) (w : Value) : v.same w = v.equal w := by
  rw [same, isNaN_of_keyed hv, Bool.false_and, Bool.or_false]

theorem equal_iff : v.equal w = true ↔ Equals v w := by
  constructor
  · intro h
    cases v with
    | null =>
      cases w with
      | null => exact .null
      | _ => cases h
    | str s =>
      cases w with
      | str t =>
        obtain rfl : t = s := by simpa [equal, str?] using h
        exact .texts t
      | _ => cases h
    | list items =>
      cases w with
      | list others => exact .lists (equalItems_iff.1 h)
      | _ => cases h
    | object fields =>
      cases w with
      | object others =>
        rw [equal, Bool.and_eq_true, beq_iff_eq, equalFields_iff] at h
        exact .objects h.1 h.2
      | _ => cases h
    | bool b => exact .numbers rfl ((equal_of_number? rfl w).1 h)
    | int n => exact .numbers rfl ((equal_of_number? rfl w).1 h)
    | float x =>
      rw [equal] at h
      split at h
      · rename_i p hp
        exact .numbers hp (beq_iff_eq.1 h)
      · cases h
  · intro h
    cases h with
    | null => rfl
    | numbers hv hw => exact (equal_of_number? hv w).2 hw
    | texts s => simp [equal, str?]
    | lists each => exact equalItems_iff.2 each
    | objects length each =>
      rw [equal, Bool.and_eq_true, beq_iff_eq, equalFields_iff]
      exact ⟨length, each⟩

/-- Values that are equal are so from either side. -/
theorem equal_symm (hv : v.Keyed) (hw : w.Keyed) (h : v.equal w = true) : w.equal v = true := by
  induction hv generalizing w with
  | null =>
    cases equal_iff.1 h with
    | null => exact h
    | numbers hp => cases hp
  | number hp => exact (equal_of_number? ((equal_of_number? hp w).1 h) _).2 hp
  | str s =>
    cases equal_iff.1 h with
    | texts => exact h
    | numbers hp => cases hp
  | @list items own ih =>
    cases equal_iff.1 h with
    | numbers hp => cases hp
    | @lists _ others same =>
      cases hw with
      | number hp => cases hp
      | list each =>
        refine equal_iff.2 (.lists ?_)
        clear h
        induction same with
        | nil => exact .nil
        | cons first _ more =>
          rw [List.forall_mem_cons] at ih own each
          rw [same_of_keyed own.1] at first
          refine .cons ?_ (more own.2 ih.2 each.2)
          rw [same_of_keyed each.1]
          exact ih.1 each.1 first
  | @object fields distinct own ih =>
    cases equal_iff.1 h with
    | numbers hp => cases hp
    | @objects _ others length same =>
      cases hw with
      | number hp => cases hp
      | object distinct' each =>
        refine equal_iff.2 (.objects length.symm fun e he => ?_)
        -- As many keys on either side, and those of one are among those of the other.
        have within : Entries.keys fields ⊆ Entries.keys others := by
          intro key hkey
          obtain ⟨f, hf, rfl⟩ := List.mem_map.1 hkey
          obtain ⟨x, hx, -⟩ := same f hf
          rw [← Entries.get?_isSome, hx]
          rfl
        have perm : (Entries.keys fields).Perm (Entries.keys others) :=
          (List.subperm_of_subset distinct within).perm_of_length_le
            (by simp [Entries.keys, length])
        obtain ⟨f, hf, key⟩ := List.mem_map.1 (perm.mem_iff.2 (List.mem_map_of_mem he))
        obtain ⟨x, hx, equal⟩ := same f hf
        rw [key, Entries.get?_of_mem distinct' he, Option.some.injEq] at hx
        subst hx
        rw [same_of_keyed (own f hf)] at equal
        refine ⟨f.2, key ▸ Entries.get?_of_mem distinct hf, ?_⟩
        rw [same_of_keyed (each e he)]
        exact ih f hf (each e he) equal

theorem equal_trans (hu : u.Keyed) (hv : v.Keyed) (h : u.equal v = true)
    (h' : v.equal w = true) : u.equal w = true := by
  induction hu generalizing v w with
  | null =>
    cases equal_iff.1 h with
    | null => exact h'
    | numbers hp => cases hp
  | number hp =>
    have hq := (equal_of_number? hp v).1 h
    exact (equal_of_number? hp w).2 ((equal_of_number? hq w).1 h')
  | str s =>
    cases equal_iff.1 h with
    | texts => exact h'
    | numbers hp => cases hp
  | @list us own ih =>
    cases equal_iff.1 h with
    | numbers hp => cases hp
    | @lists _ vs first =>
      cases hv with
      | number hp => cases hp
      | list each =>
        cases equal_iff.1 h' with
        | numbers hp => cases hp
        | @lists _ ws second =>
          refine equal_iff.2 (.lists ?_)
          clear h h'
          induction first generalizing ws with
          | nil =>
            cases second
            exact .nil
          | cons heads _ more =>
            cases second with
            | cons heads' tails' =>
              rw [List.forall_mem_cons] at ih own each
              rw [same_of_keyed own.1] at heads
              rw [same_of_keyed each.1] at heads'
              refine .cons ?_ (more own.2 ih.2 each.2 tails')
              rw [same_of_keyed own.1]
              exact ih.1 each.1 heads heads'
  | @object fields _ own ih =>
    cases equal_iff.1 h with
    | numbers hp => cases hp
    | @objects _ others length same =>
      cases hv with
      | number hp => cases hp
      | object distinct each =>
        cases equal_iff.1 h' with
        | numbers hp => cases hp
        | objects length' same' =>
          refine equal_iff.2 (.objects (length.trans length') fun e he => ?_)
          obtain ⟨x, hx, equal⟩ := same e he
          have mem := (Entries.get?_eq_some_iff distinct).1 hx
          obtain ⟨y, hy, equal'⟩ := same' _ mem
          rw [same_of_keyed (own e he)] at equal
          rw [same_of_keyed (each _ mem)] at equal'
          refine ⟨y, hy, ?_⟩
          rw [same_of_keyed (own e he)]
          exact ih e he (each _ mem) equal equal'

/-- It does not matter which of two equal values something is compared with. -/
theorem equal_congr_left (hu : u.Keyed) (hv : v.Keyed) (h : u.equal v = true) (w : Value) :
    u.equal w = v.equal w := by
  rw [Bool.eq_iff_iff]
  exact ⟨equal_trans hv hu (equal_symm hu hv h), equal_trans hu hv h⟩

theorem equal_comm (hv : v.Keyed) (hw : w.Keyed) : v.equal w = w.equal v := by
  rw [Bool.eq_iff_iff]
  exact ⟨equal_symm hv hw, equal_symm hw hv⟩

end Equality

section Order

theorem orderNumbers_eq_cmp (p : Extended) : orderNumbers p = fun q => cmp p.place q.place := by
  funext q
  rw [orderNumbers, cmp, cmpUsing]
  simp only [Extended.lt_iff]

theorem order?_of_number? (hp : v.number? = some p) (w : Value) :
    v.order? w = w.number?.map fun q => cmp p.place q.place := by
  rw [← orderNumbers_eq_cmp]
  cases v <;> simp_all [number?, order?]

theorem order?_str_iff {s : String} :
    (str s).order? w = some o ↔ ∃ t, w = str t ∧ cmp s t = o := by
  constructor
  · intro h
    cases w with
    | str t => exact ⟨t, rfl, Option.some.inj h⟩
    | _ => cases h
  · rintro ⟨t, rfl, rfl⟩
    rfl

theorem order?_list_iff {items : List Value} :
    (list items).order? w = some o ↔
      ∃ others, w = list others ∧ orderItems items others = some o := by
  cases w <;> simp [order?]

/-- The first items of two lists decide unless they are the same. -/
theorem orderItems_cons (v w : Value) (vs ws : List Value) :
    orderItems (v :: vs) (w :: ws) = if v.same w then orderItems vs ws else v.order? w := by
  rw [orderItems]

/-- Two values with an order are equal exactly if neither comes first. -/
theorem equal_iff_of_order? (hv : v.Keyed) (h : v.order? w = some o) :
    v.equal w = true ↔ o = .eq := by
  induction hv generalizing w o with
  | null => cases h
  | number hp =>
    rw [order?_of_number? hp, Option.map_eq_some_iff] at h
    obtain ⟨q, hq, rfl⟩ := h
    rw [equal_of_number? hp, hq, cmp_eq_eq_iff, Extended.place_inj, Option.some.injEq]
    exact eq_comm
  | str s =>
    obtain ⟨t, rfl, rfl⟩ := order?_str_iff.1 h
    rw [cmp_eq_eq_iff, equal, str?, beq_iff_eq, Option.some.injEq]
    exact eq_comm
  | object => cases h
  | @list items own ih =>
    obtain ⟨others, rfl, ordered⟩ := order?_list_iff.1 h
    show equalItems items others = true ↔ o = .eq
    clear h
    induction items generalizing others with
    | nil =>
      cases others with
      | nil =>
        cases ordered
        exact iff_of_true rfl rfl
      | cons w ws =>
        cases ordered
        exact iff_of_false nofun nofun
    | cons v vs more =>
      cases others with
      | nil =>
        cases ordered
        exact iff_of_false nofun nofun
      | cons w ws =>
        rw [List.forall_mem_cons] at ih own
        rw [orderItems_cons, same_of_keyed own.1] at ordered
        rw [equalItems_cons, same_of_keyed own.1, Bool.and_eq_true]
        split at ordered
        · rename_i same
          rw [more own.2 ih.2 ws ordered, and_iff_right same]
        · rename_i apart
          exact iff_of_false (fun both => apart both.1) (mt (ih.1 ordered).2 apart)

/-- Seen from the other side, the order of two values is turned round. -/
theorem order?_swap (hv : v.Keyed) (hw : w.Keyed) (h : v.order? w = some o) :
    w.order? v = some o.swap := by
  induction hv generalizing w o with
  | null => cases h
  | number hp =>
    rw [order?_of_number? hp, Option.map_eq_some_iff] at h
    obtain ⟨q, hq, rfl⟩ := h
    rw [order?_of_number? hq, hp, Option.map_some, cmp_swap]
  | str s =>
    obtain ⟨t, rfl, rfl⟩ := order?_str_iff.1 h
    exact order?_str_iff.2 ⟨s, rfl, (cmp_swap s t).symm⟩
  | object => cases h
  | @list items own ih =>
    obtain ⟨others, rfl, ordered⟩ := order?_list_iff.1 h
    cases hw with
    | number hp => cases hp
    | list each =>
      refine order?_list_iff.2 ⟨items, rfl, ?_⟩
      clear h
      induction items generalizing others with
      | nil => cases others <;> cases ordered <;> rfl
      | cons v vs more =>
        cases others with
        | nil =>
          cases ordered
          rfl
        | cons w ws =>
          rw [List.forall_mem_cons] at ih own each
          rw [orderItems_cons, same_of_keyed own.1, equal_comm own.1 each.1] at ordered
          rw [orderItems_cons, same_of_keyed each.1]
          split at ordered
          · rename_i same
            rw [if_pos same]
            exact more own.2 ih.2 ws ordered each.2
          · rename_i apart
            rw [if_neg apart]
            exact ih.1 each.1 ordered

theorem order?_comm (hv : v.Keyed) (hw : w.Keyed) :
    v.order? w = some o ↔ w.order? v = some o.swap := by
  refine ⟨order?_swap hv hw, fun h => ?_⟩
  rw [order?_swap hw hv h, Ordering.swap_swap]

/-- Equal values stand in the same order to all others. -/
theorem order?_congr_left (hu : u.Keyed) (hv : v.Keyed) (h : u.equal v = true) (w : Value) :
    u.order? w = v.order? w := by
  induction hu generalizing v w with
  | null =>
    cases equal_iff.1 h with
    | null => rfl
    | numbers hp => cases hp
  | number hp =>
    rw [order?_of_number? hp, order?_of_number? ((equal_of_number? hp v).1 h)]
  | str s =>
    cases equal_iff.1 h with
    | texts => rfl
    | numbers hp => cases hp
  | object =>
    cases equal_iff.1 h with
    | objects => rfl
    | numbers hp => cases hp
  | @list us own ih =>
    cases equal_iff.1 h with
    | numbers hp => cases hp
    | @lists _ vs same =>
      cases hv with
      | number hp => cases hp
      | list each =>
        cases w with
        | list ws =>
          show orderItems us ws = orderItems vs ws
          clear h
          induction same generalizing ws with
          | nil => rfl
          | cons heads tails more =>
            rw [List.forall_mem_cons] at ih own each
            cases ws with
            | nil => rfl
            | cons w ws =>
              rw [same_of_keyed own.1] at heads
              rw [orderItems_cons, orderItems_cons, same_of_keyed own.1, same_of_keyed each.1,
                equal_congr_left own.1 each.1 heads, more own.2 ih.2 each.2, ih.1 each.1 heads]
        | _ => rfl

theorem order?_congr_right (hu : u.Keyed) (hv : v.Keyed) (hw : w.Keyed) (h : v.equal w = true) :
    u.order? v = u.order? w := by
  ext o
  rw [order?_comm hu hv, order?_comm hu hw, order?_congr_left hv hw h]

/-- What comes before a value comes before all that comes after it. -/
theorem order?_trans (hu : u.Keyed) (hv : v.Keyed) (hw : w.Keyed) (h : u.order? v = some .lt)
    (h' : v.order? w = some .lt) : u.order? w = some .lt := by
  induction hu generalizing v w with
  | null => cases h
  | number hp =>
    rw [order?_of_number? hp, Option.map_eq_some_iff] at h
    obtain ⟨q, hq, below⟩ := h
    rw [order?_of_number? hq, Option.map_eq_some_iff] at h'
    obtain ⟨r, hr, above⟩ := h'
    rw [cmp_eq_lt_iff] at below above
    rw [order?_of_number? hp, hr, Option.map_some, (cmp_eq_lt_iff _ _).2 (below.trans above)]
  | str s =>
    obtain ⟨t, rfl, below⟩ := order?_str_iff.1 h
    obtain ⟨r, rfl, above⟩ := order?_str_iff.1 h'
    rw [cmp_eq_lt_iff] at below above
    exact order?_str_iff.2 ⟨r, rfl, (cmp_eq_lt_iff _ _).2 (below.trans above)⟩
  | object => cases h
  | @list us own ih =>
    obtain ⟨vs, rfl, below⟩ := order?_list_iff.1 h
    obtain ⟨ws, rfl, above⟩ := order?_list_iff.1 h'
    cases hv with
    | number hp => cases hp
    | list each =>
    cases hw with
    | number hp => cases hp
    | list each' =>
    refine order?_list_iff.2 ⟨ws, rfl, ?_⟩
    clear h h'
    induction us generalizing vs ws with
    | nil =>
      cases vs with
      | nil => cases below
      | cons v vs =>
        cases ws with
        | nil => cases above
        | cons w ws => rfl
    | cons u us more =>
      cases vs with
      | nil => cases below
      | cons v vs =>
        cases ws with
        | nil => cases above
        | cons w ws =>
          rw [List.forall_mem_cons] at ih own each each'
          rw [orderItems_cons, same_of_keyed own.1] at below ⊢
          rw [orderItems_cons, same_of_keyed each.1] at above
          by_cases first : u.equal v = true
          · rw [if_pos first] at below
            rw [equal_congr_left own.1 each.1 first, order?_congr_left own.1 each.1 first]
            split at above
            · rename_i second
              rw [if_pos second]
              exact more own.2 ih.2 vs below ws above each.2 each'.2
            · rename_i second
              rwa [if_neg second]
          · rw [if_neg first] at below
            have before : u.order? w = some .lt := by
              split at above
              · rename_i second
                rwa [← order?_congr_right own.1 each.1 each'.1 second]
              · exact ih.1 each.1 each'.1 below above
            rw [if_neg (mt (equal_iff_of_order? own.1 before).1 nofun), before]

/-- Two values are numbers or truth values, or texts, or lists. -/
inductive Kindred : Value → Value → Prop where
  | numbers {v w : Value} {p q : Extended} (hv : v.number? = some p) (hw : w.number? = some q) :
      Kindred v w
  | texts (s t : String) : Kindred (str s) (str t)
  | lists (items others : List Value) : Kindred (list items) (list others)

/-- Only values of a sort that has an order have one. -/
theorem kindred_of_order? (hv : v.Keyed) (h : v.order? w = some o) : Kindred v w := by
  cases hv with
  | null => cases h
  | number hp =>
    rw [order?_of_number? hp, Option.map_eq_some_iff] at h
    obtain ⟨q, hq, -⟩ := h
    exact .numbers hp hq
  | str s =>
    obtain ⟨t, rfl, -⟩ := order?_str_iff.1 h
    exact .texts s t
  | list =>
    obtain ⟨others, rfl, -⟩ := order?_list_iff.1 h
    exact .lists _ _
  | object => cases h

theorem orderItems_of_equal {items others : List Value}
    (h : List.Forall₂ (fun v w => v.same w = true) items others) :
    orderItems items others = some .eq := by
  induction h with
  | nil => rfl
  | cons first _ more => rw [orderItems_cons, if_pos first, more]

/-- Of two values neither comes first exactly if they are equal and of a sort that has an order. -/
theorem order?_eq_some_eq_iff (hv : v.Keyed) :
    v.order? w = some .eq ↔ v.equal w = true ∧ Kindred v w := by
  constructor
  · intro h
    exact ⟨(equal_iff_of_order? hv h).2 rfl, kindred_of_order? hv h⟩
  · rintro ⟨same, kindred⟩
    have level {o : Ordering} (ordered : v.order? w = some o) : v.order? w = some .eq := by
      rw [ordered, (equal_iff_of_order? hv ordered).1 same]
    cases kindred with
    | numbers hp hq => exact level (by rw [order?_of_number? hp, hq, Option.map_some])
    | texts s t => exact level (order?_str_iff.2 ⟨t, rfl, rfl⟩)
    | lists items others => exact orderItems_of_equal (equalItems_iff.1 same)

end Order

end Value
end TokenGate

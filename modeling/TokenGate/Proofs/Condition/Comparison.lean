import TokenGate.Condition
import TokenGate.Proofs.Value.Order

/-!
# Laws of comparisons

What a comparison gives depends on the two values that its operands come to, and on nothing else,
whatever there is besides data. On
values of all sorts, nested and mixed in any way, the six relations go together as those of an order
do, with one exception: to be equal is not enough to be at most the other, as there are equal values
that have no order.
-/

namespace TokenGate.Condition

variable {op : Comparison} {l m r : Value} {b : Bool}

/-- An expression comes to a value in a scope: it stands for the value, and it has no path that
fails. -/
structure Expr.ComesTo (e : Expr) (s : Scope) (v : Value) : Prop where
  eval : e.eval s = .value v
  fails : e.fails s = false

namespace Comparison

/-- A text compiles to a comparison of two expressions, which come to two values in a scope, and
this is whether the condition holds there. -/
inductive Compares (op : Comparison) (l r : Value) (b : Bool) : Prop where
  | mk {text : String} {left right : Expr} {s : Scope}
      (compiled : compile text = .ok ⟨text, .compare op left right⟩) (comes : left.ComesTo s l)
      (comes' : right.ComesTo s r)
      (holds : Condition.holds? ⟨text, .compare op left right⟩ s = .ok b)

theorem holds?_of_comesTo {text : String} {left right : Expr} {s : Scope} (comes : left.ComesTo s l)
    (comes' : right.ComesTo s r) :
    Condition.holds? ⟨text, .compare op left right⟩ s = .ok (op.between l r) := by
  rw [Condition.holds?, if_neg (by simp [Expr.fails, comes.fails, comes'.fails]), Condition.holds,
    Expr.eval, comes.eval, comes'.eval]
  rfl

/-- An event that comes with two values. -/
def sides (l r : Value) : Scope := { Scope.empty with payload := [("l", l), ("r", r)] }

theorem compile_sides (op : Comparison) :
    ∃ text, compile text = .ok ⟨text, .compare op (.path ⟨"l", []⟩) (.path ⟨"r", []⟩)⟩ := by
  cases op with
  | equal => exact ⟨"l==r", by rfl⟩
  | notEqual => exact ⟨"l!=r", by rfl⟩
  | less => exact ⟨"l<r", by rfl⟩
  | atMost => exact ⟨"l<=r", by rfl⟩
  | greater => exact ⟨"l>r", by rfl⟩
  | atLeast => exact ⟨"l>=r", by rfl⟩

theorem compares_iff : op.Compares l r b ↔ op.between l r = b := by
  constructor
  · rintro ⟨-, comes, comes', holds⟩
    rw [holds?_of_comesTo comes comes'] at holds
    exact Except.ok.inj holds
  · rintro rfl
    obtain ⟨text, compiled⟩ := compile_sides op
    have comes : (Expr.path ⟨"l", []⟩).ComesTo (sides l r) l := ⟨rfl, rfl⟩
    have comes' : (Expr.path ⟨"r", []⟩).ComesTo (sides l r) r := ⟨rfl, rfl⟩
    exact ⟨compiled, comes, comes', holds?_of_comesTo comes comes'⟩

theorem less_between : less.between l r = true ↔ l.order? r = some .lt := beq_iff_eq

theorem greater_between : greater.between l r = true ↔ l.order? r = some .gt := beq_iff_eq

theorem atMost_between :
    atMost.between l r = true ↔ l.order? r = some .lt ∨ l.order? r = some .eq := by
  simp [between]

theorem atLeast_between :
    atLeast.between l r = true ↔ l.order? r = some .gt ∨ l.order? r = some .eq := by
  simp [between]

theorem less_eq_greater (hl : l.Keyed) (hr : r.Keyed) : less.between l r = greater.between r l := by
  rw [Bool.eq_iff_iff, less_between, greater_between, Value.order?_comm hl hr]
  rfl

theorem atMost_eq_atLeast (hl : l.Keyed) (hr : r.Keyed) :
    atMost.between l r = atLeast.between r l := by
  rw [Bool.eq_iff_iff, atMost_between, atLeast_between, Value.order?_comm hl hr,
    Value.order?_comm (o := .eq) hl hr]
  rfl

/-- At most one of two values is less than the other, equal to it, or greater. -/
theorem exclusive (hl : l.Keyed) :
    ¬ (less.between l r = true ∧ equal.between l r = true) ∧
    ¬ (equal.between l r = true ∧ greater.between l r = true) ∧
    ¬ (less.between l r = true ∧ greater.between l r = true) := by
  have apart {o : Ordering} (ordered : l.order? r = some o) (same : l.equal r = true) : o = .eq :=
    (Value.equal_iff_of_order? hl ordered).1 same
  rw [less_between, greater_between]
  refine ⟨?_, ?_, ?_⟩
  · rintro ⟨before, same⟩
    cases apart before same
  · rintro ⟨same, after⟩
    cases apart after same
  · rintro ⟨before, after⟩
    rw [before] at after
    cases after

/-- Whether a comparison holds is determined by the values that its operands come to. For values in
which no object has a key twice, and every nesting of them: to be unequal is the negation of being
equal; less and greater, and at most and at least, are the same from either side; at most one of
less, equal and greater holds; what is less than something, or equal to it, is less than all that it
is less than; and at most means less, or equal and of a sort that has an order. -/
theorem comparison_laws :
    (∀ (op : Comparison) (l r : Value) (b : Bool), op.Compares l r b ↔ op.between l r = b) ∧
    ∀ l m r : Value, l.Keyed → m.Keyed → r.Keyed →
      notEqual.between l r = (!equal.between l r) ∧
      less.between l r = greater.between r l ∧ atMost.between l r = atLeast.between r l ∧
      (¬ (less.between l r = true ∧ equal.between l r = true) ∧
        ¬ (equal.between l r = true ∧ greater.between l r = true) ∧
        ¬ (less.between l r = true ∧ greater.between l r = true)) ∧
      (less.between l m = true → less.between m r = true → less.between l r = true) ∧
      (equal.between l m = true → less.between m r = true → less.between l r = true) ∧
      (atMost.between l r = true ↔
        less.between l r = true ∨ (equal.between l r = true ∧ Value.Kindred l r)) := by
  refine ⟨fun op l r b => compares_iff, fun l m r hl hm hr => ⟨rfl, less_eq_greater hl hr,
    atMost_eq_atLeast hl hr, exclusive hl, ?_, ?_, ?_⟩⟩
  · simp only [less_between]
    exact Value.order?_trans hl hm hr
  · intro same
    simp only [less_between]
    rw [Value.order?_congr_left hl hm same]
    exact id
  · rw [atMost_between, less_between, Value.order?_eq_some_eq_iff hl]
    rfl

/-- One, as a double. -/
def oneDouble : Value := .float ⟨0x3FF0000000000000⟩

/-- Lists that begin with one in three ways, and then with an object that has no order. -/
def ladder (one : Value) (rest : List Value) : Value :=
  .list (one :: .object [("of", one)] :: rest)

theorem keyed_ladder {one : Value} {p : Number.Extended} {rest : List Value}
    (hp : one.number? = some p) (each : ∀ v ∈ rest, v.Keyed) : (ladder one rest).Keyed := by
  have keyed : one.Keyed := .number hp
  refine .list (List.forall_mem_cons.2 ⟨keyed, List.forall_mem_cons.2 ⟨?_, each⟩⟩)
  exact .object (List.nodup_singleton _) (List.forall_mem_singleton.2 keyed)

theorem comparison_laws_ladder :
    less.Compares (ladder (.int 1) [.str "a"]) (ladder oneDouble [.str "c"]) true ∧
    greater.Compares (ladder oneDouble [.str "c"]) (ladder (.int 1) [.str "a"]) true ∧
    less.Compares (ladder (.bool true) [.str "a"]) (ladder oneDouble [.str "c"]) true ∧
    notEqual.Compares (ladder (.int 1) [.str "a"]) (ladder oneDouble [.str "c"]) true := by
  obtain ⟨compares, laws⟩ := comparison_laws
  have text (s : String) : ∀ v ∈ [Value.str s], v.Keyed := List.forall_mem_singleton.2 (.str s)
  have hl : (ladder (.int 1) [.str "a"]).Keyed := keyed_ladder rfl (text "a")
  have hl' : (ladder (.bool true) [.str "a"]).Keyed := keyed_ladder rfl (text "a")
  have hm : (ladder (.bool true) [.str "b"]).Keyed := keyed_ladder rfl (text "b")
  have hr : (ladder oneDouble [.str "c"]).Keyed := keyed_ladder rfl (text "c")
  have first : less.between (ladder (.int 1) [.str "a"]) (ladder (.bool true) [.str "b"]) := by
    decide +kernel
  have second : less.between (ladder (.bool true) [.str "b"]) (ladder oneDouble [.str "c"]) := by
    decide +kernel
  have same : equal.between (ladder (.bool true) [.str "a"]) (ladder (.int 1) [.str "a"]) := by
    decide +kernel
  obtain ⟨unequal, flipped, -, exclusive, trans, -⟩ := laws _ _ _ hl hm hr
  have less := trans first second
  obtain ⟨-, -, -, -, -, congr, -⟩ := laws _ _ _ hl' hl hr
  refine ⟨(compares _ _ _ _).2 less, (compares _ _ _ _).2 (flipped ▸ less),
    (compares _ _ _ _).2 (congr same less), (compares _ _ _ _).2 ?_⟩
  rw [unequal, Bool.not_eq_true', ← Bool.not_eq_true]
  exact fun equal => exclusive.1 ⟨less, equal⟩

/-- A pair without an order, deep inside two lists, leaves the lists without one. -/
example :
    atMost.between (.list [.list [.int 1, .null]]) (.list [.list [.int 1, .str "a"]]) = false := by
  decide +kernel

end Comparison

end TokenGate.Condition

import TokenGate.Condition.Scope

/-!
# Condition expressions

The trees that conditions are compiled to, and what they stand for in a scope. A comparison whose
operands have no order is false, and so is its opposite. The second part of a conjunction is
evaluated only if the first is true, and that of a disjunction only if the first is false; this
shows if a path fails that is never come to.
-/

namespace TokenGate.Condition

/-- The tree of a condition. -/
inductive Expr where
  | literal (v : Value)
  | path (p : Path)
  | compare (c : Comparison) (left right : Expr)
  | not (e : Expr)
  | and (left right : Expr)
  | or (left right : Expr)
  deriving Inhabited

/-- What an expression stands for in a scope. -/
def Expr.eval (s : Scope) : Expr → Operand
  | literal v => .value v
  | path p => resolve s p
  | compare c l r => .value (.bool (c.holds s.attributes (l.eval s) (r.eval s)))
  | not e => .value (.bool !(e.eval s).truth s.attributes)
  | and l r => .value (.bool ((l.eval s).truth s.attributes && (r.eval s).truth s.attributes))
  | or l r => .value (.bool ((l.eval s).truth s.attributes || (r.eval s).truth s.attributes))

/-- Whether the evaluation of an expression comes to a path that fails. -/
def Expr.fails (s : Scope) : Expr → Bool
  | literal _ => false
  | path p => s.fails p
  | compare _ l r => l.fails s || r.fails s
  | not e => e.fails s
  | and l r => l.fails s || ((l.eval s).truth s.attributes && r.fails s)
  | or l r => l.fails s || (!(l.eval s).truth s.attributes && r.fails s)

/-- Nothing fails where the data of the game is an object. -/
theorem Expr.fails_of_isSome {s : Scope} (h : s.game.fields?.isSome) (e : Expr) :
    e.fails s = false := by
  induction e with
  | literal v => rfl
  | path p => simp [Expr.fails, Scope.fails, Option.isNone_eq_false_iff.2 h]
  | compare c l r ihl ihr => simp [Expr.fails, ihl, ihr]
  | not e ih => simp [Expr.fails, ih]
  | and l r ihl ihr => simp [Expr.fails, ihl, ihr]
  | or l r ihl ihr => simp [Expr.fails, ihl, ihr]

end TokenGate.Condition

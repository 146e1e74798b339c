import TokenGate.Condition
import TokenGate.Proofs.Condition.Derivation

/-!
# What derivations stand for

Every phrase stands for an operand in a scope. A single alternative stands for what it is; several
stand for whether any of them is true, and the parts of an alternative for whether all of them
are. A comparison of operands that have no order fails, and counts as false.
-/

namespace TokenGate.Condition

/-- What a comparison of two values gives. It fails if their order is asked for and they have
none. -/
def Comparison.order? (c : Comparison) (l r : Value) : Option Bool :=
  match c with
  | equal => some (l.equal r)
  | notEqual => some (!l.equal r)
  | less => (l.order? r).map Ordering.isLT
  | atMost => (l.order? r).map Ordering.isLE
  | greater => (l.order? r).map Ordering.isGT
  | atLeast => (l.order? r).map Ordering.isGE

theorem Comparison.between_eq (c : Comparison) (l r : Value) :
    c.between l r = (c.order? l r).getD false := by
  cases c with
  | equal => rfl
  | notEqual => rfl
  | less => simp only [between, order?]; rcases l.order? r with _ | _ | _ | _ <;> rfl
  | atMost => simp only [between, order?]; rcases l.order? r with _ | _ | _ | _ <;> rfl
  | greater => simp only [between, order?]; rcases l.order? r with _ | _ | _ | _ <;> rfl
  | atLeast => simp only [between, order?]; rcases l.order? r with _ | _ | _ | _ <;> rfl

/-- What a comparison of two operands gives, if it does not fail. -/
def Comparison.test? (a : Attributes) (c : Comparison) : Operand → Operand → Option Bool
  | .value v, .value w => c.order? v w
  | l, r => a.compare c l r

theorem Comparison.holds_eq (a : Attributes) (c : Comparison) (l r : Operand) :
    c.holds a l r = (c.test? a l r).getD false := by
  cases l with
  | value v =>
    cases r with
    | value w => exact c.between_eq v w
    | thing => rfl
  | thing => rfl

/-- The test that joined operands are put to: any of the alternatives has to be true, and all
parts of an alternative. -/
def Joint.test (a : Attributes) : Joint → List Operand → Bool
  | or, vs => vs.any (Operand.truth a)
  | and, vs => vs.all (Operand.truth a)

/-- What one or more joined operands stand for: a single one for itself. -/
def Joint.whole (a : Attributes) (j : Joint) (first : Operand) (rest : List Operand) : Operand :=
  if rest.isEmpty then first else .value (.bool (j.test a (first :: rest)))

/-- The first two operands may be put together before the others are joined to them. -/
theorem Joint.whole_cons (a : Attributes) (j : Joint) (first next : Operand)
    (rest : List Operand) :
    j.whole a (.value (.bool (j.test a [first, next]))) rest = j.whole a first (next :: rest) := by
  have truth_bool (b : Bool) : (Operand.value (.bool b)).truth a = b := rfl
  cases rest with
  | nil => rfl
  | cons v vs => cases j <;> simp [whole, test, truth_bool, Bool.or_assoc, Bool.and_assoc]

/-- What an atom stands for: a literal for its value, a name that is no constant for what its
path leads to. -/
def Lexeme.denote (s : Scope) : (l : Lexeme) → l.isAtom → Operand
  | number whole fraction, _ => .value (numberValue whole fraction)
  | quotation _ body, _ => .value (.str (String.ofList body))
  | name text, _ =>
      match constant? text with
      | some v => .value v
      | none => resolve s (Path.ofText (String.ofList text))
  | symbol _, h => nomatch h

/-- What the derivations of a category stand for. -/
abbrev Meaning : Category → Type
  | .one _ => Operand
  | .more _ => List Operand

/-- What a derivation stands for in a scope. -/
def Derivation.denote (s : Scope) : {k : Category} → Derivation k → Meaning k
  | .one (.joined j), joined first rest =>
      j.whole s.attributes (first.denote s) (rest.denote s)
  | _, moreEnd => []
  | _, moreNext _ _ next rest => next.denote s :: rest.denote s
  | _, negated _ _ part => .value (.bool !(part.denote s).truth s.attributes)
  | _, plain part => part.denote s
  | _, compared left c right =>
      .value (.bool ((c.test? s.attributes (left.denote s) (right.denote s)).getD false))
  | _, alone part => part.denote s
  | _, enclosed part => part.denote s
  | _, atom l h => l.denote s h

/-- What a category makes of the operand before it. A list of what is joined stands for an operand
together with that one, and a phrase stands alone. -/
def Category.after (a : Attributes) (first : Operand) : (k : Category) → Meaning k → Operand
  | one _, v => v
  | more j, vs => j.whole a first vs

end TokenGate.Condition

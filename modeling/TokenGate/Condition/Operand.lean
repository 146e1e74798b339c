import TokenGate.Condition.Lexeme
import TokenGate.Value.Order

/-!
# Operands of conditions

What the parts of a condition stand for. As a rule that is a value; but a name behind a value that
is no object may lead to something else that the value has, such as an operation of a text, and
from there further names lead on. Which names lead anywhere, and how things that are no data compare,
is for the surroundings to say.
-/

namespace TokenGate.Condition

/-- Whether a comparison holds between two values. One that asks for their order does not hold if
they have none. -/
def Comparison.between (op : Comparison) (l r : Value) : Bool :=
  match op with
  | equal => l.equal r
  | notEqual => !l.equal r
  | less => l.order? r == some .lt
  | atMost => l.order? r == some .lt || l.order? r == some .eq
  | greater => l.order? r == some .gt
  | atLeast => l.order? r == some .gt || l.order? r == some .eq

/-- Something that is reached by names from a value that is no object. The value, its owner, stands
at some place among the data; place and names are told from the last name back. -/
structure Thing where
  place : List String
  owner : Value
  names : List String

/-- What a part of a condition stands for: a value, or something that is no data. -/
inductive Operand where
  | value (v : Value)
  | thing (t : Thing)
  deriving Inhabited

/-- What is found where names lead. -/
inductive Attribute where
  | missing
  | value (v : Value)
  /-- Something that is no data. -/
  | thing

/-- What there is besides data. Looking for it finds something or nothing, and never fails. -/
structure Attributes where
  /-- What is found where the names lead from the owner. -/
  find : Thing → Attribute
  /-- Whether something that is no data counts as true. -/
  truth : Thing → Bool
  /-- What a comparison gives if a side of it is no data; nothing if there is no such comparison. -/
  compare : Comparison → Operand → Operand → Option Bool

namespace Attributes

/-- Where there is nothing but data. -/
def none : Attributes := ⟨fun _ => .missing, fun _ => true, fun _ _ _ => .none⟩

/-- What is found where names lead, null if there is nothing. -/
def get (a : Attributes) (t : Thing) : Operand :=
  match a.find t with
  | .missing => .value .null
  | .value v => .value v
  | .thing => .thing t

/-- Follows one more name. Nothing comes after null, an object is followed by what is under the name
as a key, and anything else by what else it has. -/
def step (a : Attributes) (place : List String) (name : String) : Operand → Operand
  | .value .null => .value .null
  | .value (.object fields) => .value (Value.field fields name)
  | .value v => a.get ⟨place, v, [name]⟩
  | .thing t => a.get { t with names := name :: t.names }

/-- Follows names; `place` says where the operand is. -/
def walk (a : Attributes) (place : List String) (x : Operand) : List String → Operand
  | [] => x
  | name :: rest => a.walk (name :: place) (a.step place name x) rest

end Attributes

/-- Whether an operand counts as true. -/
def Operand.truth (a : Attributes) : Operand → Bool
  | value v => v.truth
  | thing t => a.truth t

/-- Whether a comparison holds between two operands. -/
def Comparison.holds (a : Attributes) (op : Comparison) : Operand → Operand → Bool
  | .value v, .value w => op.between v w
  | l, r => (a.compare op l r).getD false

end TokenGate.Condition

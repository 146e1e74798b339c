import TokenGate.Condition.Operand

/-!
# What values usually have

Numbers have parts, as complex numbers and, if they are integers, as fractions. Apart from these,
numbers, texts and lists have operations, which are no data: all of them count as true, each is
equal only to itself, and they have no order. Names that are meant for internal use are left out,
and nothing is known of the operations themselves, so that no name leads on from them.
-/

namespace TokenGate.Condition

/-- The operations of integers. -/
def integerOperations : List String :=
  ["as_integer_ratio", "bit_count", "bit_length", "conjugate", "from_bytes", "is_integer",
    "to_bytes"]

/-- The operations of doubles. -/
def doubleOperations : List String :=
  ["as_integer_ratio", "conjugate", "fromhex", "hex", "is_integer"]

/-- The operations of texts. -/
def textOperations : List String :=
  ["capitalize", "casefold", "center", "count", "encode", "endswith", "expandtabs", "find",
    "format", "format_map", "index", "isalnum", "isalpha", "isascii", "isdecimal", "isdigit",
    "isidentifier", "islower", "isnumeric", "isprintable", "isspace", "istitle", "isupper", "join",
    "ljust", "lower", "lstrip", "maketrans", "partition", "removeprefix", "removesuffix", "replace",
    "rfind", "rindex", "rjust", "rpartition", "rsplit", "rstrip", "split", "splitlines",
    "startswith", "strip", "swapcase", "title", "translate", "upper", "zfill"]

/-- The operations of lists. -/
def listOperations : List String :=
  ["append", "clear", "copy", "count", "extend", "index", "insert", "pop", "remove", "reverse",
    "sort"]

/-- The names of the operations that a value has. -/
def operations : Value → List String
  | .bool _ | .int _ => integerOperations
  | .float _ => doubleOperations
  | .str _ => textOperations
  | .list _ => listOperations
  | .null | .object _ => []

/-- The parts that an integer has as a complex number and as a fraction. -/
def integerPart? (n : Int) : String → Option Value
  | "real" | "numerator" => some (.int n)
  | "imag" => some (.int 0)
  | "denominator" => some (.int 1)
  | _ => none

/-- The parts that a number has. -/
def numberPart? (v : Value) (name : String) : Option Value :=
  match v with
  | .bool b => integerPart? (if b then 1 else 0) name
  | .int n => integerPart? n name
  | .float x =>
      match name with
      | "real" => some (.float x)
      | "imag" => some (.float .zero)
      | _ => none
  | _ => none

/-- Whether a value is one of those of which there is one each, wherever it stands: small integers,
and texts that are empty or one character of the Latin alphabets. -/
def isUnique : Value → Bool
  | .bool _ => true
  | .int n => -5 ≤ n && n ≤ 256
  | .str text =>
      match text.toList with
      | [] => true
      | [c] => c.toNat < 256
      | _ => false
  | _ => false

/-- Whether two things have one owner. Most values are told apart by where they stand. -/
def Thing.sameOwner (t u : Thing) : Bool :=
  t.place == u.place ||
    (isUnique t.owner && t.owner.kindName == u.owner.kindName && t.owner.equal u.owner)

/-- What values usually have besides data. -/
def Attributes.usual : Attributes where
  find t :=
    match t.names with
    | [name] =>
        match numberPart? t.owner name with
        | some part => .value part
        | .none => if name ∈ operations t.owner then .thing else .missing
    | _ => .missing
  truth _ := true
  compare op l r :=
    let same := match l, r with
      | .thing t, .thing u => t.names == u.names && t.sameOwner u
      | _, _ => false
    match op with
    | .equal => some same
    | .notEqual => some !same
    | _ => .none

end TokenGate.Condition

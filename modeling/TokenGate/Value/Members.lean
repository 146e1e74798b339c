import TokenGate.Value.Order

/-!
# Values as collections

What a value holds member by member, as texts, or as pairs of a key and a value, and what is wrong
with a value that does not hold such members.
-/

namespace TokenGate

/-- Why a value does not hold what it should. Members are counted from zero. -/
inductive MemberError where
  /-- The value has no members; `kind` is what it is. -/
  | noMembers (kind : String)
  /-- The value has no members that could be texts. -/
  | noTexts
  /-- A member is no text; `kind` is what it is. -/
  | notAText (position : Nat) (kind : String)
  /-- A member that should be a pair has no members. -/
  | notAPair (position : Nat)
  /-- A member that should be a pair has another number of members. -/
  | notTwo (position count : Nat)
  | notAKey (cause : NotAKey)
  deriving DecidableEq, Repr

/-- The text of a member error. -/
def MemberError.message : MemberError → String
  | noMembers kind => "'" ++ kind ++ "' object is not iterable"
  | noTexts => "can only join an iterable"
  | notAText n kind =>
      "sequence item " ++ toString n ++ ": expected str instance, " ++ kind ++ " found"
  | notAPair n =>
      "cannot convert dictionary update sequence element #" ++ toString n ++ " to a sequence"
  | notTwo n count =>
      "dictionary update sequence element #" ++ toString n ++ " has length " ++ toString count ++
        "; 2 is required"
  | notAKey cause => cause.message

namespace Value

/-- The members of a value. -/
def members (v : Value) : Except MemberError (List Value) :=
  match v.items? with
  | some vs => .ok vs
  | none => .error (.noMembers v.kindName)

/-- The texts that a value holds, from a position on. -/
def textsFrom (n : Nat) : List Value → Except MemberError (List String)
  | [] => .ok []
  | str s :: rest => (textsFrom (n + 1) rest).map (s :: ·)
  | v :: _ => .error (.notAText n v.kindName)

/-- The texts that a value holds. -/
def texts (v : Value) : Except MemberError (List String) :=
  match v.items? with
  | some vs => textsFrom 0 vs
  | none => .error .noTexts

/-- Stores a value under a key: in the place of the pair with the same key, or at the end. -/
def putPair (k v : Value) (ps : List (Value × Value)) : List (Value × Value) :=
  if ps.any (·.1.same k) then ps.map fun p => if p.1.same k then (p.1, v) else p
  else ps ++ [(k, v)]

/-- Stores the pairs that values are, counted from a position on, among others. -/
def pairsFrom (n : Nat) (ps : List (Value × Value)) :
    List Value → Except MemberError (List (Value × Value))
  | [] => .ok ps
  | v :: rest =>
      match v.items? with
      | none => .error (.notAPair n)
      | some [k, w] =>
          match k.asKey with
          | .error e => .error (.notAKey e)
          | .ok _ => pairsFrom (n + 1) (putPair k w ps) rest
      | some vs => .error (.notTwo n vs.length)

/-- The pairs that a value holds: the fields of an object, or members that are pairs. -/
def pairs : Value → Except MemberError (List (Value × Value))
  | object fields => .ok (fields.map fun (k, v) => (str k, v))
  | v =>
      match v.members with
      | .error e => .error e
      | .ok vs => pairsFrom 0 [] vs

end Value
end TokenGate

import TokenGate.Value

/-!
# Histories

How many events the history of a game keeps. The oldest events are dropped first. A limit may also
be something else than a whole number: a history cannot be kept to it then, at the latest when it
becomes longer.
-/

namespace TokenGate

open Number

/-- How many events a history keeps. -/
inductive HistoryLimit where
  | unlimited
  | atMost (n : Int)
  /-- A double. A history that is longer cannot be cut there. -/
  | double (x : Double)
  /-- Anything else; `kind` is what it is. No length can be compared with it. -/
  | other (kind : String)

/-- Why a history cannot be kept to its limit. -/
inductive LimitError where
  | incomparable (kind : String)
  | noPosition
  deriving DecidableEq, Repr

/-- The text of a limit error. -/
def LimitError.message : LimitError → String
  | incomparable kind =>
      "'>' not supported between instances of 'int' and '" ++ kind ++ "'"
  | noPosition => "slice indices must be integers or None or have an __index__ method"

namespace HistoryLimit

/-- The limit that a value says. -/
def ofValue : Value → HistoryLimit
  | .null => unlimited
  | .bool b => atMost (if b then 1 else 0)
  | .int n => atMost n
  | .float x => double x
  | v => other v.kindName

/-- The last items of a list, as far as the limit lets keep them. -/
def keepLast {α : Type} (limit : HistoryLimit) (items : List α) : Except LimitError (List α) :=
  match limit with
  | unlimited => .ok items
  | atMost n => .ok (items.drop (items.length - n.toNat))
  | double x =>
      if x.extended?.any (·.lt (.finite items.length)) then .error .noPosition else .ok items
  | other kind => .error (.incomparable kind)

/-- The items that are kept come at the end of the list. -/
theorem keepLast_suffix {α : Type} {limit : HistoryLimit} {items kept : List α}
    (h : limit.keepLast items = .ok kept) : kept <:+ items := by
  cases limit with
  | unlimited =>
    cases h
    exact List.suffix_rfl
  | atMost n =>
    cases h
    exact List.drop_suffix _ _
  | double x =>
    simp only [keepLast] at h
    split at h
    · cases h
    · cases h
      exact List.suffix_rfl
  | other kind => cases h

/-- A limit that is not below zero is not passed. -/
theorem length_keepLast_le {α : Type} {n : Nat} {items kept : List α}
    (h : (atMost n).keepLast items = .ok kept) : kept.length ≤ n := by
  cases h
  simp only [List.length_drop, Int.toNat_natCast]
  omega

end HistoryLimit

end TokenGate

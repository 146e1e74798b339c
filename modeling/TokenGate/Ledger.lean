import TokenGate.Token.Bag

/-!
# Ledgers

The balances of one running game. Balances are whole numbers that never fall below zero: a cost
is paid in full or not at all. A token has an entry from the moment it is registered or granted,
and entries stay in that order.
-/

namespace TokenGate

/-- A price or a gift: a token list still to be read, or a bag. -/
inductive Cost where
  | listed (value : Value)
  | bag (b : TokenBag)

/-- The bag that a cost asks for. -/
def Cost.toBag : Cost → Except TokenError TokenBag
  | listed v => TokenBag.parse v
  | bag b => .ok b

/-- What can go wrong with a ledger. -/
inductive LedgerError where
  /-- The cost is not a token list. -/
  | cost (cause : TokenError)
  /-- The balances do not cover the cost; the entries say what is missing. -/
  | insufficient (shortfall : List (String × Nat))
  /-- A negative amount was to be granted. -/
  | negativeGrant (token : String)
  /-- The amount to be granted was infinite or the double that is no number. -/
  | endless (isNaN : Bool)
  /-- The amount to be granted was neither a number nor a truth value. -/
  | notANumber (kind : String)
  /-- A token of the cost has no entry, although none of it is asked for. -/
  | noEntry (token : String)

/-- What is missing, in words; the amounts are given as texts. -/
def missingText (shortfall : List (String × String)) : String :=
  "Insufficient resources, missing " ++
    ", ".intercalate (shortfall.map fun (t, amount) => t ++ " x" ++ amount)

/-- The text of a ledger error. -/
def LedgerError.message : LedgerError → String
  | cost cause => cause.message
  | insufficient shortfall => missingText (shortfall.map fun (t, n) => (t, toString n))
  | negativeGrant token => "Cannot grant a negative amount of '" ++ token ++ "'"
  | endless isNaN => endlessText isNaN
  | notANumber kind => notAnAmount kind
  | noEntry token => Text.quoted token

/-- The kind of a ledger error. -/
def LedgerError.kind : LedgerError → String
  | cost _ => "MalformedRuleError"
  | insufficient _ => "InsufficientResourcesError"
  | negativeGrant _ | endless true => "ValueError"
  | endless false => "OverflowError"
  | notANumber _ => "TypeError"
  | noEntry _ => "KeyError"

/-- Balances by token, in order of registration. -/
structure Ledger where
  balances : Table Nat

namespace Ledger

/-- The ledger with no entry. -/
def empty : Ledger := ⟨∅⟩

instance : Inhabited Ledger := ⟨empty⟩

/-- The balance of a token, zero if it has no entry. -/
def balance (l : Ledger) (token : String) : Nat := (l.balances.get? token).getD 0

/-- The entries in order. -/
def entries (l : Ledger) : List (String × Nat) := l.balances.entries

/-- Gives a token an entry of zero unless it has one. -/
def registerOne (l : Ledger) (token : String) : Ledger :=
  ⟨l.balances.adjust token fun n => n.getD 0⟩

/-- Gives each of the tokens an entry. -/
def register (l : Ledger) (tokens : List String) : Ledger := tokens.foldl registerOne l

/-- A ledger with an entry of zero for each of the tokens. -/
def ofTokens (tokens : List String) : Ledger := empty.register tokens

/-- Adds to the balance of a token. -/
def grant (l : Ledger) (token : String) (n : Nat) : Ledger :=
  ⟨l.balances.adjust token fun b => b.getD 0 + n⟩

/-- Adds an amount given as a value to the balance of a token. -/
def grantAmount (l : Ledger) (token : String) (amount : Value) : Except LedgerError Ledger :=
  match Amount.ofValue? amount with
  | none => .error (.notANumber amount.kindName)
  | some .negative => .error (.negativeGrant token)
  | some (.endless isNaN) => .error (.endless isNaN)
  | some (.whole n _) => .ok (l.grant token n)

/-- Adds every token of a bag. -/
def grantBag (l : Ledger) (b : TokenBag) : Ledger :=
  b.items.foldl (fun l e => l.grant e.1 e.2) l

/-- Adds every token of a token list. -/
def grantAll (l : Ledger) (cost : Cost) : Except LedgerError Ledger :=
  match cost.toBag with
  | .error e => .error (.cost e)
  | .ok b => .ok (l.grantBag b)

/-- What is missing to pay for a bag, in the bag's order. -/
def missing (l : Ledger) (b : TokenBag) : List (String × Nat) :=
  b.items.filterMap fun (t, n) => if l.balance t < n then some (t, n - l.balance t) else none

/-- Takes from the balances of tokens, as long as they have entries. -/
def withdraw (l : Ledger) : List (String × Nat) → Except LedgerError Ledger
  | [] => .ok l
  | (token, n) :: rest =>
      match l.balances.get? token with
      | some b => withdraw ⟨l.balances.put token (b - n)⟩ rest
      | none => .error (.noEntry token)

/-- Pays for a bag in full, or says what is missing. -/
def pay (l : Ledger) (b : TokenBag) : Except LedgerError Ledger :=
  match l.missing b with
  | [] => l.withdraw b.items
  | lack => .error (.insufficient lack)

/-- What is missing to pay a cost. -/
def shortfall (l : Ledger) (cost : Cost) : Except LedgerError (List (String × Nat)) :=
  match cost.toBag with
  | .error e => .error (.cost e)
  | .ok b => .ok (l.missing b)

/-- Whether a cost can be paid. -/
def canAfford (l : Ledger) (cost : Cost) : Except LedgerError Bool :=
  (l.shortfall cost).map List.isEmpty

/-- Pays a cost in full, or changes nothing and says why. -/
def consume (l : Ledger) (cost : Cost) : Except LedgerError Ledger :=
  match cost.toBag with
  | .error e => .error (.cost e)
  | .ok b => l.pay b

/-- The largest balance that a vector of 64-bit integers can hold. -/
def vectorLimit : Nat := Nat.pow 2 63 - 1

/-- The balances of the given tokens as 64-bit integers, if they all fit. -/
def vector? (l : Ledger) (order : List String) : Option (List Nat) :=
  let balances := order.map l.balance
  if balances.all (· ≤ vectorLimit) then some balances else none

/-- The balances as an object. -/
def toFields (l : Ledger) : Fields := l.entries.map fun (t, n) => (t, .int n)

/-- The ledger in messages, which write tokens in some way. -/
def written (l : Ledger) (token : String → String) : String :=
  "ResourceLedger(\x7b" ++
    ", ".intercalate (l.entries.map fun (t, n) => token t ++ ": " ++ toString n) ++ "\x7d)"

/-- Registering a token changes no balance. -/
theorem balance_registerOne (l : Ledger) (token other : String) :
    (l.registerOne token).balance other = l.balance other := by
  by_cases h : token = other
  · subst h
    simp [balance, registerOne, Table.get?_adjust]
  · simp [balance, registerOne, Table.get?_adjust, h]

theorem balance_register (l : Ledger) (tokens : List String) (token : String) :
    (l.register tokens).balance token = l.balance token := by
  induction tokens generalizing l with
  | nil => rfl
  | cons t rest ih => exact (ih (l.registerOne t)).trans (l.balance_registerOne t token)

/-- Granting raises the balance of one token. -/
theorem balance_grant (l : Ledger) (token other : String) (n : Nat) :
    (l.grant token n).balance other = l.balance other + if token = other then n else 0 := by
  by_cases h : token = other
  · subst h
    simp [balance, grant, Table.get?_adjust]
  · simp [balance, grant, Table.get?_adjust, h]

theorem balance_foldl_grant (entries : List (String × Nat)) (l : Ledger) (token : String)
    (h : (Entries.keys entries).Nodup) :
    (entries.foldl (fun l e => l.grant e.1 e.2) l).balance token =
      l.balance token + (Entries.get? token entries).getD 0 := by
  induction entries generalizing l with
  | nil => rfl
  | cons e rest ih =>
    obtain ⟨k, n⟩ := e
    rw [Entries.keys_cons, List.nodup_cons] at h
    rw [List.foldl_cons, ih _ h.2, balance_grant]
    by_cases hk : k = token
    · subst hk
      have : Entries.get? k rest = none := by
        rw [← Option.not_isSome_iff_eq_none, Entries.get?_isSome]
        exact h.1
      simp [Entries.get?, this]
    · simp [Entries.get?, hk]

/-- Granting a bag raises each balance by the count of its token. -/
theorem balance_grantBag (l : Ledger) (b : TokenBag) (token : String) :
    (l.grantBag b).balance token = l.balance token + b.count token :=
  balance_foldl_grant b.items l token b.counts.nodup

/-- Nothing is missing exactly if every entry of the bag is covered. -/
theorem missing_eq_nil_iff (l : Ledger) (b : TokenBag) :
    l.missing b = [] ↔ ∀ e ∈ b.items, e.2 ≤ l.balance e.1 := by
  simp only [missing, List.filterMap_eq_nil_iff]
  refine forall₂_congr fun e _ => ?_
  split <;> simp_all

end Ledger
end TokenGate

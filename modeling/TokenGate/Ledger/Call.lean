import TokenGate.Ledger

/-!
# Calls to a ledger

What a running game asks of its ledger, one call after another. A call changes the ledger where it
stands. A payment first looks at all balances and then takes from one after another, so that it
would leave the ledger half paid if a token turned out to have no entry on the way.
-/

namespace TokenGate

/-- What is asked of a ledger. -/
inductive LedgerCall where
  /-- Give tokens an entry. -/
  | register (tokens : List String)
  /-- Add to the balance of a token. -/
  | grant (token : String) (amount : Value)
  /-- Add every token of a token list. -/
  | grantAll (cost : Cost)
  /-- Pay a cost. -/
  | consume (cost : Cost)

namespace Ledger

/-- Takes from one balance after another. What has been taken stays taken if a token has no
entry. -/
def takeEach (l : Ledger) : List (String × Nat) → Except LedgerError Unit × Ledger
  | [] => (.ok (), l)
  | (token, n) :: rest =>
      match l.balances.get? token with
      | some b => takeEach ⟨l.balances.put token (b - n)⟩ rest
      | none => (.error (.noEntry token), l)

/-- The ledger that comes of something, or as it is if that fails. -/
def settle (l : Ledger) : Except LedgerError Ledger → Except LedgerError Unit × Ledger
  | .ok l' => (.ok (), l')
  | .error e => (.error e, l)

/-- What a call comes to, and the ledger that it leaves. -/
def perform (l : Ledger) : LedgerCall → Except LedgerError Unit × Ledger
  | .register tokens => (.ok (), l.register tokens)
  | .grant token amount => l.settle (l.grantAmount token amount)
  | .grantAll cost => l.settle (l.grantAll cost)
  | .consume cost =>
      match cost.toBag with
      | .error e => (.error (.cost e), l)
      | .ok b =>
          match l.missing b with
          | [] => l.takeEach b.items
          | lack => (.error (.insufficient lack), l)

/-- What calls come to, one after another, and the ledger that they leave. -/
def performAll (l : Ledger) : List LedgerCall → List (Except LedgerError Unit) × Ledger
  | [] => ([], l)
  | call :: rest =>
      let (outcome, after) := l.perform call
      let (outcomes, last) := after.performAll rest
      (outcome :: outcomes, last)

end Ledger
end TokenGate

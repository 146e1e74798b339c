import Mathlib.Algebra.Ring.Nat
import TokenGate.Proofs.FirstSeen
import TokenGate.Proofs.Ledger.Consumption

/-!
# A ledger is the sum of its calls

Whatever is asked of a ledger, each balance is what has been granted less what has been paid. A call
either fails and changes nothing, or it adds what it grants, takes what it costs and gives an entry
to each token that it mentions. Entries stay where they are, so that they stand in the order of the
first mentions.
-/

namespace TokenGate

/-- How often a cost asks for a token; never if it is no token list. -/
def Cost.count (token : String) (cost : Cost) : Nat :=
  match cost.toBag with
  | .ok b => b.count token
  | .error _ => 0

/-- The tokens of a cost, in order; none if it is no token list. -/
def Cost.types (cost : Cost) : List String :=
  match cost.toBag with
  | .ok b => b.types
  | .error _ => []

namespace LedgerCall

/-- The call asks for no token zero times when it is to be paid for. -/
def Whole : LedgerCall → Prop
  | consume cost => cost.Whole
  | _ => True

/-- How much of a token the call is to grant. -/
def granted (token : String) : LedgerCall → Nat
  | grant t amount =>
      match Amount.ofValue? amount with
      | some (.whole n _) => if t = token then n else 0
      | _ => 0
  | grantAll cost => cost.count token
  | _ => 0

/-- How much of a token the call is to take. -/
def taken (token : String) : LedgerCall → Nat
  | consume cost => cost.count token
  | _ => 0

/-- The tokens that the call is to register or to grant, in order. -/
def mentions : LedgerCall → List String
  | register tokens => tokens
  | grant token _ => [token]
  | grantAll cost => cost.types
  | consume _ => []

/-- Those of some calls that have succeeded, given what each of them has come to. -/
def succeeded (calls : List LedgerCall) (outcomes : List (Except LedgerError Unit)) :
    List LedgerCall :=
  ((calls.zip outcomes).filter fun c => c.2.isOk).map Prod.fst

end LedgerCall

namespace Ledger

open LedgerCall

variable {l l' : Ledger} {call : LedgerCall} {calls : List LedgerCall}

/-- What a call does: it fails and changes nothing, or the balances and entries are those from
before with what it grants, takes and mentions. -/
inductive Performs (l : Ledger) (call : LedgerCall) : Except LedgerError Unit → Ledger → Prop where
  | failed (e : LedgerError) : Performs l call (.error e) l
  | done {l' : Ledger}
      (balance : ∀ token,
        l'.balance token + call.taken token = l.balance token + call.granted token)
      (keys : l'.balances.keys =
        call.mentions.foldl (fun seen t => if t ∈ seen then seen else seen ++ [t])
          l.balances.keys) :
      Performs l call (.ok ()) l'

theorem keys_register_eq_foldl (l : Ledger) (tokens : List String) :
    (l.register tokens).balances.keys =
      tokens.foldl (fun seen t => if t ∈ seen then seen else seen ++ [t]) l.balances.keys := by
  induction tokens generalizing l with
  | nil => rfl
  | cons t rest ih =>
    rw [List.foldl_cons, ← Table.keys_adjust]
    exact ih (l.registerOne t)

theorem keys_grantBag_eq_foldl (l : Ledger) (b : TokenBag) :
    (l.grantBag b).balances.keys =
      b.types.foldl (fun seen t => if t ∈ seen then seen else seen ++ [t]) l.balances.keys := by
  show (b.items.foldl _ l).balances.keys = (b.items.map Prod.fst).foldl _ _
  induction b.items generalizing l with
  | nil => rfl
  | cons e rest ih =>
    rw [List.map_cons, List.foldl_cons, List.foldl_cons, ← Table.keys_adjust]
    exact ih (l.grant e.1 e.2)

theorem performs_register (l : Ledger) (tokens : List String) :
    l.Performs (.register tokens) (.ok ()) (l.register tokens) :=
  .done (balance_register l tokens) (keys_register_eq_foldl l tokens)

theorem performs_grant (l : Ledger) (token : String) (amount : Value) :
    l.Performs (.grant token amount) (l.settle (l.grantAmount token amount)).1
      (l.settle (l.grantAmount token amount)).2 := by
  unfold grantAmount
  cases hamount : Amount.ofValue? amount with
  | none => exact .failed _
  | some said =>
    cases said with
    | negative | endless _ => exact .failed _
    | whole n isZero =>
      refine .done (fun other => ?_) (Table.keys_adjust _ _ _)
      simp only [granted, hamount]
      exact balance_grant l token other n

theorem performs_grantAll (l : Ledger) (cost : Cost) :
    l.Performs (.grantAll cost) (l.settle (l.grantAll cost)).1
      (l.settle (l.grantAll cost)).2 := by
  unfold grantAll
  cases hb : cost.toBag with
  | error e => exact .failed _
  | ok b =>
    refine .done (fun token => ?_) ?_
    · simp only [granted, Cost.count, hb]
      exact balance_grantBag l b token
    · simp only [mentions, Cost.types, hb]
      exact keys_grantBag_eq_foldl l b

theorem performs_consume (l : Ledger) {cost : Cost} (whole : cost.Whole) :
    l.Performs (.consume cost) (l.settle (l.consume cost)).1 (l.settle (l.consume cost)).2 := by
  cases hb : cost.toBag with
  | error e =>
    simp only [consume, hb]
    exact .failed _
  | ok b =>
    rcases l.consume_cases whole hb with ⟨-, l', hpay, pays⟩ | ⟨-, hpay⟩
    · rw [hpay]
      refine .done (fun token => ?_) pays.keys
      have fallen := pays.balance token
      simp only [settle, taken, granted, Cost.count, hb]
      omega
    · rw [hpay]
      exact .failed _

/-- One call does what is said of it. -/
theorem performs_perform (l : Ledger) (whole : call.Whole) :
    l.Performs call (l.perform call).1 (l.perform call).2 := by
  cases call with
  | register tokens => exact l.performs_register tokens
  | grant token amount => exact l.performs_grant token amount
  | grantAll cost => exact l.performs_grantAll cost
  | consume cost =>
    rw [l.perform_consume whole]
    exact l.performs_consume whole

theorem performAll_cons (l : Ledger) (call : LedgerCall) (rest : List LedgerCall) :
    l.performAll (call :: rest) =
      ((l.perform call).1 :: ((l.perform call).2.performAll rest).1,
        ((l.perform call).2.performAll rest).2) := rfl

theorem performAll_append (l : Ledger) (calls rest : List LedgerCall) :
    l.performAll (calls ++ rest) =
      ((l.performAll calls).1 ++ ((l.performAll calls).2.performAll rest).1,
        ((l.performAll calls).2.performAll rest).2) := by
  induction calls generalizing l with
  | nil => rfl
  | cons call calls ih => rw [List.cons_append, performAll_cons, ih, performAll_cons, List.cons_append]

/-- What calls come to, one after another: those that succeed add up, and without the others all is
the same. -/
structure Sums (l : Ledger) (calls : List LedgerCall) (outcomes : List (Except LedgerError Unit))
    (l' : Ledger) : Prop where
  length : outcomes.length = calls.length
  balance : ∀ token,
    l'.balance token + ((succeeded calls outcomes).map (taken token)).sum =
      l.balance token + ((succeeded calls outcomes).map (granted token)).sum
  keys : l'.balances.keys =
    ((succeeded calls outcomes).flatMap mentions).foldl
      (fun seen t => if t ∈ seen then seen else seen ++ [t]) l.balances.keys
  again : l.performAll (succeeded calls outcomes) =
    ((succeeded calls outcomes).map fun _ => .ok (), l')

/-- Calls add up, one after another. -/
theorem sums_performAll (l : Ledger) (whole : ∀ call ∈ calls, call.Whole) :
    l.Sums calls (l.performAll calls).1 (l.performAll calls).2 := by
  induction calls generalizing l with
  | nil => exact ⟨rfl, fun _ => rfl, rfl, rfl⟩
  | cons call rest ih =>
    have first := l.performs_perform (whole call List.mem_cons_self)
    have others := ih (l.perform call).2 fun c hc => whole c (List.mem_cons_of_mem call hc)
    rw [performAll_cons]
    generalize hperform : l.perform call = result at first others ⊢
    obtain ⟨outcome, l₁⟩ := result
    simp only at first others ⊢
    generalize l₁.performAll rest = result at others ⊢
    obtain ⟨outcomes, l'⟩ := result
    simp only at others ⊢
    cases first with
    | failed e =>
      have same : succeeded (call :: rest) (.error e :: outcomes) = succeeded rest outcomes := rfl
      exact ⟨congrArg _ others.length, same ▸ others.balance, same ▸ others.keys,
        same ▸ others.again⟩
    | done balance keys =>
      have more : succeeded (call :: rest) (.ok () :: outcomes) =
        call :: succeeded rest outcomes := rfl
      refine ⟨congrArg _ others.length, fun token => ?_, ?_, ?_⟩
      · have one := balance token
        have sum := others.balance token
        rw [more, List.map_cons, List.sum_cons, List.map_cons, List.sum_cons]
        omega
      · rw [more, List.flatMap_cons, List.foldl_append, ← keys]
        exact others.keys
      · rw [more, performAll_cons, hperform, others.again]
        rfl

/-- After any calls to a new ledger, whether they fail or not, each balance is what those that have
succeeded have granted less what they have taken, and they have taken no more than that. The entries
are the tokens that the ledger was made for and those that these calls mention, in the order of their
first mention. A call that fails changes nothing, so that without all that have failed the ledger is
the same; and no entry is ever lost or moved. -/
theorem sums_of_calls (tokens : List String) {calls : List LedgerCall}
    (whole : ∀ call ∈ calls, call.Whole) :
    ∃ outcomes l, (ofTokens tokens).performAll calls = (outcomes, l) ∧
      outcomes.length = calls.length ∧
      (∀ token,
        ((succeeded calls outcomes).map (taken token)).sum ≤
          ((succeeded calls outcomes).map (granted token)).sum ∧
        l.balance token = ((succeeded calls outcomes).map (granted token)).sum -
          ((succeeded calls outcomes).map (taken token)).sum) ∧
      FirstSeen (tokens ++ (succeeded calls outcomes).flatMap mentions) l.balances.keys ∧
      (ofTokens tokens).performAll (succeeded calls outcomes) =
        ((succeeded calls outcomes).map fun _ => .ok (), l) ∧
      ∀ before call after, calls = before ++ call :: after →
        (∀ e, (((ofTokens tokens).performAll before).2.perform call).1 = .error e →
          (((ofTokens tokens).performAll before).2.perform call).2 =
            ((ofTokens tokens).performAll before).2) ∧
        ((ofTokens tokens).performAll before).2.balances.keys <+: l.balances.keys := by
  have sums := (ofTokens tokens).sums_performAll whole
  refine ⟨_, _, rfl, sums.length, fun token => ?_, ?_, sums.again, ?_⟩
  · have sum := sums.balance token
    have nothing : (ofTokens tokens).balance token = 0 := balance_register empty tokens token
    omega
  · rw [sums.keys, ofTokens, keys_register_eq_foldl, ← List.foldl_append]
    exact FirstSeen.nil.foldl _
  · rintro before call after rfl
    have whole' : ∀ c ∈ call :: after, c.Whole := fun c hc =>
      whole c (List.mem_append_right before hc)
    rw [performAll_append]
    generalize ((ofTokens tokens).performAll before).2 = l₁
    constructor
    · intro e failed
      have performs := l₁.performs_perform (whole' call List.mem_cons_self)
      generalize l₁.perform call = result at performs failed ⊢
      obtain ⟨outcome, l₂⟩ := result
      cases failed
      cases performs
      rfl
    · rw [(l₁.sums_performAll whole').keys]
      exact FirstSeen.prefix_foldl _ _

/-- Some calls to a till, of which every other one fails from the third on. -/
def tillCalls : List LedgerCall :=
  [.grant "gold" (.int 3), .grant "ghost" (.int 0), .grant "gold" (.int (-2)),
    .grantAll (.listed (.str "silver gold silver")), .consume (.listed (.str "gold iron")),
    .consume (.listed (.list [.str "gold", .str "gold"])), .consume (.listed (.str " "))]

theorem till_sums_of_calls :
    (∀ call ∈ tillCalls, call.Whole) ∧
    ∃ outcomes l, (ofTokens ["iron", "gold"]).performAll tillCalls = (outcomes, l) ∧
      outcomes.map Except.isOk = [true, true, false, true, false, true, false] ∧
      l.balance "gold" = ((succeeded tillCalls outcomes).map (granted "gold")).sum -
        ((succeeded tillCalls outcomes).map (taken "gold")).sum ∧ l.balance "gold" = 2 ∧
      FirstSeen (["iron", "gold"] ++ (succeeded tillCalls outcomes).flatMap mentions)
        l.balances.keys ∧ l.balances.keys = ["iron", "gold", "ghost", "silver"] ∧
      (ofTokens ["iron", "gold"]).performAll (succeeded tillCalls outcomes) =
        ((succeeded tillCalls outcomes).map fun _ => .ok (), l) := by
  have whole : ∀ call ∈ tillCalls, call.Whole := by simp [tillCalls, Whole, Cost.Whole]
  have ends : ((ofTokens ["iron", "gold"]).performAll tillCalls).1.map Except.isOk =
        [true, true, false, true, false, true, false] ∧
      ((ofTokens ["iron", "gold"]).performAll tillCalls).2.entries =
        [("iron", 0), ("gold", 2), ("ghost", 0), ("silver", 2)] := by decide +kernel
  obtain ⟨outcomes, l, hrun, -, sum, keys, again, -⟩ := sums_of_calls ["iron", "gold"] whole
  rw [hrun] at ends
  obtain ⟨outcome, entries⟩ := ends
  have left : l.balance "gold" = 2 := by
    show (Entries.get? "gold" l.entries).getD 0 = 2
    rw [entries]
    rfl
  have names : l.balances.keys = ["iron", "gold", "ghost", "silver"] := congrArg Entries.keys entries
  exact ⟨whole, outcomes, l, hrun, outcome, (sum "gold").2, left, keys, names, again⟩

end Ledger
end TokenGate

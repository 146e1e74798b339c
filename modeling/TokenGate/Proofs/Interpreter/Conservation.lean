import Mathlib.Algebra.Ring.Nat
import TokenGate.Proofs.Automaton.Lookup
import TokenGate.Proofs.Interpreter.Dispatch
import TokenGate.Proofs.Interpreter.Transcript

/-!
# Conservation of tokens

Tokens come into a game only from triggers that are followed, and leave it only as costs that are
paid and bypass costs that are taken. As long as the surroundings keep their hands off the ledger,
the answers in the transcript of a run therefore account for every balance.
-/

namespace TokenGate

open Act

/-- The rule whose event has a label. -/
def Automaton.rule? (a : Automaton) (label : String) : Option Rule :=
  (a.catalog.find? label).map CatalogEntry.rule

namespace Response

/-- How much of a token was granted to the event of an answer. -/
def granted (a : Automaton) (token : String) (r : Response) : Nat :=
  match a.rule? r.event.type with
  | some (.trigger t) => if r.outcome = .transitioned then t.grants.count token else 0
  | _ => 0

/-- How much of a token was paid as the cost of an action. -/
def paid (a : Automaton) (token : String) (r : Response) : Nat :=
  match a.rule? r.event.type with
  | some (.action x) => if r.progress.costPaid = some true then x.costs.count token else 0
  | _ => 0

/-- How much of a token was taken as the bypass cost of a constraint. -/
def bypassed (a : Automaton) (token : String) (r : Response) : Nat :=
  match a.rule? r.event.type with
  | some (.constraint c) => if r.progress.verdict = some .bypassed then c.bypass.count token else 0
  | _ => 0

end Response

variable {σ : Type}

/-- The accounts of a run: with what was granted, the balances after it make up for those before
and for what was paid and taken. -/
def Accounted (a : Automaton) (s : Session σ) (log : List Response) (s' : Session σ) : Prop :=
  ∀ token, s'.current.ledger.balance token + (log.map (Response.paid a token)).sum +
    (log.map (Response.bypassed a token)).sum =
      s.current.ledger.balance token + (log.map (Response.granted a token)).sum

namespace Response

variable {a : Automaton} {token : String} {r : Response}

theorem granted_eq_zero (h : r.outcome ≠ .transitioned) : r.granted a token = 0 := by
  unfold granted
  split
  · rw [if_neg h]
  · rfl

theorem paid_eq_zero (h : r.progress.costPaid ≠ some true) : r.paid a token = 0 := by
  unfold paid
  split
  · rw [if_neg h]
  · rfl

theorem bypassed_eq_zero (h : r.progress.verdict ≠ some .bypassed) : r.bypassed a token = 0 := by
  unfold bypassed
  split
  · rw [if_neg h]
  · rfl

end Response

/-- The surroundings may do anything but change balances or start the game anew. -/
abbrev Permit.ledgerKeeping : Permit := .keeping Context.ledger

theorem Session.Passes.ledger_eq {s s' : Session σ} (h : s.Passes .ledgerKeeping s') :
    s'.current.ledger = s.current.ledger :=
  h.changes

theorem Session.Running.ledger_withLedger {s : Session σ} (h : s.Running) (l : Ledger) :
    (s.withLedger l).current.ledger = l := by
  rw [withLedger, h.current_modifyCurrent]

/-- What a rule settles is what the answer says. -/
theorem Edge.Settles.accounted {a : Automaton} {s s' : Session σ} (hs : s.Running) {edge : Edge}
    {e : Event} {g : Progress} (hrule : a.rule? e.type = edge.entry?.map CatalogEntry.rule)
    (h : edge.Settles .ledgerKeeping .ledgerKeeping s (.ok (.ok g)) s') (state : String) :
    Accounted a s [⟨.transitioned, e, state, g⟩] s' := by
  intro token
  simp only [List.map_cons, List.map_nil, List.sum_cons, List.sum_nil, Nat.add_zero,
    Response.paid, Response.bypassed, Response.granted, hrule]
  unfold Edge.Settles at h
  cases hentry : edge.entry? with
  | none =>
    rw [hentry] at h
    rw [h.2]
    rfl
  | some entry =>
    obtain ⟨label, rule⟩ := entry
    simp only [hentry] at h
    simp only [Option.map_some]
    cases h with
    | granted after =>
      rw [after.ledger_eq, hs.ledger_withLedger, Ledger.balance_grantBag]
      simp
    | paid charge after costPaid verdict =>
      have := Ledger.balance_pay charge token
      rw [after.ledger_eq, hs.ledger_withLedger]
      simpa [costPaid] using this
    | unpaid after costPaid verdict =>
      rw [after.ledger_eq]
      simp [costPaid]
    | passed after =>
      rw [after.ledger_eq]
      simp
    | bypassed before charge after =>
      have := Ledger.balance_pay charge token
      rw [before.ledger_eq] at this
      rw [after.ledger_eq, before.running.ledger_withLedger]
      simpa using this

namespace Interpreter

variable {i : Interpreter σ}

/-- Every dispatch is accounted for by its answer, and one that fails leaves the balances. -/
theorem Dispatches.accounted {d : Definition} (hb : Automaton.build d = .ok i.automaton)
    {e : Event} {s s' : Session σ} (hs : s.Running) {o : Except Fault Response}
    (h : i.Dispatches .ledgerKeeping .ledgerKeeping e s o s') :
    Accounted i.automaton s (match o with | .ok r => [r] | .error _ => []) s' := by
  have silent {r : Response} (hledger : s'.current.ledger = s.current.ledger)
      (houtcome : r.outcome ≠ .transitioned) (hcost : r.progress.costPaid ≠ some true)
      (hverdict : r.progress.verdict ≠ some .bypassed) : Accounted i.automaton s [r] s' := by
    intro token
    simp only [List.map_cons, List.map_nil, List.sum_cons, List.sum_nil,
      Response.granted_eq_zero houtcome, Response.paid_eq_zero hcost,
      Response.bypassed_eq_zero hverdict, hledger, Nat.add_zero]
  cases h with
  | ignored _ after => exact silent after.ledger_eq nofun nofun nofun
  | blocked _ settled after =>
    exact silent (settled.passes_of_blocked.trans after).ledger_eq nofun nofun nofun
  | @followed edge g s₁ _ kept found settled _ after =>
    have hrule : i.automaton.rule? e.type = edge.entry?.map CatalogEntry.rule := by
      rw [Automaton.rule?, Automaton.entry?_of_edge? hb found]
    have hs₁ := settled.running hs
    intro token
    have := settled.accounted hs hrule s'.current.state.text token
    rwa [after.ledger_eq, hs₁.current_modifyCurrent]
  | failed _ settled =>
    intro token
    rw [settled.passes_of_failed.1.ledger_eq]
    rfl

theorem account_accounted {d : Definition} (hb : Automaton.build d = .ok i.automaton)
    (limit : i.config.maxHistory.IsWhole)
    (k : i.surroundings.KeepTo .ledgerKeeping .ledgerKeeping) :
    i.Account fun s log s' => s.Running → s'.Running ∧ Accounted i.automaton s log s' where
  refl s hs := ⟨hs, fun token => by simp⟩
  append := by
    intro s s' s'' log log' h h' hs
    obtain ⟨hs', first⟩ := h hs
    obtain ⟨hs'', second⟩ := h' hs'
    refine ⟨hs'', fun token => ?_⟩
    have := first token
    have := second token
    simp only [List.map_append, List.sum_append]
    omega
  between s queue dispatching hs := ⟨⟨hs.live, hs.detached⟩, fun token => rfl⟩
  answered := by
    intro e s r s' hd hs
    have h := i.dispatch_ensures k limit e hs
    simp only [Ensures, hd] at h
    exact ⟨h.running hs, h.accounted hb hs⟩
  failed := by
    intro e s f s' hd hs
    have h := i.dispatch_ensures k limit e hs
    simp only [Ensures, hd] at h
    exact ⟨h.running hs, h.accounted hb hs⟩

theorem running_start (i : Interpreter σ) (s : Session σ) : (i.start s).Running := ⟨rfl, rfl⟩

theorem balance_start (i : Interpreter σ) (s : Session σ) (token : String) :
    (i.start s).current.ledger.balance token = 0 :=
  Ledger.balance_register .empty i.automaton.tokenTypes token

/-- After any events that are sent to a game that has been started, every balance is what was
granted less what was paid and what was taken to bypass constraints. -/
theorem balance_of_run {d : Definition} (hb : Automaton.build d = .ok i.automaton)
    (limit : i.config.maxHistory.IsWhole) (hw : i.surroundings.Watching Permit.ledgerKeeping.calm)
    (ha : i.surroundings.Acting .ledgerKeeping) (hj : i.surroundings.Judging .ledgerKeeping)
    {fuel : Nat} {es : List Event} {s s' : Session σ} {log : List Response}
    {answers : List (Except Fault Response)}
    (hrun : i.sendAllLog fuel es (i.start s) = some (log, answers, s')) :
    ∃ c, s'.live = some c ∧ ∀ token, (c.ledger.balance token : Int) =
      (log.map (Response.granted i.automaton token)).sum -
        (log.map (Response.paid i.automaton token)).sum -
        (log.map (Response.bypassed i.automaton token)).sum := by
  have k : i.surroundings.KeepTo .ledgerKeeping .ledgerKeeping :=
    { below := .refl _
      noStart := id
      data := fun _ _ _ => rfl
      applied := fun _ _ _ => rfl
      acting := ha
      watching := hw
      judging := hj }
  obtain ⟨hs', accounted⟩ := (account_accounted hb limit k).sendAllLog hrun (i.running_start s)
  refine ⟨s'.current, hs'.current_eq, fun token => ?_⟩
  have := accounted token
  rw [balance_start] at this
  omega

end Interpreter

/-- A game in which gold is dug, spent on tools, and paid as toll. -/
def Definition.mine : Definition where
  name := "mine"
  players := 2
  initial := []
  triggers := [⟨"dig", none, none, .ofWords ["gold", "gold", "gold"]⟩]
  actions := [⟨"buy", none, none, .ofWords ["gold"]⟩]
  constraints := [⟨"toll", .condition ⟨"true", .literal (.bool true)⟩, none, .ofWords ["gold"]⟩]

/-- The game in surroundings where something is bought whenever gold has been dug. -/
def Interpreter.mine : Interpreter Unit where
  automaton := (Automaton.build .mine).toOption.getD ⟨.mine, [], [], []⟩
  config := .usual
  surroundings :=
    { Surroundings.quiet fun _ m => m with
      onTransition n :=
        if n.event.type = "TRIGGER_DIG" then .send ⟨"ACTION_BUY", .object []⟩ fun _ => .done ()
        else .done () }

/-- Gold is dug and toll is paid. -/
def mineEvents : List Event :=
  ["START_GAME", "TRIGGER_DIG", "CONSTRAINT_TOLL"].map fun type => ⟨type, .object []⟩

/-- Its observer only sends events. -/
theorem mine_watching {p : Permit} (sends : p.sends) :
    Interpreter.mine.surroundings.Watching p := by
  refine ⟨fun n => ?_, fun _ => trivial, fun _ _ => trivial, fun _ _ => trivial⟩
  show Play.Within _ (if n.event.type = "TRIGGER_DIG" then _ else _)
  split
  · exact ⟨sends, fun _ => trivial⟩
  · trivial

theorem mine_balance_of_run :
    ∃ log answers s' c,
      Interpreter.mine.sendAllLog 2 mineEvents (Interpreter.mine.start (.idle ())) =
        some (log, answers, s') ∧
      s'.live = some c ∧ c.ledger.balance "gold" = 1 ∧
      ∀ token, (c.ledger.balance token : Int) =
        (log.map (Response.granted Interpreter.mine.automaton token)).sum -
          (log.map (Response.paid Interpreter.mine.automaton token)).sum -
          (log.map (Response.bypassed Interpreter.mine.automaton token)).sum := by
  have left : (Interpreter.mine.sendAllLog 2 mineEvents (Interpreter.mine.start (.idle ()))).map
      (fun run => run.2.2.live.map fun c => c.ledger.balance "gold") = some (some 1) := by
    decide +kernel
  obtain ⟨⟨log, answers, s'⟩, hrun, hgold⟩ := Option.map_eq_some_iff.1 left
  obtain ⟨c, hc, hbalance⟩ := Interpreter.balance_of_run (i := .mine) (d := .mine) rfl trivial
    (mine_watching trivial) (Surroundings.acting_of_usual rfl) (fun _ _ => trivial) hrun
  refine ⟨log, answers, s', c, hrun, hc, ?_, hbalance⟩
  simpa [hc] using hgold

end TokenGate

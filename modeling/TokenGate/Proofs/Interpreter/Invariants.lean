import TokenGate.Proofs.Act.Keeps
import TokenGate.Proofs.Automaton.Lookup
import TokenGate.Proofs.Interpreter.Settlement
import TokenGate.Proofs.Interpreter.Transcript

/-!
# Invariants of the handling of rules

The steps of a rule report, change the ledger and note what has been applied; the rest they leave
to the surroundings. An invariant that withstands each of these is kept by every step, and if it
also withstands what those who watch do when they are told of the rule, by the whole handling. More
may be true before the surroundings take part for the first time than there is from then on. What
every dispatch keeps is kept by whole runs.
-/

namespace TokenGate

open Act Handling

variable {σ α : Type} {I J K : Session σ → Prop} {F G : Fault → Prop} {e : Event}

/-- A rule that the events with some label are bound to. -/
def Automaton.BindsTo (a : Automaton) (label : String) (r : Rule) : Prop :=
  ∃ state edge entry, a.edge? state label = some edge ∧ edge.entry? = some entry ∧ entry.rule = r

theorem Automaton.BindsTo.binds {a : Automaton} {label : String} {r : Rule}
    (h : a.BindsTo label r) : a.Binds r := by
  obtain ⟨state, edge, entry, found, hentry, rule⟩ := h
  exact ⟨state, label, edge, entry, found, hentry, rule⟩

/-- The session of a handling has a property. -/
def Handling.Has (I : Session σ → Prop) (h : Handling σ) : Prop := I h.session

/-- The faults that end the handling of a rule: a constraint may block as well. -/
def Fault.Ends (F : Fault → Prop) (f : Fault) : Prop :=
  F f ∨ ∃ name message, f = .blocked name message

namespace Interpreter

variable {i : Interpreter σ}

/-- What an invariant has to withstand of the steps of the rule of an event themselves, and the
faults that these may be given up with. -/
structure Withstands (i : Interpreter σ) (e : Event) (I : Session σ → Prop) (F : Fault → Prop) :
    Prop where
  report : ∀ logger level message {s}, I s → I (i.report logger level message s)
  grant : ∀ {t s}, i.automaton.BindsTo e.type (.trigger t) → I s →
    I (s.modifyCurrent fun c => { c with ledger := c.ledger.grantBag t.grants })
  charge : ∀ {r s l}, i.automaton.BindsTo e.type r → I s → s.current.ledger.pay r.tokens = .ok l →
    I (s.withLedger l)
  noEntry : ∀ {r s token}, i.automaton.BindsTo e.type r → I s →
    s.current.ledger.pay r.tokens = .error (.noEntry token) → F (.ledger (.noEntry token))
  applied : ∀ name {s}, I s → I (s.modifyCurrent fun c => { c with applied := c.applied ++ [name] })

/-- Before those who watch are told of the rule of an event, one property withstands its steps until
the surroundings take part, by an effect or a predicate, and another one from then on. -/
structure Retains (i : Interpreter σ) (e : Event) (J I : Session σ → Prop) (F : Fault → Prop) :
    Prop where
  before : i.Withstands e J F
  after : i.Withstands e I F
  begun : ∀ s, J s → I s
  effect : ∀ {a}, i.automaton.BindsTo e.type (.action a) →
    (i.applyEffect a.effectName e.payload).Leads J I fun _ => True
  judge : ∀ {c key}, i.automaton.BindsTo e.type (.constraint c) → c.gate = .external key →
    (i.perform .current (i.surroundings.predicate key e)).Leads J I F

theorem lift_leads {x : Act (Session σ) α} (hx : x.Leads J I F) :
    (lift x).Leads (Has J) (Has I) F :=
  hx.on (fun _ hs => hs) fun _ _ _ hs => hs

theorem note_keeps (f : Progress → Progress) :
    (note f : Act (Handling σ) Unit).Keeps (Has I) F :=
  keeps_change fun _ hs => hs

/-- An effect is a built-in one, or what the surroundings make of it; there may be none. -/
theorem applyEffect_leads {name : String} {payload : Data}
    (begun : ∀ s, J s → I s)
    (setFlag : ∀ {s edit}, i.surroundings.effects.get? name = some .setFlag → J s →
      Effect.setFlag s.edits s.current payload = .ok edit → I (s.edit edit))
    (removePiece : ∀ {s edit}, i.surroundings.effects.get? name = some .removePiece → J s →
      Effect.removePiece s.edits s.current payload = .ok edit → I (s.edit edit))
    (custom : ∀ {play}, i.surroundings.effects.get? name = some (.custom play) →
      (i.perform .current (play payload)).Leads J I G) :
    (i.applyEffect name payload).Leads J I fun _ => True := by
  intro s hs
  unfold Ensures applyEffect
  -- Whatever an effect fails with is noted by the step that applies it.
  refine ⟨?_, fun _ _ => trivial⟩
  split
  · exact begun s hs
  · rename_i heffect
    split
    · rename_i hc
      exact setFlag heffect hs hc
    · exact begun s hs
  · rename_i heffect
    split
    · rename_i hc
      exact removePiece heffect hs hc
    · exact begun s hs
  · rename_i heffect
    have kept := (custom heffect s hs).1
    split <;> rename_i heq <;> rw [heq] at kept <;> exact kept

theorem applyEffect_keeps {name : String} {payload : Data}
    (setFlag : ∀ {s edit}, i.surroundings.effects.get? name = some .setFlag → I s →
      Effect.setFlag s.edits s.current payload = .ok edit → I (s.edit edit))
    (removePiece : ∀ {s edit}, i.surroundings.effects.get? name = some .removePiece → I s →
      Effect.removePiece s.edits s.current payload = .ok edit → I (s.edit edit))
    (custom : ∀ {play}, i.surroundings.effects.get? name = some (.custom play) →
      (i.perform .current (play payload)).Keeps I G) :
    (i.applyEffect name payload).Keeps I fun _ => True :=
  applyEffect_leads (fun _ => id) setFlag removePiece custom

namespace Withstands

variable (k : i.Withstands e I F)

include k

/-- An invariant that withstands the steps themselves as well as effects and predicates holds as
long as the rule is handled. -/
theorem retains
    (effect : ∀ {a}, i.automaton.BindsTo e.type (.action a) →
      (i.applyEffect a.effectName e.payload).Keeps I fun _ => True)
    (judge : ∀ {c key}, i.automaton.BindsTo e.type (.constraint c) → c.gate = .external key →
      (i.perform .current (i.surroundings.predicate key e)).Keeps I F) :
    i.Retains e I I F :=
  ⟨k, k, fun _ => id, effect, judge⟩

theorem reportStep (level : Level) (message : String) :
    (i.reportStep level message).Keeps (Has I) F :=
  keeps_change fun _ hs => k.report _ _ _ hs

theorem payCurrent {r : Rule} (bound : i.automaton.BindsTo e.type r) :
    (payCurrent r.tokens).Keeps (Has I) F := by
  intro h hs
  simp only [Ensures, Interpreter.payCurrent]
  rcases h.session.current.ledger.pay_cases r.tokens with
    ⟨l, hpay⟩ | ⟨-, hpay⟩ | ⟨token, -, -, hpay⟩
  · rw [hpay]
    exact ⟨k.charge bound hs hpay, no_fault_of_ok⟩
  · rw [hpay]
    exact ⟨hs, no_fault_of_ok⟩
  · rw [hpay]
    refine ⟨hs, fun f hf => ?_⟩
    cases hf
    exact k.noEntry bound hs hpay

theorem grantStep {t : Trigger} (bound : i.automaton.BindsTo e.type (.trigger t)) :
    (grantStep t).Keeps (Has I) F :=
  keeps_change fun _ hs => k.grant bound hs

theorem payStep {a : Action} (bound : i.automaton.BindsTo e.type (.action a)) :
    (i.payStep a).Keeps (Has I) F := by
  refine (k.payCurrent bound).bind fun lack => ?_
  cases lack with
  | nil => exact note_keeps _
  | cons _ _ => exact (note_keeps _).bind fun _ => k.reportStep _ _

section Told

variable (told : ∀ l, (i.notifyLog l).Keeps I F)

include told

theorem logRule (kind : EventKind) (detail : String) :
    (i.logRule e kind detail).Keeps (Has I) F :=
  keeps_get_bind fun _ => (k.reportStep _ _).bind fun _ => lift_leads (told _)

theorem block (c : Constraint) : (i.block c e).Keeps (Has I) (Fault.Ends F) := by
  refine (note_keeps _).bind fun _ => ?_
  refine ((k.logRule told _ _).weaken fun _ => .inl).bind fun _ => keeps_fail ?_
  exact .inr ⟨c.name, c.message, rfl⟩

end Told

end Withstands

namespace Retains

variable (k : i.Retains e J I F)

include k

theorem effectStep {a : Action} (bound : i.automaton.BindsTo e.type (.action a)) :
    (i.effectStep a e).Leads (Has J) (Has I) F := by
  refine leads_get_bind fun h => ?_
  have noted : (onSession (fun s => s.modifyCurrent fun c =>
      { c with applied := c.applied ++ [a.effectName] })).Keeps (Has I) F :=
    keeps_change fun _ hs => k.after.applied _ hs
  simp only
  split
  · exact (k.after.reportStep _ _).of_imp fun _ => k.begun _
  · refine (lift_leads (k.effect bound)).attempt.bind fun outcome => ?_
    cases outcome with
    | error f => exact (note_keeps _).bind fun _ => k.after.reportStep _ _
    | ok handled =>
      cases handled with
      | true => exact noted.bind fun _ => note_keeps _
      | false => exact (k.after.reportStep _ _).bind fun _ => noted.bind fun _ => note_keeps _

theorem blocks {c : Constraint} (bound : i.automaton.BindsTo e.type (.constraint c)) :
    (i.blocks c e).Leads J I F := by
  unfold Interpreter.blocks
  split
  · exact fun s hs => ⟨k.begun s hs, no_fault_of_ok⟩
  · rename_i key hgate
    exact (k.judge bound hgate).bind fun _ => keeps_pure _

section Told

variable (told : ∀ l, (i.notifyLog l).Keeps I F)

include told

theorem checkStep {c : Constraint} (bound : i.automaton.BindsTo e.type (.constraint c)) :
    (i.checkStep c e).Leads (Has J) (Has I) (Fault.Ends F) := by
  refine (lift_leads ((k.blocks bound).weaken fun _ => .inl)).bind fun blocked => ?_
  cases blocked with
  | false => exact note_keeps fun g => { g with verdict := some .passed }
  | true =>
    simp only [↓reduceIte]
    split
    · exact k.after.block told c
    · refine ((k.after.payCurrent bound).weaken fun _ => .inl).bind fun lack => ?_
      cases lack with
      | nil => exact note_keeps _
      | cons _ _ => exact k.after.block told c

theorem runChain {r : Rule} (bound : i.automaton.BindsTo e.type r) :
    (i.runChain (.rule r) e (Step.chain r.kind)).Leads (Has J) (Has I) (Fault.Ends F) := by
  have begun (h : Handling σ) (hs : Has J h) : Has I h := k.begun _ hs
  have logged (kind : EventKind) (detail : String) :
      (i.logRule e kind detail).Keeps (Has I) (Fault.Ends F) :=
    (k.after.logRule told kind detail).weaken fun _ => .inl
  cases r with
  | trigger t =>
    have granted : (grantStep t).Keeps (Has I) (Fault.Ends F) :=
      (k.after.grantStep bound).weaken fun _ => .inl
    exact (granted.of_imp begun).bind fun _ => (logged _ _).bind fun _ => keeps_pure _
  | action a =>
    refine ((k.before.payStep bound).weaken fun _ => .inl).through (fun _ => ?_) begun
    refine ((k.effectStep bound).weaken fun _ => .inl).bind fun _ => ?_
    exact (keeps_get_bind fun _ => logged _ _).bind fun _ => keeps_pure _
  | constraint c =>
    refine (k.checkStep told bound).bind fun _ => ?_
    exact (keeps_get_bind fun _ => logged _ _).bind fun _ => keeps_pure _

/-- The handling of the rule of an edge leads from the one property to the other. A constraint that
blocks is no fault of it. -/
theorem handle {state : State} {edge : Edge} (found : i.automaton.edge? state e.type = some edge) :
    (i.handle edge e).Leads J I F := by
  intro s hs
  cases hentry : edge.entry? with
  | none =>
    simp only [Ensures, Interpreter.handle, hentry]
    exact ⟨k.begun s hs, no_fault_of_ok⟩
  | some entry =>
    -- Only now is the rule known to be one of the automaton, as the payment of its tokens requires.
    have bound : i.automaton.BindsTo e.type entry.rule := ⟨state, edge, entry, found, hentry, rfl⟩
    refine i.handle_ensures hentry (k.runChain told bound ⟨s, .none⟩ hs) ?_ ?_ ?_
    · rintro h' ⟨kept, -⟩
      exact ⟨kept, no_fault_of_ok⟩
    · rintro c m h' ⟨kept, -⟩
      exact ⟨kept, no_fault_of_ok⟩
    · rintro f h' unblocked ⟨kept, ends⟩
      refine ⟨kept, fun f' hf => ?_⟩
      cases hf
      rcases ends f rfl with fails | ⟨name, message, hblocked⟩
      · exact fails
      · exact absurd hblocked (unblocked name message)

end Told

/-- A whole dispatch leads to a third property, if the second one withstands those who watch and the
move along an edge, and if the third one holds then and after the event. -/
theorem dispatch_leads (told : ∀ l, (i.notifyLog l).Keeps I F)
    (informed : ∀ n, (i.notify n).Keeps I F)
    (advance : ∀ turn state history {s}, I s → I (s.modifyCurrent fun _ =>
      { s.current with turn := turn, state := state, history := history }))
    (copied : ∀ {s}, I s → I s.copied) (ended : ∀ {s}, I s → K s)
    (settle : ∀ {s}, I s → K { s with detached := none }) :
    (i.dispatch e).Leads J K fun _ => True := by
  have moved (edge : Edge) : (i.move edge e).Keeps I fun _ => True := by
    intro s hs
    simp only [Ensures, move, Context.record]
    cases i.config.maxHistory.keepLast _ with
    | error f => exact ⟨advance _ _ _ hs, fun _ _ => trivial⟩
    | ok kept => exact ((informed _).weaken fun _ _ => trivial) _ (copied (advance _ _ _ hs))
  have followed {state : State} {edge : Edge} (found : i.automaton.edge? state e.type = some edge) :
      (i.follow edge e).Leads J I fun _ => True := by
    refine ((k.handle told found).weaken fun _ _ => trivial).bind fun answer => ?_
    cases answer with
    | error f =>
      refine keeps_get_bind fun _ => ?_
      exact (keeps_change fun _ hs => k.after.report _ _ _ hs).bind fun _ => keeps_pure _
    | ok g => exact (moved edge).bind fun _ => keeps_get_bind fun _ => keeps_pure _
  intro s hs
  unfold Ensures Interpreter.dispatch
  cases hlive : s.live with
  | none => exact ⟨ended (k.after.report _ _ _ (k.begun s hs)), fun _ _ => trivial⟩
  | some c =>
    simp only
    cases hedge : i.automaton.edge? c.state e.type with
    | none => exact ⟨ended (k.after.report _ _ _ (k.begun s hs)), fun _ _ => trivial⟩
    | some edge => exact ⟨settle (followed hedge s hs).1, fun _ _ => trivial⟩

end Retains

/-- A whole dispatch keeps the invariant if that also withstands those who watch and the move along
an edge. -/
theorem Retains.dispatch (k : i.Retains e I I F) (told : ∀ l, (i.notifyLog l).Keeps I F)
    (informed : ∀ n, (i.notify n).Keeps I F)
    (advance : ∀ turn state history {s}, I s → I (s.modifyCurrent fun _ =>
      { s.current with turn := turn, state := state, history := history }))
    (copied : ∀ {s}, I s → I s.copied)
    (settle : ∀ {s}, I s → I { s with detached := none }) :
    (i.dispatch e).Keeps I fun _ => True :=
  k.dispatch_leads told informed advance copied id settle

section Runs

variable {P : Event → Prop} (dispatched : ∀ {e}, P e → (i.dispatch e).Keeps I fun _ => True)
  (waiting : ∀ {s}, I s → ∀ e ∈ s.queue, P e)
  (taken : ∀ {s queue}, I s → queue <:+ s.queue → I { s with queue := queue })

include dispatched waiting taken

/-- What the dispatch of every event of some kind keeps is kept while the events that wait are
dispatched, if they are all of that kind. -/
theorem drainLog_keeps {fuel : Nat} {s s' : Session σ} {log : List Response}
    {o : Except Fault Unit} (hrun : i.drainLog fuel s = some (log, o, s')) (hs : I s) : I s' := by
  have next {s : Session σ} {e : Event} {rest : List Event} (hq : s.queue = e :: rest) (hs : I s) :
      I (i.dispatch e { s with queue := rest }).2 := by
    have kind : P e := waiting hs e (hq ▸ List.mem_cons_self)
    exact (dispatched kind _ (taken hs (hq ▸ List.suffix_cons e rest))).1
  refine i.drainLog_induction (P := fun s _ _ s' => I s → I s') ?_ ?_ ?_ hrun hs
  · intro s _ hs
    exact hs
  · intro s e rest f s' hq hd hs
    have after := next hq hs
    rwa [hd] at after
  · intro s e rest r s₁ log o s' hq hd tail hs
    have after := next hq hs
    rw [hd] at after
    exact tail after

theorem cycleLog_keeps {fuel : Nat} {e : Event} (he : P e) {s s' : Session σ}
    {log : List Response} {o : Except Fault Response}
    (hrun : i.cycleLog fuel e s = some (log, o, s')) (hs : I s) : I s' := by
  have forgotten {s : Session σ} (hs : I s) : I (forget s) := taken hs List.nil_suffix
  have first := (dispatched he s hs).1
  unfold cycleLog at hrun
  generalize i.dispatch e s = result at hrun first
  obtain ⟨answer, s₁⟩ := result
  cases answer with
  | error f =>
    cases hrun
    exact forgotten first
  | ok r =>
    simp only at hrun
    split at hrun
    · cases hrun
    · rename_i hdrain
      cases hrun
      exact forgotten (drainLog_keeps dispatched waiting taken hdrain first)
    · rename_i hdrain
      cases hrun
      exact drainLog_keeps dispatched waiting taken hdrain first

end Runs

end Interpreter
end TokenGate

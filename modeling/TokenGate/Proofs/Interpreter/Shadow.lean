import TokenGate.Interpreter
import TokenGate.Proofs.Act.Shadows
import TokenGate.Proofs.Automaton.Lookup

/-!
# Interpreters that shadow each other

Two interpreters with the same automaton and the same behaviour may differ in their surroundings.
If what the surroundings of one do is shadowed by what those of the other do, then so is a whole
dispatch: it has the same answer and leads to related sessions, unless it goes astray.
-/

namespace TokenGate

open Act Handling

variable {σ τ α : Type}

/-- How an effect of one interpreter is shadowed by one of another: built-in effects by themselves,
custom ones if what they do is shadowed. -/
inductive EffectHandler.Shadowed (i : Interpreter σ) (j : Interpreter τ)
    (R : Session σ → Session τ → Prop) (astray : Session σ → Prop) :
    Option (EffectHandler σ) → Option (EffectHandler τ) → Prop where
  | none : Shadowed i j R astray none none
  | setFlag : Shadowed i j R astray (some .setFlag) (some .setFlag)
  | removePiece : Shadowed i j R astray (some .removePiece) (some .removePiece)
  | custom {x : Data → Play σ Unit} {y : Data → Play τ Unit}
      (shadows : ∀ payload,
        Shadows R astray (i.perform .current (x payload)) (j.perform .current (y payload))) :
      Shadowed i j R astray (some (.custom x)) (some (.custom y))

/-- One interpreter shadows another: `R` relates the sessions of the two, and `astray` are those
sessions of the first one that are followed no longer. -/
structure Interpreter.Shadow (i : Interpreter σ) (j : Interpreter τ)
    (R : Session σ → Session τ → Prop) (astray : Session σ → Prop) : Prop where
  automaton : j.automaton = i.automaton
  config : j.config = i.config
  live : ∀ {s t}, R s t → t.live = s.live
  detached : ∀ {s t}, R s t → t.detached = s.detached
  edits : ∀ {s t}, R s t → t.edits = s.edits
  copies : ∀ {s t}, R s t → t.copies = s.copies
  settle : ∀ {s t}, R s t → R { s with detached := none } { t with detached := none }
  report : ∀ logger level message {s t}, R s t →
    R (i.report logger level message s) (j.report logger level message t)
  reportAstray : ∀ logger level message {s}, astray s → astray (i.report logger level message s)
  modifyCurrent : ∀ f : Context → Context,
    Shadows R astray (change fun s => s.modifyCurrent f) (change fun t => t.modifyCurrent f)
  edit : ∀ edit, Shadows R astray (change (Session.edit edit)) (change (Session.edit edit))
  copied : Shadows R astray (change Session.copied) (change Session.copied)
  effect : ∀ name, EffectHandler.Shadowed i j R astray
    (i.surroundings.effects.get? name) (j.surroundings.effects.get? name)
  judge : ∀ {c key}, i.automaton.Binds (.constraint c) → c.gate = .external key →
    ∀ e, Shadows R astray (i.perform .current (i.surroundings.predicate key e))
      (j.perform .current (j.surroundings.predicate key e))
  notify : ∀ n, Shadows R astray (i.notify n) (j.notify n)
  notifyLog : ∀ l, Shadows R astray (i.notifyLog l) (j.notifyLog l)

namespace Handling

/-- Two rules are handled in related sessions with the same progress. -/
def Alike (R : Session σ → Session τ → Prop) (h : Handling σ) (h' : Handling τ) : Prop :=
  R h.session h'.session ∧ h'.progress = h.progress

/-- The session of the handling has gone astray. -/
def Astray (astray : Session σ → Prop) (h : Handling σ) : Prop := astray h.session

end Handling

section Steps

variable {R : Session σ → Session τ → Prop} {astray : Session σ → Prop}

theorem shadows_lift {x : Act (Session σ) α} {y : Act (Session τ) α} (h : Shadows R astray x y) :
    Shadows (Alike R) (Astray astray) (lift x) (lift y) :=
  h.on And.left (fun alike hR => ⟨hR, alike.2⟩) id id

theorem shadows_onSession {f : Session σ → Session σ} {g : Session τ → Session τ}
    (h : Shadows R astray (change f) (change g)) :
    Shadows (Alike R) (Astray astray) (onSession f) (onSession g) :=
  shadows_lift h

theorem shadows_note (f : Progress → Progress) :
    Shadows (Alike R) (Astray astray) (note f) (note f) :=
  shadows_change (fun alike => ⟨alike.1, congrArg f alike.2⟩) id

/-- What is shadowed whatever the progress is shadowed. -/
theorem shadows_of_progress {x : Act (Handling σ) α} {y : Act (Handling τ) α}
    (h : ∀ p, Shadows (Alike R) (Astray astray) (fun h => x ⟨h.session, p⟩)
      (fun h => y ⟨h.session, p⟩)) : Shadows (Alike R) (Astray astray) x y where
  keeps := by
    rintro ⟨s, p⟩ ⟨t, q⟩ ⟨hR, hp⟩
    obtain rfl : q = p := hp
    exact (h q).keeps (s := ⟨s, q⟩) (t := ⟨t, q⟩) ⟨hR, rfl⟩
  stays {g} hs := (h g.progress).stays hs

theorem shadows_given {x : Act (Handling σ) α} {y : Act (Handling τ) α}
    (h : Shadows (Alike R) (Astray astray) x y) (p : Progress) :
    Shadows (Alike R) (Astray astray) (fun h => x ⟨h.session, p⟩) (fun h => y ⟨h.session, p⟩) where
  keeps alike := h.keeps ⟨alike.1, rfl⟩
  stays hs := h.stays hs

section Watchers

variable {i : Interpreter σ} {j : Interpreter τ}

/-- Watchers that shadow each other one by one do so together. -/
theorem shadows_performAll {x : String → Play σ Unit} {y : String → Play τ Unit}
    (each : ∀ name, Shadows R astray (i.perform .live (x name)) (j.perform .live (y name)))
    (names : List String) : Shadows R astray (i.performAll x names) (j.performAll y names) := by
  induction names with
  | nil => exact shadows_pure _
  | cons name rest ih => exact (each name).bind fun _ => ih

theorem shadows_notify {n : Notice}
    (observer : Shadows R astray (i.perform .live (i.surroundings.onTransition n))
      (j.perform .live (j.surroundings.onTransition n)))
    (each : ∀ name, Shadows R astray (i.perform .live (i.surroundings.transitionWatcher name n))
      (j.perform .live (j.surroundings.transitionWatcher name n)))
    (same : ∀ {s t}, R s t → t.transitionWatchers = s.transitionWatchers) :
    Shadows R astray (i.notify n) (j.notify n) := by
  refine observer.bind fun _ => ⟨fun hR => ?_, fun hs => (shadows_performAll each _).stays hs⟩
  simp only [bind_apply, Act.get, same hR]
  exact (shadows_performAll each _).keeps hR

theorem shadows_notifyLog {l : RuleLog}
    (observer : Shadows R astray (i.perform .live (i.surroundings.onRuleLog l))
      (j.perform .live (j.surroundings.onRuleLog l)))
    (each : ∀ name, Shadows R astray (i.perform .live (i.surroundings.logWatcher name l))
      (j.perform .live (j.surroundings.logWatcher name l)))
    (same : ∀ {s t}, R s t → t.logWatchers = s.logWatchers) :
    Shadows R astray (i.notifyLog l) (j.notifyLog l) := by
  refine observer.bind fun _ => ⟨fun hR => ?_, fun hs => (shadows_performAll each _).stays hs⟩
  simp only [bind_apply, Act.get, same hR]
  exact (shadows_performAll each _).keeps hR

end Watchers

end Steps

namespace Interpreter.Shadow

variable {i : Interpreter σ} {j : Interpreter τ} {R : Session σ → Session τ → Prop}
  {astray : Session σ → Prop} (m : Shadow i j R astray)

include m

theorem current {s : Session σ} {t : Session τ} (hR : R s t) : t.current = s.current := by
  simp only [Session.current, m.live hR, m.detached hR]

theorem shadows_report (logger : String) (level : Level) (message : String) :
    Shadows R astray (change (i.report logger level message))
      (change (j.report logger level message)) :=
  shadows_change (m.report _ _ _) (m.reportAstray _ _ _)

theorem reportStep (level : Level) (message : String) :
    Shadows (Alike R) (Astray astray) (i.reportStep level message) (j.reportStep level message) :=
  shadows_onSession (m.shadows_report _ _ _)

theorem modifySession (f : Context → Context) :
    Shadows (Alike R) (Astray astray) (onSession fun s => s.modifyCurrent f)
      (onSession fun s => s.modifyCurrent f) :=
  shadows_onSession (m.modifyCurrent f)

theorem applyEffect (name : String) (payload : Data) :
    Shadows R astray (i.applyEffect name payload) (j.applyEffect name payload) := by
  have handler := m.effect name
  unfold Interpreter.applyEffect
  revert handler
  generalize i.surroundings.effects.get? name = x
  generalize j.surroundings.effects.get? name = y
  intro handler
  cases handler with
  | none => exact shadows_pure false
  | setFlag =>
    refine ⟨fun {s t} hR => ?_, fun {s} hs => ?_⟩
    · simp only [m.current hR, m.edits hR]
      cases Effect.setFlag s.edits s.current payload with
      | error e => exact .inr ⟨rfl, hR⟩
      | ok edit => exact ((m.edit edit).keeps hR).imp_right fun h => ⟨rfl, h.2⟩
    · cases Effect.setFlag s.edits s.current payload with
      | error e => exact hs
      | ok edit => exact (m.edit edit).stays hs
  | removePiece =>
    refine ⟨fun {s t} hR => ?_, fun {s} hs => ?_⟩
    · simp only [m.current hR, m.edits hR]
      cases Effect.removePiece s.edits s.current payload with
      | error e => exact .inr ⟨rfl, hR⟩
      | ok edit => exact ((m.edit edit).keeps hR).imp_right fun h => ⟨rfl, h.2⟩
    · cases Effect.removePiece s.edits s.current payload with
      | error e => exact hs
      | ok edit => exact (m.edit edit).stays hs
  | @custom x y shadows =>
    refine ⟨fun {s t} hR => ?_, fun {s} hs => ?_⟩
    · have performed := (shadows payload).keeps hR
      simp only
      generalize i.perform .current (x payload) s = result at performed
      generalize j.perform .current (y payload) t = result' at performed
      obtain ⟨o, s'⟩ := result
      obtain ⟨o', t'⟩ := result'
      rcases performed with away | ⟨rfl, hR'⟩
      · refine .inl ?_
        split <;> (rename_i heq; cases heq; exact away)
      · cases o' with
        | ok _ => exact .inr ⟨rfl, hR'⟩
        | error f => cases f <;> exact .inr ⟨rfl, hR'⟩
    · have performed := (shadows payload).stays hs
      simp only
      generalize i.perform .current (x payload) s = result at performed
      obtain ⟨o, s'⟩ := result
      split <;> (rename_i heq; cases heq; exact performed)

theorem payCurrent (b : TokenBag) :
    Shadows (Alike R) (Astray astray) (payCurrent b) (payCurrent b) := by
  refine ⟨fun {h h'} alike => ?_, fun {h} hs => ?_⟩
  · simp only [Interpreter.payCurrent, m.current alike.1]
    cases h.session.current.ledger.pay b with
    | ok l =>
      exact ((m.modifySession fun c => { c with ledger := l }).keeps alike).imp_right
        fun h => ⟨rfl, h.2⟩
    | error e => cases e <;> exact .inr ⟨rfl, alike⟩
  · simp only [Interpreter.payCurrent]
    cases h.session.current.ledger.pay b with
    | ok l => exact (m.modifySession fun c => { c with ledger := l }).stays hs
    | error e => cases e <;> exact hs

theorem logRule (e : Event) (kind : EventKind) (detail : String) :
    Shadows (Alike R) (Astray astray) (i.logRule e kind detail) (j.logRule e kind detail) := by
  have logged (l : RuleLog) :=
    (m.reportStep .debug l.line).bind fun _ => shadows_lift (m.notifyLog l)
  refine ⟨fun {h h'} alike => ?_, fun {h} hs => ?_⟩
  · simp only [Interpreter.logRule, bind_apply, Act.get, m.current alike.1]
    exact (logged _).keeps alike
  · exact (logged _).stays hs

theorem blocks {c : Constraint} (hc : i.automaton.Binds (.constraint c)) (e : Event) :
    Shadows R astray (i.blocks c e) (j.blocks c e) := by
  unfold Interpreter.blocks
  split
  · refine ⟨fun {s t} hR => .inr ⟨?_, hR⟩, id⟩
    simp only [m.current hR, m.edits hR, m.config]
  · rename_i key hkey
    exact (m.judge hc hkey e).bind fun v => shadows_pure _

theorem block (c : Constraint) (e : Event) :
    Shadows (Alike R) (Astray astray) (i.block c e) (j.block c e) :=
  (shadows_note _).bind fun _ => (m.logRule _ _ _).bind fun _ => shadows_fail _

theorem payStep (a : Action) :
    Shadows (Alike R) (Astray astray) (i.payStep a) (j.payStep a) := by
  refine (m.payCurrent a.costs).bind fun lack => ?_
  cases lack with
  | nil => exact shadows_note _
  | cons x rest => exact (shadows_note _).bind fun _ => m.reportStep _ _

theorem effectStep (a : Action) (e : Event) :
    Shadows (Alike R) (Astray astray) (i.effectStep a e) (j.effectStep a e) := by
  refine shadows_of_progress fun p => ?_
  simp only [Interpreter.effectStep, bind_apply, Act.get, m.config]
  by_cases skip : p.costPaid = some false ∧ i.config.skipUnpaid = true
  · simp only [if_pos skip]
    exact shadows_given (m.reportStep _ _) p
  · simp only [if_neg skip]
    refine shadows_given ((shadows_lift (m.applyEffect _ _)).attempt.bind fun outcome => ?_) p
    cases outcome with
    | error f => exact (shadows_note _).bind fun _ => m.reportStep _ _
    | ok handled =>
      have noted := (m.modifySession fun c => { c with applied := c.applied ++ [a.effectName] }).bind
        fun _ => shadows_note fun g => { g with effectApplied := true }
      cases handled with
      | true => exact noted
      | false => exact (m.reportStep _ _).bind fun _ => noted

theorem checkStep {c : Constraint} (hc : i.automaton.Binds (.constraint c)) (e : Event) :
    Shadows (Alike R) (Astray astray) (i.checkStep c e) (j.checkStep c e) := by
  refine (shadows_lift (m.blocks hc e)).bind fun blocked => ?_
  cases blocked with
  | false => exact shadows_note fun g => { g with verdict := some .passed }
  | true =>
    simp only [↓reduceIte]
    split
    · exact m.block c e
    · refine (m.payCurrent c.bypass).bind fun lack => ?_
      cases lack with
      | nil => exact shadows_note _
      | cons x rest => exact m.block c e

theorem runStep {r : Rule} (hr : i.automaton.Binds r) (e : Event) (step : Step) :
    Shadows (Alike R) (Astray astray) (i.runStep (.rule r) e step)
      (j.runStep (.rule r) e step) := by
  cases step with
  | grantTokens =>
    cases r with
    | trigger t => exact m.modifySession _
    | _ => exact shadows_fail _
  | consumeTokens =>
    cases r with
    | action a => exact m.payStep a
    | _ => exact shadows_fail _
  | applyEffect =>
    cases r with
    | action a => exact m.effectStep a e
    | _ => exact shadows_fail _
  | checkConstraint =>
    cases r with
    | constraint c => exact m.checkStep hr e
    | _ => exact shadows_fail _
  | logTrigger => exact m.logRule _ _ _
  | logAction =>
    exact shadows_of_progress fun p => shadows_given (m.logRule e .action (actionDetail p)) p
  | logConstraint =>
    exact shadows_of_progress fun p => shadows_given (m.logRule e .constraint (constraintDetail p)) p

theorem runChain {r : Rule} (hr : i.automaton.Binds r) (e : Event) (steps : List Step) :
    Shadows (Alike R) (Astray astray) (i.runChain (.rule r) e steps)
      (j.runChain (.rule r) e steps) := by
  induction steps with
  | nil => exact shadows_pure _
  | cons step rest ih => exact (m.runStep hr e step).bind fun _ => ih

theorem handle {edge : Edge}
    (hedge : ∀ entry, edge.entry? = some entry → i.automaton.Binds entry.rule) (e : Event) :
    Shadows R astray (i.handle edge e) (j.handle edge e) := by
  unfold Interpreter.handle
  split
  · exact shadows_pure _
  · rename_i entry hentry
    have chain := m.runChain (hedge entry hentry) e entry.steps
    refine ⟨fun {s t} hR => ?_, fun {s} hs => ?_⟩
    · have ran := chain.keeps (s := ⟨s, .none⟩) (t := ⟨t, .none⟩) ⟨hR, rfl⟩
      generalize i.runChain (.rule entry.rule) e entry.steps ⟨s, .none⟩ = result at ran
      generalize j.runChain (.rule entry.rule) e entry.steps ⟨t, .none⟩ = result' at ran
      obtain ⟨o, h⟩ := result
      obtain ⟨o', h'⟩ := result'
      rcases ran with away | ⟨rfl, hR', hp⟩
      · refine .inl ?_
        split <;> (rename_i heq; cases heq; exact away)
      · cases o' with
        | ok _ => exact .inr ⟨congrArg (fun p => Except.ok (Except.ok p)) hp, hR'⟩
        | error f => cases f <;> exact .inr ⟨rfl, hR'⟩
    · have ran := chain.stays (s := ⟨s, .none⟩) hs
      generalize i.runChain (.rule entry.rule) e entry.steps ⟨s, .none⟩ = result at ran
      obtain ⟨o, h⟩ := result
      split <;> (rename_i heq; cases heq; exact ran)

theorem move (edge : Edge) (e : Event) : Shadows R astray (i.move edge e) (j.move edge e) := by
  have told (after : Context) (n : Notice) :=
    (m.modifyCurrent fun _ => after).bind fun _ => m.copied.bind fun _ => m.notify n
  refine ⟨fun {s t} hR => ?_, fun {s} hs => ?_⟩
  · simp only [Interpreter.move, m.current hR, m.edits hR, m.copies hR, m.config]
    split
    · exact ((m.modifyCurrent _).keeps hR).imp_right fun h => ⟨rfl, h.2⟩
    · exact (told _ _).keeps hR
  · simp only [Interpreter.move]
    split
    · exact (m.modifyCurrent _).stays hs
    · exact (told _ _).stays hs

theorem follow {edge : Edge}
    (hedge : ∀ entry, edge.entry? = some entry → i.automaton.Binds entry.rule) (e : Event) :
    Shadows R astray (i.follow edge e) (j.follow edge e) := by
  refine (m.handle hedge e).bind fun answer => ?_
  cases answer with
  | error f =>
    have reported (text : String) := (m.shadows_report logger .info
      (e.type ++ " blocked in state " ++ text ++ ": " ++ f.message)).bind fun _ => shadows_pure
        (⟨.blocked, e, text, { Progress.none with verdict := some .blocked }⟩ : Response)
    refine ⟨fun hR => ?_, fun hs => (reported _).stays hs⟩
    simp only [bind_apply, Act.get, m.current hR]
    exact (reported _).keeps hR
  | ok g =>
    refine (m.move edge e).bind fun _ => ⟨fun hR => .inr ⟨?_, hR⟩, id⟩
    simp only [bind_apply, Act.get, m.current hR]
    rfl

/-- A dispatch is shadowed, unless it ends where it has gone astray. -/
theorem dispatch (e : Event) {s : Session σ} {t : Session τ} (hR : R s t) :
    (∃ s', astray s' ∧ (i.dispatch e s).2 = { s' with detached := none }) ∨
      ((j.dispatch e t).1 = (i.dispatch e s).1 ∧ R (i.dispatch e s).2 (j.dispatch e t).2) := by
  cases hlive : s.live with
  | none =>
    simp only [Interpreter.dispatch, m.live hR, hlive]
    exact .inr ⟨trivial, m.report _ _ _ hR⟩
  | some c =>
    cases hedge : i.automaton.edge? c.state e.type with
    | none =>
      simp only [Interpreter.dispatch, m.live hR, m.automaton, hlive, hedge]
      exact .inr ⟨trivial, m.report _ _ _ hR⟩
    | some edge =>
      simp only [Interpreter.dispatch, m.live hR, m.automaton, hlive, hedge]
      have bound (entry : CatalogEntry) (hentry : edge.entry? = some entry) :
          i.automaton.Binds entry.rule := ⟨_, _, edge, entry, hedge, hentry, rfl⟩
      rcases (m.follow bound e).keeps hR with away | ⟨heq, hR'⟩
      · exact .inl ⟨_, away, rfl⟩
      · exact .inr ⟨heq, m.settle hR'⟩

omit m in
/-- A dispatch that cannot go astray is mirrored. -/
theorem dispatch_mirrors {see : Session σ → Session τ} {sound : Session σ → Prop}
    (m : Shadow i j (Seen see sound) fun _ => False) (e : Event) {s : Session σ} (hs : sound s) :
    Mirrors see sound s (i.dispatch e) (j.dispatch e) := by
  rcases m.dispatch e (t := see s) ⟨rfl, hs⟩ with ⟨_, away, -⟩ | ⟨heq, hsee, hs'⟩
  · exact away.elim
  · exact ⟨Prod.ext heq hsee, hs'⟩

end Interpreter.Shadow
end TokenGate

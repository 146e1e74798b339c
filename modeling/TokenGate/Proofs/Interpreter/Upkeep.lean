import TokenGate.Proofs.Automaton.Lookup
import TokenGate.Proofs.Interpreter.Dispatch
import TokenGate.Proofs.Interpreter.Invariants
import TokenGate.Proofs.Play.AtHand

/-!
# What every dispatch keeps up

Whatever the surroundings do within a permit, be it that they give up or start the game anew, a
property of games that neither they nor the rules take away is kept up by the handling of rules.
A dispatch changes more only if it moves the game along an edge, and there are few faults that it
can come to.
-/

namespace TokenGate

open Act

variable {σ α : Type} {p : Permit} {P Q : Context → Prop}

/-- A property of games that is taken away neither within a permit nor by the handling of a
rule. -/
structure Automaton.Upholds (a : Automaton) (p : Permit) (P : Context → Prop) : Prop extends
    p.Preserves a P where
  applied : ∀ {c} names, P c → P { c with applied := names }
  grant : ∀ {t c}, a.Binds (.trigger t) → P c →
    P { c with ledger := c.ledger.grantBag t.grants }
  charge : ∀ {r c l}, a.Binds r → P c → c.ledger.pay r.tokens = .ok l → P { c with ledger := l }

/-- A game after it has moved along an edge for an event. -/
def Context.advance (c : Context) (edge : Edge) (e : Event) (limit : HistoryLimit) : Context :=
  { c with
    turn := edge.turn c.turn
    state := .phase edge.target
    history := limit.cut (c.history ++ [e]) }

namespace Interpreter

/-- All that the surroundings do for the rules of the automaton keeps to a permit. An effect may
give up all the same, as that only comes to be noted. -/
structure Abides (i : Interpreter σ) (p : Permit) : Prop where
  watching : i.surroundings.Watching p
  acting : i.surroundings.Acting p.failing
  judging : ∀ {c key}, i.automaton.Binds (.constraint c) → c.gate = .external key →
    ∀ e, (i.surroundings.predicate key e).Within p

/-- The faults that an event can come to: those of the surroundings, a payment of tokens one of
which has no entry, and a history that cannot be kept to its limit. -/
inductive Fails (i : Interpreter σ) (p : Permit) : Fault → Prop where
  | surroundings {f : Fault} (permitted : p.fails f) : Fails i p f
  | noEntry {r : Rule} {l : Ledger} {token : String} (bound : i.automaton.Binds r)
      (refused : l.pay r.tokens = .error (.noEntry token)) : Fails i p (.ledger (.noEntry token))
  | limit {items : List Event} {err : LimitError}
      (refused : i.config.maxHistory.keepLast items = .error err) : Fails i p (.limit err)

variable {i : Interpreter σ}

section Handling

variable (k : i.Abides p) (u : i.automaton.Upholds p P)

include k u

/-- What is upheld withstands all that is done for the rule of an event. -/
theorem retains_holds (e : Event) :
    i.Retains e (Session.Holds p P) (Session.Holds p P) (i.Fails p) := by
  have withstands : i.Withstands e (Session.Holds p P) (i.Fails p) :=
    { report := fun _ _ _ _ hs => i.holds_report hs _ _ _
      grant := fun bound hs => hs.modifyCurrent (u.grant bound.binds hs.current)
      charge := fun bound hs hpay => hs.modifyCurrent (u.charge bound.binds hs.current hpay)
      noEntry := fun bound _ hpay => .noEntry bound.binds hpay
      applied := fun _ _ hs => hs.modifyCurrent (u.applied _ hs.current) }
  refine withstands.retains (fun _ => ?_) fun bound hgate => ?_
  · exact applyEffect_keeps (fun _ hs _ => hs.of_eq rfl rfl rfl) (fun _ hs _ => hs.of_eq rfl rfl rfl)
      fun hplay =>
        i.perform_keeps u.toPreserves p.failing_below .current (k.acting _ _ hplay e.payload)
  · exact (i.perform_keeps u.toPreserves (.refl p) .current (k.judging bound.binds hgate e)).weaken
      fun _ => .surroundings

/-- The handling of the rule of an edge keeps up the property. -/
theorem handle_keeps {state : State} {e : Event} {edge : Edge}
    (found : i.automaton.edge? state e.type = some edge) :
    (i.handle edge e).Keeps (Session.Holds p P) (i.Fails p) := by
  refine (retains_holds k u e).handle (fun l => ?_) found
  exact (i.notifyLog_keeps u.toPreserves k.watching l).weaken fun _ => .surroundings

end Handling

/-- Whatever the surroundings do is something. -/
theorem abides_anything (i : Interpreter σ) : i.Abides .anything where
  watching := i.surroundings.watching_anything
  acting _ _ _ _ := Play.within_anything _
  judging _ _ _ := Play.within_anything _

theorem upholds_anything (a : Automaton) : a.Upholds .anything fun _ => True :=
  ⟨⟨fun _ _ => trivial, fun _ _ => trivial⟩, fun _ _ => trivial, fun _ _ => trivial,
    fun _ _ _ => trivial⟩

/-- What dispatching an event to a game comes to, the game having one property before and another
after it has moved along an edge. -/
inductive Proceeds (i : Interpreter σ) (p : Permit) (P : Context → Prop)
    (Q : Edge → Context → Prop) (state : State) (e : Event) :
    Except Fault Response → Session σ → Prop where
  | ignored {s' : Session σ} (unknown : i.automaton.edge? state e.type = none)
      (after : s'.Holds p P) : Proceeds i p P Q state e (.ok ⟨.ignored, e, state.text, .none⟩) s'
  | blocked {edge : Edge} {text : String} {g : Progress} {s' : Session σ}
      (found : i.automaton.edge? state e.type = some edge) (after : s'.Holds p P) :
      Proceeds i p P Q state e (.ok ⟨.blocked, e, text, g⟩) s'
  | followed {edge : Edge} {text : String} {g : Progress} {s' : Session σ}
      (found : i.automaton.edge? state e.type = some edge) (after : s'.Holds p (Q edge)) :
      Proceeds i p P Q state e (.ok ⟨.transitioned, e, text, g⟩) s'
  | failed {edge : Edge} {f : Fault} {s' : Session σ}
      (found : i.automaton.edge? state e.type = some edge) (fails : i.Fails p f)
      (after : s'.Holds p P ∨ s'.Holds p (Q edge)) : Proceeds i p P Q state e (.error f) s'

/-- A game that moves along an edge comes to have the property that it has then, and those who
watch keep it. -/
theorem move_ensures_holds (k : i.Abides p) (pres : p.Preserves i.automaton Q) (edge : Edge)
    (e : Event) {s : Session σ} (hs : s.Holds p P) (others : p.starts → ∀ c, P c → Q c)
    (moved : Q (s.current.advance edge e i.config.maxHistory)) :
    (i.move edge e).Ensures s fun o s' => s'.Holds p Q ∧ ∀ f, o = .error f → i.Fails p f := by
  have advanced : (s.modifyCurrent fun _ =>
      s.current.advance edge e i.config.maxHistory).Holds p Q := hs.advance others moved
  unfold Context.advance HistoryLimit.cut at advanced
  simp only [Ensures, move, Context.record, Context.append]
  cases hkept : i.config.maxHistory.keepLast (s.current.history ++ [e]) with
  | error err =>
    rw [hkept] at advanced
    refine ⟨advanced, fun f hf => ?_⟩
    cases hf
    exact .limit hkept
  | ok kept =>
    rw [hkept] at advanced
    have told := i.notify_keeps pres k.watching
    exact ((told _).weaken fun _ => Fails.surroundings) _ (advanced.of_eq rfl rfl rfl)

/-- What a dispatch does to a game that has a property. -/
theorem dispatch_proceeds (k : i.Abides p) (u : i.automaton.Upholds p P)
    {Q : Edge → Context → Prop} (e : Event) {s : Session σ} {c : Context} (hlive : s.live = some c)
    (hs : s.Holds p P)
    (next : ∀ edge, i.automaton.edge? c.state e.type = some edge →
      p.Preserves i.automaton (Q edge) ∧ (p.starts → ∀ c, P c → Q edge c) ∧
        ∀ c, P c → Q edge (c.advance edge e i.config.maxHistory)) :
    (i.dispatch e).Ensures s (i.Proceeds p P Q c.state e) := by
  have settled {P : Context → Prop} {s' : Session σ} (h : s'.Holds p P) :
      ({ s' with detached := none } : Session σ).Holds p P :=
    ⟨h.started, h.live, nofun, fun _ => rfl, h.queue⟩
  cases hedge : i.automaton.edge? c.state e.type with
  | none =>
    simp only [Ensures, dispatch, hlive, hedge]
    exact .ignored hedge (i.holds_report hs _ _ _)
  | some edge =>
    obtain ⟨pres, others, moved⟩ := next edge hedge
    have followed : (i.follow edge e).Ensures s fun o s' =>
        i.Proceeds p P Q c.state e o { s' with detached := none } := by
      unfold follow
      refine Ensures.bind (handle_keeps k u hedge s hs) ?_ ?_
      · rintro answer s₁ ⟨h₁, -⟩
        cases answer with
        | error f => exact .blocked hedge (settled (i.holds_report h₁ _ _ _))
        | ok g =>
          refine Ensures.bind (move_ensures_holds k pres edge e h₁ others (moved _ h₁.current)) ?_ ?_
          · rintro _ s₂ ⟨h₂, -⟩
            exact .followed hedge (settled h₂)
          · rintro f s₂ ⟨h₂, fails⟩
            exact .failed hedge (fails f rfl) (.inr (settled h₂))
      · rintro f s₁ ⟨h₁, fails⟩
        exact .failed hedge (fails f rfl) (.inl (settled h₁))
    simp only [Ensures, dispatch, hlive, hedge]
    exact followed

end Interpreter
end TokenGate

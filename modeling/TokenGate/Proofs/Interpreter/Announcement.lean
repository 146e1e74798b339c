import TokenGate.Proofs.Interpreter.Recording
import TokenGate.Proofs.Interpreter.Upkeep

/-!
# What is announced in the course of a dispatch

As long as those who watch do nothing but look on and send events, all of them are told of a rule
when it has been handled, once and whatever has become of it, and then of the move of the game, if
there is one. Nobody is told anything else, whatever effects and predicates do. If a predicate
gives up, nobody is told of its rule.
-/

namespace TokenGate

open Act Handling

variable {σ : Type} {q : Permit}

/-- What is told of a rule in the end. -/
def Rule.DescribedBy (r : Rule) (g : Progress) (detail : String) : Prop :=
  match r with
  | .trigger _ => detail = "fired"
  | .action _ => detail = Interpreter.actionDetail g
  | .constraint _ => ∃ v, g.verdict = some v ∧ v ≠ .blocked ∧ detail = v.text

/-- What is told when a rule has been handled. -/
def Session.report (r : Rule) (e : Event) (detail : String) (s : Session σ) : RuleLog :=
  ⟨.ofRule r.kind, e, s.current.ledger.entries, detail⟩

/-- What is told when a game moves along an edge; the snapshot has a number. -/
def Context.notice (c : Context) (edge : Edge) (e : Event) (limit : HistoryLimit)
    (edits : Edits) (number : Nat) : Notice :=
  let moved := c.advance edge e limit
  ⟨moved.state.text, c.state.text, e, moved.snapshot edits number⟩

/-- What is told when the game of the event at hand moves along an edge. -/
def Session.notice (edge : Edge) (e : Event) (limit : HistoryLimit) (s : Session σ) : Notice :=
  s.current.notice edge e limit s.edits s.copies

/-- The answer to an event, and what those who watch have been told meanwhile. -/
structure Chapter where
  answer : Except Fault Response
  rounds : List Round

namespace Chapter

/-- The moves that all have been told of. -/
def notices (c : Chapter) : List Notice := c.rounds.filterMap fun r => r.message.notice?

/-- The rules that all have been told of. -/
def ruleLogs (c : Chapter) : List RuleLog := c.rounds.filterMap fun r => r.message.ruleLog?

end Chapter

namespace Interpreter

variable {i : Interpreter σ} {e : Event}

/-- How the steps of a rule end, and what all have been told then. -/
inductive Concludes (i : Interpreter σ) (q : Permit) (e : Event) (r : Rule)
    (s : Session (σ × List Telling)) :
    Except Fault Unit → Handling (σ × List Telling) → Prop where
  | finished {detail : String} {names : List String} {h : Handling (σ × List Telling)}
      (informed : s.Informs i.surroundings [⟨.rule (h.session.report r e detail), names⟩] h.session)
      (described : r.DescribedBy h.progress detail) : Concludes i q e r s (.ok ()) h
  | blocked {name : String} {message : Option String} {names : List String}
      {h : Handling (σ × List Telling)} (constraint : r.kind = .constraint)
      (informed : s.Informs i.surroundings
        [⟨.rule (h.session.report r e Verdict.blocked.text), names⟩] h.session) :
      Concludes i q e r s (.error (.blocked name message)) h
  | broken {f : Fault} {h : Handling (σ × List Telling)}
      (silent : s.Informs i.surroundings [] h.session) (fails : i.Fails q f) :
      Concludes i q e r s (.error f) h

/-- What the handling of the rule of an edge comes to, and what all have been told then. -/
inductive Announces (i : Interpreter σ) (q : Permit) (e : Event) (edge : Edge)
    (s : Session (σ × List Telling)) :
    Except Fault (Except Fault Progress) → List Round → Session (σ × List Telling) → Prop where
  | unbound (plain : edge.entry? = none) : Announces i q e edge s (.ok (.ok .none)) [] s
  | finished {entry : CatalogEntry} {g : Progress} {detail : String} {names : List String}
      {s' : Session (σ × List Telling)} (bound : edge.entry? = some entry)
      (informed : s.Informs i.surroundings [⟨.rule (s'.report entry.rule e detail), names⟩] s')
      (described : entry.rule.DescribedBy g detail) :
      Announces i q e edge s (.ok (.ok g)) [⟨.rule (s'.report entry.rule e detail), names⟩] s'
  | blocked {entry : CatalogEntry} {f : Fault} {names : List String}
      {s' : Session (σ × List Telling)} (bound : edge.entry? = some entry)
      (constraint : entry.rule.kind = .constraint)
      (informed : s.Informs i.surroundings
        [⟨.rule (s'.report entry.rule e Verdict.blocked.text), names⟩] s') :
      Announces i q e edge s (.ok (.error f))
        [⟨.rule (s'.report entry.rule e Verdict.blocked.text), names⟩] s'
  /-- A predicate gives up with a verdict of its own. -/
  | refused {f : Fault} {s' : Session (σ × List Telling)}
      (silent : s.Informs i.surroundings [] s') (fails : i.Fails q f) :
      Announces i q e edge s (.ok (.error f)) [] s'
  | failed {f : Fault} {s' : Session (σ × List Telling)}
      (silent : s.Informs i.surroundings [] s') (fails : i.Fails q f) :
      Announces i q e edge s (.error f) [] s'

/-- What a dispatch comes to, and what all have been told meanwhile. -/
inductive Recounts (i : Interpreter σ) (q : Permit) (e : Event) (s : Session (σ × List Telling)) :
    Chapter → Session (σ × List Telling) → Prop where
  | ignored {text message : String}
      (unknown : ∀ c, s.live = some c → i.automaton.edge? c.state e.type = none) :
      Recounts i q e s ⟨.ok ⟨.ignored, e, text, .none⟩, []⟩
        (i.recording.report logger .debug message s)
  | followed {c : Context} {edge : Edge} {g : Progress} {rounds : List Round}
      {names : List String} {s₁ s₂ : Session (σ × List Telling)} (live : s.live = some c)
      (found : i.automaton.edge? c.state e.type = some edge)
      (handled : i.recording.handle edge e s = (.ok (.ok g), s₁))
      (announced : i.Announces q e edge s (.ok (.ok g)) rounds s₁)
      (moved : (s₁.modifyCurrent fun _ =>
        s₁.current.advance edge e i.config.maxHistory).SameGames s₂)
      (informed : s₁.Informs i.surroundings
        [⟨.transition (s₁.notice edge e i.config.maxHistory), names⟩] s₂) :
      Recounts i q e s
        ⟨.ok ⟨.transitioned, e, s₂.current.state.text, g⟩, rounds ++
          [⟨.transition (s₁.notice edge e i.config.maxHistory), names⟩]⟩
        { s₂ with detached := none }
  | blocked {c : Context} {edge : Edge} {f : Fault} {rounds : List Round}
      {text message : String} {s₁ : Session (σ × List Telling)} (live : s.live = some c)
      (found : i.automaton.edge? c.state e.type = some edge)
      (handled : i.recording.handle edge e s = (.ok (.error f), s₁))
      (announced : i.Announces q e edge s (.ok (.error f)) rounds s₁) :
      Recounts i q e s
        ⟨.ok ⟨.blocked, e, text, { Progress.none with verdict := some .blocked }⟩, rounds⟩
        { i.recording.report logger .info message s₁ with detached := none }
  | failed {c : Context} {edge : Edge} {f : Fault} {rounds : List Round}
      {s₁ : Session (σ × List Telling)} (live : s.live = some c)
      (found : i.automaton.edge? c.state e.type = some edge)
      (handled : i.recording.handle edge e s = (.error f, s₁))
      (announced : i.Announces q e edge s (.error f) rounds s₁) :
      Recounts i q e s ⟨.error f, rounds⟩ { s₁ with detached := none }

theorem informs_report (s : Session (σ × List Telling)) (logger : String) (level : Level)
    (message : String) :
    s.Informs i.surroundings [] (i.recording.report logger level message s) :=
  .of_eq (funext fun channel => by cases channel <;> rfl) rfl

theorem informs_modifyCurrent (s : Session (σ × List Telling)) (f : Context → Context) :
    s.Informs i.surroundings [] (s.modifyCurrent f) :=
  .of_eq (s.watchers_modifyCurrent f) (congrArg Prod.snd (s.memory_modifyCurrent f))

theorem informs_edit (s : Session (σ × List Telling)) (edit : Edit) :
    s.Informs i.surroundings [] (s.edit edit) :=
  .of_eq (funext fun channel => by cases channel <;> rfl) rfl

theorem informs_copied (s : Session (σ × List Telling)) :
    s.Informs i.surroundings [] s.copied :=
  .of_eq (funext fun channel => by cases channel <;> rfl) rfl

theorem informs_settled (s : Session (σ × List Telling)) :
    s.Informs i.surroundings [] { s with detached := none } :=
  .of_eq (funext fun channel => by cases channel <;> rfl) rfl

theorem Announces.informs {edge : Edge} {s s' : Session (σ × List Telling)} {rounds : List Round}
    {o : Except Fault (Except Fault Progress)} (h : i.Announces q e edge s o rounds s') :
    s.Informs i.surroundings rounds s' := by
  cases h with
  | unbound => exact .refl s
  | finished _ informed => exact informed
  | blocked _ _ informed => exact informed
  | refused silent => exact silent
  | failed silent => exact silent

/-- A chapter has everything that all have been told. -/
theorem Recounts.informs {s s' : Session (σ × List Telling)} {c : Chapter}
    (h : i.Recounts q e s c s') : s.Informs i.surroundings c.rounds s' := by
  cases h with
  | ignored => exact informs_report s _ _ _
  | followed _ _ _ announced _ informed =>
    exact (announced.informs.trans informed).andThen (informs_settled _)
  | @blocked _ _ _ _ _ message s₁ _ _ _ announced =>
    have reported := informs_report (i := i) s₁ logger .info message
    exact (announced.informs.andThen reported).andThen (informs_settled _)
  | failed _ _ _ announced => exact announced.informs.andThen (informs_settled _)

theorem applyEffect_informs (s : Session (σ × List Telling)) (name : String) (payload : Data) :
    (i.recording.applyEffect name payload).Keeps (fun s' => s.Informs i.surroundings [] s')
      fun _ => True := by
  refine applyEffect_keeps (G := fun _ => True) ?_ ?_ ?_
  · intro s₁ edit _ h _
    exact h.trans (informs_edit s₁ edit)
  · intro s₁ edit _ h _
    exact h.trans (informs_edit s₁ edit)
  · intro play hplay s₁ h
    obtain ⟨x, heffect, rfl⟩ := custom_of_recording hplay
    have performed := perform_hears (fun _ _ alone => alone.effects name x heffect payload)
      .current s₁
    exact performed.mono fun _ _ hears => ⟨h.trans (.of_hears hears), fun _ _ => trivial⟩

/-- Before all are told of a rule, nobody is told anything. -/
theorem retains_informs (hj : i.surroundings.Judging q) (s : Session (σ × List Telling)) (e : Event) :
    i.recording.Retains e (fun s' => s.Informs i.surroundings [] s')
      (fun s' => s.Informs i.surroundings [] s') (i.Fails q) := by
  have withstands :
      i.recording.Withstands e (fun s' => s.Informs i.surroundings [] s') (i.Fails q) :=
    { report := fun _ _ _ s₁ h => h.trans (informs_report s₁ _ _ _)
      grant := fun _ h => h.trans (informs_modifyCurrent _ _)
      charge := fun _ h _ => h.trans (informs_modifyCurrent _ _)
      noEntry := fun bound _ hpay => .noEntry bound.binds hpay
      applied := fun _ s₁ h => h.trans (informs_modifyCurrent s₁ _) }
  refine withstands.retains (fun _ => applyEffect_informs s _ _) fun {_ key} _ _ s₁ h => ?_
  have hears := perform_hears (i := i) (fun _ _ alone => alone.predicate key e) .current s₁
  have fails := i.recording.perform_fails (Play.within_beside .none (hj key e)) .current s₁
  exact ⟨h.trans (.of_hears hears), fun f hf => .surroundings (fails f hf)⟩

section Steps

variable (hw : i.surroundings.Watching .attending) {s : Session (σ × List Telling)}

include hw

/-- All are told of a rule, with the balances that the game then has and keeps. -/
theorem logRule_informs {r : Rule} {h : Handling (σ × List Telling)}
    (first : s.Informs i.surroundings [] h.session) (detail : String) :
    (i.recording.logRule e (.ofRule r.kind) detail).Ensures h fun o h' =>
      o = .ok () ∧ h'.progress = h.progress ∧ ∃ names,
        s.Informs i.surroundings [⟨.rule (h'.session.report r e detail), names⟩] h'.session := by
  refine ensures_get_bind (ensures_change_bind (Ensures.on ?_))
  have reported := informs_report (i := i) h.session stepLogger .debug
    (h.session.report r e detail).line
  refine (notifyLog_informs hw _ _).mono ?_
  rintro o s' ⟨ho, same, names, informed⟩
  refine ⟨ho, rfl, names, ?_⟩
  -- Those who watch do nothing to the game, so that its balances are those that they are told.
  have current : s'.current = h.session.current := same.current
  have told : s'.report r e detail = h.session.report r e detail := by
    rw [Session.report, current]
    rfl
  show s.Informs i.surroundings [⟨.rule (s'.report r e detail), names⟩] s'
  rw [told]
  exact (first.trans reported).trans informed

/-- After the steps before it have told nobody anything, all are told of the rule. -/
theorem logRule_concludes {r : Rule} {h : Handling (σ × List Telling)}
    (first : s.Informs i.surroundings [] h.session) {detail : String}
    (described : r.DescribedBy h.progress detail) :
    (i.recording.logRule e (.ofRule r.kind) detail).Ensures h (i.Concludes q e r s) := by
  refine (logRule_informs hw first detail).mono ?_
  rintro o h' ⟨rfl, same, names, informed⟩
  exact .finished informed (same ▸ described)

theorem block_concludes {c : Constraint} {h : Handling (σ × List Telling)}
    (first : s.Informs i.surroundings [] h.session) :
    (i.recording.block c e).Ensures h fun o h' =>
      ∃ f, o = .error f ∧ i.Concludes q e (.constraint c) s (.error f) h' := by
  let noted : Handling (σ × List Telling) :=
    { h with progress := { h.progress with verdict := some .blocked } }
  refine ensures_change_bind ?_
  refine Ensures.bind (logRule_informs (r := .constraint c) (h := noted) hw first
    Verdict.blocked.text) ?_ ?_
  · rintro _ h' ⟨-, -, names, informed⟩
    exact ⟨_, rfl, .blocked rfl informed⟩
  · rintro f h' ⟨ho, -⟩
    cases ho

/-- All are told of the move of a game, and nothing more happens to it. -/
theorem move_informs (limit : i.config.maxHistory.IsWhole) (edge : Edge) :
    (i.recording.move edge e).Ensures s fun o s' => o = .ok () ∧
      (s.modifyCurrent fun _ => s.current.advance edge e i.config.maxHistory).SameGames s' ∧
      ∃ names, s.Informs i.surroundings
        [⟨.transition (s.notice edge e i.config.maxHistory), names⟩] s' := by
  obtain ⟨kept, hkept⟩ := limit.keepLast (s.current.history ++ [e])
  have cut : i.config.maxHistory.cut (s.current.history ++ [e]) = kept := by
    rw [HistoryLimit.cut, hkept]
    rfl
  have record (c : Context) (hc : c.history = s.current.history) :
      c.record e i.recording.config.maxHistory = .ok { c with history := kept } := by
    show c.record e i.config.maxHistory = _
    simp only [Context.record, Context.append, hc, hkept]
    rfl
  simp only [Ensures, move, record, Session.notice, Context.notice, Context.advance, cut]
  obtain ⟨ho, same, names, informed⟩ := notify_informs hw
    ⟨State.text (.phase edge.target), s.current.state.text, e,
      Context.snapshot s.edits s.copies { s.current with
        turn := edge.turn s.current.turn
        state := .phase edge.target
        history := kept }⟩
    (s.modifyCurrent fun _ => { s.current with
      turn := edge.turn s.current.turn
      state := .phase edge.target
      history := kept }).copied
  exact ⟨ho, ⟨same.live, same.detached, same.edits⟩, names,
    ((informs_modifyCurrent s _).trans (informs_copied _)).trans informed⟩

variable (hj : i.surroundings.Judging q)

include hj

/-- Checking a constraint tells nobody anything unless it blocks. -/
theorem checkStep_concludes {c : Constraint}
    (bound : i.automaton.BindsTo e.type (.constraint c)) :
    (i.recording.checkStep c e).Ensures ⟨s, .none⟩ fun o h' =>
      (o = .ok () ∧ s.Informs i.surroundings [] h'.session ∧
        ∃ v, h'.progress.verdict = some v ∧ v ≠ .blocked) ∨
      ∃ f, o = .error f ∧ i.Concludes q e (.constraint c) s (.error f) h' := by
  have retains := retains_informs hj s e
  unfold checkStep
  refine Ensures.bind (lift_leads (retains.blocks bound) ⟨s, .none⟩ (.refl s)) ?_ ?_
  · rintro blocks h₁ ⟨judged, -⟩
    cases blocks with
    | false => exact .inl ⟨rfl, judged, _, rfl, nofun⟩
    | true =>
      simp only [↓reduceIte]
      split
      · exact (block_concludes hw judged).mono fun _ _ h => .inr h
      · refine Ensures.bind (retains.after.payCurrent (r := .constraint c) bound h₁ judged) ?_ ?_
        · rintro lack h₂ ⟨paid, -⟩
          cases lack with
          | nil => exact .inl ⟨rfl, paid, _, rfl, nofun⟩
          | cons _ _ => exact (block_concludes hw paid).mono fun _ _ h => .inr h
        · rintro f h₂ ⟨paid, fails⟩
          exact .inr ⟨f, rfl, .broken paid (fails f rfl)⟩
  · rintro f h₁ ⟨judged, fails⟩
    exact .inr ⟨f, rfl, .broken judged (fails f rfl)⟩

/-- The steps of a rule tell all of it at their end, or when it blocks. -/
theorem runChain_concludes {r : Rule} (bound : i.automaton.BindsTo e.type r) :
    (i.recording.runChain (.rule r) e (Step.chain r.kind)).Ensures ⟨s, .none⟩
      (i.Concludes q e r s) := by
  have retains := retains_informs hj s e
  have begun : s.Informs i.surroundings [] s := .refl s
  have ended {x : Act (Handling (σ × List Telling)) Unit} {h : Handling (σ × List Telling)}
      (hx : x.Ensures h (i.Concludes q e r s)) :
      (x >>= fun _ => pure ()).Ensures h (i.Concludes q e r s) :=
    hx.bind (fun _ _ h => h) fun _ _ h => h
  cases r with
  | trigger t =>
    refine Ensures.bind (retains.after.grantStep bound ⟨s, .none⟩ begun) ?_ ?_
    · rintro _ h₁ ⟨granted, -⟩
      exact ended (logRule_concludes hw (r := .trigger t) granted rfl)
    · rintro f h₁ ⟨hears, fails⟩
      exact .broken hears (fails f rfl)
  | action a =>
    refine Ensures.bind (retains.after.payStep bound ⟨s, .none⟩ begun) ?_ ?_
    · rintro _ h₁ ⟨paid, -⟩
      refine Ensures.bind (retains.effectStep bound h₁ paid) ?_ ?_
      · rintro _ h₂ ⟨applied, -⟩
        exact ended (ensures_get_bind (logRule_concludes hw (r := .action a) applied rfl))
      · rintro f h₂ ⟨hears, fails⟩
        exact .broken hears (fails f rfl)
    · rintro f h₁ ⟨hears, fails⟩
      exact .broken hears (fails f rfl)
  | constraint c =>
    refine Ensures.bind (checkStep_concludes hw hj bound) ?_ ?_
    · rintro _ h₁ (⟨-, checked, v, hv, passed⟩ | ⟨f, ho, -⟩)
      · refine ended (ensures_get_bind (logRule_concludes hw (r := .constraint c) checked ?_))
        exact ⟨v, hv, passed, by rw [constraintDetail, hv]⟩
      · cases ho
    · rintro f h₁ (⟨ho, -⟩ | ⟨f', ho, concludes⟩)
      · cases ho
      · cases ho
        exact concludes

theorem handle_announces {state : State} {edge : Edge}
    (found : i.automaton.edge? state e.type = some edge) :
    (i.recording.handle edge e).Ensures s fun o s' => ∃ rounds, i.Announces q e edge s o rounds s' := by
  cases hentry : edge.entry? with
  | none =>
    simp only [Ensures, handle, hentry]
    exact ⟨[], .unbound hentry⟩
  | some entry =>
    have bound : i.automaton.BindsTo e.type entry.rule := ⟨state, edge, entry, found, hentry, rfl⟩
    refine i.recording.handle_ensures hentry (runChain_concludes hw hj bound) ?_ ?_ ?_
    · intro h' concludes
      generalize ho : Except.ok () = o at concludes
      cases concludes with
      | finished informed described => exact ⟨_, .finished hentry informed described⟩
      | blocked => cases ho
      | broken => cases ho
    · intro name message h' concludes
      cases concludes with
      | blocked constraint informed => exact ⟨_, .blocked hentry constraint informed⟩
      | broken hears fails => exact ⟨[], .refused hears fails⟩
    · intro f h' unblocked concludes
      generalize ho : Except.error f = o at concludes
      cases concludes with
      | finished => cases ho
      | blocked =>
        cases ho
        exact absurd rfl (unblocked _ _)
      | broken hears fails =>
        cases ho
        exact ⟨[], .failed hears fails⟩

theorem dispatch_recounts (limit : i.config.maxHistory.IsWhole) :
    (i.recording.dispatch e).Ensures s fun o s' =>
      ∃ rounds, i.Recounts q e s ⟨o, rounds⟩ s' := by
  cases hlive : s.live with
  | none =>
    simp only [Ensures, dispatch, hlive]
    refine ⟨[], .ignored fun c hc => ?_⟩
    cases hlive.symm.trans hc
  | some c =>
    cases hedge : i.recording.automaton.edge? c.state e.type with
    | none =>
      simp only [Ensures, dispatch, hlive, hedge]
      refine ⟨[], .ignored fun c' hc => ?_⟩
      cases hlive.symm.trans hc
      exact hedge
    | some edge =>
      have followed : (i.recording.follow edge e).Ensures s fun o s' =>
          ∃ rounds, i.Recounts q e s ⟨o, rounds⟩ { s' with detached := none } := by
        unfold follow
        refine Ensures.bind (R := fun o s₁ => i.recording.handle edge e s = (o, s₁) ∧
          ∃ rounds, i.Announces q e edge s o rounds s₁) ?_ ?_ ?_
        · exact ⟨rfl, handle_announces hw hj hedge⟩
        · rintro answer s₁ ⟨handled, rounds, announced⟩
          cases answer with
          | error f => exact ⟨rounds, .blocked hlive hedge handled announced⟩
          | ok g =>
            refine Ensures.bind (move_informs hw limit edge) ?_ ?_
            · rintro _ s₂ ⟨-, moved, names, informed⟩
              exact ⟨_, .followed hlive hedge handled announced moved informed⟩
            · rintro f s₂ ⟨ho, -⟩
              cases ho
        · rintro f s₁ ⟨handled, rounds, announced⟩
          exact ⟨rounds, .failed hlive hedge handled announced⟩
      simp only [Ensures, dispatch, hlive, hedge]
      exact followed

end Steps

end Interpreter
end TokenGate

import TokenGate.Proofs.Interpreter.Answers

/-!
# What an event makes of a game

Where those who watch only listen, effects are built in and gates are conditions, nothing but the
rules decides what becomes of a game. It can then be said without sessions and activities what an
event makes of a game, and how it is answered. A dispatch comes to exactly that.
-/

namespace TokenGate

open Act Handling

variable {σ : Type}

/-- A game with what has been done to data. -/
abbrev World : Type := Context × Edits

namespace World

/-- The game after a payment, if it can be made. -/
def pay? (b : TokenBag) (w : World) : Option World :=
  (w.1.ledger.pay b).toOption.map fun l => ({ w.1 with ledger := l }, w.2)

/-- A game after an edit. -/
def edit (w : World) (edit : Edit) : World := (w.1, w.2 ++ [edit])

/-- The game after a built-in effect; as it is if there is no effect. -/
def affect (effect : Option (EffectHandler σ)) (payload : Data) (w : World) :
    Except EffectError World :=
  match effect with
  | some .setFlag => (Effect.setFlag w.2 w.1 payload).map w.edit
  | some .removePiece => (Effect.removePiece w.2 w.1 payload).map w.edit
  | _ => .ok w

/-- A built-in effect changes a game by edits only. -/
theorem affect_spec {effect : Option (EffectHandler σ)} {payload : Data} {w after : World}
    (h : w.affect effect payload = .ok after) : after.1 = w.1 := by
  unfold affect at h
  split at h
  · obtain ⟨edit, -, rfl⟩ := Result.map_eq_ok.1 h
    rfl
  · obtain ⟨edit, -, rfl⟩ := Result.map_eq_ok.1 h
    rfl
  · cases h
    rfl

/-- The game when an effect has been noted. -/
def noted (name : String) (w : World) : World :=
  ({ w.1 with applied := w.1.applied ++ [name] }, w.2)

end World

/-- Whether a gate is closed to an event; a condition decides. -/
def Gate.closed (a : Condition.Attributes) (e : Event) (w : World) : Gate → Bool
  | .condition cond => cond.holds (w.1.scope a w.2 e)
  | .external _ => false

/-- What the effect of an action makes of a game, and what is noted of it. -/
def Action.affect (skip : Bool) (effects : Table (EffectHandler σ)) (payload : Data) (a : Action)
    (w : World) (g : Progress) : World × Progress :=
  if g.costPaid = some false ∧ skip = true then (w, g)
  else
    match w.affect (effects.get? a.effectName) payload with
    | .error f => (w, { g with effectError := some f.message })
    | .ok after => (after.noted a.effectName, { g with effectApplied := true })

/-- What an action makes of a game: its cost is paid if that can be done, and its effect is
applied. -/
def Action.play (skip : Bool) (effects : Table (EffectHandler σ)) (payload : Data) (a : Action)
    (w : World) : World × Progress :=
  let paid := w.pay? a.costs
  a.affect skip effects payload (paid.getD w) { Progress.none with costPaid := some paid.isSome }

/-- What a constraint makes of a game; nothing if it blocks. -/
def Constraint.play? (a : Condition.Attributes) (e : Event) (c : Constraint) (w : World) :
    Option (World × Progress) :=
  if c.gate.closed a e w then
    if c.bypass.isEmpty then none
    else (w.pay? c.bypass).map fun after =>
      (after, { Progress.none with verdict := some .bypassed })
  else some (w, { Progress.none with verdict := some .passed })

/-- What a rule makes of a game; nothing if it blocks. -/
def Rule.play? (config : Config) (effects : Table (EffectHandler σ)) (e : Event) (w : World) :
    Rule → Option (World × Progress)
  | .trigger t => some (({ w.1 with ledger := w.1.ledger.grantBag t.grants }, w.2), .none)
  | .action a => some (a.play config.skipUnpaid effects e.payload w)
  | .constraint c => c.play? config.attributes e w

/-- What the rule of an edge makes of a game, if it has one; nothing if it blocks. -/
def Edge.play? (config : Config) (effects : Table (EffectHandler σ)) (e : Event) (w : World)
    (edge : Edge) : Option (World × Progress) :=
  match edge.entry? with
  | none => some (w, .none)
  | some entry => entry.rule.play? config effects e w

namespace Interpreter

/-- How an event is answered along an edge, and what it makes of a game. -/
def reactAlong (i : Interpreter σ) (edge : Edge) (e : Event) (w : World) : Response × World :=
  match edge.play? i.config i.surroundings.effects e w with
  | none => (⟨.blocked, e, w.1.state.text, { Progress.none with verdict := some .blocked }⟩, w)
  | some (after, g) =>
      (⟨.transitioned, e, edge.target.text, g⟩,
        (after.1.advance edge e i.config.maxHistory, after.2))

/-- How an event is answered, and what it makes of a game. -/
def react (i : Interpreter σ) (e : Event) (w : World) : Response × World :=
  match i.automaton.edge? w.1.state e.type with
  | none => (⟨.ignored, e, w.1.state.text, .none⟩, w)
  | some edge => i.reactAlong edge e w

/-- How events are answered one after another, and what they make of a game. -/
def reactAll (i : Interpreter σ) : List Event → World → List Response × World
  | [], w => ([], w)
  | e :: rest, w =>
      ((i.react e w).1 :: (i.reactAll rest (i.react e w).2).1, (i.reactAll rest (i.react e w).2).2)

/-- Nothing but the rules decides what becomes of a game. -/
structure RulesOnly (i : Interpreter σ) : Prop where
  watching : i.surroundings.Watching .listening
  builtIn : ∀ name play, i.surroundings.effects.get? name ≠ some (.custom play)
  gates : ∀ {c}, i.automaton.Binds (.constraint c) → ∃ cond, c.gate = .condition cond
  sound : ∀ {r}, i.automaton.Binds r → r.tokens.Sound
  limit : i.config.maxHistory.IsWhole

end Interpreter

/-- The running game is the one of the event at hand, and this is what it looks like. -/
structure Session.Shows (w : World) (queue : List Event) (s : Session σ) : Prop where
  running : s.Running
  world : s.world = w
  queue : s.queue = queue

namespace Session.Shows

variable {w : World} {q : List Event} {s s' : Session σ}

theorem current (h : s.Shows w q) : s.current = w.1 := congrArg Prod.fst h.world

theorem edits (h : s.Shows w q) : s.edits = w.2 := congrArg Prod.snd h.world

theorem live_eq (h : s.Shows w q) : s.live = some w.1 := by
  rw [h.running.current_eq, h.current]

/-- To those who listen the game looks as it did. -/
theorem of_passes (h : s.Shows w q) (pass : s.Passes .listening s') : s'.Shows w q :=
  ⟨pass.running, pass.changes.trans h.world, (pass.queue id).trans h.queue⟩

theorem report (h : s.Shows w q) (i : Interpreter σ) (logger : String) (level : Level)
    (message : String) : (i.report logger level message s).Shows w q :=
  h.of_passes (i.passes_report h.running _ _ _)

theorem modifyCurrent (h : s.Shows w q) {f : Context → Context} {c : Context} (hf : f w.1 = c) :
    (s.modifyCurrent f).Shows (c, w.2) q := by
  refine ⟨h.running.modifyCurrent f, ?_, (s.queue_modifyCurrent f).trans h.queue⟩
  rw [world_modifyCurrent h.running.live, h.current, h.edits, hf]

theorem edit (h : s.Shows w q) (edit : Edit) : (s.edit edit).Shows (w.edit edit) q :=
  ⟨⟨h.running.live, h.running.detached⟩,
    Prod.ext h.current (congrArg (· ++ [edit]) h.edits), h.queue⟩

theorem engage (h : s.Shows w q) : s.engage.Shows w q :=
  ⟨⟨h.running.live, h.running.detached⟩, h.world, h.queue⟩

theorem release (h : s.Shows w q) : s.release.Shows w q :=
  ⟨⟨h.running.live, h.running.detached⟩, h.world, h.queue⟩

end Session.Shows

/-- What the game looks like while a rule is handled, and what has been noted. -/
structure Handling.Shows (w : World) (queue : List Event) (g : Progress) (h : Handling σ) :
    Prop where
  session : h.session.Shows w queue
  progress : h.progress = g

/-- The steps of a rule have been carried out, or blocked, as is said of the game. -/
inductive Handling.Carried (w : World) (q : List Event) :
    Option (World × Progress) → Except Fault Unit → Handling σ → Prop where
  | blocked {constraint : String} {message : Option String} {h : Handling σ}
      (shows : h.session.Shows w q) : Carried w q none (.error (.blocked constraint message)) h
  | through {after : World} {g : Progress} {h : Handling σ} (shows : h.Shows after q g) :
      Carried w q (some (after, g)) (.ok ()) h

/-- A rule has been handled, or it blocks, as is said of the game. -/
inductive Session.Handled (w : World) (q : List Event) :
    Option (World × Progress) → Except Fault (Except Fault Progress) → Session σ → Prop where
  | blocked {f : Fault} {s : Session σ} (shows : s.Shows w q) : Handled w q none (.ok (.error f)) s
  | through {after : World} {g : Progress} {s : Session σ} (shows : s.Shows after q) :
      Handled w q (some (after, g)) (.ok (.ok g)) s

namespace Interpreter

variable {i : Interpreter σ} {w : World} {q : List Event} {g : Progress} {h : Handling σ}

theorem payCurrent_shows (hs : h.Shows w q g) {b : TokenBag} (sound : b.Sound) :
    (∃ after h', w.pay? b = some after ∧ payCurrent b h = (.ok [], h') ∧ h'.Shows after q g) ∨
    ∃ x lack, w.pay? b = none ∧ payCurrent b h = (.ok (x :: lack), h) := by
  have ledger : h.session.current.ledger = w.1.ledger := congrArg Context.ledger hs.session.current
  unfold payCurrent World.pay?
  rw [ledger]
  rcases w.1.ledger.pay_cases_of_sound sound with ⟨l, hpay⟩ | ⟨lacking, hpay⟩
  · rw [hpay]
    exact .inl ⟨_, _, rfl, rfl, hs.session.modifyCurrent rfl, hs.progress⟩
  · rw [hpay]
    obtain ⟨x, lack, missing⟩ := List.exists_cons_of_ne_nil lacking
    exact .inr ⟨x, lack, rfl, by rw [missing]⟩

theorem payStep_shows (i : Interpreter σ) (hs : h.Shows w q g) {a : Action}
    (sound : a.costs.Sound) :
    (i.payStep a).Ensures h fun o h' => o = .ok () ∧
      h'.Shows ((w.pay? a.costs).getD w) q { g with costPaid := some (w.pay? a.costs).isSome } := by
  unfold payStep
  simp only [Ensures, bind_apply]
  rcases payCurrent_shows hs sound with ⟨after, h', paid, hpay, shows'⟩ | ⟨x, lack, unpaid, hpay⟩
  · rw [hpay, paid]
    exact ⟨rfl, shows'.session, by rw [← shows'.progress]; rfl⟩
  · rw [hpay, unpaid]
    exact ⟨rfl, hs.session.report i _ _ _, by rw [← hs.progress]; rfl⟩

theorem logRule_shows (k : i.RulesOnly) (hs : h.Shows w q g) (e : Event) (kind : EventKind)
    (detail : String) :
    (i.logRule e kind detail).Ensures h fun o h' => o = .ok () ∧ h'.Shows w q g := by
  have logged := i.logRule_ensures (p := .listening) id k.watching e kind detail hs.session.running
  refine logged.mono ?_
  rintro o h' ⟨pass, same, fails⟩
  refine ⟨?_, hs.session.of_passes pass, same.trans hs.progress⟩
  cases o with
  | ok _ => rfl
  | error f => exact (fails f rfl).elim

/-- A built-in effect does to the game of the event at hand what is said of it. -/
theorem applyEffect_shows (k : i.RulesOnly) {s : Session σ} (hs : s.Shows w q) (name : String)
    (payload : Data) :
    match w.affect (i.surroundings.effects.get? name) payload with
    | .error f => i.applyEffect name payload s = (.error (.effect f.message), s)
    | .ok after => ∃ handled s', i.applyEffect name payload s = (.ok handled, s') ∧
        s'.Shows after q := by
  have builtIn := k.builtIn name
  unfold applyEffect
  generalize i.surroundings.effects.get? name = effect at builtIn
  rcases effect with _ | ⟨_ | _ | play⟩
  · exact ⟨false, s, rfl, hs⟩
  · simp only [World.affect, hs.edits, hs.current]
    cases Effect.setFlag w.2 w.1 payload with
    | error f => rfl
    | ok edit => exact ⟨true, _, rfl, hs.edit edit⟩
  · simp only [World.affect, hs.edits, hs.current]
    cases Effect.removePiece w.2 w.1 payload with
    | error f => rfl
    | ok edit => exact ⟨true, _, rfl, hs.edit edit⟩
  · exact absurd rfl (builtIn play)

theorem effectStep_shows (k : i.RulesOnly) (hs : h.Shows w q g) (a : Action) (e : Event) :
    (i.effectStep a e).Ensures h fun o h' => o = .ok () ∧
      h'.Shows (a.affect i.config.skipUnpaid i.surroundings.effects e.payload w g).1 q
        (a.affect i.config.skipUnpaid i.surroundings.effects e.payload w g).2 := by
  refine ensures_get_bind ?_
  simp only [hs.progress, Action.affect]
  split
  · exact ⟨rfl, hs.session.report i _ _ _, hs.progress⟩
  · have applied := applyEffect_shows k hs.session a.effectName e.payload
    generalize w.affect (i.surroundings.effects.get? a.effectName) e.payload = affected at applied
    have attempted (o : Except Fault Bool) (s' : Session σ)
        (happly : i.applyEffect a.effectName e.payload h.session = (o, s')) :
        attempt (lift (i.applyEffect a.effectName e.payload)) h =
          (.ok o, { h with session := s' }) := by
      simp only [attempt, lift, Act.on, happly]
    simp only [Ensures, bind_apply]
    cases affected with
    | error f =>
      rw [attempted _ _ applied]
      exact ⟨rfl, hs.session.report i _ _ _, by rw [← hs.progress]; rfl⟩
    | ok after =>
      obtain ⟨handled, s', happly, shows'⟩ := applied
      rw [attempted _ _ happly]
      cases handled with
      | true => exact ⟨rfl, shows'.modifyCurrent rfl, by rw [← hs.progress]; rfl⟩
      | false =>
        exact ⟨rfl, (shows'.report i _ _ _).modifyCurrent rfl, by rw [← hs.progress]; rfl⟩

theorem block_shows (k : i.RulesOnly) (hs : h.Shows w q g) (c : Constraint) (e : Event) :
    (i.block c e).Ensures h (Carried w q none) := by
  have noted : ({ h with progress := { h.progress with verdict := some .blocked } } :
      Handling σ).Shows w q { g with verdict := some .blocked } :=
    ⟨hs.session, by rw [← hs.progress]⟩
  refine ensures_change_bind (Ensures.bind (logRule_shows k noted e _ _) ?_ ?_)
  · rintro _ h' ⟨-, shows'⟩
    exact .blocked shows'.session
  · rintro f h' ⟨ho, -⟩
    cases ho

theorem checkStep_shows (k : i.RulesOnly) {s : Session σ} (hs : s.Shows w q) {c : Constraint}
    (bound : i.automaton.Binds (.constraint c)) (e : Event) :
    (i.checkStep c e).Ensures ⟨s, .none⟩ (Carried w q (c.play? i.config.attributes e w)) := by
  have begun : (⟨s, .none⟩ : Handling σ).Shows w q .none := ⟨hs, rfl⟩
  obtain ⟨cond, hgate⟩ := k.gates bound
  have judged : lift (i.blocks c e) ⟨s, .none⟩ =
      ((.ok (c.gate.closed i.config.attributes e w), ⟨s, .none⟩) : Except Fault Bool × Handling σ) := by
    simp only [lift, Act.on, blocks, hgate, hs.current, hs.edits, Gate.closed]
  unfold checkStep
  refine Ensures.bind
    (R := fun o h' => o = .ok (c.gate.closed i.config.attributes e w) ∧ h' = ⟨s, .none⟩)
    (by simp only [Ensures, judged, and_self]) ?_ (fun f _ judged => by cases judged.1)
  rintro _ h₁ ⟨ho, rfl⟩
  cases ho
  unfold Constraint.play?
  cases c.gate.closed i.config.attributes e w with
  | false => exact .through ⟨hs, rfl⟩
  | true =>
    simp only [↓reduceIte]
    split
    · exact block_shows k begun c e
    · simp only [Ensures, bind_apply]
      rcases payCurrent_shows begun (k.sound bound) with
        ⟨after, h', paid, hpay, shows'⟩ | ⟨x, lack, unpaid, hpay⟩
      · simp only [Rule.tokens] at paid hpay
        rw [paid, hpay]
        exact .through ⟨shows'.session, by rw [← shows'.progress]; rfl⟩
      · simp only [Rule.tokens] at unpaid hpay
        rw [unpaid, hpay]
        exact block_shows k begun c e

/-- Telling of a rule is the last of its steps. -/
theorem last_shows {x : Act (Handling σ) Unit}
    (told : x.Ensures h fun o h' => o = .ok () ∧ h'.Shows w q g) (w₀ : World) :
    (x >>= fun _ => pure ()).Ensures h (Carried w₀ q (some (w, g))) :=
  Ensures.bind told (fun _ _ logged => .through logged.2) fun f _ logged => by cases logged.1

/-- The steps of a rule do what the rule makes of the game. -/
theorem runChain_shows (k : i.RulesOnly) {s : Session σ} (hs : s.Shows w q) {r : Rule}
    (bound : i.automaton.Binds r) (e : Event) :
    (i.runChain (.rule r) e (Step.chain r.kind)).Ensures ⟨s, .none⟩
      (Carried w q (r.play? i.config i.surroundings.effects e w)) := by
  have begun : (⟨s, .none⟩ : Handling σ).Shows w q .none := ⟨hs, rfl⟩
  cases r with
  | trigger t =>
    have granted : (s.modifyCurrent fun c =>
        { c with ledger := c.ledger.grantBag t.grants }).Shows
          ({ w.1 with ledger := w.1.ledger.grantBag t.grants }, w.2) q := hs.modifyCurrent rfl
    exact ensures_change_bind (last_shows (logRule_shows k ⟨granted, rfl⟩ e .trigger "fired") w)
  | action a =>
    refine Ensures.bind (payStep_shows i begun (k.sound bound)) ?_ (fun f _ paid => by cases paid.1)
    rintro _ h₁ ⟨-, paid⟩
    refine Ensures.bind (effectStep_shows k paid a e) ?_ (fun f _ applied => by cases applied.1)
    rintro _ h₂ ⟨-, applied⟩
    exact last_shows (ensures_get_bind (logRule_shows k applied e .action _)) w
  | constraint c =>
    have checked := checkStep_shows k hs bound e
    simp only [Rule.play?]
    generalize c.play? i.config.attributes e w = played at checked ⊢
    refine Ensures.bind checked ?_ ?_
    · rintro _ h₁ (_ | shows')
      exact last_shows (ensures_get_bind (logRule_shows k shows' e .constraint _)) w
    · rintro f h₁ (shows' | _)
      exact .blocked shows'

theorem handle_shows (k : i.RulesOnly) {s : Session σ} (hs : s.Shows w q) {edge : Edge}
    {e : Event} {state : State} (found : i.automaton.edge? state e.type = some edge) :
    (i.handle edge e).Ensures s
      (Session.Handled w q (edge.play? i.config i.surroundings.effects e w)) := by
  unfold Edge.play?
  cases hentry : edge.entry? with
  | none =>
    simp only [Ensures, handle, hentry]
    exact .through hs
  | some entry =>
    have bound : i.automaton.Binds entry.rule := ⟨_, _, edge, entry, found, hentry, rfl⟩
    have carried := runChain_shows k hs bound e
    simp only
    generalize entry.rule.play? i.config i.surroundings.effects e w = played at carried ⊢
    refine i.handle_ensures hentry carried ?_ ?_ ?_
    · rintro h' (_ | shows')
      rw [shows'.progress]
      exact .through shows'.session
    · rintro c m h' (shows' | _)
      exact .blocked shows'
    · rintro f h' unblocked (_ | _)
      exact absurd rfl (unblocked _ _)

theorem move_shows (k : i.RulesOnly) {s : Session σ} (hs : s.Shows w q) (edge : Edge)
    (e : Event) : (i.move edge e).Ensures s fun o s' =>
      o = .ok () ∧ s'.Shows (w.1.advance edge e i.config.maxHistory, w.2) q := by
  refine (i.move_ensures (q := .listening) id k.watching k.limit edge e hs.running).mono ?_
  rintro o s' ⟨ho, kept, hkept, pass⟩
  rw [hs.current] at hkept
  have cut : i.config.maxHistory.cut (w.1.history ++ [e]) = kept := by
    simp only [HistoryLimit.cut, hkept]
    rfl
  refine ⟨ho, (hs.modifyCurrent ?_).of_passes pass⟩
  rw [Context.advance, cut]

theorem follow_shows (k : i.RulesOnly) {s : Session σ} (hs : s.Shows w q) {edge : Edge}
    {e : Event} {state : State} (found : i.automaton.edge? state e.type = some edge) :
    (i.follow edge e).Ensures s fun o s' =>
      o = .ok (i.reactAlong edge e w).1 ∧ s'.Shows (i.reactAlong edge e w).2 q := by
  unfold follow reactAlong
  have handled := handle_shows k hs found
  generalize edge.play? i.config i.surroundings.effects e w = played at handled ⊢
  refine Ensures.bind handled ?_ ?_
  · rintro answer s₁ (shows' | @⟨after, g, _, shows'⟩)
    · exact ⟨by rw [← shows'.current]; rfl, shows'.report i _ _ _⟩
    · refine Ensures.bind (move_shows k shows' edge e) ?_ (fun f _ moved => by cases moved.1)
      rintro _ s₂ ⟨-, moved⟩
      refine ⟨?_, moved⟩
      show Except.ok (Response.mk .transitioned e s₂.current.state.text g) = _
      rw [moved.current]
      rfl
  · rintro f s₁ (_ | _)

/-- A dispatch answers as is said of the game, and makes of it what is said. -/
theorem dispatch_shows (k : i.RulesOnly) {s : Session σ} (hs : s.Shows w q) (e : Event) :
    ∃ s', i.dispatch e s = (.ok (i.react e w).1, s') ∧ s'.Shows (i.react e w).2 q := by
  unfold dispatch react
  simp only [hs.live_eq]
  cases hedge : i.automaton.edge? w.1.state e.type with
  | none => exact ⟨_, rfl, hs.report i _ _ _⟩
  | some edge =>
    obtain ⟨ho, shows'⟩ := follow_shows k hs hedge
    refine ⟨_, Prod.ext ho rfl, ?_⟩
    simpa only [shows'.running.detached_eq] using shows'

theorem event_reactAll (i : Interpreter σ) (es : List Event) (w : World) :
    (i.reactAll es w).1.map Response.event = es := by
  induction es generalizing w with
  | nil => rfl
  | cons e rest ih =>
    have event : (i.react e w).1.event = e := by
      unfold react
      split
      · rfl
      · unfold reactAlong
        split <;> rfl
    rw [reactAll, List.map_cons, event, ih]

/-- Events that are sent one after another are all answered, as is said of the game. -/
theorem sendAll_shows (k : i.RulesOnly) (fuel : Nat) (es : List Event) {s : Session σ}
    (idle : s.dispatching = false) (hs : s.Shows w []) :
    ∃ s', i.sendAll fuel es s = some ((i.reactAll es w).1.map .ok, s') ∧
      s'.Shows (i.reactAll es w).2 [] := by
  induction es generalizing w s with
  | nil => exact ⟨s, rfl, hs⟩
  | cons e rest ih =>
    obtain ⟨s₁, hd, hs₁⟩ := dispatch_shows k hs.engage e
    obtain ⟨s', hrest, hs'⟩ := ih rfl hs₁.release
    exact ⟨s', i.sendAll_cons idle hd hs₁.queue hrest, hs'⟩

/-- What a game looks like when it has just been started, as the one with a number. -/
def opening (i : Interpreter σ) (number : Nat) (edits : Edits) : World :=
  (.fresh number i.automaton.tokenTypes i.automaton.definition.initial, edits)

theorem start_shows (i : Interpreter σ) (s : Session σ) :
    (i.start s).Shows (i.opening s.newNumber s.edits) [] :=
  ⟨⟨rfl, rfl⟩, rfl, rfl⟩

/-- Nothing disturbs a game that was read from data, if those who watch only listen and effects are
built in. -/
theorem rulesOnly_of_ofValue {integer? : String → Option Int} {v : Value} {d : Definition}
    (hd : Definition.ofValue (.data integer?) v = .ok d) (hb : Automaton.build d = .ok i.automaton)
    (limit : i.config.maxHistory.IsWhole)
    (builtIn : ∀ name play, i.surroundings.effects.get? name ≠ some (.custom play))
    (hw : i.surroundings.Watching .listening) : i.RulesOnly where
  watching := hw
  builtIn := builtIn
  gates := gate_of_binds hd hb
  sound := sound_of_binds hd hb
  limit := limit

end Interpreter
end TokenGate

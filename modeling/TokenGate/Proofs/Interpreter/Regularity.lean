import TokenGate.Proofs.Interpreter.Conservation
import TokenGate.Proofs.Interpreter.Reachable
import TokenGate.Proofs.Interpreter.Upkeep
import TokenGate.Proofs.Ledger.Entries

/-!
# Games are regular

As long as the surroundings keep their hands off the ledger, the state and the turn, a game keeps
one entry for each token of its rules, in their order, the turn never falls below one, and the game
is always in one of the phases. The states of tokens are never entered, so that the events that
lead from them are ignored whenever they are sent.
-/

namespace TokenGate

open Act

variable {σ : Type}

/-- A label as the events of tokens have it. -/
def IsTokenLabel (label : String) : Prop :=
  EventKind.spend.Labels label ∨ EventKind.gain.Labels label

theorem GameplayEvent.not_isTokenLabel (g : GameplayEvent) : ¬ IsTokenLabel g.label := by
  have spend : (EventKind.spend.text ++ "_").toList.isPrefixOf g.label.toList = false := by
    cases g <;> decide +kernel
  have gain : (EventKind.gain.text ++ "_").toList.isPrefixOf g.label.toList = false := by
    cases g <;> decide +kernel
  rintro (h | h)
  · cases spend.symm.trans h.isPrefix
  · cases gain.symm.trans h.isPrefix

/-- No phase has an edge for the events of tokens. -/
theorem Automaton.edge?_of_isTokenLabel {d : Definition} {a : Automaton} (hb : build d = .ok a)
    {label : String} (h : IsTokenLabel label) (p : Phase) : a.edge? (.phase p) label = none := by
  cases hedge : a.edge? (.phase p) label with
  | none => rfl
  | some edge =>
    rcases edge?_cases hb hedge with ⟨-, g, -, -, rfl⟩ | ⟨entry, he, -, -, rfl⟩ | ⟨t, n, hs, -⟩
    · exact absurd h g.not_isTokenLabel
    · rcases h with h | h
      · exact absurd h.head (kind_ne_of_mem hb he (.inl rfl))
      · exact absurd h.head (kind_ne_of_mem hb he (.inr rfl))
    · cases hs

/-- A game has one entry for each token of its rules, the turn is at least one, and the state is a
phase. -/
structure Context.Regular (a : Automaton) (c : Context) : Prop where
  tokens : c.ledger.balances.keys = a.tokenTypes
  turn : 1 ≤ c.turn
  phase : ∃ p, c.state = .phase p

/-- Everything is permitted, new starts too, but a change of the ledger, the state or the turn. -/
def Permit.handsOff : Permit :=
  (Permit.keeping fun c => (c.ledger, c.state, c.turn)).restarting

namespace Automaton

variable {d : Definition} {a : Automaton}

theorem nodup_tokenTypes (hb : build d = .ok a) : a.tokenTypes.Nodup := by
  obtain ⟨-, -, -, -, htypes, -⟩ := build_spec hb
  rw [htypes]
  exact d.nodup_tokenTypes

theorem mem_tokenTypes_of_binds (hb : build d = .ok a) {r : Rule} (bound : a.Binds r) {t : String}
    (ht : t ∈ r.tokens.types) : t ∈ a.tokenTypes := by
  obtain ⟨-, -, -, -, htypes, -⟩ := build_spec hb
  rw [htypes]
  exact Definition.mem_tokenTypes.2 ⟨r, mem_rules_of_binds hb bound, ht⟩

/-- A regular game has an entry for each token that its rules speak of. -/
theorem mem_keys_of_binds (hb : build d = .ok a) {r : Rule} (bound : a.Binds r) {c : Context}
    (h : c.Regular a) : ∀ t ∈ r.tokens.types, t ∈ c.ledger.balances.keys := by
  intro t ht
  rw [h.tokens]
  exact mem_tokenTypes_of_binds hb bound ht

theorem regular_fresh (hb : build d = .ok a) (number : Nat) :
    (Context.fresh number a.tokenTypes a.definition.initial).Regular a :=
  ⟨Ledger.keys_ofTokens (nodup_tokenTypes hb), Int.le_refl 1, .setup, rfl⟩

/-- Neither the handling of a rule nor surroundings that keep their hands off make a game
irregular. -/
theorem upholds_regular (hb : build d = .ok a) : a.Upholds .handsOff (Context.Regular a) where
  changes {v w} same h := by
    obtain ⟨ledger, rest⟩ := Prod.mk.inj same
    obtain ⟨state, turn⟩ := Prod.mk.inj rest
    exact ⟨ledger ▸ h.tokens, turn ▸ h.turn, state ▸ h.phase⟩
  fresh _ number := regular_fresh hb number
  applied _ h := ⟨h.tokens, h.turn, h.phase⟩
  grant bound h :=
    ⟨(Ledger.keys_grantBag (mem_keys_of_binds hb bound h)).trans h.tokens, h.turn, h.phase⟩
  charge _ h charged := ⟨(Ledger.keys_pay charged).trans h.tokens, h.turn, h.phase⟩

end Automaton

theorem Context.Regular.advance {a : Automaton} {c : Context} (h : c.Regular a) (edge : Edge)
    (e : Event) (limit : HistoryLimit) : (c.advance edge e limit).Regular a := by
  refine ⟨h.tokens, ?_, edge.target, rfl⟩
  have turn := h.turn
  show 1 ≤ edge.turn c.turn
  unfold Edge.turn
  split <;> omega

/-- No game is detached, and the running one is regular if there is one. -/
structure Session.Regular (a : Automaton) (s : Session σ) : Prop where
  attached : s.detached = none
  game : ∀ c, s.live = some c → c.Regular a

namespace Interpreter

variable {i : Interpreter σ} {d : Definition}

/-- Every dispatch keeps a game regular, and it ignores the events of tokens. -/
theorem dispatch_regular (hb : Automaton.build d = .ok i.automaton) (k : i.Abides .handsOff)
    (e : Event) {s : Session σ} (hs : s.Regular i.automaton) :
    (i.dispatch e).Ensures s fun o s' => s'.Regular i.automaton ∧
      ∀ r, o = .ok r → IsTokenLabel e.type → r.outcome = .ignored := by
  cases hlive : s.live with
  | none =>
    simp only [Ensures, dispatch, hlive]
    refine ⟨⟨hs.attached, hs.game⟩, fun r hr _ => ?_⟩
    cases hr
    rfl
  | some c =>
    have regular := hs.game c hlive
    obtain ⟨q, hq⟩ := regular.phase
    have u := Automaton.upholds_regular hb
    have held : s.Holds .handsOff (Context.Regular i.automaton) :=
      .of_live hlive hs.attached regular fun hn => absurd trivial hn
    have proceeds := dispatch_proceeds k u (Q := fun _ => Context.Regular i.automaton) e hlive held
      fun edge _ => ⟨u.toPreserves, fun _ _ h => h, fun _ h => h.advance edge e _⟩
    have detached := detached_dispatch hs.attached e (i := i)
    have regular_of {s' : Session σ} (hd : s'.detached = none)
        (h : s'.Holds .handsOff (Context.Regular i.automaton)) : s'.Regular i.automaton :=
      ⟨hd, h.live⟩
    -- A token has no edge in any phase, and the game is in one.
    have known {edge : Edge} (found : i.automaton.edge? c.state e.type = some edge) :
        ¬ IsTokenLabel e.type := by
      intro label
      rw [hq, Automaton.edge?_of_isTokenLabel hb label q] at found
      cases found
    simp only [Ensures] at proceeds ⊢
    generalize i.dispatch e s = result at proceeds detached
    obtain ⟨o, s'⟩ := result
    cases proceeds with
    | ignored _ after =>
      refine ⟨regular_of detached after, fun r hr _ => ?_⟩
      cases hr
      rfl
    | blocked found after =>
      exact ⟨regular_of detached after, fun _ _ label => absurd label (known found)⟩
    | followed found after =>
      exact ⟨regular_of detached after, fun _ _ label => absurd label (known found)⟩
    | failed _ _ after =>
      refine ⟨regular_of detached (after.elim id id), fun r hr => ?_⟩
      cases hr

theorem account_regular (hb : Automaton.build d = .ok i.automaton) (k : i.Abides .handsOff) :
    i.Account fun s log s' => s.Regular i.automaton → s'.Regular i.automaton ∧
      ∀ r ∈ log, IsTokenLabel r.event.type → r.outcome = .ignored where
  refl _ h := ⟨h, fun _ hr => absurd hr List.not_mem_nil⟩
  append first second h := by
    obtain ⟨h', before⟩ := first h
    obtain ⟨h'', after⟩ := second h'
    refine ⟨h'', fun r hr => ?_⟩
    rcases List.mem_append.1 hr with hr | hr
    · exact before r hr
    · exact after r hr
  between _ _ _ h := ⟨⟨h.attached, h.game⟩, fun _ hr => absurd hr List.not_mem_nil⟩
  answered := by
    intro e s r s' hd h
    have spec := dispatch_regular hb k e h
    simp only [Ensures, hd] at spec
    refine ⟨spec.1, fun r' hr' label => ?_⟩
    rw [List.mem_singleton] at hr'
    subst hr'
    rw [event_of_dispatch i hd] at label
    exact spec.2 r' rfl label
  failed := by
    intro e s f s' hd h
    have spec := dispatch_regular hb k e h
    simp only [Ensures, hd] at spec
    exact ⟨spec.1, fun _ hr => absurd hr List.not_mem_nil⟩

theorem Reachable.regular (hb : Automaton.build d = .ok i.automaton) (k : i.Abides .handsOff)
    {s : Session σ} (h : i.Reachable s) : s.Regular i.automaton := by
  refine h.invariant (J := Session.Regular i.automaton) ?_ ?_ ?_ ?_
  · intro s s' regular hlive hdetached _ _
    exact ⟨hdetached.trans regular.attached, fun c hc => regular.game c (hlive.symm.trans hc)⟩
  · intro memory
    exact ⟨rfl, nofun⟩
  · intro s _
    refine ⟨rfl, fun c hc => ?_⟩
    cases hc
    exact Automaton.regular_fresh hb _
  · intro s s' fuel e log o regular hlog
    exact ((account_regular hb k).sendLog hlog regular).1

/-- An event of a token that is sent to a regular game is ignored, and the game stays as it is. -/
theorem send_isTokenLabel (hb : Automaton.build d = .ok i.automaton) {s : Session σ}
    (hs : s.Regular i.automaton) (rest : s.AtRest) (fuel : Nat) {e : Event}
    (label : IsTokenLabel e.type) :
    ∃ s', i.send fuel e s = some (.ok ⟨.ignored, e, s.stateText, .none⟩, s') ∧
      s'.live = s.live := by
  have answered : ∃ s', i.dispatch e s.engage = (.ok ⟨.ignored, e, s.stateText, .none⟩, s') ∧
      s'.live = s.live ∧ s'.queue = [] := by
    have engaged : s.engage.live = s.live := rfl
    cases hlive : s.live with
    | none =>
      simp only [dispatch, engaged, hlive, Session.stateText]
      exact ⟨_, rfl, hlive, rest.queue⟩
    | some c =>
      obtain ⟨q, hphase⟩ := (hs.game c hlive).phase
      have none := Automaton.edge?_of_isTokenLabel hb label q
      simp only [dispatch, engaged, hlive, Session.stateText, hphase, none]
      exact ⟨_, rfl, hlive, rest.queue⟩
  obtain ⟨s', hd, hlive, hq'⟩ := answered
  exact ⟨s'.release, send_of_dispatch i rest.idle hd hq', hlive⟩

/-- Whatever calls from outside come in whatever order, the game has the tokens of the rules as its
entries, in their order; its turn is at least one, and its state is a phase. Payments are covered in
full, so that no balance falls below zero. The events of tokens are ignored, those that wait
included. -/
theorem regular_of_reachable (hb : Automaton.build d = .ok i.automaton)
    (hw : i.surroundings.Watching .handsOff) (ha : i.surroundings.Acting .handsOff)
    (hj : i.surroundings.Judging .handsOff) {s : Session σ} (h : i.Reachable s) :
    (∀ c, s.live = some c →
      Entries.keys c.ledger.entries = i.automaton.tokenTypes ∧
      (∀ b l, c.ledger.pay b = .ok l → ∀ token,
        0 ≤ (c.ledger.balance token : Int) - b.count token ∧
        (l.balance token : Int) = c.ledger.balance token - b.count token) ∧
      1 ≤ c.turn ∧ ∃ p, c.state = .phase p) ∧
    (∀ fuel e, IsTokenLabel e.type →
      ∃ s', i.send fuel e s = some (.ok ⟨.ignored, e, s.stateText, .none⟩, s') ∧
        s'.live = s.live) ∧
    ∀ fuel e log o s', i.sendLog fuel e s = some (log, o, s') →
      ∀ r ∈ log, IsTokenLabel r.event.type → r.outcome = .ignored := by
  have k : i.Abides .handsOff := ⟨hw, ha.failing, fun _ _ e => hj _ e⟩
  have regular := h.regular hb k
  refine ⟨fun c hc => ?_, ?_, ?_⟩
  · have game := regular.game c hc
    refine ⟨game.tokens, fun b l hpay token => ?_, game.turn, game.phase⟩
    have paid := Ledger.balance_pay hpay token
    constructor <;> omega
  · exact fun fuel e label => send_isTokenLabel hb regular h.rests fuel label
  · exact fun fuel e log o s' hlog => ((account_regular hb k).sendLog hlog regular).2

end Interpreter

/-- In the mine, where something is bought as soon as gold has been dug, gold stays the only entry,
and it is never spent or gained by an event of its own. -/
theorem mine_regular_of_reachable :
    ∃ s c, Interpreter.mine.Reachable s ∧ s.live = some c ∧ c.ledger.balance "gold" = 1 ∧
      Entries.keys c.ledger.entries = ["gold"] ∧ 1 ≤ c.turn ∧ (∃ p, c.state = .phase p) ∧
      ∀ fuel, ∃ s', Interpreter.mine.send fuel ⟨"SPEND_GOLD", .null⟩ s =
        some (.ok ⟨.ignored, ⟨"SPEND_GOLD", .null⟩, s.stateText, .none⟩, s') ∧ s'.live = s.live := by
  have left : (Interpreter.mine.sendAll 2 mineEvents (Interpreter.mine.start (.idle ()))).map
      (fun run => run.2.live.map fun c => c.ledger.balance "gold") = some (some 1) := by
    decide +kernel
  have only : Interpreter.mine.automaton.tokenTypes = ["gold"] := by decide +kernel
  obtain ⟨⟨answers, s⟩, hrun, hgold⟩ := Option.map_eq_some_iff.1 left
  obtain ⟨c, hc, hbalance⟩ := Option.map_eq_some_iff.1 hgold
  have reached : Interpreter.mine.Reachable s :=
    (Interpreter.Reachable.start (.idle ())).sendAll hrun
  obtain ⟨game, ignored, -⟩ := Interpreter.regular_of_reachable (i := .mine) (d := .mine) rfl
    (mine_watching trivial) (Surroundings.acting_of_usual rfl) (fun _ _ => trivial) reached
  obtain ⟨keys, -, turn, phase⟩ := game c hc
  exact ⟨s, c, reached, hc, hbalance, only ▸ keys, turn, phase,
    fun fuel => ignored fuel ⟨"SPEND_GOLD", .null⟩ (.inl ⟨"GOLD", rfl⟩)⟩

end TokenGate

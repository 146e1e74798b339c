import TokenGate.Proofs.Interpreter.Availability
import TokenGate.Random.Generator
import TokenGate.Random.Play

/-!
# Random play

A player that chooses among the events which the game accepts is never ignored, and it only stops
early when the game is over. A game of fewer steps is the beginning of the one with more steps that
is played from the same seed.
-/

namespace TokenGate

variable {σ : Type}

/-- Everything is permitted that leaves the game in a state of the graph, new starts too, but giving
up and sending events. -/
def Permit.staying (a : Automaton) : Permit where
  fails _ := False
  sends := False
  starts := True
  changes v w := v.1.state ∈ a.states → w.1.state ∈ a.states
  refl _ := id
  trans h₁ h₂ := h₂ ∘ h₁

/-- The game is in a state of the graph, and neither the handling of a rule nor what is permitted
takes it out of there. -/
theorem Automaton.upholds_staying {d : Definition} {a : Automaton} (hb : build d = .ok a) :
    a.Upholds (.staying a) fun c => c.state ∈ a.states where
  changes h := h
  fresh _ _ := phase_mem_states hb .setup
  applied _ h := h
  grant _ h := h
  charge _ h _ := h

/-- A game is running in some state of the graph, and nothing is going on. -/
structure Session.InPlay (a : Automaton) (s : Session σ) : Prop where
  started : s.live.isSome = true
  known : ∀ c, s.live = some c → c.state ∈ a.states
  rests : s.AtRest

namespace Interpreter

variable {i : Interpreter σ} {d : Definition}

theorem inPlay_start (hb : Automaton.build d = .ok i.automaton) {s : Session σ}
    (idle : s.dispatching = false) : (i.start s).InPlay i.automaton := by
  refine ⟨rfl, fun c hc => ?_, idle, rfl, rfl⟩
  cases hc
  exact Automaton.phase_mem_states hb .setup

/-- An event that is listed is followed or blocked, and the game is still in play. -/
theorem send_available {integer? : String → Option Int} {v : Value}
    (hd : Definition.ofValue (.data integer?) v = .ok d)
    (hb : Automaton.build d = .ok i.automaton) (limit : i.config.maxHistory.IsWhole)
    (k : i.Abides (.staying i.automaton)) {s : Session σ} (hs : s.InPlay i.automaton) {e : Event}
    (listed : e.type ∈ i.available s) :
    ∃ r s', (∀ fuel, i.send fuel e s = some (.ok r, s')) ∧
      (r.outcome = .transitioned ∨ r.outcome = .blocked) ∧ s'.InPlay i.automaton := by
  obtain ⟨c, hlive, found⟩ := (mem_available_iff hb).1 listed
  have u := Automaton.upholds_staying hb
  have live : s.engage.live = some c := hlive
  have held : s.engage.Holds (.staying i.automaton) fun c => c.state ∈ i.automaton.states :=
    .of_live live hs.rests.detached (hs.known c hlive) fun _ => hs.rests.queue
  have proceeds := dispatch_proceeds k u (Q := fun _ c => c.state ∈ i.automaton.states) e live held
    fun edge _ => ⟨u.toPreserves, fun _ _ h => h, fun _ _ =>
      Automaton.phase_mem_states hb edge.target⟩
  have attached := detached_dispatch (s := s.engage) hs.rests.detached e (i := i)
  have inPlay {s' : Session σ} (hd : s'.detached = none)
      (h : s'.Holds (.staying i.automaton) fun c => c.state ∈ i.automaton.states) :
      s'.release.InPlay i.automaton := ⟨h.started, h.live, rfl, h.queue id, hd⟩
  simp only [Act.Ensures] at proceeds
  generalize hdispatch : i.dispatch e s.engage = result at proceeds attached
  obtain ⟨o, s'⟩ := result
  cases proceeds with
  | ignored unknown _ =>
    rw [unknown] at found
    cases found
  | blocked _ after =>
    have rest := inPlay attached after
    exact ⟨_, s'.release, fun fuel => send_of_dispatch i hs.rests.idle hdispatch rest.rests.queue,
      .inr rfl, rest⟩
  | followed _ after =>
    have rest := inPlay attached after
    exact ⟨_, s'.release, fun fuel => send_of_dispatch i hs.rests.idle hdispatch rest.rests.queue,
      .inl rfl, rest⟩
  | failed _ fails _ => exact absurd fails (not_fails hd hb limit (fun _ => id) _)

end Interpreter

namespace Random

variable {γ ε : Type} {source : Source γ ε}

/-- If there is a choice, one of the labels is chosen. -/
theorem choose_mem {labels : List String} (h : labels ≠ []) (g : γ) :
    ∃ label ∈ labels, (choose source labels g).1 = some label := by
  cases labels with
  | nil => exact absurd rfl h
  | cons first rest =>
    have bound : (source.draw (first :: rest).length g).1 < (first :: rest).length :=
      source.draw_lt g (Nat.zero_lt_succ _)
    exact ⟨_, List.getElem_mem bound, List.getElem?_eq_getElem bound⟩

namespace Game

variable {i : Interpreter σ} {d : Definition}

/-- The game that a session ends in is over. -/
def IsOver (s : Session σ) : Prop := ∃ c, s.live = some c ∧ c.state = .phase .ending

/-- Each step of random play is followed or blocked, and there are fewer of them than may be only
if the game is over. -/
theorem playOn_legal {integer? : String → Option Int} {v : Value}
    (hd : Definition.ofValue (.data integer?) v = .ok d)
    (hb : Automaton.build d = .ok i.automaton) (limit : i.config.maxHistory.IsWhole)
    (k : i.Abides (.staying i.automaton)) (fuel steps n : Nat) (g : γ) {s : Session σ}
    (hs : s.InPlay i.automaton) :
    ∃ answers g' s', playOn source i fuel steps n g s = some ⟨.ok answers, g', s'⟩ ∧
      (∀ r ∈ answers, r.outcome = .transitioned ∨ r.outcome = .blocked) ∧
      answers.length ≤ steps ∧ (answers.length < steps → IsOver s') := by
  induction steps generalizing n g s with
  | zero => exact ⟨[], g, s, rfl, nofun, Nat.le_refl 0, nofun⟩
  | succ steps ih =>
    unfold playOn
    by_cases stuck : i.available s = []
    · have ended : IsOver s := by
        refine ((Interpreter.available_eq_nil_iff hb hs.known).1 stuck).resolve_left fun none => ?_
        have started := hs.started
        rw [none] at started
        cases started
      rw [stuck]
      exact ⟨[], g, s, rfl, nofun, Nat.zero_le _, fun _ => ended⟩
    · obtain ⟨label, listed, chosen⟩ := choose_mem stuck g
      generalize choose source (i.available s) g = choice at chosen
      obtain ⟨_, g₁⟩ := choice
      cases chosen
      obtain ⟨r, s₁, hsend, outcome, hs₁⟩ :=
        Interpreter.send_available hd hb limit k hs (e := ⟨label, .object []⟩) listed
      have reported : (i.report "agents.random_agent" .debug (stepText n label r) s₁).InPlay
          i.automaton := ⟨hs₁.started, hs₁.known, hs₁.rests.idle, hs₁.rests.queue, hs₁.rests.detached⟩
      obtain ⟨answers, g', s', hrest, legal, bound, ended⟩ := ih (n + 1) g₁ reported
      refine ⟨r :: answers, g', s', ?_, ?_, Nat.succ_le_succ bound, fun few => ?_⟩
      · simp only [hsend, hrest]
        rfl
      · intro r' hr'
        rcases List.mem_cons.1 hr' with rfl | hr'
        · exact outcome
        · exact legal r' hr'
      · exact ended (Nat.lt_of_succ_lt_succ few)

/-- What comes first in a game does not depend on how many more steps may be made. -/
theorem playOn_take {fuel few more n : Nat} {g g' : γ} {s s' : Session σ}
    {answers : List Response}
    (h : playOn source i fuel (few + more) n g s = some ⟨.ok answers, g', s'⟩) :
    ∃ g₁ s₁, playOn source i fuel few n g s = some ⟨.ok (answers.take few), g₁, s₁⟩ := by
  induction few generalizing n g s answers with
  | zero => exact ⟨g, s, rfl⟩
  | succ few ih =>
    rw [Nat.succ_add] at h
    unfold playOn at h ⊢
    generalize choose source (i.available s) g = choice at h ⊢
    obtain ⟨label | label, g₁⟩ := choice
    · cases h
      exact ⟨_, _, rfl⟩
    · simp only at h ⊢
      generalize i.send fuel ⟨label, .object []⟩ s = sent at h ⊢
      rcases sent with _ | ⟨f | r, s₁⟩
      · cases h
      · cases h
      · obtain ⟨⟨rest, g₂, s₂⟩, hrest, heq⟩ := Option.map_eq_some_iff.1 h
        cases rest with
        | error f => cases heq
        | ok rest =>
          cases heq
          obtain ⟨g₃, s₃, hfew⟩ := ih hrest
          refine ⟨g₃, s₃, ?_⟩
          simp only [hfew]
          rfl

/-- Random play is legal, it stops only at the end, and its beginning does not depend on how long it
may last: of two games played with the same generator from the same session, the one that may have
fewer steps has the first answers of the other one. Each event is followed or blocked, none ignored
or put off, and a game that has fewer steps than it may have is over. -/
theorem play_prefix (source : Source γ ε) {integer? : String → Option Int} {v : Value}
    (hd : Definition.ofValue (.data integer?) v = .ok d)
    (hb : Automaton.build d = .ok i.automaton) (limit : i.config.maxHistory.IsWhole)
    (ha : i.surroundings.Acting (Permit.staying i.automaton).failing)
    (hw : i.surroundings.Watching (.staying i.automaton)) (fuel : Nat) (g : γ) {s : Session σ}
    (idle : s.dispatching = false) {few many : Nat} (h : few ≤ many) :
    ∃ answers g₁ s₁ g₂ s₂,
      play source i fuel many g s = some ⟨.ok answers, g₂, s₂⟩ ∧
      play source i fuel few g s = some ⟨.ok (answers.take few), g₁, s₁⟩ ∧
      (∀ r ∈ answers, r.outcome = .transitioned ∨ r.outcome = .blocked) ∧
      answers.length ≤ many ∧ (answers.length < many → IsOver s₂) ∧
      ((answers.take few).length < few → IsOver s₁) := by
  have k : i.Abides (.staying i.automaton) := Interpreter.abides_of_watching hd hb ha hw
  have begun := Interpreter.inPlay_start hb idle
  obtain ⟨more, rfl⟩ := Nat.exists_eq_add_of_le h
  obtain ⟨answers, g₂, s₂, long, legal, bound, ended⟩ :=
    playOn_legal hd hb limit k fuel (few + more) 1 g begun
  obtain ⟨first, g₁, s₁, short, -, -, ended'⟩ := playOn_legal hd hb limit k fuel few 1 g begun
  obtain ⟨g₃, s₃, taken⟩ := playOn_take long
  cases taken.symm.trans short
  exact ⟨answers, g₁, s₁, g₂, s₂, long, short, legal, bound, ended, ended'⟩

/-- Played with seed 1, the game of the gate is over after thirteen steps, of which the first five
are those of the game that is left after five. -/
theorem gate_play_prefix :
    ∃ answers g₁ s₁ g₂ s₂,
      play .usual .gate 0 40 (Generator.ofSeed [1]) (.idle 0) = some ⟨.ok answers, g₂, s₂⟩ ∧
      play .usual .gate 0 5 (Generator.ofSeed [1]) (.idle 0) = some ⟨.ok (answers.take 5), g₁, s₁⟩ ∧
      (∀ r ∈ answers, r.outcome = .transitioned ∨ r.outcome = .blocked) ∧
      answers.length = 13 ∧ IsOver s₂ := by
  have counted : (play .usual .gate 0 40 (Generator.ofSeed [1]) (.idle 0)).map
      (fun game => game.answers.toOption.map List.length) = some (some 13) := by
    decide +kernel
  obtain ⟨answers, g₁, s₁, g₂, s₂, long, short, legal, -, ended, -⟩ :=
    play_prefix .usual (i := .gate) ofValue_gateRules build_gate trivial
      (Surroundings.acting_of_usual rfl) gate_watching 0 (Generator.ofSeed [1]) (s := .idle 0) rfl
      (show 5 ≤ 40 by decide)
  rw [long] at counted
  have length : answers.length = 13 := Option.some.inj (Option.some.inj counted)
  exact ⟨answers, g₁, s₁, g₂, s₂, long, short, legal, length, ended (by omega)⟩

end Game
end Random
end TokenGate

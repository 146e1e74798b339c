import Mathlib.Data.List.DropRight
import TokenGate.Proofs.Interpreter.Flattening
import TokenGate.Proofs.Interpreter.Reachable
import TokenGate.Proofs.Interpreter.Upkeep

/-!
# History, state and turn tell the same story

The events that move a game on lead through the graph from edge to edge. As long as nobody else
writes the state, the turn or the history, the state is where they lead to, the turn counts those
among them that end a turn, and the history has the last of them, as many as its limit allows.
-/

namespace TokenGate

open Act

variable {σ : Type}

namespace Automaton

/-- The state that labels lead to from a state, edge by edge, if each of them has an edge. -/
def trace? (a : Automaton) (s : State) : List String → Option State
  | [] => some s
  | label :: rest =>
      match a.edge? s label with
      | some edge => a.trace? (.phase edge.target) rest
      | none => none

variable {a : Automaton}

theorem trace?_append_singleton {s s' : State} {labels : List String} {label : String}
    {edge : Edge} (h : a.trace? s labels = some s') (hedge : a.edge? s' label = some edge) :
    a.trace? s (labels ++ [label]) = some (.phase edge.target) := by
  induction labels generalizing s with
  | nil =>
    cases h
    simp [trace?, hedge]
  | cons l rest ih =>
    simp only [trace?, List.cons_append] at h ⊢
    cases hl : a.edge? s l with
    | none =>
      rw [hl] at h
      cases h
    | some first =>
      rw [hl] at h
      exact ih h

/-- From a phase labels lead to phases only. -/
theorem phase_of_trace? {p : Phase} {s : State} {labels : List String}
    (h : a.trace? (.phase p) labels = some s) : ∃ q, s = .phase q := by
  induction labels generalizing p with
  | nil =>
    cases h
    exact ⟨p, rfl⟩
  | cons l rest ih =>
    rw [trace?] at h
    split at h
    · exact ih h
    · cases h

end Automaton

/-- The label of the event that ends a turn. -/
abbrev Event.EndsTurn (e : Event) : Prop := e.type = GameplayEvent.nextTurn.label

/-- The edge of an event that ends a turn, and no other, raises the turn. -/
theorem Edge.turn_eq {d : Definition} {a : Automaton} (hb : Automaton.build d = .ok a) {p : Phase}
    {e : Event} {edge : Edge} (found : a.edge? (.phase p) e.type = some edge) (turn : Int) :
    edge.turn turn = turn + if e.EndsTurn then 1 else 0 := by
  have gameplay := Automaton.event_of_edge? hb found .nextTurn
  unfold Edge.turn
  by_cases h : e.EndsTurn
  · rw [if_pos h, gameplay.2 h]
  · have other : edge.event ≠ .gameplay .nextTurn := mt gameplay.1 h
    rw [if_neg h]
    split
    · rename_i hevent
      exact absurd hevent other
    · exact (Int.add_zero turn).symm

/-- What a game tells of the events that have moved it on. -/
structure Context.Tells (a : Automaton) (limit : HistoryLimit) (events : List Event)
    (c : Context) : Prop where
  state : a.trace? .initial (events.map Event.type) = some c.state
  turn : c.turn = 1 + events.countP fun e => e.EndsTurn
  history : c.history = limit.cut events

/-- Everything is permitted but a new start and a change of the state, the turn or the history. -/
abbrev Permit.storyKeeping : Permit := .keeping fun c => (c.state, c.turn, c.history)

namespace Context.Tells

variable {a : Automaton} {limit : HistoryLimit} {events : List Event} {c : Context}

theorem fresh (whole : limit.IsWhole) (number : Nat) (tokens : List String) (game : Fields) :
    (Context.fresh number tokens game).Tells a limit [] := by
  refine ⟨rfl, rfl, ?_⟩
  cases limit with
  | unlimited => rfl
  | atMost n => exact List.drop_nil.symm
  | double x => exact whole.elim
  | other kind => exact whole.elim

theorem advance {d : Definition} (hb : Automaton.build d = .ok a) (whole : limit.IsWhole)
    (h : c.Tells a limit events) {e : Event} {edge : Edge}
    (found : a.edge? c.state e.type = some edge) :
    (c.advance edge e limit).Tells a limit (events ++ [e]) where
  state := by
    rw [List.map_append]
    exact Automaton.trace?_append_singleton h.state found
  turn := by
    obtain ⟨p, hp⟩ := Automaton.phase_of_trace? h.state
    rw [hp] at found
    show edge.turn c.turn = _
    rw [Edge.turn_eq hb found, h.turn, List.countP_append, List.countP_singleton]
    by_cases ends : e.EndsTurn
    · rw [if_pos ends, if_pos (decide_eq_true ends)]
      omega
    · rw [if_neg ends, if_neg (by simpa using ends)]
      omega
  history := by
    show limit.cut (c.history ++ [e]) = _
    rw [h.history, HistoryLimit.cut_cut_append whole]

end Context.Tells

theorem Automaton.upholds_tells (a : Automaton) (limit : HistoryLimit) (events : List Event) :
    a.Upholds .storyKeeping (Context.Tells a limit events) where
  changes {v w} same h := by
    obtain ⟨state, rest⟩ := Prod.mk.inj same
    obtain ⟨turn, history⟩ := Prod.mk.inj rest
    exact ⟨state ▸ h.state, turn ▸ h.turn, history ▸ h.history⟩
  fresh starts := starts.elim
  applied _ h := ⟨h.state, h.turn, h.history⟩
  grant _ h := ⟨h.state, h.turn, h.history⟩
  charge _ h _ := ⟨h.state, h.turn, h.history⟩

namespace Session

/-- No game is detached, and the running one tells of the events that have moved it on. -/
def Tells (i : Interpreter σ) (events : List Event) (s : Session σ) : Prop :=
  s.detached = none ∧
    ∃ c, s.live = some c ∧ c.Tells i.automaton i.config.maxHistory events

end Session

namespace Interpreter

variable {i : Interpreter σ} {d : Definition}

/-- A dispatch that is answered adds its event to the story if it has moved the game on. -/
theorem dispatch_tells (hb : Automaton.build d = .ok i.automaton)
    (whole : i.config.maxHistory.IsWhole) (k : i.Abides .storyKeeping) {s s' : Session σ}
    {e : Event} {r : Response} {events : List Event} (hs : s.Tells i events)
    (hd : i.dispatch e s = (.ok r, s')) : s'.Tells i (events ++ followedEvents [r]) := by
  obtain ⟨hdetached, c, hlive, tells⟩ := hs
  have u := i.automaton.upholds_tells i.config.maxHistory events
  have held : s.Holds .storyKeeping (Context.Tells i.automaton i.config.maxHistory events) :=
    .of_live hlive hdetached tells fun hn => absurd trivial hn
  have proceeds := dispatch_proceeds k u
    (Q := fun _ => Context.Tells i.automaton i.config.maxHistory (events ++ [e])) e hlive held ?_
  · have detached := detached_dispatch hdetached e (i := i)
    have tells_of {events : List Event}
        (h : s'.Holds .storyKeeping (Context.Tells i.automaton i.config.maxHistory events)) :
        s'.Tells i events := by
      obtain ⟨c', hc'⟩ := Option.isSome_iff_exists.1 h.started
      exact ⟨by rwa [hd] at detached, c', hc', h.live c' hc'⟩
    simp only [Ensures, hd] at proceeds
    cases proceeds with
    | ignored _ after => simpa [followedEvents, Response.transitioned] using tells_of after
    | blocked _ after => simpa [followedEvents, Response.transitioned] using tells_of after
    | followed _ after => simpa [followedEvents, Response.transitioned] using tells_of after
  · intro edge found
    refine ⟨(i.automaton.upholds_tells i.config.maxHistory (events ++ [e])).toPreserves,
      fun starts => starts.elim, fun c' tells' => tells'.advance hb whole ?_⟩
    -- The same events lead all games that tell of them to the same state.
    have same : c'.state = c.state := Option.some.inj (tells'.state.symm.trans tells.state)
    rwa [same]

theorem course_tells (hb : Automaton.build d = .ok i.automaton)
    (whole : i.config.maxHistory.IsWhole) (k : i.Abides .storyKeeping) {s s' : Session σ}
    {log : List Response} {events : List Event} (course : i.Course s log s')
    (hs : s.Tells i events) : s'.Tells i (events ++ followedEvents log) := by
  induction course generalizing events with
  | done s => simpa [followedEvents] using hs
  | between queue dispatching _ ih => exact ih hs
  | @dispatched s s₁ s' e r log answered _ ih =>
    have both := ih (dispatch_tells hb whole k hs answered)
    rw [List.append_assoc] at both
    have split : followedEvents [r] ++ followedEvents log = followedEvents (r :: log) := by
      simp only [followedEvents, ← List.map_append, ← List.filter_append, List.singleton_append]
    rwa [split] at both

/-- After any events that are sent to a game that has been started, as long as nothing fails, the
events that have moved it on lead edge by edge from the first phase to its state; the turn is one
more than the number of those that end a turn; and the history has the last of them, as many as its
limit allows, or all of them if there is no limit. -/
theorem story_of_run (hb : Automaton.build d = .ok i.automaton)
    (whole : i.config.maxHistory.IsWhole) (hw : i.surroundings.Watching .storyKeeping)
    (ha : i.surroundings.Acting .storyKeeping) (hj : i.surroundings.Judging .storyKeeping)
    {fuel : Nat} {es : List Event} {s s' : Session σ} {log : List Response}
    {answers : List (Except Fault Response)}
    (hrun : i.sendAllLog fuel es (i.start s) = some (log, answers, s'))
    (smooth : ∀ f, .error f ∉ answers) :
    ∃ c, s'.live = some c ∧
      i.automaton.trace? (.phase .setup) ((followedEvents log).map Event.type) = some c.state ∧
      c.turn = 1 + (followedEvents log).countP (fun e => e.type = "NEXT_TURN") ∧
      (i.config.maxHistory = .unlimited → c.history = followedEvents log) ∧
      ∀ n, i.config.maxHistory = .atMost n →
        c.history = (followedEvents log).rtake (max n 0).toNat := by
  have k : i.Abides .storyKeeping := ⟨hw, ha.failing, fun _ _ e => hj _ e⟩
  have begun : (i.start s).Tells i [] := ⟨rfl, _, rfl, .fresh whole _ _ _⟩
  obtain ⟨-, c, hlive, tells⟩ := course_tells hb whole k (.of_sendAllLog hrun smooth) begun
  rw [List.nil_append] at tells
  refine ⟨c, hlive, tells.state, tells.turn, fun hlimit => ?_, fun n hlimit => ?_⟩
  · rw [tells.history, hlimit]
    rfl
  · have size : (max n 0).toNat = n.toNat := by omega
    rw [tells.history, hlimit, size]
    rfl

/-- The hasty game with a history of two events. -/
def brief : Interpreter Unit := { hasty with config := ⟨true, .atMost 2, .none⟩ }

theorem brief_story_of_run :
    ∃ log answers s' c,
      brief.sendAllLog 4 [⟨"START_GAME", .null⟩] (brief.start (.idle ())) =
        some (log, answers, s') ∧
      s'.live = some c ∧
      (followedEvents log).map Event.type = ["START_GAME", "NEXT_TURN", "NEXT_TURN", "CHECK_WIN"] ∧
      brief.automaton.trace? (.phase .setup) ((followedEvents log).map Event.type) =
        some c.state ∧
      c.turn = 3 ∧ c.history = (followedEvents log).rtake 2 := by
  have followed : (brief.sendAllLog 4 [⟨"START_GAME", .null⟩] (brief.start (.idle ()))).map
      (fun run => ((followedEvents run.1).map Event.type, run.2.1.all Except.toBool)) =
        some (["START_GAME", "NEXT_TURN", "NEXT_TURN", "CHECK_WIN"], true) := by
    decide +kernel
  obtain ⟨⟨log, answers, s'⟩, hrun, heq⟩ := Option.map_eq_some_iff.1 followed
  obtain ⟨types, answered⟩ := Prod.mk.inj heq
  have smooth : ∀ f, .error f ∉ answers := by
    intro f hf
    cases List.all_eq_true.1 answered _ hf
  obtain ⟨c, hlive, state, turn, -, history⟩ := story_of_run (i := brief)
    (d := ⟨"hasty", 2, [], [], [], []⟩) rfl trivial (hasty_watching trivial)
    (Surroundings.acting_of_usual rfl) (fun _ _ => trivial) hrun smooth
  have two : (followedEvents log).countP (fun e => e.type = "NEXT_TURN") = 2 := by
    have count := congrArg (List.countP (· = "NEXT_TURN")) types
    rw [List.countP_map] at count
    exact count
  refine ⟨log, answers, s', c, hrun, hlive, types, state, ?_, history 2 rfl⟩
  rw [turn, two]
  rfl

end Interpreter
end TokenGate

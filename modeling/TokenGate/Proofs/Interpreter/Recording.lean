import TokenGate.Proofs.Play.Attending
import TokenGate.Proofs.Play.Beside
import TokenGate.Proofs.Play.Telling

/-!
# Keeping a record

An interpreter can keep a record of what the observer and the watchers are told, each time before
they do what they do. That changes nothing. As long as those who watch only look on and send events,
telling them something is all that is recorded of it, and nothing happens to a game.
-/

namespace TokenGate

open Act

variable {σ α : Type}

/-- A play for which it is recorded that somebody is told something. -/
def Play.hearing (hearer : Option String) (m : Message) (x : Play σ α) : Play (σ × List Telling) α :=
  .remember (fun memory => (memory.1, memory.2 ++ [⟨hearer, m⟩])) (x.beside .none)

/-- The interpreter in surroundings that keep a record of what those who watch are told. -/
def Interpreter.recording (i : Interpreter σ) : Interpreter (σ × List Telling) where
  automaton := i.automaton
  config := i.config
  surroundings :=
    { log := fun r m => (i.surroundings.log r m.1, m.2)
      effects := i.surroundings.effects.map (.tell (Play.beside .none))
      predicate := fun key e => (i.surroundings.predicate key e).beside .none
      onTransition := fun n => (i.surroundings.onTransition n).hearing none (.transition n)
      onRuleLog := fun l => (i.surroundings.onRuleLog l).hearing none (.rule l)
      transitionWatcher := fun name n =>
        (i.surroundings.transitionWatcher name n).hearing (some name) (.transition n)
      logWatcher := fun name l =>
        (i.surroundings.logWatcher name l).hearing (some name) (.rule l) }

/-- A session of which nobody has been told anything yet. -/
def Session.unrecorded (s : Session σ) : Session (σ × List Telling) := s.mapMemory (·, [])

namespace Interpreter

variable {i : Interpreter σ}

theorem beside_recording (i : Interpreter σ) : Beside i i.recording where
  automaton := rfl
  config := rfl
  log _ _ := rfl

/-- A custom effect is one of the interpreter, told again. -/
theorem custom_of_recording {name : String} {play : Data → Play (σ × List Telling) Unit}
    (h : i.recording.surroundings.effects.get? name = some (.custom play)) :
    ∃ x, i.surroundings.effects.get? name = some (.custom x) ∧
      play = fun payload => (x payload).beside .none := by
  simp only [recording, Table.get?_map, Option.map_eq_some_iff] at h
  obtain ⟨handler, heffect, htold⟩ := h
  cases handler with
  | setFlag => cases htold
  | removePiece => cases htold
  | custom x =>
    cases htold
    exact ⟨x, heffect, rfl⟩

/-- A play itself puts nothing on record. -/
theorem record_make (x : Play σ α) (g : Stage (σ × List Telling)) :
    (i.recording.make (x.beside .none) g).2.session.record = g.session.record := by
  induction x generalizing g with
  | done a => rfl
  | fail f => rfl
  | consult next ih => exact ih _ g
  | remember change next ih => exact ih _
  | look next ih => exact ih _ _ g
  | lookLive next ih => exact ih _ _ g
  | send e next ih =>
    let noted : Stage (σ × List Telling) :=
      { g with session.memory := (g.session.memory.1, g.session.memory.2) }
    exact make_send_cases (g := noted)
      (P := fun made => made.2.session.record = g.session.record) (ih _ _) (ih _ _)
  | start next ih => exact ih _
  | alter change next ih =>
    refine (ih _).trans ?_
    rw [Session.record, Session.record, Stage.memory_alter]
  | subscribe c n next ih =>
    refine (ih _).trans ?_
    cases c <;> rfl
  | unsubscribe c n next ih =>
    refine (ih _).trans ?_
    cases c <;> rfl

theorem mapMemory_make (x : Play σ α) (g : Stage (σ × List Telling)) :
    ((i.recording.make (x.beside .none) g).2).mapMemory Prod.fst =
      (i.make x (g.mapMemory Prod.fst)).2 := by
  rw [make_beside i.beside_recording .none]

/-- Nobody adds or removes the watchers that the surroundings of an interpreter leave alone. -/
def Considerate (i : Interpreter σ) (x : Play σ α) : Prop :=
  ∀ channel name, i.surroundings.LeaveAlone channel name → x.LeavesAlone channel name

/-- Performing a play tells nobody anything. -/
theorem perform_hears {x : Play σ α} (considerate : i.Considerate x) (hold : Hold)
    (s : Session (σ × List Telling)) :
    (i.recording.perform hold (x.beside .none)).Ensures s fun _ s' =>
      s.Hears i.surroundings [] s' := by
  refine ⟨?_, fun channel name alone => ?_⟩
  · rw [List.append_nil]
    exact record_make x ⟨s, hold⟩
  · have counted := count_make (i := i) (considerate channel name alone)
      (Stage.mapMemory Prod.fst ⟨s, hold⟩)
    rw [← mapMemory_make] at counted
    cases channel <;> exact counted

/-- Whoever watches has been told before anything else. -/
theorem perform_hearing {x : Play σ Unit} (hx : x.Within .attending)
    (considerate : i.Considerate x) (hearer : Option String) (m : Message)
    (s : Session (σ × List Telling)) :
    (i.recording.perform .live (x.hearing hearer m)).Ensures s fun o s' =>
      o = .ok () ∧ s.SameGames s' ∧ s.Hears i.surroundings [⟨hearer, m⟩] s' := by
  let told : Session (σ × List Telling) :=
    { s with memory := (s.memory.1, s.memory.2 ++ [⟨hearer, m⟩]) }
  have noted : s.Hears i.surroundings [⟨hearer, m⟩] told :=
    ⟨rfl, fun channel _ _ => by cases channel <;> rfl⟩
  have same : s.SameGames told := ⟨rfl, rfl, rfl⟩
  have hears := perform_hears considerate .live told
  have attends := i.recording.perform_attending (Play.within_beside .none hx) .live told
  exact ⟨attends.1, same.trans attends.2, noted.trans hears⟩

theorem performAll_hearing {watcher : String → Play σ Unit}
    (hw : ∀ name, (watcher name).Within .attending)
    (considerate : ∀ name, i.Considerate (watcher name)) (m : Message) (names : List String)
    (s : Session (σ × List Telling)) :
    (i.recording.performAll (fun name => (watcher name).hearing (some name) m) names).Ensures s
      fun o s' => o = .ok () ∧ s.SameGames s' ∧
        s.Hears i.surroundings (names.map fun name => ⟨some name, m⟩) s' := by
  induction names generalizing s with
  | nil => exact ⟨rfl, .refl s, .refl s⟩
  | cons name rest ih =>
    refine Ensures.bind (perform_hearing (hw name) (considerate name) (some name) m s) ?_ ?_
    · rintro _ s₁ ⟨-, same, first⟩
      refine (ih s₁).mono ?_
      rintro o s' ⟨ho, same', others⟩
      exact ⟨ho, same.trans same', first.trans others⟩
    · rintro f s₁ ⟨ho, -⟩
      cases ho

/-- The observer and then all watchers are told. -/
theorem all_hearing {observer : Play σ Unit} {watcher : String → Play σ Unit} {m : Message}
    (ho : observer.Within .attending) (hw : ∀ name, (watcher name).Within .attending)
    (observing : i.Considerate observer) (watching : ∀ name, i.Considerate (watcher name))
    (s : Session (σ × List Telling)) :
    (i.recording.perform .live (observer.hearing none m) >>= fun _ => Act.get >>= fun s =>
      i.recording.performAll (fun name => (watcher name).hearing (some name) m)
        (s.watchers m.channel)).Ensures s
      fun o s' => o = .ok () ∧ s.SameGames s' ∧ ∃ names, s.Informs i.surroundings [⟨m, names⟩] s' := by
  refine Ensures.bind (perform_hearing ho observing none m s) ?_ ?_
  · rintro _ s₁ ⟨-, same, first⟩
    refine ensures_get_bind ((performAll_hearing hw watching m _ s₁).mono ?_)
    rintro o s' ⟨ho, same', others⟩
    refine ⟨ho, same.trans same', s₁.watchers m.channel, ?_, fun r hr name alone => ?_⟩
    · rw [List.flatMap_singleton]
      exact first.trans others
    · cases List.mem_singleton.1 hr
      exact first.audience _ name alone
  · rintro f s₁ ⟨ho, -⟩
    cases ho

section Watchers

variable (hw : i.surroundings.Watching .attending)

include hw

theorem notify_informs (n : Notice) (s : Session (σ × List Telling)) :
    (i.recording.notify n).Ensures s fun o s' => o = .ok () ∧ s.SameGames s' ∧
      ∃ names, s.Informs i.surroundings [⟨.transition n, names⟩] s' :=
  all_hearing (m := .transition n) (hw.onTransition n) (fun name => hw.transitionWatcher name n)
    (fun _ _ alone => alone.onTransition n)
    (fun name _ _ alone => alone.transitionWatcher name n) s

theorem notifyLog_informs (l : RuleLog) (s : Session (σ × List Telling)) :
    (i.recording.notifyLog l).Ensures s fun o s' => o = .ok () ∧ s.SameGames s' ∧
      ∃ names, s.Informs i.surroundings [⟨.rule l, names⟩] s' :=
  all_hearing (m := .rule l) (hw.onRuleLog l) (fun name => hw.logWatcher name l)
    (fun _ _ alone => alone.onRuleLog l) (fun name _ _ alone => alone.logWatcher name l) s

end Watchers

/-- Keeping a record changes nothing about what an interpreter does. -/
theorem recording_follows (i : Interpreter σ) :
    Shadow i.recording i (Seen (Session.mapMemory Prod.fst) fun _ => True) fun _ => False := by
  have heard (hearer : Option String) (m : Message) (x : Play σ Unit) :
      Shadows (Seen (Session.mapMemory Prod.fst) fun _ => True) (fun _ => False)
        (i.recording.perform .live (x.hearing hearer m)) (i.perform .live x) := by
    refine shadows_of_mirrors fun {s} _ => ?_
    let told : Session (σ × List Telling) :=
      { s with memory := (s.memory.1, s.memory.2 ++ [⟨hearer, m⟩]) }
    have performed := (perform_beside i.beside_recording .none .live x).keeps
      (s := told) (t := s.mapMemory Prod.fst) ⟨rfl, trivial⟩
    rcases performed with away | ⟨heq, hsee, -⟩
    · exact away.elim
    · exact ⟨Prod.ext heq hsee, trivial⟩
  refine i.beside_recording.follows .none rfl (fun _ _ => rfl) (fun n => ?_) fun l => ?_
  · exact shadows_notify (heard _ _ _) (fun name => heard _ _ _) fun hR => hR.1 ▸ rfl
  · exact shadows_notifyLog (heard _ _ _) (fun name => heard _ _ _) fun hR => hR.1 ▸ rfl

end Interpreter
end TokenGate

import TokenGate.Proofs.Play.Permit

/-!
# What those who watch are told

All who watch are told a message in one round, first the observer and then the watchers. Where a
session remembers what has been told, this says who has heard what in which order. A watcher that
nobody adds or removes hears every message as often as it has been added.
-/

namespace TokenGate

open Act

variable {σ α : Type}

/-- What those who watch are told. -/
inductive Message where
  | transition (n : Notice)
  | rule (l : RuleLog)

namespace Message

/-- What has to be watched to be told a message. -/
def channel : Message → Channel
  | transition _ => .transitions
  | rule _ => .logs

/-- The notice that a message is. -/
def notice? : Message → Option Notice
  | transition n => some n
  | rule _ => none

/-- The rule log that a message is. -/
def ruleLog? : Message → Option RuleLog
  | transition _ => none
  | rule l => some l

theorem channel_of_notice? {m : Message} {n : Notice} (h : m.notice? = some n) :
    m.channel = .transitions := by
  cases m with
  | transition _ => rfl
  | rule _ => cases h

theorem channel_of_ruleLog? {m : Message} {l : RuleLog} (h : m.ruleLog? = some l) :
    m.channel = .logs := by
  cases m with
  | transition _ => cases h
  | rule _ => rfl

end Message

/-- Somebody is told something: the watcher with a name, or else the observer. -/
structure Telling where
  hearer : Option String
  message : Message

/-- What somebody hears of a telling. -/
def Telling.heard? (hearer : Option String) (t : Telling) : Option Message :=
  if t.hearer = hearer then some t.message else none

/-- A message, and the watchers that are told it after the observer. -/
structure Round where
  message : Message
  watchers : List String

namespace Round

/-- The observer is told the message, and then the watchers are. -/
def tellings (r : Round) : List Telling :=
  ⟨none, r.message⟩ :: r.watchers.map fun name => ⟨some name, r.message⟩

theorem heard_observer (r : Round) : r.tellings.filterMap (Telling.heard? none) = [r.message] := by
  have others : (r.watchers.map fun name => (⟨some name, r.message⟩ : Telling)).filterMap
      (Telling.heard? none) = [] := by
    simp [Telling.heard?]
  have first : Telling.heard? none ⟨none, r.message⟩ = some r.message := rfl
  rw [tellings, List.filterMap_cons_some first, others]

/-- A watcher hears the message as often as its name comes up. -/
theorem heard_watcher (r : Round) (name : String) :
    r.tellings.filterMap (Telling.heard? (some name)) =
      List.replicate (r.watchers.count name) r.message := by
  obtain ⟨m, names⟩ := r
  rw [tellings, List.filterMap_cons_none rfl]
  induction names with
  | nil => rfl
  | cons other rest ih =>
    rw [List.map_cons, List.count_cons]
    by_cases same : other = name
    · have heard : Telling.heard? (some name) ⟨some other, m⟩ = some m := by
        rw [Telling.heard?, if_pos (congrArg some same)]
      rw [List.filterMap_cons_some heard, ih, if_pos (by simpa using same),
        ← List.replicate_succ]
    · have unheard : Telling.heard? (some name) ⟨some other, m⟩ = none := by
        rw [Telling.heard?, if_neg (by simpa using same)]
      rw [List.filterMap_cons_none unheard, ih, if_neg (by simpa using same), Nat.add_zero]

end Round

namespace Session

/-- What those who watch have been told. -/
def record (s : Session (σ × List Telling)) : List Telling := s.memory.2

/-- What somebody has been told. -/
def heard (hearer : Option String) (s : Session (σ × List Telling)) : List Message :=
  s.record.filterMap (Telling.heard? hearer)

/-- The transitions that somebody has been told of. -/
def notices (hearer : Option String) (s : Session (σ × List Telling)) : List Notice :=
  (s.heard hearer).filterMap Message.notice?

/-- The rules that somebody has been told of. -/
def ruleLogs (hearer : Option String) (s : Session (σ × List Telling)) : List RuleLog :=
  (s.heard hearer).filterMap Message.ruleLog?

end Session

/-- A play neither adds nor removes some watcher. -/
def Play.LeavesAlone (channel : Channel) (name : String) : Play σ α → Prop
  | .done _ => True
  | .fail _ => True
  | .consult next => ∀ m, (next m).LeavesAlone channel name
  | .remember _ next => next.LeavesAlone channel name
  | .look next => ∀ c s, (next c s).LeavesAlone channel name
  | .lookLive next => ∀ c s, (next c s).LeavesAlone channel name
  | .send _ next => ∀ r, (next r).LeavesAlone channel name
  | .start next => next.LeavesAlone channel name
  | .alter _ next => next.LeavesAlone channel name
  | .subscribe c n next => ¬ (c = channel ∧ n = name) ∧ next.LeavesAlone channel name
  | .unsubscribe c n next => ¬ (c = channel ∧ n = name) ∧ next.LeavesAlone channel name

/-- Nobody in the surroundings adds or removes some watcher. -/
structure Surroundings.LeaveAlone (S : Surroundings σ) (channel : Channel) (name : String) :
    Prop where
  effects : ∀ effect play, S.effects.get? effect = some (.custom play) →
    ∀ payload, (play payload).LeavesAlone channel name
  predicate : ∀ key e, (S.predicate key e).LeavesAlone channel name
  onTransition : ∀ n, (S.onTransition n).LeavesAlone channel name
  onRuleLog : ∀ l, (S.onRuleLog l).LeavesAlone channel name
  transitionWatcher : ∀ watcher n, (S.transitionWatcher watcher n).LeavesAlone channel name
  logWatcher : ∀ watcher l, (S.logWatcher watcher l).LeavesAlone channel name

/-- Those who watch, by their names. -/
def Session.watchers (s : Session σ) : Channel → List String
  | .transitions => s.transitionWatchers
  | .logs => s.logWatchers

namespace Session

/-- Those who watch have been told something, and watchers that the surroundings leave alone are as
many as before. -/
structure Hears (S : Surroundings σ) (told : List Telling) (s s' : Session (σ × List Telling)) :
    Prop where
  record : s'.record = s.record ++ told
  audience : ∀ channel name, S.LeaveAlone channel name →
    (s'.watchers channel).count name = (s.watchers channel).count name

/-- All who watch have been told messages, round by round, and those of them that the surroundings
leave alone each time as often as they have been added. -/
structure Informs (S : Surroundings σ) (rounds : List Round) (s s' : Session (σ × List Telling)) :
    Prop where
  hears : s.Hears S (rounds.flatMap Round.tellings) s'
  reached : ∀ r ∈ rounds, ∀ name, S.LeaveAlone r.message.channel name →
    r.watchers.count name = (s.watchers r.message.channel).count name

namespace Hears

variable {S : Surroundings σ} {told told' : List Telling} {s s' s'' : Session (σ × List Telling)}

theorem refl (s : Session (σ × List Telling)) : s.Hears S [] s :=
  ⟨(List.append_nil _).symm, fun _ _ _ => rfl⟩

theorem trans (h : s.Hears S told s') (h' : s'.Hears S told' s'') :
    s.Hears S (told ++ told') s'' where
  record := by rw [h'.record, h.record, List.append_assoc]
  audience channel name alone := (h'.audience channel name alone).trans (h.audience channel name alone)

/-- What touches neither watchers nor the record. -/
theorem of_eq (hw : s'.watchers = s.watchers) (hr : s'.record = s.record) : s.Hears S [] s' where
  record := by rw [hr, List.append_nil]
  audience channel name _ := by rw [hw]

end Hears

namespace Informs

variable {S : Surroundings σ} {rounds rounds' : List Round}
  {s s' s'' : Session (σ × List Telling)}

theorem of_hears (h : s.Hears S [] s') : s.Informs S [] s' := ⟨h, nofun⟩

theorem refl (s : Session (σ × List Telling)) : s.Informs S [] s := of_hears (.refl s)

theorem of_eq (hw : s'.watchers = s.watchers) (hr : s'.record = s.record) : s.Informs S [] s' :=
  of_hears (.of_eq hw hr)

theorem trans (h : s.Informs S rounds s') (h' : s'.Informs S rounds' s'') :
    s.Informs S (rounds ++ rounds') s'' where
  hears := by
    rw [List.flatMap_append]
    exact h.hears.trans h'.hears
  reached r hr name alone := by
    rcases List.mem_append.1 hr with first | second
    · exact h.reached r first name alone
    · exact (h'.reached r second name alone).trans (h.hears.audience _ name alone)

/-- After all have been told, nobody is told anything. -/
theorem andThen (h : s.Informs S rounds s') (last : s'.Informs S [] s'') :
    s.Informs S rounds s'' := by
  have both := h.trans last
  rwa [List.append_nil] at both

/-- The observer hears every message. -/
theorem heard_observer (h : s.Informs S rounds s') :
    s'.heard none = s.heard none ++ rounds.map Round.message := by
  rw [Session.heard, h.hears.record, List.filterMap_append, List.filterMap_flatMap]
  simp only [Round.heard_observer]
  rw [← List.map_eq_flatMap, Session.heard]

/-- What a watcher that is left alone hears of what it watches. -/
theorem heard_watcher {β : Type} {f : Message → Option β} {channel : Channel}
    (hf : ∀ m b, f m = some b → m.channel = channel) (h : s.Informs S rounds s') {name : String}
    (alone : S.LeaveAlone channel name) :
    (s'.heard (some name)).filterMap f = (s.heard (some name)).filterMap f ++
      ((rounds.map Round.message).filterMap f).flatMap
        (List.replicate ((s.watchers channel).count name)) := by
  have reached := h.reached
  rw [Session.heard, h.hears.record, List.filterMap_append, List.filterMap_append, Session.heard,
    List.filterMap_flatMap]
  simp only [Round.heard_watcher]
  congr 1
  clear h
  induction rounds with
  | nil => rfl
  | cons r rest ih =>
    have others := ih fun r' hr => reached r' (List.mem_cons_of_mem r hr)
    rw [List.flatMap_cons, List.filterMap_append, others, List.map_cons, List.filterMap_replicate]
    cases hb : f r.message with
    | none => rw [List.filterMap_cons_none hb, List.nil_append]
    | some b =>
      have heard := hf r.message b hb
      have often := reached r List.mem_cons_self name (heard ▸ alone)
      rw [List.filterMap_cons_some hb, List.flatMap_cons, often, heard]

end Informs

theorem watchers_modifyCurrent (s : Session σ) (f : Context → Context) :
    (s.modifyCurrent f).watchers = s.watchers := by
  funext channel
  unfold modifyCurrent
  cases channel <;> (split <;> rfl)

/-- The watchers on another channel, or with other names, are as many as before. -/
theorem count_subscribe (s : Session σ) {c channel : Channel} {n name : String}
    (h : ¬ (c = channel ∧ n = name)) :
    ((s.subscribe c n).watchers channel).count name = (s.watchers channel).count name := by
  have other : c = channel → (n == name) = false := fun hc => by
    simpa using fun hn => h ⟨hc, hn⟩
  cases c <;> cases channel <;> simp [subscribe, watchers, List.count_singleton, other]

theorem count_unsubscribe (s : Session σ) {c channel : Channel} {n name : String}
    (h : ¬ (c = channel ∧ n = name)) :
    ((s.unsubscribe c n).watchers channel).count name = (s.watchers channel).count name := by
  have other : c = channel → name ≠ n := fun hc hn => h ⟨hc, hn.symm⟩
  cases c <;> cases channel <;>
    first
    | exact List.count_erase_of_ne (other rfl)
    | rfl

end Session

theorem Stage.watchers_alter (g : Stage σ) (change : Context × Edits → Context × Edits) :
    (g.alter change).session.watchers = g.session.watchers := by
  obtain ⟨s, hold⟩ := g
  funext channel
  cases hold with
  | current =>
    have same := congrFun (s.watchers_modifyCurrent fun _ =>
      (change (Stage.game ⟨s, .current⟩, s.edits)).1) channel
    cases channel <;> exact same
  | live => cases channel <;> rfl
  | left c => cases channel <;> rfl

theorem Stage.memory_alter (g : Stage σ) (change : Context × Edits → Context × Edits) :
    (g.alter change).session.memory = g.session.memory := by
  obtain ⟨s, hold⟩ := g
  cases hold with
  | current => exact s.memory_modifyCurrent _
  | live => rfl
  | left c => rfl

namespace Interpreter

variable {i : Interpreter σ}

/-- Watchers that a play leaves alone are as many as before. -/
theorem count_make {channel : Channel} {name : String} {x : Play σ α}
    (hx : x.LeavesAlone channel name) (g : Stage σ) :
    ((i.make x g).2.session.watchers channel).count name =
      (g.session.watchers channel).count name := by
  induction x generalizing g with
  | done a => rfl
  | fail f => rfl
  | consult next ih => exact ih _ (hx _) g
  | remember change next ih => exact ih hx _
  | look next ih => exact ih _ _ (hx _ _) g
  | lookLive next ih => exact ih _ _ (hx _ _) g
  | send e next ih =>
    exact make_send_cases
      (P := fun made => (made.2.session.watchers channel).count name =
        (g.session.watchers channel).count name)
      (ih _ (hx _) _) (ih _ (hx _) _)
  | start next ih => exact ih hx _
  | alter change next ih =>
    refine (ih hx _).trans ?_
    rw [Stage.watchers_alter]
  | subscribe c n next ih => exact (ih hx.2 _).trans (g.session.count_subscribe hx.1)
  | unsubscribe c n next ih => exact (ih hx.2 _).trans (g.session.count_unsubscribe hx.1)

end Interpreter
end TokenGate

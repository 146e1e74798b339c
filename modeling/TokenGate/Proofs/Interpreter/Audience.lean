import TokenGate.Proofs.Interpreter.RuleLogs
import TokenGate.Proofs.Subscription

/-!
# Whom a message reaches

A message reaches the observer and then the watchers of the subscriptions that stand, each once and
in the order in which these were made, up to the first who gives up. So it reaches those whose
subscriptions are kept, as long as subscriptions are only ended when that is due.
-/

namespace TokenGate

open Act

variable {σ α : Type}

/-- A play neither adds nor removes watchers. -/
def Play.Reserved (x : Play σ α) : Prop := ∀ channel name, x.LeavesAlone channel name

/-- What the observer does when it is told a message. -/
def Surroundings.observer (S : Surroundings σ) : Message → Play σ Unit
  | .transition n => S.onTransition n
  | .rule l => S.onRuleLog l

namespace Interpreter

/-- Tells the observer and then all watchers a message. -/
def tell (i : Interpreter σ) : Message → Act (Session σ) Unit
  | .transition n => i.notify n
  | .rule l => i.notifyLog l

variable {i : Interpreter σ}

theorem watchers_make {x : Play σ α} (hx : x.Reserved) (g : Stage σ) :
    (i.make x g).2.session.watchers = g.session.watchers := by
  induction x generalizing g with
  | done a => rfl
  | fail f => rfl
  | consult next ih => exact ih _ (fun channel name => hx channel name _) g
  | remember change next ih => exact ih hx _
  | look next ih => exact ih _ _ (fun channel name => hx channel name _ _) g
  | lookLive next ih => exact ih _ _ (fun channel name => hx channel name _ _) g
  | send e next ih =>
    have reserved (r : Response) : (next r).Reserved := fun channel name => hx channel name r
    exact make_send_cases (P := fun made => made.2.session.watchers = g.session.watchers)
      (ih _ (reserved _) _) (ih _ (reserved _) _)
  | start next ih => exact ih hx _
  | alter change next ih =>
    refine (ih hx _).trans ?_
    rw [Stage.watchers_alter]
  | subscribe c n next ih => exact absurd ⟨rfl, rfl⟩ (hx c n).1
  | unsubscribe c n next ih => exact absurd ⟨rfl, rfl⟩ (hx c n).1

/-- Somebody is told something before anything else, and nobody is told anything meanwhile. -/
theorem record_perform (x : Play σ Unit) (hearer : Option String) (m : Message)
    (s : Session (σ × List Telling)) :
    (i.recording.perform .live (x.hearing hearer m)).Ensures s fun _ s' =>
      s'.record = s.record ++ [⟨hearer, m⟩] :=
  record_make x
    ⟨{ s with memory := (s.memory.1, s.memory.2 ++ [⟨hearer, m⟩]) }, .live⟩

theorem watchers_perform {x : Play σ Unit} (hx : x.Reserved) (hearer : Option String)
    (m : Message) (s : Session (σ × List Telling)) :
    (i.recording.perform .live (x.hearing hearer m)).Ensures s fun _ s' =>
      s'.watchers = s.watchers := by
  let told : Session (σ × List Telling) :=
    { s with memory := (s.memory.1, s.memory.2 ++ [⟨hearer, m⟩]) }
  have same := watchers_make (i := i) hx (Stage.mapMemory Prod.fst ⟨told, .live⟩)
  rw [← mapMemory_make] at same
  funext channel
  cases channel
  · exact congrFun same .transitions
  · exact congrFun same .logs

/-- Watchers are told one after another, up to the first who gives up. -/
theorem record_performAll (watcher : String → Play σ Unit) (m : Message) (names : List String)
    (s : Session (σ × List Telling)) :
    (i.recording.performAll (fun name => (watcher name).hearing (some name) m) names).Ensures s
      fun o s' => ∃ told, told <+: names.map (fun name => ⟨some name, m⟩) ∧
        s'.record = s.record ++ told ∧
        (o = .ok () → told = names.map fun name => ⟨some name, m⟩) := by
  induction names generalizing s with
  | nil => exact ⟨[], List.prefix_refl _, (List.append_nil _).symm, fun _ => rfl⟩
  | cons name rest ih =>
    refine Ensures.bind (record_perform (watcher name) (some name) m s) ?_ ?_
    · intro _ s₁ first
      apply (ih s₁).mono
      rintro o s' ⟨told, part, others, all⟩
      refine ⟨⟨some name, m⟩ :: told, ?_, ?_, ?_⟩
      · rw [List.map_cons, List.prefix_cons_inj]
        exact part
      · rw [others, first, List.append_assoc]
        rfl
      · intro done
        rw [all done, List.map_cons]
    · intro f s₁ first
      refine ⟨[⟨some name, m⟩], ?_, first, ?_⟩
      · rw [List.map_cons, List.prefix_cons_inj]
        exact List.nil_prefix
      · intro done
        cases done

/-- A message reaches the observer and those who watch, up to the first who gives up. -/
theorem record_tell {m : Message} (reserved : (i.surroundings.observer m).Reserved)
    (s : Session (σ × List Telling)) :
    (i.recording.tell m).Ensures s fun o s' =>
      ∃ told, told <+: Round.tellings ⟨m, s.watchers m.channel⟩ ∧ s'.record = s.record ++ told ∧
        (o = .ok () → told = Round.tellings ⟨m, s.watchers m.channel⟩) := by
  have reaches (watcher : String → Play σ Unit) :
      (i.recording.perform .live ((i.surroundings.observer m).hearing none m) >>= fun _ =>
        Act.get >>= fun s => i.recording.performAll
          (fun name => (watcher name).hearing (some name) m) (s.watchers m.channel)).Ensures s
      fun o s' => ∃ told, told <+: Round.tellings ⟨m, s.watchers m.channel⟩ ∧
        s'.record = s.record ++ told ∧
        (o = .ok () → told = Round.tellings ⟨m, s.watchers m.channel⟩) := by
    have observed : (i.recording.perform .live
        ((i.surroundings.observer m).hearing none m)).Ensures s fun _ s' =>
          s'.record = s.record ++ [⟨none, m⟩] ∧ s'.watchers = s.watchers :=
      ⟨record_perform _ none m s, watchers_perform reserved none m s⟩
    refine Ensures.bind observed ?_ ?_
    · rintro _ s₁ ⟨first, same⟩
      apply ensures_get_bind
      rw [same]
      apply (record_performAll watcher m (s.watchers m.channel) s₁).mono
      rintro o s' ⟨told, part, others, all⟩
      refine ⟨⟨none, m⟩ :: told, ?_, ?_, ?_⟩
      · rw [Round.tellings, List.prefix_cons_inj]
        exact part
      · rw [others, first, List.append_assoc]
        rfl
      · intro done
        rw [all done, Round.tellings]
    · rintro f s₁ ⟨first, -⟩
      refine ⟨[⟨none, m⟩], ?_, first, ?_⟩
      · rw [Round.tellings, List.prefix_cons_inj]
        exact List.nil_prefix
      · intro done
        cases done
  cases m with
  | transition n => exact reaches fun name => i.surroundings.transitionWatcher name n
  | rule l => exact reaches fun name => i.surroundings.logWatcher name l

end Interpreter

namespace Subscription

open Interpreter

/-- After any calls, a message reaches the observer and then the watchers of the subscriptions that
stand, each once and in the order in which these were made, up to the first who gives up. Of those
with one watcher the latest stand. Those stand all the time that are kept, exactly if subscriptions
are only ended when that is due. If no subscription is ended twice, as many with a watcher stand as
are kept. -/
theorem reached_of_calls (i : Interpreter σ) {s : Session σ}
    (bare : ∀ channel, s.watchers channel = []) (calls : List SubscriptionCall) :
    let after := ((Subscribed.none s).performAll calls).session
    Numbered (made calls) (standing calls) ∧
      (∀ n m x, n < m → (n, x) ∈ standing calls → (made calls)[m]? = some x →
        (m, x) ∈ standing calls) ∧
      (∀ m, (i.surroundings.observer m).Reserved →
        let reached := Round.tellings ⟨m, watchersOf m.channel (standing calls)⟩
        (i.recording.tell m after.unrecorded).2.record <+: reached ∧
          ((i.recording.tell m after.unrecorded).1 = .ok () →
            (i.recording.tell m after.unrecorded).2.record = reached)) ∧
      ((∀ before, before <+: calls → standing before = kept before) ↔ Due calls) ∧
      (Once calls →
        ∀ x, ((standing calls).map Prod.snd).count x = ((kept calls).map Prod.snd).count x) := by
  intro after
  refine ⟨numbered_standing calls, fun _ _ _ => latest_standing, ?_, standing_eq_kept_iff calls,
    count_standing⟩
  intro m reserved reached
  have watching : after.unrecorded.watchers m.channel = watchersOf m.channel (standing calls) := by
    rw [← watchers_performAll bare]
    cases m <;> rfl
  obtain ⟨told, part, record, all⟩ := record_tell (i := i) reserved after.unrecorded
  rw [watching] at part all
  rw [show after.unrecorded.record = [] from rfl, List.nil_append] at record
  rw [record]
  exact ⟨part, all⟩

/-- A scribe who subscribes twice, and a clerk in between. -/
def scribes : List SubscriptionCall :=
  [.make ⟨.logs, "scribe"⟩, .make ⟨.logs, "clerk"⟩, .make ⟨.logs, "scribe"⟩]

/-- What those who watch are told when gold has been dug. -/
def digging : Message := .rule ⟨.trigger, ⟨"TRIGGER_DIG", .null⟩, [("gold", 1)], "fired"⟩

/-- The scribe ends the second subscription, and is told after the clerk from then on. -/
theorem gate_reached_of_calls :
    (∀ channel, (Interpreter.gate.start (.idle 0)).watchers channel = []) ∧
      (Interpreter.gate.surroundings.observer digging).Reserved ∧
      let after := ((Subscribed.none (Interpreter.gate.start (.idle 0))).performAll
        (scribes ++ [.finish 2])).session
      (Interpreter.gate.recording.tell digging after.unrecorded).2.record =
        Round.tellings ⟨digging, ["clerk", "scribe"]⟩ ∧
      watchersOf .logs (kept (scribes ++ [.finish 2])) = ["scribe", "clerk"] := by
  have bare : ∀ channel, (Interpreter.gate.start (.idle 0)).watchers channel = [] := by
    intro channel
    cases channel <;> rfl
  have reserved : (Interpreter.gate.surroundings.observer digging).Reserved := fun _ _ => trivial
  obtain ⟨-, -, reached, -⟩ := reached_of_calls .gate bare (scribes ++ [.finish 2])
  exact ⟨bare, reserved, (reached digging reserved).2 rfl, by decide⟩

/-- It is not so that a message reaches those whose subscriptions are kept: who ends a subscription
twice may end another one as well. -/
theorem not_reached_if_kept :
    ¬ ∀ calls m,
      let after := ((Subscribed.none (Interpreter.gate.start (.idle 0))).performAll calls).session
      (Interpreter.gate.recording.tell m after.unrecorded).2.record =
        Round.tellings ⟨m, watchersOf m.channel (kept calls)⟩ := by
  intro always
  have twice := congrArg List.length
    (always [.make ⟨.logs, "scribe"⟩, .make ⟨.logs, "scribe"⟩, .finish 1, .finish 1] digging)
  exact absurd twice (by decide)

end Subscription
end TokenGate

import TokenGate.Proofs.Interpreter.Announcement
import TokenGate.Proofs.Interpreter.MirrorRun

/-!
# Chronicles of runs

A chronicle has one chapter for every event that is dispatched in the course of a run, with the
answer to it and what those who watch have been told meanwhile. What is true of every dispatch is
found in every chapter, and what somebody has heard in the end is what all chapters tell, in order.
-/

namespace TokenGate

open Act

variable {σ τ : Type}

/-- Events are dispatched one after another, each with a chapter; others come to wait and go in
between. -/
inductive Chronicle (step : Event → Session τ → Chapter → Session τ → Prop) :
    Session τ → List Chapter → Session τ → Prop where
  | done (s : Session τ) : Chronicle step s [] s
  | between {s s' : Session τ} {chapters : List Chapter} (queue : List Event)
      (dispatching : Bool)
      (rest : Chronicle step { s with queue := queue, dispatching := dispatching } chapters s') :
      Chronicle step s chapters s'
  | dispatched {e : Event} {s s₁ s' : Session τ} {c : Chapter} {chapters : List Chapter}
      (first : step e s c s₁) (rest : Chronicle step s₁ chapters s') :
      Chronicle step s (c :: chapters) s'

/-- The answers in chapters; an event whose handling fails has none. -/
def Chapter.answers (chapters : List Chapter) : List Response :=
  chapters.filterMap fun c => c.answer.toOption

namespace Chronicle

variable {step : Event → Session τ → Chapter → Session τ → Prop} {s s' s'' : Session τ}
  {chapters chapters' : List Chapter}

theorem append (h : Chronicle step s chapters s') (h' : Chronicle step s' chapters' s'') :
    Chronicle step s (chapters ++ chapters') s'' := by
  induction h with
  | done s => exact h'
  | between queue dispatching _ ih => exact .between queue dispatching (ih h')
  | dispatched first _ ih => exact .dispatched first (ih h')

theorem single {e : Event} {c : Chapter} (h : step e s c s') : Chronicle step s [c] s' :=
  .dispatched h (.done s')

/-- If no dispatch fails, every chapter has an answer. -/
theorem map_answer (answered : ∀ {e s c s'}, step e s c s' → ∃ r, c.answer = .ok r)
    (h : Chronicle step s chapters s') :
    chapters.map Chapter.answer = (Chapter.answers chapters).map .ok := by
  induction h with
  | done s => rfl
  | between queue dispatching _ ih => exact ih
  | @dispatched _ _ _ _ c chapters first _ ih =>
    obtain ⟨r, hr⟩ := answered first
    have others : Chapter.answers (c :: chapters) = r :: Chapter.answers chapters := by
      rw [Chapter.answers, List.filterMap_cons, hr]
      rfl
    rw [List.map_cons, others, List.map_cons, ih, hr]

/-- Where every dispatch has a chapter, a run has a chronicle. -/
theorem of_sendAllLog {i : Interpreter τ} {J : Session τ → Prop}
    (between : ∀ {s}, J s → ∀ queue dispatching,
      J { s with queue := queue, dispatching := dispatching })
    (each : ∀ e s, J s → (i.dispatch e).Ensures s fun o s' =>
      J s' ∧ ∃ rounds, step e s ⟨o, rounds⟩ s')
    {fuel : Nat} {es : List Event} {log : List Response} {answers : List (Except Fault Response)}
    (hs : J s) (hrun : i.sendAllLog fuel es s = some (log, answers, s')) :
    ∃ chapters, Chronicle step s chapters s' ∧ Chapter.answers chapters = log := by
  let Kept (s : Session τ) (log : List Response) (s' : Session τ) : Prop :=
    J s → J s' ∧ ∃ chapters, Chronicle step s chapters s' ∧ Chapter.answers chapters = log
  have account : i.Account Kept := by
    refine ⟨fun s hs => ?_, ?_, fun s queue dispatching hs => ?_, ?_, ?_⟩
    · exact ⟨hs, [], .done s, rfl⟩
    · intro s s' s'' log log' first second hs
      obtain ⟨hs', chapters, chronicle, rfl⟩ := first hs
      obtain ⟨hs'', chapters', chronicle', rfl⟩ := second hs'
      exact ⟨hs'', _, chronicle.append chronicle', List.filterMap_append⟩
    · exact ⟨between hs queue dispatching, [], .between queue dispatching (.done _), rfl⟩
    · intro e s r s' hd hs
      have dispatched := each e s hs
      rw [Ensures, hd] at dispatched
      obtain ⟨hs', rounds, told⟩ := dispatched
      exact ⟨hs', _, single told, rfl⟩
    · intro e s f s' hd hs
      have dispatched := each e s hs
      rw [Ensures, hd] at dispatched
      obtain ⟨hs', rounds, told⟩ := dispatched
      exact ⟨hs', _, single told, rfl⟩
  exact (account.sendAllLog hrun hs).2

end Chronicle

/-- In the course of a run all have been told what its chapters tell. -/
theorem Chronicle.informs {S : Surroundings σ}
    {step : Event → Session (σ × List Telling) → Chapter → Session (σ × List Telling) → Prop}
    (told : ∀ {e s c s'}, step e s c s' → s.Informs S c.rounds s')
    {s s' : Session (σ × List Telling)} {chapters : List Chapter}
    (h : Chronicle step s chapters s') : s.Informs S (chapters.flatMap Chapter.rounds) s' := by
  induction h with
  | done s => exact .refl s
  | @between s _ _ queue dispatching _ ih =>
    have unheard : s.Informs S [] { s with queue := queue, dispatching := dispatching } :=
      .of_eq (funext fun channel => by cases channel <;> rfl) rfl
    exact unheard.trans ih
  | dispatched first _ ih =>
    rw [List.flatMap_cons]
    exact (told first).trans ih

namespace Session

variable {S : Surroundings σ} {s : Session σ} {s' : Session (σ × List Telling)}
  {rounds : List Round}

theorem notices_observer (h : s.unrecorded.Informs S rounds s') :
    s'.notices none = rounds.filterMap fun r => r.message.notice? := by
  rw [notices, h.heard_observer]
  exact List.filterMap_map

theorem ruleLogs_observer (h : s.unrecorded.Informs S rounds s') :
    s'.ruleLogs none = rounds.filterMap fun r => r.message.ruleLog? := by
  rw [ruleLogs, h.heard_observer]
  exact List.filterMap_map

/-- A watcher that is left alone is told of every transition as often as it has been added. -/
theorem notices_watcher (h : s.unrecorded.Informs S rounds s') {name : String}
    (alone : S.LeaveAlone .transitions name) :
    s'.notices (some name) = (rounds.filterMap fun r => r.message.notice?).flatMap
      (List.replicate (s.transitionWatchers.count name)) := by
  have heard := h.heard_watcher (fun _ _ => Message.channel_of_notice?) alone
  rw [List.filterMap_map] at heard
  exact heard

theorem ruleLogs_watcher (h : s.unrecorded.Informs S rounds s') {name : String}
    (alone : S.LeaveAlone .logs name) :
    s'.ruleLogs (some name) = (rounds.filterMap fun r => r.message.ruleLog?).flatMap
      (List.replicate (s.logWatchers.count name)) := by
  have heard := h.heard_watcher (fun _ _ => Message.channel_of_ruleLog?) alone
  rw [List.filterMap_map] at heard
  exact heard

end Session

namespace Interpreter

variable {i : Interpreter σ}

theorem keepsSending_mapMemory (f : σ → τ) : KeepsSending (Session.mapMemory f) fun _ => True where
  queue _ := rfl
  waiting _ _ _ := ⟨rfl, trivial⟩
  live _ := rfl
  dispatching _ := rfl
  turned _ _ _ := ⟨rfl, trivial⟩

/-- With a record, a run has the same answers and leads to the same session. -/
theorem recording_sendAllLog {fuel : Nat} {es : List Event} {s s' : Session σ}
    {log : List Response} {answers : List (Except Fault Response)}
    (hrun : i.sendAllLog fuel es s = some (log, answers, s')) :
    ∃ r', i.recording.sendAllLog fuel es s.unrecorded = some (log, answers, r') ∧
      r'.mapMemory Prod.fst = s' := by
  have follows := sendAllLog_mirrors i.recording_follows.dispatch_mirrors
    (keepsSending_mapMemory Prod.fst) fuel es (s := s.unrecorded) trivial
  have unchanged : s.unrecorded.mapMemory Prod.fst = s := rfl
  rw [unchanged, hrun] at follows
  obtain ⟨⟨log', answers', r'⟩, hrecorded, heq⟩ := Option.map_eq_some_iff.1 follows.symm
  cases heq
  exact ⟨r', hrecorded, rfl⟩

end Interpreter
end TokenGate

import TokenGate.Session

/-!
# Plays with and without their events

A play can be told again without the events that it sends: what it learns from an answer is what
it would have learned had the event been sent. It can also be told with notes on the events that
it sends, the answers, and the game before and after. Either way, all surroundings can be told
again.
-/

namespace TokenGate

variable {σ τ α : Type}

/-- An event that is sent while another is being handled, with its answer, the game before it, and
the game after it. -/
structure Nested where
  event : Event
  answer : Response
  before : Context × Edits
  after : Context × Edits

namespace Play

/-- The play with its events kept, or else without them. -/
def relay (keep : Bool) : Play σ α → Play σ α
  | done a => done a
  | fail f => fail f
  | consult next => consult fun m => relay keep (next m)
  | remember change next => remember change (relay keep next)
  | look next => look fun c s => relay keep (next c s)
  | lookLive next => lookLive fun c s => relay keep (next c s)
  | send e next =>
      if keep then send e fun r => relay keep (next r)
      else look fun c _ => relay keep (next (.deferral e c.state.text))
  | start next => start (relay keep next)
  | alter change next => alter change (relay keep next)
  | subscribe c n next => subscribe c n (relay keep next)
  | unsubscribe c n next => unsubscribe c n (relay keep next)

/-- The play with notes on its events. -/
def noting : Play σ α → Play (σ × List Nested) α
  | done a => done a
  | fail f => fail f
  | consult next => consult fun m => noting (next m.1)
  | remember change next => remember (fun m => (change m.1, m.2)) (noting next)
  | look next => look fun c s => noting (next c s)
  | lookLive next => lookLive fun c s => noting (next c s)
  | send e next =>
      look fun c s => send e fun r => look fun c' s' =>
        remember (fun m => (m.1, m.2 ++ [⟨e, r, (c, s), (c', s')⟩])) (noting (next r))
  | start next => start (noting next)
  | alter change next => alter change (noting next)
  | subscribe c n next => subscribe c n (noting next)
  | unsubscribe c n next => unsubscribe c n (noting next)

@[simp] theorem relay_true (x : Play σ α) : x.relay true = x := by
  induction x with
  | done a => rfl
  | fail f => rfl
  | consult next ih => exact congrArg _ (funext ih)
  | remember change next ih => exact congrArg _ ih
  | look next ih => exact congrArg _ (funext fun c => funext fun s => ih c s)
  | lookLive next ih => exact congrArg _ (funext fun c => funext fun s => ih c s)
  | send e next ih => exact congrArg _ (funext ih)
  | start next ih => exact congrArg _ ih
  | alter change next ih => exact congrArg _ ih
  | subscribe c n next ih => exact congrArg _ ih
  | unsubscribe c n next ih => exact congrArg _ ih

end Play

/-- A table with a function applied to its values. -/
def Table.map {β : Type} (f : α → β) (t : Table α) : Table β where
  entries := t.entries.map fun e => (e.1, f e.2)
  nodup := by
    have : Entries.keys (t.entries.map fun e => (e.1, f e.2)) = Entries.keys t.entries := by
      simp only [Entries.keys, List.map_map]
      rfl
    rw [this]
    exact t.nodup

theorem Table.get?_map {β : Type} (f : α → β) (t : Table α) (key : String) :
    (t.map f).get? key = (t.get? key).map f := by
  simp only [Table.get?, Table.map]
  induction t.entries with
  | nil => rfl
  | cons e rest ih =>
    simp only [List.map_cons, Entries.get?]
    split
    · rfl
    · exact ih

/-- An effect told again. -/
def EffectHandler.tell (play : Play σ Unit → Play τ Unit) : EffectHandler σ → EffectHandler τ
  | setFlag => setFlag
  | removePiece => removePiece
  | custom x => custom fun payload => play (x payload)

namespace Surroundings

/-- The surroundings with everything they do told again. -/
def tell (S : Surroundings σ) (log : Record → τ → τ) (play : (α : Type) → Play σ α → Play τ α) :
    Surroundings τ where
  log := log
  effects := S.effects.map (.tell (play Unit))
  predicate key e := play Value (S.predicate key e)
  onTransition n := play Unit (S.onTransition n)
  onRuleLog l := play Unit (S.onRuleLog l)
  transitionWatcher name n := play Unit (S.transitionWatcher name n)
  logWatcher name l := play Unit (S.logWatcher name l)

end Surroundings

namespace Interpreter

/-- The interpreter in surroundings whose events are kept, or else left out. -/
def relay (i : Interpreter σ) (keep : Bool) : Interpreter σ where
  automaton := i.automaton
  config := i.config
  surroundings := i.surroundings.tell i.surroundings.log fun _ => Play.relay keep

/-- The interpreter in surroundings without the events that they send. -/
abbrev muted (i : Interpreter σ) : Interpreter σ := i.relay false

/-- The interpreter in surroundings that take notes on the events that they send. -/
def noting (i : Interpreter σ) : Interpreter (σ × List Nested) where
  automaton := i.automaton
  config := i.config
  surroundings :=
    i.surroundings.tell (fun r m => (i.surroundings.log r m.1, m.2)) fun _ => Play.noting

@[simp] theorem relay_true (i : Interpreter σ) : i.relay true = i := by
  obtain ⟨automaton, config, log, effects, predicate, onTransition, onRuleLog, watcher, logWatcher⟩ :=
    i
  have same : effects.map (.tell (Play.relay true)) = effects := by
    have handler (h : EffectHandler σ) : h.tell (Play.relay true) = h := by
      cases h <;> simp [EffectHandler.tell]
    apply Table.ext
    simp [Table.map, handler]
  simp [relay, Surroundings.tell, same]

end Interpreter
end TokenGate

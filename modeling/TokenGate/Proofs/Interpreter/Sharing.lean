import TokenGate.Proofs.Data.Copy
import TokenGate.Proofs.Interpreter.Invariants
import TokenGate.Proofs.Interpreter.Reachable
import TokenGate.Proofs.Play.Restart
import TokenGate.Proofs.Result

/-!
# What games share with others

A game holds lists that came with events, and an effect that takes a piece from such a list takes
it from the event as well, wherever the event is kept: in the history, and in snapshots that were
made before. An event may also hold lists of the game, or all the data of the game. Only the data of
games is set, and only lists that a game has as the rosters of its pieces are struck from, be they
its own or lent by an event. Whoever holds nothing of that kind, event or snapshot, stays as it is.
-/

namespace TokenGate

open Act

variable {σ α : Type} {a : Automaton} {lent : Cell → Prop} {base : Edits}

/-- Everything is permitted, new starts too, but a change of the game's data or an edit. -/
def Permit.sparing : Permit where
  fails _ := True
  sends := True
  starts := True
  changes v w := w.1.game = v.1.game ∧ w.2 = v.2
  refl _ := ⟨rfl, rfl⟩
  trans h₁ h₂ := ⟨h₂.1.trans h₁.1, h₂.2.trans h₁.2⟩

/-- A list is, or may come to be, the roster of some side. -/
inductive Data.IsRoster (mark : Mark) : Data → Prop where
  | held {sides : List (String × Data)} {side : String} {items : List Data}
      (roster : Entries.get? side sides = some (.list mark items)) : IsRoster mark (.object sides)
  /-- Whatever is set in the data of a game is among its entries then. -/
  | game (n : Nat) (fields : List (String × Data)) : IsRoster mark (.game n fields)

namespace Automaton

/-- There is an action that removes pieces. -/
def Removes (a : Automaton) : Prop :=
  ∃ r : Action, a.Binds (.action r) ∧ r.effectName = "remove_piece"

/-- An event has something stored in the game. -/
def Stores (a : Automaton) (e : Event) : Prop :=
  ∃ r : Action, a.BindsTo e.type (.action r) ∧ r.effectName = "set_flag"

/-- An event makes something editable: an event that has something stored does so to the data of the
game. If there is an action that removes pieces, what it has stored as the pieces of the game lends
its rosters. -/
inductive Lends (a : Automaton) (e : Event) : Cell → Prop where
  | data (stores : a.Stores e) (n : Nat) : Lends a e (.game n)
  | roster {fields : List (String × Data)} {d : Data} {mark : Mark} (stores : a.Stores e)
      (removes : a.Removes) (payload : e.payload = .object fields)
      (flag : Data.field fields "flag" = .str "pieces")
      (value : Entries.get? "value" fields = some d) (roster : d.IsRoster mark) :
      Lends a e (.list mark)
  /-- If the payload is the data of a game, what is stored depends on what has been set in it. -/
  | unknown {n : Nat} {fields : List (String × Data)} {mark : Mark} (stores : a.Stores e)
      (removes : a.Removes) (payload : e.payload = .game n fields) : Lends a e (.list mark)

/-- An event lends nothing but some things. -/
def LendsOnly (a : Automaton) (lent : Cell → Prop) (e : Event) : Prop := ∀ c, a.Lends e c → lent c

/-- The list is a roster with which a game begins, and pieces can be removed. -/
def Owns (a : Automaton) (mark : Mark) : Prop :=
  a.Removes ∧ ∃ n d, Entries.get? "pieces" (Data.ownFields n a.definition.initial) = some d ∧
    d.IsRoster mark

end Automaton

/-- What holds nothing that has been lent. -/
def Event.Aloof (lent : Cell → Prop) (e : Event) : Prop := ∀ c ∈ e.payload.cells, ¬ lent c

structure Snapshot.Aloof (lent : Cell → Prop) (n : Snapshot) : Prop where
  history : ∀ e ∈ n.history, e.Aloof lent
  game : ∀ c ∈ n.game.cells, ¬ lent c

/-- If pieces can be removed at all, the rosters of what is kept as the pieces have been lent. -/
def Data.Borrowed (a : Automaton) (lent : Cell → Prop) (d : Data) : Prop :=
  a.Removes → ∀ mark, d.IsRoster mark → lent (.list mark)

/-- The rosters with which the game began have been lent. -/
def Context.Borrows (a : Automaton) (lent : Cell → Prop) (c : Context) : Prop :=
  ∀ d, Entries.get? "pieces" c.game = some d → d.Borrowed a lent

/-- An edit is made to something that has been lent, and what it stores as pieces has been lent. -/
structure Edit.Borrows (a : Automaton) (lent : Cell → Prop) (edit : Edit) : Prop where
  cell : lent edit.cell
  stored : ∀ {n d}, edit = .put n "pieces" d → d.Borrowed a lent

theorem Context.Borrows.of_eq {c c' : Context} (h : c.Borrows a lent) (same : c'.game = c.game) :
    c'.Borrows a lent := by
  unfold Borrows
  rw [same]
  exact h

/-- What an event has the game store is none but what it lends. -/
theorem Edit.Borrows.setFlag {s : Edits} {c : Context} {e : Event} {edit : Edit}
    (he : a.LendsOnly lent e) (stores : a.Stores e)
    (h : Effect.setFlag s c e.payload = .ok edit) : edit.Borrows a lent := by
  obtain ⟨fields, held, -, rfl⟩ := Effect.setFlag_eq_ok_iff.1 h
  refine ⟨he _ (.data stores c.number), fun {n d} same removes mark roster => ?_⟩
  obtain ⟨-, flag, hd⟩ := Edit.put.inj same
  cases hp : e.payload with
  | game n ds => exact he _ (.unknown stores removes hp)
  | object ds =>
    obtain rfl : ds = fields := Option.some.inj ((congrArg s.entries? hp).symm.trans held)
    have named := Data.eq_str_of_read (Value.eq_str_of_shown flag)
    cases value : Entries.get? "value" ds with
    | none =>
      rw [value] at hd
      cases hd
      cases roster
    | some d' =>
      rw [value] at hd
      cases hd
      exact he _ (.roster stores removes hp named value roster)
  | _ => cases (congrArg s.entries? hp).symm.trans held

/-- A piece is struck from a roster that has been lent. -/
theorem Edit.Borrows.removePiece {s : Edits} {c : Context} {payload : Data} {edit : Edit}
    (hc : c.Borrows a lent) (hs : ∀ x ∈ s, x.Borrows a lent) (removes : a.Removes)
    (h : Effect.removePiece s c payload = .ok edit) : edit.Borrows a lent := by
  obtain ⟨fields, sides, side, mark, items, -, address, n, rfl⟩ :=
    Effect.addresses_of_removePiece h
  refine ⟨?_, nofun⟩
  obtain ⟨pieces, stored, held⟩ := address.pieces
  have borrowed : pieces.Borrowed a lent := by
    rcases Entries.mem_or_get?_of_putAll stored with later | begun
    · exact (hs _ (Edits.mem_stored.1 later)).stored rfl
    · exact hc pieces begun
  refine borrowed removes mark ?_
  cases pieces with
  | object ds =>
    cases held
    exact .held address.roster
  | game n ds => exact .game n ds
  | _ => cases held

namespace Session

/-- Nothing has been edited but what has been lent, and what had been done before stands; no game
holds other rosters, and no event that waits lends others. -/
structure Confined (a : Automaton) (lent : Cell → Prop) (base : Edits) (s : Session σ) : Prop where
  live : ∀ c, s.live = some c → c.Borrows a lent
  detached : ∀ c, s.detached = some c → c.Borrows a lent
  edits : ∀ x ∈ s.edits, x.Borrows a lent
  grown : base <+: s.edits
  queue : ∀ e ∈ s.queue, a.LendsOnly lent e

namespace Confined

variable {s s' : Session σ}

theorem of_eq (h : s.Confined a lent base) (hl : s'.live = s.live) (hd : s'.detached = s.detached)
    (hs : s'.edits = s.edits) (hq : s'.queue = s.queue) : s'.Confined a lent base where
  live c hc := h.live c (hl ▸ hc)
  detached c hc := h.detached c (hd ▸ hc)
  edits := hs ▸ h.edits
  grown := hs ▸ h.grown
  queue := hq ▸ h.queue

theorem current (h : s.Confined a lent base) : s.current.Borrows a lent := by
  unfold Session.current
  cases hd : s.detached with
  | some c => exact h.detached c hd
  | none =>
    cases hl : s.live with
    | some c => exact h.live c hl
    | none => exact nofun

theorem modifyLive (h : s.Confined a lent base) {f : Context → Context}
    (hf : ∀ c, s.live = some c → (f c).Borrows a lent) : (s.modifyLive f).Confined a lent base where
  live c hc := by
    obtain ⟨c', hc', rfl⟩ := Option.map_eq_some_iff.1 hc
    exact hf c' hc'
  detached := h.detached
  edits := h.edits
  grown := h.grown
  queue := h.queue

theorem modifyCurrent (h : s.Confined a lent base) {f : Context → Context}
    (hf : (f s.current).Borrows a lent) : (s.modifyCurrent f).Confined a lent base := by
  unfold Session.current at hf
  unfold Session.modifyCurrent
  cases hd : s.detached with
  | some old =>
    rw [hd] at hf
    refine ⟨h.live, fun c hc => ?_, h.edits, h.grown, h.queue⟩
    cases hc
    exact hf
  | none =>
    refine h.modifyLive fun c hc => ?_
    rw [hd, hc] at hf
    exact hf

theorem edit (h : s.Confined a lent base) {edit : Edit} (he : edit.Borrows a lent) :
    (s.edit edit).Confined a lent base where
  live := h.live
  detached := h.detached
  edits := List.forall_mem_append.2 ⟨h.edits, List.forall_mem_singleton.2 he⟩
  grown := h.grown.trans (List.prefix_append _ _)
  queue := h.queue

theorem restart (h : s.Confined a lent base) (own : ∀ mark, a.Owns mark → lent (.list mark)) :
    (s.restart a).Confined a lent base where
  live c hc := by
    cases hc
    intro d hd removes mark roster
    exact own mark ⟨removes, _, d, hd, roster⟩
  detached c hc := by
    cases hd : s.detached with
    | some old =>
      refine h.detached c ?_
      simpa [Session.restart, Session.startAs, hd] using hc
    | none =>
      refine h.live c ?_
      simpa [Session.restart, Session.startAs, hd] using hc
  edits := h.edits
  grown := h.grown
  queue e he := by cases he

/-- What has been done so far may be what is counted from. -/
theorem rebase (h : s.Confined a lent base) : s.Confined a lent s.edits :=
  ⟨h.live, h.detached, h.edits, List.prefix_rfl, h.queue⟩

end Confined

end Session

/-- A play that spares the data of its game leaves confined what is. -/
theorem Stage.confined_alter {g : Stage σ} (h : g.session.Confined a lent base)
    {change : Context × Edits → Context × Edits}
    (hc : ∀ w, Permit.sparing.changes w (change w)) :
    (g.alter change).session.Confined a lent base := by
  obtain ⟨game, edits⟩ := hc (g.game, g.session.edits)
  obtain ⟨s, hold⟩ := g
  -- Only what a game began with matters, and that is the same as before.
  cases hold with
  | current =>
    refine (h.modifyCurrent (h.current.of_eq game)).of_eq rfl rfl ?_ rfl
    exact edits.trans (Session.edits_modifyCurrent _ _).symm
  | live =>
    refine (h.modifyLive fun c (hlive : s.live = some c) => ?_).of_eq rfl rfl edits rfl
    have same : Stage.game ⟨s, .live⟩ = c := by simp [Stage.game, hlive]
    exact (h.live c hlive).of_eq (same ▸ game)
  | left c => exact h.of_eq rfl rfl edits rfl

/-- All events that a play sends are of some kind. -/
def Play.Sends (P : Event → Prop) : Play σ α → Prop
  | .done _ => True
  | .fail _ => True
  | .consult next => ∀ m, (next m).Sends P
  | .remember _ next => next.Sends P
  | .look next => ∀ c s, (next c s).Sends P
  | .lookLive next => ∀ c s, (next c s).Sends P
  | .send e next => P e ∧ ∀ r, (next r).Sends P
  | .start next => next.Sends P
  | .alter _ next => next.Sends P
  | .subscribe _ _ next => next.Sends P
  | .unsubscribe _ _ next => next.Sends P

/-- All events that those who watch or judge send are of some kind. -/
structure Surroundings.Sends (S : Surroundings σ) (P : Event → Prop) : Prop where
  predicate : ∀ key e, (S.predicate key e).Sends P
  onTransition : ∀ n, (S.onTransition n).Sends P
  onRuleLog : ∀ l, (S.onRuleLog l).Sends P
  transitionWatcher : ∀ name n, (S.transitionWatcher name n).Sends P
  logWatcher : ∀ name l, (S.logWatcher name l).Sends P

/-- The usual effects are the built-in ones under their names. -/
theorem EffectHandler.usual_cases {name : String} {handler : EffectHandler σ}
    (h : usual.get? name = some handler) :
    (name = "set_flag" ∧ handler = .setFlag) ∨ (name = "remove_piece" ∧ handler = .removePiece) := by
  simp only [usual, Table.ofList, List.foldl_cons, List.foldl_nil, Table.get?_put,
    Table.get?_empty] at h
  split at h
  · rename_i removes
    cases h
    exact .inr ⟨removes.symm, rfl⟩
  · split at h
    · rename_i sets
      cases h
      exact .inl ⟨sets.symm, rfl⟩
    · cases h

namespace Interpreter

variable {i : Interpreter σ}

theorem make_confined (own : ∀ mark, i.automaton.Owns mark → lent (.list mark)) {x : Play σ α}
    (hx : x.Within .sparing) (sends : x.Sends (i.automaton.LendsOnly lent)) :
    (i.make x).Keeps (fun g => g.session.Confined i.automaton lent base) fun _ => True := by
  intro g hg
  induction x generalizing g with
  | done a => exact ⟨hg, nofun⟩
  | fail f => exact ⟨hg, fun _ _ => trivial⟩
  | consult next ih => exact ih _ (hx _) (sends _) g hg
  | remember change next ih => exact ih hx sends _ (hg.of_eq rfl rfl rfl rfl)
  | look next ih => exact ih _ _ (hx _ _) (sends _ _) g hg
  | lookLive next ih => exact ih _ _ (hx _ _) (sends _ _) g hg
  | send e next ih =>
    refine make_send_cases
      (P := fun made => made.2.session.Confined i.automaton lent base ∧
        ∀ f, made.1 = .error f → True) ?_ (ih _ (hx.2 _) (sends.2 _) _ hg)
    refine ih _ (hx.2 _) (sends.2 _) _ ⟨hg.live, hg.detached, hg.edits, hg.grown, fun e' he' => ?_⟩
    rcases List.mem_append.1 he' with he' | he'
    · exact hg.queue e' he'
    · cases List.mem_singleton.1 he'
      exact sends.1
  | start next ih => exact ih hx.2 sends _ ((hg.restart own).of_eq rfl rfl rfl rfl)
  | alter change next ih => exact ih hx.2 sends _ (Stage.confined_alter hg hx.1)
  | subscribe channel name next ih =>
    refine ih hx sends _ (hg.of_eq ?_ ?_ ?_ ?_) <;> cases channel <;> rfl
  | unsubscribe channel name next ih =>
    refine ih hx sends _ (hg.of_eq ?_ ?_ ?_ ?_) <;> cases channel <;> rfl

theorem perform_confined (own : ∀ mark, i.automaton.Owns mark → lent (.list mark)) (hold : Hold)
    {x : Play σ α} (hx : x.Within .sparing) (sends : x.Sends (i.automaton.LendsOnly lent)) :
    (i.perform hold x).Keeps (Session.Confined i.automaton lent base) fun _ => True :=
  (make_confined own hx sends).on (fun _ hs => hs) fun _ _ _ hg => hg

section Runs

variable (own : ∀ mark, i.automaton.Owns mark → lent (.list mark))
  (usual : i.surroundings.effects = EffectHandler.usual)
  (hw : i.surroundings.Watching .sparing) (hj : i.surroundings.Judging .sparing)
  (sends : i.surroundings.Sends (i.automaton.LendsOnly lent))

include usual

/-- The effects edit nothing but what has been lent. -/
theorem applyEffect_confined {e : Event} (he : i.automaton.LendsOnly lent e) {r : Action}
    (bound : i.automaton.BindsTo e.type (.action r)) :
    (i.applyEffect r.effectName e.payload).Keeps (Session.Confined i.automaton lent base)
      fun _ => True := by
  refine applyEffect_keeps (G := fun _ => True) ?_ ?_ ?_
  · intro s edit heffect hs hedit
    rw [usual] at heffect
    rcases EffectHandler.usual_cases heffect with ⟨name, -⟩ | ⟨-, hremove⟩
    · exact hs.edit (.setFlag he ⟨r, bound, name⟩ hedit)
    · cases hremove
  · intro s edit heffect hs hedit
    rw [usual] at heffect
    rcases EffectHandler.usual_cases heffect with ⟨-, hset⟩ | ⟨name, -⟩
    · cases hset
    · exact hs.edit (.removePiece hs.current hs.edits ⟨r, bound.binds, name⟩ hedit)
  · intro play heffect
    rw [usual] at heffect
    rcases EffectHandler.usual_cases heffect with ⟨-, hcustom⟩ | ⟨-, hcustom⟩ <;> cases hcustom

include own hw hj sends

theorem dispatch_confined {e : Event} (he : i.automaton.LendsOnly lent e) :
    (i.dispatch e).Keeps (Session.Confined i.automaton lent base) fun _ => True := by
  have kept (f : Context → Context) (same : ∀ c, (f c).game = c.game) {s : Session σ}
      (hs : s.Confined i.automaton lent base) :
      (s.modifyCurrent f).Confined i.automaton lent base :=
    hs.modifyCurrent (hs.current.of_eq (same _))
  have withstands : i.Withstands e (Session.Confined i.automaton lent base) fun _ => True :=
    { report := fun _ _ _ _ hs => hs.of_eq rfl rfl rfl rfl
      grant := fun {t _} _ =>
        kept (fun c => { c with ledger := c.ledger.grantBag t.grants }) fun _ => rfl
      charge := fun {_ _ l} _ hs _ => kept (fun c => { c with ledger := l }) (fun _ => rfl) hs
      noEntry := fun _ _ _ => trivial
      applied := fun name _ =>
        kept (fun c => { c with applied := c.applied ++ [name] }) fun _ => rfl }
  have retains := withstands.retains (applyEffect_confined usual he)
    fun _ _ => perform_confined own _ (hj _ _) (sends.predicate _ _)
  refine retains.dispatch (fun l => ?_) (fun n => ?_) ?_ ?_ ?_
  · exact notifyLog_keeps_of (perform_confined own _ (hw.onRuleLog l) (sends.onRuleLog l)) fun name =>
      perform_confined own _ (hw.logWatcher name l) (sends.logWatcher name l)
  · exact notify_keeps_of (perform_confined own _ (hw.onTransition n) (sends.onTransition n))
      fun name => perform_confined own _ (hw.transitionWatcher name n) (sends.transitionWatcher name n)
  · intro turn state history s hs
    exact hs.modifyCurrent (f := fun _ => _) (hs.current.of_eq rfl)
  · intro s hs
    exact hs.of_eq rfl rfl rfl rfl
  · intro s hs
    exact ⟨hs.live, nofun, hs.edits, hs.grown, hs.queue⟩

theorem send_confined {fuel : Nat} {e : Event} (he : i.automaton.LendsOnly lent e)
    {s s' : Session σ} {o : Except Fault Response} (hrun : i.send fuel e s = some (o, s'))
    (hs : s.Confined i.automaton lent base) : s'.Confined i.automaton lent base := by
  obtain ⟨log, hlog⟩ := i.sendLog_of_send hrun
  cases busy : s.dispatching with
  | true =>
    rw [i.sendLog_of_dispatching busy] at hlog
    cases hlog
    refine ⟨hs.live, hs.detached, hs.edits, hs.grown, fun e' he' => ?_⟩
    rcases List.mem_append.1 he' with he' | he'
    · exact hs.queue e' he'
    · cases List.mem_singleton.1 he'
      exact he
  | false =>
    obtain ⟨t, hcycle, rfl⟩ := i.cycleLog_of_sendLog busy hlog
    have begun : s.engage.Confined i.automaton lent base := hs.of_eq rfl rfl rfl rfl
    have cycled : t.Confined i.automaton lent base := by
      refine cycleLog_keeps (dispatch_confined own usual hw hj sends) (fun hs => hs.queue) ?_ he hcycle
        begun
      intro s queue hs hqueue
      exact ⟨hs.live, hs.detached, hs.edits, hs.grown, fun e he => hs.queue e (hqueue.subset he)⟩
    exact cycled.of_eq rfl rfl rfl rfl

/-- What calls from outside lead to if all events that are sent are of some kind. -/
inductive Leads (i : Interpreter σ) (P : Event → Prop) (s : Session σ) : Session σ → Prop where
  | refl : Leads i P s s
  | start {s' : Session σ} (before : Leads i P s s') : Leads i P s (i.start s')
  | send {s₁ s' : Session σ} {fuel : Nat} {e : Event} {o : Except Fault Response}
      (before : Leads i P s s₁) (kind : P e) (run : i.send fuel e s₁ = some (o, s')) :
      Leads i P s s'
  | snapshot {s' : Session σ} (before : Leads i P s s') : Leads i P s s'.copied
  | watch {s₁ s' : Session σ} {channel : Channel} {name : String} (before : Leads i P s s₁)
      (added : s₁.watch? channel name = some s') : Leads i P s s'
  | unwatch {s' : Session σ} (channel : Channel) (name : String) (before : Leads i P s s') :
      Leads i P s (s'.unsubscribe channel name)
  | remember {s' : Session σ} (change : σ → σ) (before : Leads i P s s') :
      Leads i P s { s' with memory := change s'.memory }

omit own usual hw hj sends in
theorem Leads.sendAll {P : Event → Prop} {s s₁ s' : Session σ} (h : i.Leads P s s₁) {fuel : Nat}
    {es : List Event} (kind : ∀ e ∈ es, P e) {answers : List (Except Fault Response)}
    (run : i.sendAll fuel es s₁ = some (answers, s')) : i.Leads P s s' := by
  induction es generalizing s₁ answers with
  | nil =>
    cases run
    exact h
  | cons e rest ih =>
    simp only [Interpreter.sendAll, Option.bind_eq_bind, Option.bind_eq_some_iff] at run
    obtain ⟨⟨answer, s₂⟩, hsend, ⟨answers', s₃⟩, hrest, heq⟩ := run
    cases heq
    have first := h.send (kind e List.mem_cons_self) hsend
    exact ih first (fun e' he' => kind e' (List.mem_cons_of_mem _ he')) hrest

theorem Leads.confined {s s' : Session σ} (h : i.Leads (i.automaton.LendsOnly lent) s s')
    (hs : s.Confined i.automaton lent base) : s'.Confined i.automaton lent base := by
  induction h with
  | refl => exact hs
  | start _ ih => exact ⟨(ih.restart own).live, nofun, ih.edits, ih.grown, nofun⟩
  | send _ kind run ih => exact send_confined own usual hw hj sends kind run ih
  | snapshot _ ih => exact ih.of_eq rfl rfl rfl rfl
  | @watch s₁ s' channel name _ added ih =>
    obtain ⟨c, -, rfl⟩ := Option.map_eq_some_iff.1 added
    cases channel <;> exact ih.of_eq rfl rfl rfl rfl
  | unwatch channel _ _ ih => cases channel <;> exact ih.of_eq rfl rfl rfl rfl
  | remember _ _ ih => exact ih.of_eq rfl rfl rfl rfl

/-- What has been done stands, and it has been done only to what has been lent. So an event keeps
its payload if it holds nothing of that, and a snapshot keeps its value and its digest if neither
the events in its history nor its copy of the game do; `t` is what had been done at some moment,
such as when the event was recorded or the snapshot was made. The copy does not unless one of its
own lists has been lent, and then it goes on to show the data of the game as it was. -/
theorem detached_of_leads {memory : σ} {s s' : Session σ}
    (before : i.Leads (i.automaton.LendsOnly lent) (.idle memory) s)
    (after : i.Leads (i.automaton.LendsOnly lent) s s') :
    s.edits <+: s'.edits ∧ (∀ x ∈ s'.edits, lent x.cell) ∧
      (∀ e : Event, e.Aloof lent → ∀ t, t <+: s'.edits →
        e.payload.read s'.edits.view = e.payload.read (Edits.view t)) ∧
      (∀ n : Snapshot, n.Aloof lent → ∀ t, t <+: s'.edits →
        n.toValue s'.edits = n.toValue t ∧ n.digest s'.edits = n.digest t) ∧
      ∀ (c : Context) (number : Nat), (∀ mark, ¬ lent (.list (.copied number mark))) →
        (∀ e ∈ c.history, e.Aloof lent) → ∀ t, (c.snapshot t number).Aloof lent ∧
          (c.snapshot t number).game.read s'.edits.view = .object (c.fields t) := by
  have begun : (Session.idle memory).Confined i.automaton lent [] :=
    ⟨nofun, nofun, nofun, List.prefix_rfl, nofun⟩
  have confined := before.confined own usual hw hj sends begun
  have grown := (after.confined own usual hw hj sends confined.rebase).grown
  have edited : ∀ x ∈ s'.edits, lent x.cell := fun x hx =>
    ((after.confined own usual hw hj sends confined).edits x hx).cell
  have agree {c : Cell} (hc : ¬ lent c) {t : Edits} (ht : t <+: s'.edits) :
      s'.edits.view.AgreeOn (Edits.view t) c := by
    obtain ⟨later, hlater⟩ := ht
    rw [← hlater] at edited ⊢
    refine (Edits.agreeOn_of_untouched fun x hx same => hc ?_).symm
    rw [← same]
    exact edited x hx
  have payload (e : Event) (he : e.Aloof lent) (t : Edits) (ht : t <+: s'.edits) :
      e.payload.read s'.edits.view = e.payload.read (Edits.view t) :=
    Data.read_congr _ fun c hc => agree (he c hc) ht
  refine ⟨grown, edited, payload, fun n hn t ht => ?_, fun c number fresh events t => ⟨?_, ?_⟩⟩
  · have events : n.history.map (Event.toValue s'.edits) = n.history.map (Event.toValue t) := by
      apply List.map_congr_left
      intro e he
      rw [Event.toValue, Event.toValue, payload e (hn.history e he) t ht]
    have game : n.game.read s'.edits.view = n.game.read (Edits.view t) :=
      Data.read_congr _ fun c hc => agree (hn.game c hc) ht
    have value : n.toValue s'.edits = n.toValue t := by
      rw [Snapshot.toValue, Snapshot.toValue, events, game]
    refine ⟨value, ?_⟩
    rw [Snapshot.digest, Snapshot.digest, Snapshot.canonicalText, Snapshot.canonicalText, value]
  · refine ⟨events, fun x hx => ?_⟩
    obtain ⟨mark, rfl⟩ := c.mem_cells_snapshot t number x hx
    exact fresh mark
  · refine c.read_snapshot t number fun mark p => ?_
    -- Before the first edit nothing is struck.
    exact congrFun (agree (fresh mark) List.nil_prefix) p

end Runs

end Interpreter

section Lists

variable {e : Event}

/-- An event lends the lists that it holds, at most, if it holds the data of no game. -/
theorem Automaton.lendsOnly_of_lists (games : ∀ n, lent (.game n))
    (lists : ∀ c ∈ e.payload.cells, c.IsList) (h : ∀ c ∈ e.payload.cells, lent c) :
    a.LendsOnly lent e := by
  intro c hc
  cases hc with
  | data stores n => exact games n
  | @roster fields d mark _ _ payload _ value roster =>
    have within {c : Cell} (hc : c ∈ d.cells) : c ∈ e.payload.cells :=
      payload ▸ Data.mem_cellsOfFields_of_get? value hc
    cases roster with
    | held roster =>
      exact h _ (within (Data.mem_cellsOfFields_of_get? roster List.mem_cons_self))
    | game n fields => exact (lists _ (within List.mem_cons_self)).elim
  | unknown _ _ payload =>
    rw [payload] at lists
    exact (lists _ List.mem_cons_self).elim

/-- An event that stores something else than the pieces lends nothing but the data of the game. -/
theorem Automaton.lendsOnly_of_flag (games : ∀ n, lent (.game n)) {fields : List (String × Data)}
    (hpayload : e.payload = .object fields) (h : Data.field fields "flag" ≠ .str "pieces") :
    a.LendsOnly lent e := by
  intro c hc
  cases hc with
  | data stores n => exact games n
  | roster _ _ payload flag =>
    cases hpayload.symm.trans payload
    exact absurd flag h
  | unknown _ _ payload => cases hpayload.symm.trans payload

end Lists

/-- A game in which data is stored and pieces are taken. -/
def Definition.board : Definition where
  name := "board"
  players := 2
  initial := []
  triggers := []
  actions := [⟨"set", some "set_flag", none, .empty⟩, ⟨"take", some "remove_piece", none, .empty⟩]
  constraints := []

/-- The game in surroundings that only look on. -/
def Interpreter.board : Interpreter Unit where
  automaton := (Automaton.build .board).toOption.getD ⟨.board, [], [], []⟩
  config := .usual
  surroundings := .quiet fun _ m => m

/-- The game begins, its pieces are set up, and a plan is made. -/
def boardEvents : List Event :=
  [⟨"START_GAME", .object []⟩,
    ⟨"ACTION_SET", (Data.share 0 (.object [("flag", .str "pieces"),
      ("value", .object [("white", .list [.str "pawn"])])])).1⟩,
    ⟨"ACTION_SET", (Data.share 1 (.object [("flag", .str "plan"),
      ("value", .list [.str "e4"])])).1⟩]

/-- The pawn is taken. -/
def boardTake : Event := ⟨"ACTION_TAKE", .object [("side", .str "white"), ("piece", .str "pawn")]⟩

/-- Whether an event shows the pawn among the pieces that it sets up. -/
def Event.showsPawn (s : Edits) (e : Event) : Bool :=
  Json.canonical (e.payload.read s.view) == Json.canonical (.object
    [("flag", .str "pieces"), ("value", .object [("white", .list [.str "pawn"])])])

theorem Event.read_ne_of_showsPawn {s s' : Edits} {e : Event} (before : e.showsPawn s = true)
    (after : e.showsPawn s' = false) : e.payload.read s'.view ≠ e.payload.read s.view := by
  intro same
  rw [showsPawn, same] at after
  cases before.symm.trans after

theorem Snapshot.read_eq_of_toValue {n : Snapshot} {s s' : Edits} (h : n.toValue s' = n.toValue s)
    {e : Event} (he : e ∈ n.history) : e.payload.read s'.view = e.payload.read s.view := by
  simp only [toValue, Value.object.injEq, List.cons.injEq, Prod.mk.injEq, Value.list.injEq,
    true_and, and_true] at h
  have same := List.map_inj_left.1 h.1 e he
  simpa [Event.toValue] using same

/-- Once the pieces have been set up and a snapshot has been made, the pawn is taken: with it, it is
taken from the event that has set them up. -/
theorem board_takes :
    ∃ answers s n e o s' c e', Interpreter.board.sendAll 0 boardEvents
        (Interpreter.board.start (.idle ())) = some (answers, s) ∧
      Interpreter.snapshot s = .ok n ∧ e ∈ n.history ∧
      Interpreter.board.send 0 boardTake s.copied = some (o, s') ∧ s'.live = some c ∧
      e' ∈ c.history ∧
      s'.edits.map Edit.cell = [.game 1, .game 1, .list (.sent 0)] ∧ e'.type = "ACTION_SET" ∧
      e.payload.read s'.edits.view ≠ e.payload.read s.edits.view ∧
      e'.payload.read s'.edits.view ≠ e'.payload.read s.edits.view := by
  have facts : ((Interpreter.board.sendAll 0 boardEvents
      (Interpreter.board.start (.idle ()))).bind fun run =>
        (Interpreter.snapshot run.2).toOption.bind fun n => n.history[1]?.bind fun e =>
          (Interpreter.board.send 0 boardTake run.2.copied).bind fun run' =>
            run'.2.live.bind fun c => c.history[1]?.map fun e' =>
              (run'.2.edits.map Edit.cell, e'.type, e.showsPawn run.2.edits,
                e.showsPawn run'.2.edits, e'.showsPawn run.2.edits, e'.showsPawn run'.2.edits)) =
      some ([.game 1, .game 1, .list (.sent 0)], "ACTION_SET", true, false, true, false) := by
    decide +kernel
  simp only [Option.bind_eq_some_iff, Option.map_eq_some_iff, Prod.mk.injEq] at facts
  obtain ⟨⟨answers, s⟩, hrun, n, hn, e, he, ⟨o, s'⟩, hsend, c, hc, e', he', hedits, htype,
    before, after, before', after'⟩ := facts
  exact ⟨answers, s, n, e, o, s', c, e', hrun, Result.toOption_eq_some.1 hn, List.mem_of_getElem? he,
    hsend, hc, List.mem_of_getElem? he', hedits, htype,
    Event.read_ne_of_showsPawn before after, Event.read_ne_of_showsPawn before' after'⟩

/-- It is not so that snapshots and the events in the history of every game stay as they are,
whatever the events have brought with them. -/
theorem Interpreter.board_not_detached :
    ∃ s n o s' c e, Interpreter.board.Reachable s ∧ Interpreter.snapshot s = .ok n ∧
      Interpreter.board.send 0 boardTake s.copied = some (o, s') ∧
      n.toValue s'.edits ≠ n.toValue s.edits ∧ s'.live = some c ∧ e ∈ c.history ∧
      e.type = "ACTION_SET" ∧ e.payload.read s'.edits.view ≠ e.payload.read s.edits.view := by
  obtain ⟨answers, s, n, e, o, s', c, e', hrun, hn, he, hsend, hc, he', -, htype, snapshot, event⟩ :=
    board_takes
  have reached : Interpreter.board.Reachable s :=
    (Interpreter.Reachable.start (.idle ())).sendAll hrun
  refine ⟨s, n, o, s', c, e', reached, hn, hsend, fun same => ?_, hc, he', htype, event⟩
  exact snapshot (Snapshot.read_eq_of_toValue same he)

/-- What the events of the board lend: the roster of the pieces, and the data of the game. -/
def boardLent (c : Cell) : Prop := c = .list (.sent 0) ∨ ∃ n, c = .game n

theorem board_lendsOnly {e : Event} (he : e ∈ boardTake :: boardEvents) :
    Interpreter.board.automaton.LendsOnly boardLent e := by
  have games (n : Nat) : boardLent (.game n) := .inr ⟨n, rfl⟩
  have among {cells : List Cell} (h : ∀ c ∈ cells, c = .list (.sent 0)) : ∀ c ∈ cells, boardLent c :=
    fun c hc => .inl (h c hc)
  simp only [boardEvents, List.mem_cons, List.not_mem_nil, or_false] at he
  rcases he with rfl | rfl | rfl | rfl
  · exact Automaton.lendsOnly_of_lists games (by decide) (among (by decide))
  · exact Automaton.lendsOnly_of_lists games (by decide) (among (by decide))
  · exact Automaton.lendsOnly_of_lists games (by decide) (among (by decide))
  · exact Automaton.lendsOnly_of_flag games rfl (by simp [Data.field, Entries.get?])

/-- The board begins without pieces. -/
theorem board_owns (mark : Mark) (h : Interpreter.board.automaton.Owns mark) :
    boardLent (.list mark) := by
  obtain ⟨-, n, d, begun, -⟩ := h
  have bare : Interpreter.board.automaton.definition.initial = [] := by decide +kernel
  rw [bare] at begun
  cases begun

theorem board_detached_of_leads :
    ∃ s s', Interpreter.board.Leads (Interpreter.board.automaton.LendsOnly boardLent) (.idle ()) s ∧
      Interpreter.board.Leads (Interpreter.board.automaton.LendsOnly boardLent) s s' ∧
      s'.edits.map Edit.cell = [.game 1, .game 1, .list (.sent 0)] ∧
      s.edits <+: s'.edits ∧ (∀ x ∈ s'.edits, boardLent x.cell) ∧
      (∀ e : Event, e.Aloof boardLent → ∀ t, t <+: s'.edits →
        e.payload.read s'.edits.view = e.payload.read (Edits.view t)) ∧
      (∀ n : Snapshot, n.Aloof boardLent → ∀ t, t <+: s'.edits →
        n.toValue s'.edits = n.toValue t ∧ n.digest s'.edits = n.digest t) ∧
      ∀ (c : Context) (number : Nat), (∀ mark, ¬ boardLent (.list (.copied number mark))) →
        (∀ e ∈ c.history, e.Aloof boardLent) → ∀ t, (c.snapshot t number).Aloof boardLent ∧
          (c.snapshot t number).game.read s'.edits.view = .object (c.fields t) := by
  obtain ⟨answers, s, n, e, o, s', c, e', hrun, hn, he, hsend, hc, he', hedits, -⟩ := board_takes
  have before : Interpreter.board.Leads (Interpreter.board.automaton.LendsOnly boardLent)
      (.idle ()) s :=
    (Interpreter.Leads.start .refl).sendAll
      (fun e he => board_lendsOnly (List.mem_cons_of_mem _ he)) hrun
  have after := Interpreter.Leads.send (.snapshot .refl) (board_lendsOnly List.mem_cons_self) hsend
  refine ⟨s, s', before, after, hedits, ?_⟩
  exact Interpreter.detached_of_leads (i := .board) board_owns rfl
    ⟨fun _ => trivial, fun _ => trivial, fun _ _ => trivial, fun _ _ => trivial⟩
    (fun _ _ => trivial)
    ⟨fun _ _ => trivial, fun _ => trivial, fun _ => trivial, fun _ _ => trivial, fun _ _ => trivial⟩
    before after

end TokenGate

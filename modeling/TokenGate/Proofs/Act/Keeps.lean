import TokenGate.Proofs.Act.Ensures

/-!
# Activities that keep invariants

An activity keeps an invariant if the state that it ends in has it whenever the state that it
starts from does, also if it is given up; and it says with which faults that may happen.
-/

namespace TokenGate.Act

variable {S T α β : Type} {I J K : S → Prop} {F G : Fault → Prop}

/-- An activity leads from states with one property to states with another one, also if it is given
up, and that is with certain faults only. -/
def Leads (J I : S → Prop) (F : Fault → Prop) (x : Act S α) : Prop :=
  ∀ s, J s → x.Ensures s fun o s' => I s' ∧ ∀ f, o = .error f → F f

/-- An activity keeps an invariant, and is given up with certain faults only. -/
abbrev Keeps (I : S → Prop) (F : Fault → Prop) (x : Act S α) : Prop := x.Leads I I F

/-- What comes to a result has no fault. -/
theorem no_fault_of_ok {a : α} (f : Fault) (h : (.ok a : Except Fault α) = .error f) : F f := by
  cases h

theorem keeps_pure (a : α) : (pure a : Act S α).Keeps I F :=
  fun _ hs => ⟨hs, no_fault_of_ok⟩

theorem keeps_fail {f : Fault} (hf : F f) : (fail f : Act S α).Keeps I F := by
  intro s hs
  refine ⟨hs, fun f' heq => ?_⟩
  cases heq
  exact hf

theorem keeps_change {f : S → S} (h : ∀ s, I s → I (f s)) : (change f).Keeps I F :=
  fun s hs => ⟨h s hs, no_fault_of_ok⟩

/-- What the first of two activities leads to has to do as well if it is given up. -/
theorem Leads.through {x : Act S α} {k : α → Act S β} (hx : x.Leads J K F)
    (hk : ∀ a, (k a).Leads K I F) (given : ∀ s, K s → I s) : (x >>= k).Leads J I F := by
  intro s hs
  refine Ensures.bind (hx s hs) ?_ ?_
  · intro a s' h
    exact hk a s' h.1
  · intro f s' h
    refine ⟨given s' h.1, fun f' heq => ?_⟩
    cases heq
    exact h.2 f rfl

theorem Leads.bind {x : Act S α} {k : α → Act S β} (hx : x.Leads J I F)
    (hk : ∀ a, (k a).Keeps I F) : (x >>= k).Leads J I F :=
  hx.through hk fun _ => id

theorem leads_get_bind {k : S → Act S β} (hk : ∀ s, (k s).Leads J I F) :
    (get >>= k).Leads J I F :=
  fun s hs => hk s s hs

theorem keeps_get_bind {k : S → Act S β} (hk : ∀ s, (k s).Keeps I F) :
    (get >>= k).Keeps I F :=
  fun s hs => hk s s hs

theorem Leads.weaken {x : Act S α} (hx : x.Leads J I F) (hFG : ∀ f, F f → G f) : x.Leads J I G :=
  fun s hs => (hx s hs).mono fun _ _ h => ⟨h.1, fun f heq => hFG f (h.2 f heq)⟩

/-- What keeps an invariant leads to it from whatever is as good. -/
theorem Leads.of_imp {x : Act S α} (hx : x.Leads J I F) (hK : ∀ s, K s → J s) : x.Leads K I F :=
  fun s hs => hx s (hK s hs)

/-- What is attempted is never given up. -/
theorem Leads.attempt {x : Act S α} (hx : x.Leads J I F) : (attempt x).Leads J I G := by
  intro s hs
  exact Ensures.attempt ((hx s hs).mono fun _ _ h => ⟨h.1, no_fault_of_ok⟩)

/-- An activity on a part of the state does to the whole what follows from what it does to that
part. -/
theorem Leads.on {x : Act S α} {get : T → S} {put : S → T → T} {Q R : T → Prop}
    (hx : x.Leads J I F) (hget : ∀ t, Q t → J (get t)) (hput : ∀ t s, Q t → I s → R (put s t)) :
    (x.on get put).Leads Q R F := by
  intro t ht
  exact Ensures.on ((hx (get t) (hget t ht)).mono fun _ s' h => ⟨hput t s' ht h.1, h.2⟩)

end TokenGate.Act

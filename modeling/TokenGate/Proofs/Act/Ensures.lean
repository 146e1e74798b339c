import TokenGate.Interpreter.Chain

/-!
# What activities ensure

An activity ensures a relation between its outcome and the state it ends in. An activity that goes
on after another ensures what follows from what the first one does, and it has to be shown what
holds if the first one is given up.
-/

namespace TokenGate.Act

variable {S T α β : Type} {s : S} {Q R : Except Fault α → S → Prop}

/-- What an activity comes to from a state, and the state it ends in, are related. -/
def Ensures (x : Act S α) (s : S) (Q : Except Fault α → S → Prop) : Prop :=
  Q (x s).1 (x s).2

theorem Ensures.mono {x : Act S α} (h : x.Ensures s R) (hRQ : ∀ o s', R o s' → Q o s') :
    x.Ensures s Q :=
  hRQ _ _ h

theorem Ensures.bind {x : Act S α} {k : α → Act S β} {Q : Except Fault β → S → Prop}
    (hx : x.Ensures s R) (hk : ∀ a s', R (.ok a) s' → (k a).Ensures s' Q)
    (hf : ∀ f s', R (.error f) s' → Q (.error f) s') : (x >>= k).Ensures s Q := by
  simp only [Ensures, bind_apply] at hx ⊢
  cases h : x s with
  | mk o s' =>
    rw [h] at hx
    cases o with
    | ok a => exact hk a s' hx
    | error f => exact hf f s' hx

/-- What a state is used for is ensured of that state. -/
theorem ensures_get_bind {k : S → Act S β} {Q : Except Fault β → S → Prop}
    (h : (k s).Ensures s Q) : (get >>= k).Ensures s Q := h

theorem ensures_change_bind {f : S → S} {k : Unit → Act S β} {Q : Except Fault β → S → Prop}
    (h : (k ()).Ensures (f s) Q) : (change f >>= k).Ensures s Q := h

theorem Ensures.attempt {x : Act S α} {Q : Except Fault (Except Fault α) → S → Prop}
    (h : x.Ensures s fun o s' => Q (.ok o) s') : (attempt x).Ensures s Q := h

/-- An activity on a part of the state ensures what it ensures of that part. -/
theorem Ensures.on {x : Act S α} {get : T → S} {put : S → T → T} {t : T}
    {Q : Except Fault α → T → Prop} (h : x.Ensures (get t) fun o s' => Q o (put s' t)) :
    (x.on get put).Ensures t Q := h

end TokenGate.Act

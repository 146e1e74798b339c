import TokenGate.Interpreter.Chain

/-!
# Activities that mirror each other

An activity on one kind of states is mirrored by one on another kind if, seen through a function
between the states, both come to the same. This need only be so for states that are sound, and an
activity has to keep them so.
-/

namespace TokenGate.Act

variable {S T α β : Type} {see : S → T} {sound : S → Prop} {s : S}

/-- From a state on, an activity is mirrored by another one. -/
def Mirrors (see : S → T) (sound : S → Prop) (s : S) (x : Act S α) (y : Act T α) : Prop :=
  y (see s) = ((x s).1, see (x s).2) ∧ sound (x s).2

theorem mirrors_pure (hs : sound s) (a : α) : Mirrors see sound s (pure a) (pure a) := ⟨rfl, hs⟩

/-- What is mirrored step by step is mirrored. -/
theorem Mirrors.bind {x : Act S α} {y : Act T α} {k : α → Act S β} {l : α → Act T β}
    (hx : Mirrors see sound s x y) (hk : ∀ a s', sound s' → Mirrors see sound s' (k a) (l a)) :
    Mirrors see sound s (x >>= k) (y >>= l) := by
  obtain ⟨heq, hs⟩ := hx
  simp only [Mirrors, bind_apply, heq]
  cases h : x s with
  | mk o s' =>
    rw [h] at hs
    cases o with
    | ok a => exact hk a s' hs
    | error f => exact ⟨rfl, hs⟩

/-- What looks at the state first is mirrored if it is for that state. -/
theorem mirrors_get_bind {k : S → Act S β} {l : T → Act T β}
    (h : Mirrors see sound s (k s) (l (see s))) : Mirrors see sound s (get >>= k) (get >>= l) := h

end TokenGate.Act

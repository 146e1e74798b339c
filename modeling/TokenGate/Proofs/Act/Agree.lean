import TokenGate.Interpreter.Chain

/-!
# Activities that agree

Two activities agree if they do the same and are given up at the same points, with faults that are
seen as the same.
-/

namespace TokenGate.Act

variable {S T α β : Type} {see : Fault → Fault}

/-- From every state, two activities come to the same but for what is not seen of faults. -/
def Agree (see : Fault → Fault) (x y : Act S α) : Prop :=
  ∀ s, (x s).1.mapError see = (y s).1.mapError see ∧ (x s).2 = (y s).2

theorem Agree.refl (x : Act S α) : x.Agree see x := fun _ => ⟨rfl, rfl⟩

theorem Agree.of_eq {x y : Act S α} (h : x = y) : x.Agree see y := h ▸ .refl x

theorem agree_fail {f g : Fault} (h : see f = see g) : (fail f : Act S α).Agree see (fail g) :=
  fun _ => ⟨congrArg Except.error h, rfl⟩

/-- What agrees step by step agrees. -/
theorem Agree.bind {x y : Act S α} {k l : α → Act S β} (hx : x.Agree see y)
    (hk : ∀ a, (k a).Agree see (l a)) : (x >>= k).Agree see (y >>= l) := by
  intro s
  obtain ⟨outcome, state⟩ := hx s
  rw [bind_apply, bind_apply]
  generalize x s = result at outcome state
  generalize y s = result' at outcome state
  obtain ⟨o, s₁⟩ := result
  obtain ⟨o', s₁'⟩ := result'
  cases state
  cases o with
  | ok a =>
    cases o' with
    | ok a' =>
      cases outcome
      exact hk a s₁
    | error g => cases outcome
  | error f =>
    cases o' with
    | ok a' => cases outcome
    | error g => exact ⟨congrArg Except.error (Except.error.inj outcome), rfl⟩

end TokenGate.Act

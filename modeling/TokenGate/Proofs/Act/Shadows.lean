import TokenGate.Proofs.Act.Mirrors

/-!
# Activities that shadow each other

An activity is shadowed by another one as long as it does not go astray: from related states, both
come to the same and end in related states, unless the first one ends astray. A state that has gone
astray is not brought back.
-/

namespace TokenGate.Act

variable {S T S' T' α β : Type} {R : S → T → Prop} {astray : S → Prop}

/-- An activity is shadowed by another one. -/
structure Shadows (R : S → T → Prop) (astray : S → Prop) (x : Act S α) (y : Act T α) : Prop where
  keeps : ∀ {s t}, R s t → astray (x s).2 ∨ ((y t).1 = (x s).1 ∧ R (x s).2 (y t).2)
  stays : ∀ {s}, astray s → astray (x s).2

theorem shadows_pure (a : α) : Shadows R astray (pure a) (pure a) :=
  ⟨fun h => .inr ⟨rfl, h⟩, id⟩

theorem shadows_fail (f : Fault) : Shadows R astray (fail f : Act S α) (fail f) :=
  ⟨fun h => .inr ⟨rfl, h⟩, id⟩

theorem shadows_change {f : S → S} {g : T → T} (keeps : ∀ {s t}, R s t → R (f s) (g t))
    (stays : ∀ {s}, astray s → astray (f s)) : Shadows R astray (change f) (change g) :=
  ⟨fun h => .inr ⟨rfl, keeps h⟩, stays⟩

/-- What is shadowed step by step is shadowed. -/
theorem Shadows.bind {x : Act S α} {y : Act T α} {k : α → Act S β} {l : α → Act T β}
    (hx : Shadows R astray x y) (hk : ∀ a, Shadows R astray (k a) (l a)) :
    Shadows R astray (x >>= k) (y >>= l) := by
  have goneOn {s : S} (h : astray (x s).2) : astray ((x >>= k) s).2 := by
    rw [bind_apply]
    generalize x s = result at h
    obtain ⟨o, s'⟩ := result
    cases o with
    | ok a => exact (hk a).stays h
    | error f => exact h
  refine ⟨fun {s t} hR => ?_, fun hs => goneOn (hx.stays hs)⟩
  rcases hx.keeps hR with away | ⟨heq, hR'⟩
  · exact .inl (goneOn away)
  · rw [bind_apply, bind_apply]
    generalize x s = result at heq hR'
    generalize y t = result' at heq hR'
    obtain ⟨o, s'⟩ := result
    obtain ⟨o', t'⟩ := result'
    cases heq
    cases o with
    | ok a => exact (hk a).keeps hR'
    | error f => exact .inr ⟨rfl, hR'⟩

theorem Shadows.attempt {x : Act S α} {y : Act T α} (h : Shadows R astray x y) :
    Shadows R astray (attempt x) (attempt y) where
  keeps hR := (h.keeps hR).imp_right fun ⟨heq, hR'⟩ => ⟨congrArg Except.ok heq, hR'⟩
  stays hs := h.stays hs

/-- What is shadowed on a part of the state is shadowed. -/
theorem Shadows.on {get : S' → S} {put : S → S' → S'} {get' : T' → T} {put' : T → T' → T'}
    {R' : S' → T' → Prop} {astray' : S' → Prop} {x : Act S α} {y : Act T α}
    (h : Shadows R astray x y) (taken : ∀ {s t}, R' s t → R (get s) (get' t))
    (returned : ∀ {s t s' t'}, R' s t → R s' t' → R' (put s' s) (put' t' t))
    (left : ∀ {s}, astray' s → astray (get s)) (lost : ∀ {s' s}, astray s' → astray' (put s' s)) :
    Shadows R' astray' (x.on get put) (y.on get' put') where
  keeps hR := (h.keeps (taken hR)).imp lost fun ⟨heq, hR'⟩ => ⟨heq, returned hR hR'⟩
  stays hs := lost (h.stays (left hs))

section Seen

variable {see : S → T} {sound : S → Prop}

/-- A sound state is related to what it is seen as. -/
def Seen (see : S → T) (sound : S → Prop) (s : S) (t : T) : Prop := t = see s ∧ sound s

/-- What is mirrored is shadowed and never goes astray. -/
theorem shadows_of_mirrors {x : Act S α} {y : Act T α}
    (h : ∀ {s}, sound s → Mirrors see sound s x y) :
    Shadows (Seen see sound) (fun _ => False) x y where
  keeps := by
    rintro s t ⟨rfl, hs⟩
    obtain ⟨heq, hs'⟩ := h hs
    rw [heq]
    exact .inr ⟨rfl, rfl, hs'⟩
  stays := False.elim

end Seen

end TokenGate.Act

import Mathlib.Data.List.Induction
import TokenGate.Proofs.Play.Telling
import TokenGate.Subscription

/-!
# Whose subscription is ended

Watchers are kept by their names, so it is not the subscription that is ended whose watcher goes,
but the oldest one that stands with the same watcher. Those that stand are the ones that have been
kept, which is to say not ended, as long as every one that is ended is kept until then and the
oldest with its watcher, or none with its watcher is kept. If none is ended twice, every watcher
stands as often as it is kept, though not in its own places.
-/

namespace TokenGate

open List

namespace SubscriptionCall

/-- The subscription that a call makes. -/
def made? : SubscriptionCall → Option Subscription
  | make x => some x
  | finish _ => none

/-- The number of the subscription that a call ends. -/
def finished? : SubscriptionCall → Option Nat
  | make _ => none
  | finish n => some n

end SubscriptionCall

namespace Subscription

/-- The subscriptions that calls make. Their numbers are their places. -/
def made (calls : List SubscriptionCall) : List Subscription :=
  calls.filterMap SubscriptionCall.made?

/-- The subscriptions that calls make and do not end later, with their numbers, which go on from
some number. -/
def keptFrom (n : Nat) : List SubscriptionCall → List (Nat × Subscription)
  | [] => []
  | .make x :: rest =>
      if .finish n ∈ rest then keptFrom (n + 1) rest else (n, x) :: keptFrom (n + 1) rest
  | .finish _ :: rest => keptFrom n rest

/-- The subscriptions that have been made and not ended since, with their numbers. -/
def kept (calls : List SubscriptionCall) : List (Nat × Subscription) := keptFrom 0 calls

/-- What a call does to the subscriptions that stand, given all that have been made: where one is
ended, the oldest that stands with the same watcher goes. -/
def stand (all : List Subscription) (standing : List (Nat × Subscription)) :
    SubscriptionCall → List (Nat × Subscription)
  | .make x => standing ++ [(all.length, x)]
  | .finish n =>
      match all[n]? with
      | some x => standing.eraseP fun e => e.2 = x
      | none => standing

/-- The subscriptions that stand after further calls. -/
def standFrom (all : List Subscription) (standing : List (Nat × Subscription)) :
    List SubscriptionCall → List (Nat × Subscription)
  | [] => standing
  | c :: rest => standFrom (all ++ made [c]) (stand all standing c) rest

/-- The subscriptions that stand after calls, with their numbers. -/
def standing (calls : List SubscriptionCall) : List (Nat × Subscription) := standFrom [] [] calls

/-- The watchers of a channel that subscriptions are for. -/
def watchersOf (channel : Channel) (subscriptions : List (Nat × Subscription)) : List String :=
  (subscriptions.filter fun e => e.2.channel = channel).map fun e => e.2.name

/-- Ending a subscription is due if it is kept and the oldest that is kept with its watcher, or if
none with its watcher is kept. -/
def DueAt (before : List SubscriptionCall) (n : Nat) : Prop :=
  ∀ e ∈ kept before, (made before)[n]? = some e.2 → (n, e.2) ∈ kept before ∧ n ≤ e.1

/-- Subscriptions are only ended when that is due. -/
def Due (calls : List SubscriptionCall) : Prop :=
  ∀ before n, before ++ [.finish n] <+: calls → DueAt before n

/-- No subscription is ended twice. -/
def Once (calls : List SubscriptionCall) : Prop :=
  (calls.filterMap SubscriptionCall.finished?).Nodup

variable {calls before : List SubscriptionCall} {c : SubscriptionCall} {x : Subscription} {n : Nat}

theorem made_append_make (calls : List SubscriptionCall) (x : Subscription) :
    made (calls ++ [.make x]) = made calls ++ [x] :=
  List.filterMap_append

theorem made_append_finish (calls : List SubscriptionCall) (n : Nat) :
    made (calls ++ [.finish n]) = made calls :=
  List.filterMap_append.trans (List.append_nil _)

/-! ### One more call -/

theorem keptFrom_append_make (n : Nat) (calls : List SubscriptionCall) (x : Subscription) :
    keptFrom n (calls ++ [.make x]) = keptFrom n calls ++ [(n + (made calls).length, x)] := by
  induction calls generalizing n with
  | nil => simp [keptFrom, made]
  | cons c rest ih =>
    cases c with
    | make y =>
      have place : n + 1 + (made rest).length = n + (made (.make y :: rest)).length := by
        simp only [made, List.filterMap_cons, SubscriptionCall.made?, List.length_cons]
        omega
      by_cases ended : SubscriptionCall.finish n ∈ rest
      · simp [keptFrom, ended, ih, place]
      · simp [keptFrom, ended, ih, place]
    | finish m =>
      have same : made (.finish m :: rest) = made rest := rfl
      simp [keptFrom, ih, same]

theorem keptFrom_append_finish (n m : Nat) (calls : List SubscriptionCall) :
    keptFrom n (calls ++ [.finish m]) = (keptFrom n calls).filter fun e => e.1 ≠ m := by
  induction calls generalizing n with
  | nil => rfl
  | cons c rest ih =>
    cases c with
    | make y =>
      by_cases ended : SubscriptionCall.finish n ∈ rest
      · simp [keptFrom, ended, ih]
      · by_cases same : n = m
        · subst same
          simp [keptFrom, ended, ih]
        · simp [keptFrom, ended, same, ih]
    | finish k => simp [keptFrom, ih]

theorem kept_append_make (calls : List SubscriptionCall) (x : Subscription) :
    kept (calls ++ [.make x]) = kept calls ++ [((made calls).length, x)] := by
  rw [kept, keptFrom_append_make, Nat.zero_add, kept]

theorem kept_append_finish (calls : List SubscriptionCall) (n : Nat) :
    kept (calls ++ [.finish n]) = (kept calls).filter fun e => e.1 ≠ n :=
  keptFrom_append_finish 0 n calls

theorem standFrom_append_singleton (all : List Subscription) (standing : List (Nat × Subscription))
    (calls : List SubscriptionCall) (c : SubscriptionCall) :
    standFrom all standing (calls ++ [c]) =
      stand (all ++ made calls) (standFrom all standing calls) c := by
  induction calls generalizing all standing with
  | nil => simp [standFrom, made]
  | cons d rest ih =>
    have split : made (d :: rest) = made [d] ++ made rest := by
      rw [made, made, made, ← List.filterMap_append, List.singleton_append]
    rw [List.cons_append, standFrom, ih, standFrom, split, List.append_assoc]

theorem standing_append_singleton (calls : List SubscriptionCall) (c : SubscriptionCall) :
    standing (calls ++ [c]) = stand (made calls) (standing calls) c :=
  standFrom_append_singleton [] [] calls c

/-! ### Numbers -/

theorem filter_ne_self {l : List (Nat × Subscription)} (others : ∀ e ∈ l, e.1 ≠ n) :
    l.filter (fun e => e.1 ≠ n) = l := by
  rw [List.filter_eq_self]
  simpa using others

/-- Subscriptions stand under the numbers that they were given, in the order of these. -/
structure Numbered (all : List Subscription) (subscriptions : List (Nat × Subscription)) :
    Prop where
  made : ∀ e ∈ subscriptions, all[e.1]? = some e.2
  ordered : subscriptions.Pairwise fun e f => e.1 < f.1

namespace Numbered

variable {all : List Subscription} {l l' : List (Nat × Subscription)}

theorem nil (all : List Subscription) : Numbered all [] := ⟨nofun, .nil⟩

theorem sublist (h : Numbered all l) (sub : l' <+ l) : Numbered all l' where
  made e he := h.made e (sub.subset he)
  ordered := h.ordered.sublist sub

theorem append_new (h : Numbered all l) (x : Subscription) :
    Numbered (all ++ [x]) (l ++ [(all.length, x)]) where
  made e he := by
    rcases List.mem_append.1 he with old | new
    · obtain ⟨bound, -⟩ := List.getElem?_eq_some_iff.1 (h.made e old)
      rw [List.getElem?_append_left bound]
      exact h.made e old
    · rw [List.mem_singleton.1 new]
      exact List.getElem?_concat_length
  ordered := by
    rw [List.pairwise_append]
    refine ⟨h.ordered, List.pairwise_singleton _ _, ?_⟩
    intro e he f hf
    obtain ⟨bound, -⟩ := List.getElem?_eq_some_iff.1 (h.made e he)
    rw [List.mem_singleton.1 hf]
    exact bound

/-- What does not stand before another one has a number that is no smaller. -/
theorem first_le {e f : Nat × Subscription} (h : Numbered all (l ++ f :: l'))
    (he : e ∈ l ++ f :: l') (late : e ∉ l) : f.1 ≤ e.1 := by
  have rest := (List.pairwise_append.1 h.ordered).2.1
  have mem : e ∈ f :: l' := (List.mem_append.1 he).resolve_left late
  rcases List.mem_cons.1 mem with rfl | after
  · exact Nat.le_refl _
  · exact Nat.le_of_lt ((List.pairwise_cons.1 rest).1 e after)

/-- Taking out a subscription by its number takes out nothing else. -/
theorem filter_ne {f : Nat × Subscription} (h : Numbered all (l ++ f :: l')) :
    (l ++ f :: l').filter (fun e => e.1 ≠ f.1) = l ++ l' := by
  obtain ⟨-, later, across⟩ := List.pairwise_append.1 h.ordered
  have before : l.filter (fun e => e.1 ≠ f.1) = l := by
    apply filter_ne_self
    intro e he
    exact Nat.ne_of_lt (across e he f List.mem_cons_self)
  have after : l'.filter (fun e => e.1 ≠ f.1) = l' := by
    apply filter_ne_self
    intro e he
    exact Nat.ne_of_gt ((List.pairwise_cons.1 later).1 e he)
  rw [List.filter_append, List.filter_cons_of_neg (by simp), before, after]

/-- Under a number that has not been given there is nothing to take out. -/
theorem filter_unmade (h : Numbered all l) (hn : all[n]? = none) :
    l.filter (fun e => e.1 ≠ n) = l := by
  apply filter_ne_self
  intro e he number
  have given := h.made e he
  rw [number, hn] at given
  cases given

end Numbered

theorem numbered_kept (calls : List SubscriptionCall) : Numbered (made calls) (kept calls) := by
  induction calls using List.reverseRecOn with
  | nil => exact .nil _
  | append_singleton before c ih =>
    cases c with
    | make x =>
      rw [kept_append_make, made_append_make]
      exact ih.append_new x
    | finish n =>
      rw [kept_append_finish, made_append_finish]
      exact ih.sublist List.filter_sublist

theorem numbered_standing (calls : List SubscriptionCall) :
    Numbered (made calls) (standing calls) := by
  induction calls using List.reverseRecOn with
  | nil => exact .nil _
  | append_singleton before c ih =>
    rw [standing_append_singleton]
    cases c with
    | make x =>
      rw [made_append_make]
      exact ih.append_new x
    | finish n =>
      rw [made_append_finish, stand]
      split
      · exact ih.sublist List.eraseP_sublist
      · exact ih

/-! ### Those that stand and those that are kept -/

/-- The oldest subscription with a watcher is the one that is ended exactly if that is kept and no
older one has this watcher, unless there is none with it. -/
theorem eraseP_eq_filter_iff {all : List Subscription} {l : List (Nat × Subscription)}
    (h : Numbered all l) (hx : all[n]? = some x) :
    (l.eraseP fun e => e.2 = x) = l.filter (fun e => e.1 ≠ n) ↔
      ∀ e ∈ l, e.2 = x → (n, x) ∈ l ∧ n ≤ e.1 := by
  by_cases present : ∃ e ∈ l, e.2 = x
  · obtain ⟨e₀, he₀, hex₀⟩ := present
    obtain ⟨f, before, after, others, hf, rfl, gone⟩ :=
      List.exists_of_eraseP (p := fun e => e.2 = x) he₀ (by simpa using hex₀)
    have fx : f.2 = x := by simpa using hf
    have late {e : Nat × Subscription} (hex : e.2 = x) : e ∉ before := by
      intro early
      have := others e early
      simp [hex] at this
    rw [gone]
    constructor
    · intro taken e he hex
      have number : f.1 = n := by
        by_contra other
        have left : f ∈ before ++ after := by
          rw [taken, List.mem_filter]
          exact ⟨by simp, by simpa using other⟩
        rw [← h.filter_ne] at left
        simp at left
      have own : f = (n, x) := Prod.ext number fx
      refine ⟨by simp [own], ?_⟩
      rw [← number]
      exact h.first_le he (late hex)
    · intro due
      obtain ⟨own, oldest⟩ := due f (by simp) fx
      have first := h.first_le own (late rfl)
      have number : f.1 = n := by omega
      rw [← number]
      exact h.filter_ne.symm
  · have none : ∀ e ∈ l, e.2 ≠ x := by
      intro e he hex
      exact present ⟨e, he, hex⟩
    have left : (l.eraseP fun e => e.2 = x) = l := by
      apply List.eraseP_of_forall_not
      simpa using none
    have right : l.filter (fun e => e.1 ≠ n) = l := by
      apply filter_ne_self
      intro e he number
      have given := h.made e he
      rw [number, hx] at given
      exact none e he (Option.some.inj given).symm
    rw [left, right]
    exact ⟨fun _ e he hex => absurd hex (none e he), fun _ => rfl⟩

/-- As long as those that are kept stand, they do so after one is ended exactly if that is due. -/
theorem standing_finish_iff (same : standing before = kept before) :
    standing (before ++ [.finish n]) = kept (before ++ [.finish n]) ↔ DueAt before n := by
  have numbered := numbered_kept before
  rw [standing_append_singleton, kept_append_finish, same, stand, DueAt]
  cases hx : (made before)[n]? with
  | none =>
    rw [numbered.filter_unmade hx]
    simp
  | some x =>
    have step := eraseP_eq_filter_iff numbered hx
    simp only [Option.some.injEq, step]
    constructor
    · rintro due e he rfl
      exact due e he rfl
    · rintro due e he rfl
      exact due e he rfl

/-- Those that are kept stand all the time exactly if subscriptions are only ended when that is
due. -/
theorem standing_eq_kept_iff (calls : List SubscriptionCall) :
    (∀ before, before <+: calls → standing before = kept before) ↔ Due calls := by
  induction calls using List.reverseRecOn with
  | nil =>
    constructor
    · intro _ before n h
      have := h.length_le
      simp at this
    · intro _ before h
      rw [List.prefix_nil.1 h]
      rfl
  | append_singleton calls c ih =>
    constructor
    · intro agree before n h
      rcases List.prefix_concat_iff.1 h with last | earlier
      · obtain ⟨rfl, rfl⟩ := List.append_singleton_inj.1 last
        have same := agree before (List.prefix_append _ _)
        exact (standing_finish_iff same).1 (agree _ h)
      · have agree' : ∀ before, before <+: calls → standing before = kept before :=
          fun before h => agree before (h.trans (List.prefix_append _ _))
        exact ih.1 agree' before n earlier
    · intro due
      have agree : ∀ before, before <+: calls → standing before = kept before :=
        ih.2 fun before n h => due before n (h.trans (List.prefix_append _ _))
      intro before h
      rcases List.prefix_concat_iff.1 h with rfl | earlier
      · have same := agree calls (List.prefix_refl calls)
        cases c with
        | make x => rw [standing_append_singleton, kept_append_make, same, stand]
        | finish n => exact (standing_finish_iff same).2 (due calls n (List.prefix_refl _))
      · exact agree before earlier

/-- A subscription that has not been ended at all is kept. -/
theorem mem_kept (hx : (made calls)[n]? = some x) (open' : SubscriptionCall.finish n ∉ calls) :
    (n, x) ∈ kept calls := by
  induction calls using List.reverseRecOn with
  | nil => cases hx
  | append_singleton calls c ih =>
    have still : SubscriptionCall.finish n ∉ calls := fun h => open' (List.mem_append_left _ h)
    cases c with
    | make y =>
      rw [made_append_make, List.getElem?_append] at hx
      rw [kept_append_make, List.mem_append, List.mem_singleton]
      split at hx
      · exact .inl (ih hx still)
      · rename_i bound
        obtain ⟨last, rfl⟩ : n - (made calls).length = 0 ∧ y = x := by
          cases hd : n - (made calls).length with
          | zero => exact ⟨rfl, by simpa [hd] using hx⟩
          | succ k => simp [hd] at hx
        right
        rw [show n = (made calls).length by omega]
    | finish m =>
      rw [made_append_finish] at hx
      rw [kept_append_finish, List.mem_filter]
      have other : n ≠ m := by
        rintro rfl
        exact open' (by simp)
      exact ⟨ih hx still, by simpa using other⟩

/-- If no subscription is ended twice, as many with a watcher stand as are kept. -/
theorem count_standing (once : Once calls) (x : Subscription) :
    ((standing calls).map Prod.snd).count x = ((kept calls).map Prod.snd).count x := by
  induction calls using List.reverseRecOn with
  | nil => rfl
  | append_singleton calls c ih =>
    rw [Once, List.filterMap_append, List.nodup_append] at once
    have same := ih once.1
    rw [standing_append_singleton]
    cases c with
    | make y => simp [kept_append_make, stand, same]
    | finish n =>
      have unended : SubscriptionCall.finish n ∉ calls := by
        intro h
        have twice : n ∈ calls.filterMap SubscriptionCall.finished? :=
          List.mem_filterMap.2 ⟨_, h, rfl⟩
        exact once.2.2 n twice n (by simp [SubscriptionCall.finished?]) rfl
      have numbered := numbered_kept calls
      rw [kept_append_finish, stand]
      cases hy : (made calls)[n]? with
      | none =>
        rw [numbered.filter_unmade hy]
        exact same
      | some y =>
        obtain ⟨before, after, split⟩ := List.append_of_mem (mem_kept hy unended)
        have taken : (kept calls).filter (fun e => e.1 ≠ n) = before ++ after := by
          rw [split] at numbered ⊢
          exact numbered.filter_ne
        have oldest : ((standing calls).eraseP fun e => e.2 = y).map Prod.snd =
            ((standing calls).map Prod.snd).erase y := by
          rw [List.erase_eq_eraseP', List.eraseP_map]
          rfl
        rw [taken, oldest, List.count_erase, same, split]
        by_cases hxy : y = x
        · simp [hxy]
        · simp [hxy]

/-- Of the subscriptions with one watcher, the latest stand. -/
theorem latest_standing {m : Nat} (lt : n < m) (earlier : (n, x) ∈ standing calls)
    (hx : (made calls)[m]? = some x) : (m, x) ∈ standing calls := by
  induction calls using List.reverseRecOn with
  | nil => cases hx
  | append_singleton calls c ih =>
    rw [standing_append_singleton] at earlier ⊢
    have numbered := numbered_standing calls
    cases c with
    | make y =>
      rw [made_append_make] at hx
      obtain ⟨bound, -⟩ := List.getElem?_eq_some_iff.1 hx
      rw [List.length_append, List.length_singleton] at bound
      rw [stand, List.mem_append, List.mem_singleton] at earlier ⊢
      by_cases last : m = (made calls).length
      · subst last
        rw [List.getElem?_concat_length] at hx
        cases hx
        exact .inr rfl
      · rw [List.getElem?_append_left (by omega)] at hx
        rcases earlier with old | new
        · exact .inl (ih old hx)
        · obtain ⟨rfl, -⟩ := Prod.mk.inj new
          omega
    | finish k =>
      rw [made_append_finish] at hx
      rw [stand] at earlier ⊢
      split at earlier
      · rename_i y _
        have old : (n, x) ∈ standing calls := List.mem_of_mem_eraseP earlier
        have later := ih old hx
        rcases List.exists_or_eq_self_of_eraseP (fun e => decide (e.2 = y)) (standing calls) with
          same | ⟨f, before, after, others, hf, split, gone⟩
        · rwa [same]
        · rw [split] at numbered old later
          rw [gone]
          have other : (m, x) ≠ f := by
            rintro rfl
            have early : (n, x) ∈ before := by
              by_contra late
              have first := numbered.first_le old late
              simp only at first
              omega
            exact others _ early hf
          simpa [other] using later
      · exact ih earlier hx

/-! ### The watchers -/

/-- Ending the oldest subscription with a watcher removes that watcher where it comes first. -/
theorem watchersOf_eraseP (channel : Channel) (x : Subscription) (l : List (Nat × Subscription)) :
    watchersOf channel (l.eraseP fun e => e.2 = x) =
      if x.channel = channel then (watchersOf channel l).erase x.name
      else watchersOf channel l := by
  induction l with
  | nil => simp [watchersOf]
  | cons e rest ih =>
    obtain ⟨n, y⟩ := e
    by_cases same : y = x
    · subst same
      by_cases here : y.channel = channel
      · simp [watchersOf, here]
      · simp [watchersOf, here]
    · rw [List.eraseP_cons_of_neg (by simpa using same)]
      simp only [watchersOf] at ih ⊢
      by_cases here : y.channel = channel
      · by_cases there : x.channel = channel
        · have name : y.name ≠ x.name := by
            intro name
            apply same
            cases x
            cases y
            simp_all
          simp [here, there, ih, name]
        · simp [here, there, ih]
      · simp [here, ih]

theorem watchersOf_append (channel : Channel) (l l' : List (Nat × Subscription)) :
    watchersOf channel (l ++ l') = watchersOf channel l ++ watchersOf channel l' := by
  rw [watchersOf, List.filter_append, List.map_append, watchersOf, watchersOf]

section Session

variable {σ : Type} {s : Session σ}

theorem watchers_subscribe (s : Session σ) (c channel : Channel) (name : String) :
    (s.subscribe c name).watchers channel =
      if c = channel then s.watchers channel ++ [name] else s.watchers channel := by
  cases c <;> cases channel <;> rfl

theorem watchers_unsubscribe (s : Session σ) (c channel : Channel) (name : String) :
    (s.unsubscribe c name).watchers channel =
      if c = channel then (s.watchers channel).erase name else s.watchers channel := by
  cases c <;> cases channel <;> rfl

theorem made_performAll (s : Session σ) (calls : List SubscriptionCall) :
    ((Subscribed.none s).performAll calls).made = made calls := by
  induction calls using List.reverseRecOn with
  | nil => rfl
  | append_singleton before c ih =>
    rw [Subscribed.performAll_append_singleton]
    cases c with
    | make x => rw [Subscribed.perform, ih, made_append_make]
    | finish n =>
      rw [Subscribed.perform, made_append_finish, ← ih]
      split <;> rfl

/-- Those who watch are the watchers of the subscriptions that stand. -/
theorem watchers_performAll (bare : ∀ channel, s.watchers channel = [])
    (calls : List SubscriptionCall) (channel : Channel) :
    ((Subscribed.none s).performAll calls).session.watchers channel =
      watchersOf channel (standing calls) := by
  induction calls using List.reverseRecOn with
  | nil => exact bare channel
  | append_singleton before c ih =>
    rw [Subscribed.performAll_append_singleton, standing_append_singleton]
    cases c with
    | make x =>
      rw [Subscribed.perform, watchers_subscribe, stand, watchersOf_append, ih]
      by_cases here : x.channel = channel
      · simp [here, watchersOf]
      · simp [here, watchersOf]
    | finish n =>
      rw [Subscribed.perform, stand, made_performAll]
      cases (made before)[n]? with
      | none => exact ih
      | some x =>
        simp only [watchers_unsubscribe, watchersOf_eraseP]
        rw [ih]

end Session

end Subscription
end TokenGate

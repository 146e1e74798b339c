import TokenGate.Session

/-!
# Subscriptions

Whoever adds a watcher holds a subscription, by which the watcher can be removed again.
Subscriptions are numbered as they are made, from zero on. All that ending one does is to remove its
watcher where it was added first, whichever subscription this belongs to.
-/

namespace TokenGate

/-- A subscription: what is watched, and by whom. -/
structure Subscription where
  channel : Channel
  name : String
  deriving DecidableEq, Repr

/-- What is done with subscriptions. -/
inductive SubscriptionCall where
  | make (x : Subscription)
  /-- End the subscription with a number, which may have been ended before. -/
  | finish (number : Nat)
  deriving DecidableEq, Repr

/-- A session with the subscriptions that have been made to it, the first one first. -/
structure Subscribed (σ : Type) where
  session : Session σ
  made : List Subscription

namespace Subscribed

variable {σ : Type}

/-- A session to which no subscription has been made. -/
def none (s : Session σ) : Subscribed σ := ⟨s, []⟩

/-- Makes a subscription or ends one. There is nothing to end under a number that has not been
given to any. -/
def perform (w : Subscribed σ) : SubscriptionCall → Subscribed σ
  | .make x => ⟨w.session.subscribe x.channel x.name, w.made ++ [x]⟩
  | .finish n =>
      match w.made[n]? with
      | some x => { w with session := w.session.unsubscribe x.channel x.name }
      | .none => w

/-- Performs calls one after another. -/
def performAll (w : Subscribed σ) (calls : List SubscriptionCall) : Subscribed σ :=
  calls.foldl perform w

theorem performAll_append_singleton (w : Subscribed σ) (calls : List SubscriptionCall)
    (c : SubscriptionCall) : w.performAll (calls ++ [c]) = (w.performAll calls).perform c := by
  rw [performAll, List.foldl_append, List.foldl_cons, List.foldl_nil, performAll]

end Subscribed
end TokenGate

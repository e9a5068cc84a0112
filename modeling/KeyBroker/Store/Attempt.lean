import KeyBroker.Event

/-! # Attempts to publish

A key is offered to a store as the next version of a set, or under a number of the publisher's
choice. A line in the audit log tells of a key that was taken. Main statement: an offer that is
turned down leaves the store as it is, and no line.
-/

namespace KeyBroker

/-- An attempt to publish a key. -/
inductive Attempt where
  /-- As the next version of a set. -/
  | next (set : String) (material : KeyMaterial)
  /-- As the version of a set with a number of the publisher's choice. -/
  | numbered (set : String) (number : UInt32) (material : KeyMaterial)

/-- What comes of an attempt. -/
def Attempt.run (store : KeyStore) : Attempt → Except PublishFault (Publication × KeyStore)
  | next set material => store.publish set material
  | numbered set number material => store.publishAs set number material

namespace KeyStore

/-- Makes an attempt: what was published, the store afterwards, and what happened. -/
def attempt (store : KeyStore) (a : Attempt) :
    Except PublishFault Publication × KeyStore × List Event :=
  match a.run store with
  | .ok (p, next) => (.ok p, next, [.published p])
  | .error fault => (.error fault, store, [])

/-- The store after an attempt. -/
def step (store : KeyStore) (a : Attempt) : KeyStore := (store.attempt a).2.1

/-- What an attempt makes happen. -/
def happenings (store : KeyStore) (a : Attempt) : List Event := (store.attempt a).2.2

variable {store next : KeyStore} {a : Attempt} {p : Publication} {fault : PublishFault}

theorem attempt_of_ok (h : a.run store = .ok (p, next)) :
    store.attempt a = (.ok p, next, [.published p]) := by
  simp only [attempt, h]

theorem attempt_of_error (h : a.run store = .error fault) :
    store.attempt a = (.error fault, store, []) := by
  simp only [attempt, h]

theorem step_of_ok (h : a.run store = .ok (p, next)) : store.step a = next := by
  rw [step, attempt_of_ok h]

theorem step_of_error (h : a.run store = .error fault) : store.step a = store := by
  rw [step, attempt_of_error h]

theorem happenings_of_ok (h : a.run store = .ok (p, next)) :
    store.happenings a = [.published p] := by
  rw [happenings, attempt_of_ok h]

theorem happenings_of_error (h : a.run store = .error fault) : store.happenings a = [] := by
  rw [happenings, attempt_of_error h]

end KeyStore

end KeyBroker

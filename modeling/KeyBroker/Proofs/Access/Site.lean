import KeyBroker.Proofs.Access.Scene
import KeyBroker.Proofs.Store.History

/-! # A broker with many connections

  A site is a broker with all its connections. It takes turns: an act at one connection is a
  step of the scene of that connection, and the others stay as they are. Main invariants of
  every run, whoever acts and in whatever order:

  - the registry stays the same;
  - a version that the store shows it shows for ever.
-/

namespace KeyBroker

/-! ### Sites -/

/-- A broker with its connections. -/
structure Site where
  /-- The broker. -/
  broker : Broker
  /-- The connections, by number. -/
  connections : Nat → Connection

/-- An act at one of the connections. To publish a key or to replace the policy comes to the
    same at each of them. -/
structure Turn where
  /-- The number of the connection. -/
  conn : Nat
  /-- What happens there. -/
  act : Act

namespace Site

/-- The broker with one connection. -/
def scene (s : Site) (i : Nat) : Scene := ⟨s.broker, s.connections i⟩

/-- What a request on a connection gives. -/
def answer (s : Site) (i : Nat) (draw : Draw) (r : Request) : Answer := (s.scene i).answer draw r

/-- The site after a turn. -/
def next (s : Site) (t : Turn) : Site where
  broker := ((s.scene t.conn).next t.act).broker
  connections := fun i =>
    if i = t.conn then ((s.scene t.conn).next t.act).connection else s.connections i

/-- The site after turns. -/
def after (s : Site) : List Turn → Site
  | [] => s
  | t :: rest => (s.next t).after rest

end Site

/-! ### What an act keeps -/

namespace KeyStore

variable {store next : KeyStore} {set : String} {v : KeyVersion}

/-- A version that is shown is still shown after an attempt to publish another one. -/
theorem mem_shown_step (a : Attempt) (hv : v ∈ store.shown set) : v ∈ (store.step a).shown set := by
  cases hrun : a.run store with
  | error fault =>
    rw [step_of_error hrun]
    exact hv
  | ok result =>
    obtain ⟨p, next⟩ := result
    obtain ⟨-, hset, hother⟩ := of_publishAs (publishAs_of_run hrun)
    rw [step_of_ok hrun]
    by_cases hsame : set = (a.entry p).set
    · rw [hsame] at hv ⊢
      rw [hset]
      exact List.mem_cons_of_mem _ hv
    · rw [hother set hsame]
      exact hv

end KeyStore

namespace Scene

variable {s : Scene} {set : String} {v : KeyVersion}

/-- No act changes which algorithms are on offer. -/
theorem registry_next (s : Scene) (act : Act) :
    (s.next act).broker.registry = s.broker.registry := by
  cases act with
  | request draw r => rfl
  | publish target material => rfl
  | publishAs target number material => rfl
  | govern gate => rfl

/-- No act takes a version away, or puts another one in its place. -/
theorem mem_shown_next (act : Act) (hv : v ∈ s.broker.store.shown set) :
    v ∈ (s.next act).broker.store.shown set := by
  -- only what publishes touches the store
  cases act with
  | request draw r => exact hv
  | publish target material => exact KeyStore.mem_shown_step (.next target material) hv
  | publishAs target number material =>
    exact KeyStore.mem_shown_step (.numbered target number material) hv
  | govern gate => exact hv

end Scene

/-! ### What turns keep -/

namespace Site

variable {s : Site} {set : String} {v : KeyVersion}

theorem registry_after (s : Site) (turns : List Turn) :
    (s.after turns).broker.registry = s.broker.registry := by
  induction turns generalizing s with
  | nil => rfl
  | cons t rest ih => exact (ih (s.next t)).trans ((s.scene t.conn).registry_next t.act)

/-- What a store shows outlasts every run. -/
theorem mem_shown_after (turns : List Turn) (hv : v ∈ s.broker.store.shown set) :
    v ∈ (s.after turns).broker.store.shown set := by
  induction turns generalizing s with
  | nil => exact hv
  | cons t rest ih =>
    have hnext : v ∈ (s.next t).broker.store.shown set := Scene.mem_shown_next t.act hv
    exact ih hnext

end Site

end KeyBroker

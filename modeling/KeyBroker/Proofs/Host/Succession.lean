import KeyBroker.Proofs.Host.Binding
import KeyBroker.Proofs.Stream.Exchange

/-! # Whose socket stands on a path

  Servers bind one path, serve and are shut down, one after the other or several at a time,
  and somebody else may remove what stands on the path. A shutdown removes whatever the path
  leads to at that moment. Main invariants of every run:

  - a socket of a server that stands anywhere stands on the path, and its server is the one
    that bound the path last;
  - it stands there from the binding on until the next binding, the first shutdown of any
    server, or the first removal by somebody else.

  So a shutdown takes away another server's socket exactly if that server has bound the
  path since. A server that binds the path when all servers before it have been shut down
  is reached until its own shutdown or a removal by somebody else.
-/

namespace KeyBroker.Host

/-! ### What happens on a path -/

/-- What is done on a path: a new server binds it, a server begins to serve or is shut down,
    or somebody else removes what stands there. -/
inductive Deed where
  | bind (c : ServerConfig)
  | start (number : Nat)
  | stop (number : Nat)
  | remove

/-- The host after a deed on a path. Only a server that is bound and waits can begin to serve,
    and only one that serves can be shut down. -/
def next (w : Service) (p : Path) (h : Host) : Deed → Host
  | .bind c => (h.bind w { c with socketPath := p }).2.1
  | .start n => if h.phase? n = some .waiting then (h.start w n).1 else h
  | .stop n => if h.phase? n = some .serving then (h.stop n).1 else h
  | .remove => { h with tree := (h.tree.remove p).2 }

/-- The host after deeds. -/
def after (w : Service) (p : Path) (h : Host) : List Deed → Host
  | [] => h
  | d :: rest => (h.next w p d).after w p rest

/-- What a deed may change about who is reached on the path. -/
inductive Change where
  | bound (number : Nat)
  | stopped (number : Nat)
  | removed
  deriving DecidableEq, Repr

/-- The change that a deed makes, if any. A binding that is refused makes none. -/
def change? (w : Service) (p : Path) (h : Host) : Deed → Option Change
  | .bind c => (h.bind w { c with socketPath := p }).1.toOption.map .bound
  | .start _ => none
  | .stop n => if h.phase? n = some .serving then some (.stopped n) else none
  | .remove => some .removed

/-- The changes that deeds make, in order. -/
def changes (w : Service) (p : Path) (h : Host) : List Deed → List Change
  | [] => []
  | d :: rest => (h.change? w p d).toList ++ (h.next w p d).changes w p rest

namespace Change

/-- The number of the server that bound the path. -/
def bound? : Change → Option Nat
  | bound n => some n
  | _ => none

/-- The number of the server that was shut down. -/
def stopped? : Change → Option Nat
  | stopped n => some n
  | _ => none

theorem mem_bound {past : List Change} {n : Nat} :
    n ∈ past.filterMap bound? ↔ .bound n ∈ past := by
  rw [List.mem_filterMap]
  constructor
  · rintro ⟨x, hx, hn⟩
    cases x with
    | bound m =>
      cases hn
      exact hx
    | stopped m => cases hn
    | removed => cases hn
  · intro h
    exact ⟨_, h, rfl⟩

theorem mem_stopped {past : List Change} {n : Nat} :
    n ∈ past.filterMap stopped? ↔ .stopped n ∈ past := by
  rw [List.mem_filterMap]
  constructor
  · rintro ⟨x, hx, hn⟩
    cases x with
    | bound m => cases hn
    | stopped m =>
      cases hn
      exact hx
    | removed => cases hn
  · intro h
    exact ⟨_, h, rfl⟩

/-- What is no shutdown adds none to those before. -/
theorem stopped_concat {past : List Change} {x : Change} (hx : x.stopped? = none) :
    (past ++ [x]).filterMap stopped? = past.filterMap stopped? := by
  rw [List.filterMap_append, List.filterMap_cons_none hx]
  exact List.append_nil _

end Change

/-- There is no server yet, and no socket of one. -/
structure Fresh (h : Host) : Prop where
  servers : h.servers = []
  sockets : ∀ q mode n, h.tree.atPlace q ≠ some (.socket mode (.server n))

variable {w : Service} {p : Path} {h now : Host} {past : List Change}

/-! ### What every run keeps -/

/-- The sockets of servers that stand anywhere, told from the changes so far. -/
structure Held (p : Path) (past : List Change) (t : Tree) : Prop where
  /-- Every one of them is that of the server that bound last, with nothing changed since. -/
  owner : ∀ q mode n, t.atPlace q = some (.socket mode (.server n)) →
    t.resolve p = .ok q ∧ past.getLast? = some (.bound n)
  /-- And such a server's socket stands on the path. -/
  stands : ∀ n, past.getLast? = some (.bound n) →
    ∃ q mode, t.resolve p = .ok q ∧ t.atPlace q = some (.socket mode (.server n))

/-- The servers, told from the changes so far. -/
structure Enrolled (p : Path) (past : List Change) (roll : List (Path × Phase)) : Prop where
  /-- Servers are numbered in the order in which they bind. -/
  bounds : past.filterMap Change.bound? = List.range roll.length
  /-- All of them bound the path. -/
  paths : ∀ entry ∈ roll, entry.1 = p
  /-- None is shut down twice, -/
  once : (past.filterMap Change.stopped?).Nodup
  /-- because it has ended then. -/
  ended : ∀ n, .stopped n ∈ past → roll[n]? = some (p, .ended)

/-- What holds of a host after changes on a path. -/
structure Recorded (p : Path) (past : List Change) (h : Host) : Prop where
  enrolled : Enrolled p past h.roll
  held : Held p past h.tree
  ready : h.roll ≠ [] → Ready p h.tree

theorem Fresh.recorded (hfresh : h.Fresh) (p : Path) : Recorded p [] h := by
  have hroll : h.roll = [] := by
    unfold roll
    rw [hfresh.servers]
    rfl
  refine ⟨⟨?_, ?_, List.nodup_nil, nofun⟩, ⟨?_, nofun⟩, fun hne => absurd hroll hne⟩
  · rw [hroll]
    rfl
  · rw [hroll]
    nofun
  · intro q mode n hsocket
    exact absurd hsocket (hfresh.sockets q mode n)

/-- Where the path leads to no socket any more, no server is the last that made a change. -/
theorem Held.of_vacated {t u : Tree} {later : List Change} (hheld : Held p past t)
    (hvacated : Tree.Vacated p t u) (hlast : ∀ n, later.getLast? ≠ some (.bound n)) :
    Held p later u := by
  constructor
  · intro q mode n hsocket
    obtain ⟨hresolve, -⟩ := hheld.owner q mode n (hvacated.fewer _ _ hsocket)
    have hleads := Tree.resolve_of_extends hvacated.kept hresolve
    obtain ⟨mode', hdirectory⟩ := hvacated.vacant q _ hleads hsocket
    cases hdirectory
  · intro n hbound
    exact absurd hbound (hlast n)

theorem Recorded.of_counted (hrecorded : Recorded p past h) (hcounted : Counted h now) :
    Recorded p past now := by
  obtain ⟨henrolled, hheld, hready⟩ := hrecorded
  rw [← hcounted.roll] at henrolled hready
  rw [← hcounted.tree] at hheld hready
  exact ⟨henrolled, hheld, hready⟩

/-! ### What one deed keeps -/

/-- A server that binds the path is the last one that did, and its socket the only one. -/
theorem Recorded.bind (hrecorded : Recorded p past h) {result : Except Fault Nat}
    (hbound : Bound p h result now) :
    Recorded p (past ++ (result.toOption.map Change.bound).toList) now := by
  obtain ⟨henrolled, hheld, hready⟩ := hrecorded
  cases hbound with
  | refused fault after hcounted =>
    show Recorded p (past ++ []) now
    rw [List.append_nil]
    exact Recorded.of_counted ⟨henrolled, hheld, hready⟩ hcounted
  | hindered fault after hroll hunready hsockets =>
    show Recorded p (past ++ []) now
    rw [List.append_nil]
    -- the place was never ready, so there is no server yet
    have hnone : h.roll = [] := by
      by_cases hne : h.roll = []
      · exact hne
      · exact absurd (hready hne) hunready
    have hlast : ∀ n, past.getLast? ≠ some (.bound n) := by
      intro n hlast
      have hmem := Change.mem_bound.mpr (List.mem_of_getLast? hlast)
      rw [henrolled.bounds, hnone] at hmem
      cases hmem
    refine ⟨hroll ▸ henrolled, ⟨?_, ?_⟩, fun hne => absurd (hroll.trans hnone) hne⟩
    · intro q mode n hsocket
      exact absurd (hheld.owner q mode n (hsockets q mode n hsocket)).2 (hlast n)
    · intro n hbound
      exact absurd hbound (hlast n)
  | placed after spot mode hroll hkept hready' hresolve hsocket hsockets =>
    show Recorded p (past ++ [.bound h.roll.length]) now
    have hlength : now.roll.length = h.roll.length + 1 := by rw [hroll, List.length_append]; rfl
    refine ⟨⟨?_, ?_, ?_, ?_⟩, ⟨?_, ?_⟩, fun _ => hready'⟩
    · rw [List.filterMap_append, henrolled.bounds, hlength, List.range_succ]
      rfl
    · intro entry hentry
      rw [hroll, List.mem_append] at hentry
      rcases hentry with hold | hnew
      · exact henrolled.paths entry hold
      · rw [List.mem_singleton.mp hnew]
    · rw [Change.stopped_concat rfl]
      exact henrolled.once
    · intro n hstopped
      rw [← Change.mem_stopped, Change.stopped_concat rfl, Change.mem_stopped] at hstopped
      have hended := henrolled.ended n hstopped
      have hlt := (List.getElem?_eq_some_iff.mp hended).1
      rw [hroll, List.getElem?_append_left hlt]
      exact hended
    · intro q mode' n hstands
      by_cases hq : q = spot
      · subst hq
        rw [hsocket] at hstands
        cases hstands
        exact ⟨hresolve, List.getLast?_concat ..⟩
      · -- an older socket would stand on the path as well
        obtain ⟨hleads, -⟩ := hheld.owner q mode' n (hsockets q mode' n hq hstands)
        rw [Tree.resolve_of_extends hkept hleads] at hresolve
        cases hresolve
        exact absurd rfl hq
    · intro n hlast
      rw [List.getLast?_concat] at hlast
      cases hlast
      exact ⟨spot, mode, hresolve, hsocket⟩

/-- A server comes into another phase, unless it has been shut down. -/
theorem Enrolled.set {roll : List (Path × Phase)} (henrolled : Enrolled p past roll) {n : Nat}
    (phase : Phase) (hopen : .stopped n ∉ past) : Enrolled p past (roll.set n (p, phase)) := by
  refine ⟨?_, ?_, henrolled.once, ?_⟩
  · rw [List.length_set]
    exact henrolled.bounds
  · intro entry hentry
    rcases List.mem_or_eq_of_mem_set hentry with hold | hnew
    · exact henrolled.paths entry hold
    · rw [hnew]
  · intro m hstopped
    have hne : n ≠ m := by
      intro hsame
      subst hsame
      exact hopen hstopped
    rw [List.getElem?_set_ne hne]
    exact henrolled.ended m hstopped

theorem not_stopped_of_phase? (henrolled : Enrolled p past h.roll) {n : Nat} {phase : Phase}
    (hphase : h.phase? n = some phase) (hopen : phase ≠ .ended) : .stopped n ∉ past := by
  intro hstopped
  unfold phase? at hphase
  rw [henrolled.ended n hstopped] at hphase
  exact hopen (Option.some.inj hphase).symm

/-- A server that begins to serve changes nothing on the path. -/
theorem Recorded.start (w : Service) (hrecorded : Recorded p past h) {n : Nat}
    (hphase : h.phase? n = some .waiting) : Recorded p past (h.start w n).1 := by
  obtain ⟨henrolled, hheld, hready⟩ := hrecorded
  obtain ⟨s, hs, hwaits, hentry⟩ := of_phase?_eq_some hphase
  have hpath : s.path = p := henrolled.paths _ (List.mem_of_getElem? hentry)
  have hopen := not_stopped_of_phase? henrolled hphase nofun
  obtain ⟨hroll, htree⟩ := start_of_listening w hs (Server.of_phase_eq_waiting hwaits).1
  rw [hpath] at hroll
  constructor
  · rw [hroll]
    exact henrolled.set .serving hopen
  · rw [htree]
    exact hheld
  · intro _
    rw [htree]
    exact hready (List.ne_nil_of_mem (List.mem_of_getElem? hentry))

/-- A server that is shut down leaves no socket on the path, neither its own nor another. -/
theorem Recorded.stop (hrecorded : Recorded p past h) {n : Nat}
    (hphase : h.phase? n = some .serving) :
    Recorded p (past ++ [.stopped n]) (h.stop n).1 := by
  obtain ⟨henrolled, hheld, hready⟩ := hrecorded
  obtain ⟨s, hs, hserves, hentry⟩ := of_phase?_eq_some hphase
  have hpath : s.path = p := henrolled.paths _ (List.mem_of_getElem? hentry)
  have hopen := not_stopped_of_phase? henrolled hphase nofun
  have hvacated := Tree.vacated_remove h.tree p
  obtain ⟨hroll, htree⟩ := stop_of_server hs
  rw [hpath] at hroll htree
  have hset := henrolled.set .ended hopen
  constructor
  · rw [hroll]
    refine ⟨?_, hset.paths, ?_, ?_⟩
    · rw [List.filterMap_append, ← hset.bounds]
      exact List.append_nil _
    · rw [List.filterMap_append]
      show (past.filterMap Change.stopped? ++ [n]).Nodup
      rw [List.nodup_append]
      refine ⟨henrolled.once, List.pairwise_singleton _ n, ?_⟩
      intro m hm k hk hsame
      subst hsame
      cases List.mem_singleton.mp hk
      exact hopen (Change.mem_stopped.mp hm)
    · intro m hstopped
      rcases List.mem_append.mp hstopped with hold | hnew
      · exact hset.ended m hold
      · cases List.mem_singleton.mp hnew
        rw [List.getElem?_set_self', hentry]
        rfl
  · -- whatever the path led to is gone, whoever put it there
    rw [htree]
    apply hheld.of_vacated hvacated
    intro m hlast
    rw [List.getLast?_concat] at hlast
    cases hlast
  · intro _
    rw [htree]
    exact (hready (List.ne_nil_of_mem (List.mem_of_getElem? hentry))).of_vacated hvacated

/-- A removal by somebody else leaves no socket either. -/
theorem Recorded.remove (hrecorded : Recorded p past h) :
    Recorded p (past ++ [.removed]) { h with tree := (h.tree.remove p).2 } := by
  obtain ⟨henrolled, hheld, hready⟩ := hrecorded
  have hvacated := Tree.vacated_remove h.tree p
  refine ⟨⟨?_, henrolled.paths, ?_, ?_⟩, hheld.of_vacated hvacated ?_, ?_⟩
  · rw [List.filterMap_append]
    exact (List.append_nil _).trans henrolled.bounds
  · rw [Change.stopped_concat rfl]
    exact henrolled.once
  · intro n hstopped
    rw [← Change.mem_stopped, Change.stopped_concat rfl, Change.mem_stopped] at hstopped
    exact henrolled.ended n hstopped
  · intro n hlast
    rw [List.getLast?_concat] at hlast
    cases hlast
  · intro hne
    exact (hready hne).of_vacated hvacated

/-- Every deed keeps the record. -/
theorem Recorded.next (hrecorded : Recorded p past h) (d : Deed) :
    Recorded p (past ++ (h.change? w p d).toList) (h.next w p d) := by
  cases d with
  | bind c => exact hrecorded.bind (bound_bind w { c with socketPath := p } h)
  | start n =>
    show Recorded p (past ++ []) (if h.phase? n = some .waiting then _ else h)
    rw [List.append_nil]
    by_cases hphase : h.phase? n = some .waiting
    · rw [if_pos hphase]
      exact hrecorded.start w hphase
    · rw [if_neg hphase]
      exact hrecorded
  | stop n =>
    show Recorded p (past ++ (if h.phase? n = some .serving then some (.stopped n) else none).toList)
      (if h.phase? n = some .serving then (h.stop n).1 else h)
    by_cases hphase : h.phase? n = some .serving
    · rw [if_pos hphase, if_pos hphase]
      exact hrecorded.stop hphase
    · rw [if_neg hphase, if_neg hphase]
      show Recorded p (past ++ []) h
      rw [List.append_nil]
      exact hrecorded
  | remove => exact hrecorded.remove

/-- And so does every run. -/
theorem Recorded.after (hrecorded : Recorded p past h) (deeds : List Deed) :
    Recorded p (past ++ h.changes w p deeds) (h.after w p deeds) := by
  induction deeds generalizing h past with
  | nil =>
    show Recorded p (past ++ []) h
    rw [List.append_nil]
    exact hrecorded
  | cons d rest ih =>
    have hnext := ih (hrecorded.next (w := w) d)
    rw [List.append_assoc] at hnext
    exact hnext

/-! ### Who is reached -/

variable {n : Nat}

/-- A server is reached on the path where its socket stands there. -/
theorem listenerAt_eq_server (hpath : h.listenerAt p = .ok (.server n)) :
    ∃ q mode, h.tree.resolve p = .ok q
      ∧ h.tree.atPlace q = some (.socket mode (.server n)) := by
  unfold listenerAt Tree.find at hpath
  split at hpath
  · cases hpath
  · cases hresolve : h.tree.resolve p with
    | error cause =>
      rw [hresolve] at hpath
      cases hpath
    | ok q =>
      rw [hresolve] at hpath
      simp only [Except.map] at hpath
      split at hpath
      · cases hpath
      · cases hpath
      · cases hpath
      · next mode listener _ heq =>
        cases hpath
        exact ⟨q, mode, rfl, Except.ok.inj heq⟩
      · cases hpath

theorem listenerAt_of_socket (haddress : p.socketFault? = none) {q : List Bytes} {mode : Nat}
    (hresolve : h.tree.resolve p = .ok q)
    (hsocket : h.tree.atPlace q = some (.socket mode (.server n))) :
    h.listenerAt p = .ok (.server n) := by
  unfold listenerAt Tree.find
  rw [haddress, hresolve]
  simp only [Except.map, hsocket]

/-- The server that is reached is the one that made the last change, by binding the path. -/
theorem Recorded.reached_iff (hrecorded : Recorded p past h) (n : Nat) :
    h.listenerAt p = .ok (.server n) ↔ past.getLast? = some (.bound n) := by
  constructor
  · intro hpath
    obtain ⟨q, mode, -, hsocket⟩ := listenerAt_eq_server hpath
    exact (hrecorded.held.owner q mode n hsocket).2
  · intro hlast
    obtain ⟨q, mode, hresolve, hsocket⟩ := hrecorded.held.stands n hlast
    have hmem := Change.mem_bound.mpr (List.mem_of_getLast? hlast)
    have hne : h.roll ≠ [] := by
      intro hnil
      rw [hrecorded.enrolled.bounds, hnil] at hmem
      cases hmem
    exact listenerAt_of_socket (hrecorded.ready hne).address hresolve hsocket

/-- The last change is the binding itself, or comes after it. -/
theorem getLast?_split {before since : List Change} {x y : Change}
    (hlast : (before ++ x :: since).getLast? = some y) : since = [] ∧ y = x ∨ y ∈ since := by
  rw [List.append_cons, List.getLast?_append] at hlast
  cases hsince : since.getLast? with
  | none =>
    rw [hsince, List.getLast?_concat] at hlast
    exact .inl ⟨List.getLast?_eq_none_iff.mp hsince, (Option.some.inj hlast).symm⟩
  | some z =>
    rw [hsince] at hlast
    cases hlast
    exact .inr (List.mem_of_getLast? hsince)

/-- When the servers before it had been shut down, only the server that bound last can be
    shut down. -/
theorem Enrolled.not_stopped {before since : List Change}
    (henrolled : Enrolled p (before ++ .bound n :: since) h.roll)
    (hlater : ∀ m, .bound m ∉ since) (hearlier : ∀ m, .bound m ∈ before → .stopped m ∈ before)
    {m : Nat} (hother : m ≠ n) : .stopped m ∉ since := by
  intro hstopped
  have hended := henrolled.ended m (List.mem_append_right _ (List.mem_cons_of_mem _ hstopped))
  have hbound : .bound m ∈ before ++ .bound n :: since := by
    rw [← Change.mem_bound, henrolled.bounds, List.mem_range]
    exact (List.getElem?_eq_some_iff.mp hended).1
  rcases List.mem_append.mp hbound with hbefore | hrest
  · -- it was shut down before as well, and nobody is shut down twice
    have honce := henrolled.once
    rw [List.filterMap_append, List.nodup_append] at honce
    exact honce.2.2 m (Change.mem_stopped.mpr (hearlier m hbefore)) m
      (Change.mem_stopped.mpr (List.mem_cons_of_mem _ hstopped)) rfl
  · rcases List.mem_cons.mp hrest with hsame | hsince
    · exact hother (Change.bound.inj hsame)
    · exact hlater m hsince

/-- Servers bind, serve and stop on one path, in any order, and others remove what stands
    there; at first there is no socket of a server. A server is reached on the path exactly
    if it made the last change there by binding it, and who connects while it serves is
    accepted by it. A shutdown leaves nobody to be reached, and takes away the socket of
    another server only if that one has bound the path since. A server that bound the path
    last, when all servers before it had been shut down, is reached until its own shutdown
    or a removal by somebody else. -/
theorem reached_until_shutdown (w : Service) (p : Path) (h : Host) (hfresh : h.Fresh)
    (deeds : List Deed) :
    let now := h.after w p deeds
    let past := h.changes w p deeds
    (∀ n, now.listenerAt p = .ok (.server n) ↔ past.getLast? = some (.bound n))
      ∧ (∀ n o, now.listenerAt p = .ok (.server n) → now.phase? n = some .serving →
          ∃ s, now.servers[n]? = some s
            ∧ (now.tryConnect w o p).2.1.servers[n]? = some { s with accepted := s.accepted + 1 })
      ∧ (∀ n, now.phase? n = some .serving →
          (∀ m, (now.next w p (.stop n)).listenerAt p ≠ .ok (.server m))
            ∧ ∀ m, now.listenerAt p = .ok (.server m) → m ≠ n →
              ∃ before since, past = before ++ .bound n :: since ∧ .bound m ∈ since)
      ∧ (∀ n before since, past = before ++ .bound n :: since → (∀ m, .bound m ∉ since) →
          (∀ m, .bound m ∈ before → .stopped m ∈ before) →
          (now.listenerAt p = .ok (.server n) ↔ .stopped n ∉ since ∧ .removed ∉ since)) := by
  intro now past
  have hrecorded : Recorded p past now := (hfresh.recorded p).after deeds
  refine ⟨hrecorded.reached_iff, ?_, ?_, ?_⟩
  · intro n o hpath hserving
    exact tryConnect_of_serving w o hpath hserving
  · intro n hserving
    constructor
    · intro m hpath
      have hnext : Recorded p (past ++ [.stopped n]) (now.next w p (.stop n)) := by
        show Recorded p _ (if now.phase? n = some .serving then (now.stop n).1 else now)
        rw [if_pos hserving]
        exact hrecorded.stop hserving
      have hlast := (hnext.reached_iff m).mp hpath
      rw [List.getLast?_concat] at hlast
      cases hlast
    · intro m hpath hother
      -- the one that is shut down has bound the path as well, but not last
      obtain ⟨s, -, -, hentry⟩ := of_phase?_eq_some hserving
      have hbound : .bound n ∈ past := by
        rw [← Change.mem_bound, hrecorded.enrolled.bounds, List.mem_range]
        exact (List.getElem?_eq_some_iff.mp hentry).1
      obtain ⟨before, since, hsplit⟩ := List.append_of_mem hbound
      refine ⟨before, since, hsplit, ?_⟩
      have hlast := (hrecorded.reached_iff m).mp hpath
      rw [hsplit] at hlast
      rcases getLast?_split hlast with ⟨-, hsame⟩ | hsince
      · exact absurd (Change.bound.inj hsame) hother
      · exact hsince
  · intro n before since hsplit hlater hearlier
    have henrolled := hrecorded.enrolled
    rw [hrecorded.reached_iff n, hsplit]
    rw [hsplit] at henrolled
    constructor
    · intro hlast
      rcases getLast?_split hlast with ⟨hnone, -⟩ | hsince
      · rw [hnone]
        exact ⟨List.not_mem_nil, List.not_mem_nil⟩
      · exact absurd hsince (hlater n)
    · rintro ⟨hopen, hkept⟩
      -- whatever the next change were, it is none of the three kinds
      cases since with
      | nil => exact List.getLast?_concat ..
      | cons x rest =>
        exfalso
        cases x with
        | bound m => exact hlater m List.mem_cons_self
        | stopped m =>
          by_cases hm : m = n
          · subst hm
            exact hopen List.mem_cons_self
          · exact henrolled.not_stopped hlater hearlier hm List.mem_cons_self
        | removed => exact hkept List.mem_cons_self

/-- A service that knows no keys and grants nothing. -/
def bareService : Service where
  broker := ⟨.empty, fun _ _ => none, {}⟩
  caller := ⟨1000, 100, none⟩
  draws := fun _ _ => ⟨Vector.replicate 12 0, Vector.replicate 64 0, 1⟩

/-- A server that binds after another one was shut down, and still stands when a third one is
    refused. -/
theorem reached_until_shutdown_of_second :
    let p := Path.ofText "/run"
    let c : ServerConfig := { socketPath := p }
    let deeds := [Deed.bind c, .start 0, .stop 0, .bind c, .start 1, .bind c]
    Fresh {}
      ∧ ({} : Host).changes bareService p deeds = [.bound 0, .stopped 0] ++ .bound 1 :: []
      ∧ (({} : Host).after bareService p deeds).listenerAt p = .ok (.server 1) := by
  intro p c deeds
  have hfresh : Fresh {} := ⟨rfl, by
    intro q mode n hsocket
    unfold Tree.atPlace at hsocket
    split at hsocket <;> cases hsocket⟩
  have hpast : ({} : Host).changes bareService p deeds = [.bound 0, .stopped 0] ++ .bound 1 :: [] := by
    decide +kernel
  refine ⟨hfresh, hpast, ?_⟩
  obtain ⟨-, -, -, hreached⟩ := reached_until_shutdown bareService p {} hfresh deeds
  refine (hreached 1 _ [] hpast (fun m => List.not_mem_nil) ?_).mpr
    ⟨List.not_mem_nil, List.not_mem_nil⟩
  intro m hm
  have hm : m = 0 := by simpa using hm
  subst hm
  decide

/-- A server whose socket somebody removed is shut down after another one bound the path, and
    takes the other one's socket away. The other one still serves, and nobody reaches it. -/
theorem taken_by_predecessor :
    let p := Path.ofText "/run"
    let c : ServerConfig := { socketPath := p }
    let now := ({} : Host).after bareService p [.bind c, .start 0, .remove, .bind c, .start 1]
    let later := now.next bareService p (.stop 0)
    now.listenerAt p = .ok (.server 1) ∧ now.phase? 0 = some .serving
      ∧ later.phase? 1 = some .serving ∧ later.listenerAt p = .error .noSuchFile := by
  decide +kernel

end KeyBroker.Host

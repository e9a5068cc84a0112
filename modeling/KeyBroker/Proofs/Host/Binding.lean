import KeyBroker.Host.Server
import KeyBroker.Proofs.Host.Places

/-! # Binding a path

  A new server is refused the path, or is kept from it for want of a place, or puts its
  socket there. To be refused costs nothing: the server that probes is counted by the one
  that answers, and all else stays as it was. Where a socket stood before and was taken for
  stale, nothing keeps the new server from the path, so no path is cleared in vain.
-/

namespace KeyBroker

/-! ### Phases of a server -/

/-- Where a server is in its life. -/
inductive Phase where
  | waiting
  | serving
  | ended
  deriving DecidableEq, Repr

/-- The phase of a server. -/
def Server.phase (s : Server) : Phase :=
  if s.listening then if s.serving then .serving else .waiting else .ended

theorem Server.of_phase_eq_waiting {s : Server} (h : s.phase = .waiting) :
    s.listening = true ∧ s.serving = false := by
  unfold phase at h
  cases hlistening : s.listening <;> cases hserving : s.serving <;> simp_all

theorem Server.of_phase_eq_serving {s : Server} (h : s.phase = .serving) :
    s.listening = true ∧ s.serving = true := by
  unfold phase at h
  cases hlistening : s.listening <;> cases hserving : s.serving <;> simp_all

namespace Host

/-- The paths and the phases of the servers, by number. -/
def roll (h : Host) : List (Path × Phase) := h.servers.map fun s => (s.path, s.phase)

/-- The phase of the server with a number. -/
def phase? (h : Host) (n : Nat) : Option Phase := h.roll[n]?.map (·.2)

theorem roll_length (h : Host) : h.roll.length = h.servers.length := List.length_map ..

/-- A server that has a phase is on the roll. -/
theorem of_phase?_eq_some {h : Host} {n : Nat} {phase : Phase} (hphase : h.phase? n = some phase) :
    ∃ s, h.servers[n]? = some s ∧ s.phase = phase ∧ h.roll[n]? = some (s.path, phase) := by
  unfold phase? roll at hphase
  rw [List.getElem?_map] at hphase
  cases hs : h.servers[n]? with
  | none =>
    rw [hs] at hphase
    cases hphase
  | some s =>
    rw [hs] at hphase
    cases hphase
    refine ⟨s, rfl, rfl, ?_⟩
    unfold roll
    rw [List.getElem?_map, hs]
    rfl

variable {w : Service} {c : ServerConfig} {o : ConnectOptions} {p : Path} {h after : Host}

/-! ### Connecting -/

/-- The same host, but for how many connections there were. -/
structure Counted (h after : Host) : Prop where
  tree : after.tree = h.tree
  roll : after.roll = h.roll

namespace Counted

theorem refl (h : Host) : Counted h h := ⟨rfl, rfl⟩

theorem trans {later : Host} (h₁ : Counted h after) (h₂ : Counted after later) :
    Counted h later :=
  ⟨h₂.tree.trans h₁.tree, h₂.roll.trans h₁.roll⟩

/-- A server at the same path and phase may take the place of another one. -/
theorem set {n : Nat} {s t : Server} (hs : h.servers[n]? = some s)
    (hsame : (t.path, t.phase) = (s.path, s.phase)) (connected : Nat) :
    Counted h { h with servers := h.servers.set n t, connected := connected } := by
  refine ⟨rfl, ?_⟩
  unfold Host.roll
  apply List.ext_getElem?
  intro i
  by_cases hi : n = i
  · subst hi
    rw [List.getElem?_map, List.getElem?_map, List.getElem?_set_self', hs]
    exact congrArg some hsame
  · rw [List.getElem?_map, List.getElem?_map, List.getElem?_set_ne hi]

end Counted

/-- To connect is to be counted, and changes nothing else. -/
theorem counted_tryConnect (w : Service) (o : ConnectOptions) (p : Path) (h : Host) :
    Counted h (h.tryConnect w o p).2.1 := by
  unfold tryConnect
  split
  · exact .refl h
  · exact .refl h
  · exact .refl h
  · split
    · exact .refl h
    · next s hs =>
      split
      · exact .refl h
      · split
        · exact .set (t := { s with pending := s.pending + 1 }) hs rfl h.connected
        · exact .set (t := { s with accepted := s.accepted + 1 }) hs rfl (h.connected + 1)

theorem counted_connectFrom (w : Service) (o : ConnectOptions) (p : Path) (last : String)
    (left : Nat) (h : Host) : Counted h (h.connectFrom w o p last left).2.1 := by
  induction left generalizing last h with
  | zero => exact .refl h
  | succ left ih =>
    have htry := counted_tryConnect w o p h
    unfold connectFrom
    split
    · next line after events heq =>
      rw [heq] at htry
      exact htry
    · next fault after events heq =>
      rw [heq] at htry
      exact htry.trans (ih fault.message after)

theorem counted_connect (w : Service) (o : ConnectOptions) (p : Path) (h : Host) :
    Counted h (h.connect w o p).2.1 :=
  counted_connectFrom w o p "" _ h

/-- Who connects where the socket of a serving server stands is accepted by that server. -/
theorem tryConnect_of_serving {n : Nat} (w : Service) (o : ConnectOptions)
    (hpath : h.listenerAt p = .ok (.server n)) (hphase : h.phase? n = some .serving) :
    ∃ s, h.servers[n]? = some s
      ∧ (h.tryConnect w o p).2.1.servers[n]? = some { s with accepted := s.accepted + 1 } := by
  obtain ⟨s, hs, hserves, -⟩ := of_phase?_eq_some hphase
  obtain ⟨hlistening, hserving⟩ := Server.of_phase_eq_serving hserves
  refine ⟨s, hs, ?_⟩
  unfold tryConnect
  rw [hpath]
  dsimp only
  rw [hs]
  dsimp only
  rw [if_neg (by simp [hlistening]), if_neg (by simp [hserving])]
  show (h.servers.set n { s with accepted := s.accepted + 1 })[n]? = _
  rw [List.getElem?_set_self', hs]
  rfl

/-! ### Serving -/

/-- A server that begins to serve comes into that phase, and no file changes. -/
theorem start_of_listening (w : Service) {n : Nat} {s : Server} (hs : h.servers[n]? = some s)
    (hlistening : s.listening = true) :
    (h.start w n).1.roll = h.roll.set n (s.path, .serving) ∧ (h.start w n).1.tree = h.tree := by
  unfold start
  rw [hs]
  refine ⟨?_, rfl⟩
  unfold roll
  dsimp only
  rw [List.map_set]
  unfold Server.phase
  rw [if_pos hlistening]
  rfl

/-- A server that is shut down has ended, and what its path leads to is removed. -/
theorem stop_of_server {n : Nat} {s : Server} (hs : h.servers[n]? = some s) :
    (h.stop n).1.roll = h.roll.set n (s.path, .ended)
      ∧ (h.stop n).1.tree = (h.tree.remove s.path).2 := by
  unfold stop
  rw [hs]
  refine ⟨?_, rfl⟩
  unfold roll
  dsimp only
  rw [List.map_set]
  rfl

/-! ### Binding -/

/-- Before a new server binds, the path is refused, or it is cleared of any socket. -/
theorem clear_cases (w : Service) (c : ServerConfig) (h : Host) :
    (∃ fault, (h.clear w c).1 = .error fault ∧ Counted h (h.clear w c).2.1)
      ∨ (h.clear w c).1 = .ok () ∧ (h.clear w c).2.1.roll = h.roll
        ∧ Tree.Vacated c.socketPath h.tree (h.clear w c).2.1.tree := by
  have hconnect := counted_connect w (probeOptions c) c.socketPath h
  unfold clear
  dsimp only
  split
  · next mode listener hfind =>
    -- a socket stands there, and counts for stale if the connection fails
    split
    · next line after events heq =>
      rw [heq] at hconnect
      exact .inl ⟨_, rfl, hconnect⟩
    · next fault after events heq =>
      rw [heq] at hconnect
      split
      · next cause tree hremove =>
        refine .inl ⟨_, rfl, ?_, hconnect.roll⟩
        exact (Tree.eq_of_remove_eq_error hremove).trans hconnect.tree
      · next tree hremove =>
        refine .inr ⟨rfl, hconnect.roll, ?_⟩
        have hvacated := Tree.vacated_remove after.tree c.socketPath
        rw [hremove, hconnect.tree] at hvacated
        exact hvacated
  · exact .inl ⟨_, rfl, .refl h⟩
  · -- nothing stands there, or the path leads nowhere
    next hfind =>
    refine .inr ⟨rfl, rfl, Tree.vacated_refl ?_⟩
    intro place what hresolve hwhat
    unfold Tree.find at hfind
    rw [hresolve] at hfind
    have hnone : h.tree.atPlace place = none := Except.ok.inj hfind
    rw [hnone] at hwhat
    cases hwhat
  · next cause hfind =>
    refine .inr ⟨rfl, rfl, Tree.vacated_refl ?_⟩
    intro place what hresolve hwhat
    unfold Tree.find at hfind
    rw [hresolve] at hfind
    cases hfind

/-- The place of a path is ready for a socket: the path may be the address of one, all
    directories on the way are there, and it leads to no directory. -/
structure Ready (p : Path) (t : Tree) : Prop where
  address : p.socketFault? = none
  parents : t.makeParents p = (.ok (), t)
  place : ∃ spot, t.resolve p = .ok spot ∧ t.Bare spot

/-- The host after the socket of a new server was put at its place in a tree. -/
def withServer (h : Host) (c : ServerConfig) (t : Tree) (spot : List Bytes) : Host :=
  { h with
    tree := t.put spot (.socket (c.socketMode.toNat % 512) (.server h.servers.length))
    servers := h.servers ++ [{ path := c.socketPath, limit := c.frameLimit.toNat }] }

/-- The socket is put where nothing stands, or nothing but directories is made. -/
theorem place_cases (c : ServerConfig) (h : Host) :
    (∃ fault, (h.place c).1 = .error fault ∧ (h.place c).2.1.servers = h.servers
        ∧ ((h.place c).2.1.tree = (h.tree.makeParents c.socketPath).2))
      ∨ ∃ t spot, h.tree.makeParents c.socketPath = (.ok (), t)
        ∧ c.socketPath.socketFault? = none ∧ t.resolve c.socketPath = .ok spot
        ∧ t.atPlace spot = none
        ∧ (h.place c).1 = .ok h.servers.length ∧ (h.place c).2.1 = h.withServer c t spot := by
  unfold place
  dsimp only
  split
  · next cause tree hmade =>
    rw [hmade]
    exact .inl ⟨_, rfl, rfl, rfl⟩
  · next tree hmade =>
    split
    · rw [hmade]
      exact .inl ⟨_, rfl, rfl, rfl⟩
    · next haddress =>
      split
      · rw [hmade]
        exact .inl ⟨_, rfl, rfl, rfl⟩
      · next spot hresolve =>
        split
        · rw [hmade]
          exact .inl ⟨_, rfl, rfl, rfl⟩
        · next hnone =>
          exact .inr ⟨tree, spot, hmade, haddress, hresolve, hnone, rfl, rfl⟩

/-- Where the place is ready and cleared, nothing keeps a new server from its path. -/
theorem place_of_ready (hready : Ready c.socketPath h.tree)
    (hvacant : ∀ place what, h.tree.resolve c.socketPath = .ok place →
      h.tree.atPlace place = some what → ∃ mode, what = .directory mode) :
    ∃ n, (h.place c).1 = .ok n := by
  obtain ⟨spot, hresolve, hbare⟩ := hready.place
  have hnone : h.tree.atPlace spot = none := by
    cases hwhat : h.tree.atPlace spot with
    | none => rfl
    | some what =>
      obtain ⟨mode, rfl⟩ := hvacant spot what hresolve hwhat
      exact absurd hwhat (hbare mode)
  unfold place
  simp only [hready.parents, hready.address, hresolve, hnone]
  exact ⟨_, rfl⟩

theorem Ready.of_vacated {t u : Tree} (hready : Ready p t) (hvacated : Tree.Vacated p t u) :
    Ready p u := by
  obtain ⟨spot, hresolve, hbare⟩ := hready.place
  refine ⟨hready.address, Tree.makeParents_of_extends hready.parents hvacated.kept, spot,
    Tree.resolve_of_extends hvacated.kept hresolve, ?_⟩
  intro mode hdirectory
  exact hbare mode (hvacated.fewer _ _ hdirectory)

/-- All that can come of binding a path: what is given, and the host afterwards. -/
inductive Bound (p : Path) (h : Host) : Except Fault Nat → Host → Prop where
  /-- The path is refused. -/
  | refused (fault : Fault) (after : Host) (hcounted : Counted h after) :
    Bound p h (.error fault) after
  /-- There is no place for a socket, and there was none before. -/
  | hindered (fault : Fault) (after : Host) (hroll : after.roll = h.roll)
      (hready : ¬ Ready p h.tree)
      (hsockets : ∀ q mode n, after.tree.atPlace q = some (.socket mode (.server n)) →
        h.tree.atPlace q = some (.socket mode (.server n))) :
    Bound p h (.error fault) after
  /-- The socket of the new server stands on the path, and no other socket is new. -/
  | placed (after : Host) (spot : List Bytes) (mode : Nat)
      (hroll : after.roll = h.roll ++ [(p, .waiting)]) (hkept : h.tree.Extends after.tree)
      (hready : Ready p after.tree) (hresolve : after.tree.resolve p = .ok spot)
      (hsocket : after.tree.atPlace spot = some (.socket mode (.server h.roll.length)))
      (hsockets : ∀ q mode n, q ≠ spot →
        after.tree.atPlace q = some (.socket mode (.server n)) →
        h.tree.atPlace q = some (.socket mode (.server n))) :
    Bound p h (.ok h.roll.length) after

/-- A socket that is put on a cleared path is the only one that is new. -/
theorem bound_withServer {cleared : Host} {t : Tree} {spot : List Bytes}
    (hroll : cleared.roll = h.roll) (hvacated : Tree.Vacated c.socketPath h.tree cleared.tree)
    (hmade : cleared.tree.makeParents c.socketPath = (.ok (), t))
    (haddress : c.socketPath.socketFault? = none) (hresolve : t.resolve c.socketPath = .ok spot)
    (hnone : t.atPlace spot = none) :
    Bound c.socketPath h (.ok h.roll.length) (cleared.withServer c t spot) := by
  have hmore : cleared.tree.Extends t := by
    have hparents := Tree.extends_makeParents cleared.tree c.socketPath
    rwa [hmade] at hparents
  have hnumber : cleared.servers.length = h.roll.length := by rw [← hroll, roll_length]
  unfold withServer
  rw [hnumber]
  generalize hmode : c.socketMode.toNat % 512 = mode
  have hput := Tree.extends_put (Tree.bare_of_atPlace hnone nofun)
    (.socket mode (.server h.roll.length))
  have hself : (t.put spot (.socket mode (.server h.roll.length))).atPlace spot
      = some (.socket mode (.server h.roll.length)) :=
    Tree.atPlace_put_self (Tree.ne_nil_of_atPlace_eq_none hnone)
  have hleads := Tree.resolve_of_extends hput hresolve
  refine .placed _ spot mode ?_ ((hvacated.kept.trans hmore).trans hput)
    ⟨haddress, Tree.makeParents_of_extends hmade hput, spot, hleads,
      Tree.bare_of_atPlace hself nofun⟩
    hleads hself ?_
  · unfold Host.roll at hroll ⊢
    rw [List.map_append, hroll]
    rfl
  · -- any other socket stood there before the directories were made and the path was cleared
    intro q mode' n hq hsocket
    rw [Tree.atPlace_put_of_ne hq] at hsocket
    have hparents : (cleared.tree.makeParents c.socketPath).2.atPlace q
        = some (.socket mode' (.server n)) := by
      rw [hmade]
      exact hsocket
    exact hvacated.fewer _ _ (Tree.atPlace_of_makeParents hparents nofun)

/-- Nothing else can come of it. -/
theorem bound_bind (w : Service) (c : ServerConfig) (h : Host) :
    Bound c.socketPath h (h.bind w c).1 (h.bind w c).2.1 := by
  have hclear := clear_cases w c h
  unfold bind
  split
  · next fault after events heq =>
    rw [heq] at hclear
    rcases hclear with ⟨fault', -, hcounted⟩ | ⟨hok, -⟩
    · exact .refused fault after hcounted
    · cases hok
  · next cleared events heq =>
    rw [heq] at hclear
    rcases hclear with ⟨fault, hok, -⟩ | ⟨-, hroll, hvacated⟩
    · cases hok
    · dsimp only at hroll hvacated ⊢
      rcases place_cases c cleared with ⟨fault, hresult, hservers, htree⟩ | hplaced
      · -- only a place that was not ready before can hinder
        rw [hresult]
        refine .hindered fault _ ?_ ?_ ?_
        · unfold Host.roll at hroll ⊢
          rw [hservers, hroll]
        · intro hready
          obtain ⟨n, hok⟩ := place_of_ready (hready.of_vacated hvacated) hvacated.vacant
          rw [hresult] at hok
          cases hok
        · intro q mode n hq
          rw [htree] at hq
          exact hvacated.fewer _ _ (Tree.atPlace_of_makeParents hq nofun)
      · obtain ⟨t, spot, hmade, haddress, hresolve, hnone, hresult, hafter⟩ := hplaced
        rw [hresult, hafter, ← roll_length, hroll]
        exact bound_withServer hroll hvacated hmade haddress hresolve hnone

end Host

end KeyBroker

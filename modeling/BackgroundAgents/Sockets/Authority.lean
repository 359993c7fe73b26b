import BackgroundAgents.Sockets.Leases
import BackgroundAgents.Lib.Transition

/-!
# Bridge authority over whole runs

A run interleaves what the session asks of its manager with what happens to it:
sockets close late or from the other side, the sandbox row moves on, the session
hibernates. `State` remembers beside the world which sandbox socket was accepted
last and not detached since, and which lease every client was granted.
`bridge_authority` is what holds in every state reached.
-/

namespace BackgroundAgents.Sockets

open Transition

structure State where
  world : World
  /-- the sandbox socket accepted last, unless it was detached since -/
  bridge : Option Nat
  /-- the lease granted to a client socket, unless it was removed since -/
  lease : Nat → Option Int

inductive Act where
  | acceptClient (ws : Nat) (wsId : Text)
  | acceptSandbox (ws : Nat) (sandboxId : Option Text) (suffix : Text) (host : Nat → CloseOutcome)
  | getSandboxSocket (host : Nat → CloseOutcome)
  | getSandboxCommandTarget (host : Nat → CloseOutcome)
  | clearSandboxSocket
  | detachSandboxSocket (host : Nat → CloseOutcome)
  /-- The close event of a sandbox socket: `clearSandboxSocketIfMatch`. -/
  | closeEvent (ws : Nat)
  /-- A close by either side, or an earlier one that completes now. -/
  | close (ws : Nat) (outcome : CloseOutcome)
  /-- The host stops listing a socket that is no longer open. -/
  | dropped (ws : Nat)
  | rowChanged (status : SandboxStatus) (modal_sandbox_id boot_phase : Option Text)
  /-- A spawn reservation or a fence: the row changes and names no socket any more. -/
  | rowRevoked (status : SandboxStatus) (modal_sandbox_id boot_phase : Option Text)
  | hibernate
  | activateClient (ws : Nat) (info : ClientInfo) (synchronized : Bool)
  | removeClient (ws : Nat)
  | setClientSynchronizing (ws : Nat) (synchronizing : Bool)
  | lookupClient (ws : Nat) (host : Nat → CloseOutcome)
  | getClientInfo (ws : Nat) (host : Nat → CloseOutcome)
  | isAuthenticated (ws : Nat) (host : Nat → CloseOutcome)
  | forEachClientSocket (host : Nat → CloseOutcome)
  | expireAuthorizationLeases (host : Nat → CloseOutcome)
  | tick (now : Int)
  | participantAdded (id : Text)

/-- The socket id in a sandbox socket's tags. -/
def Classification.socketId : Classification → Option Text
  | .sandbox _ socketId => socketId
  | .client _ => none

/-- No socket carries this id in its tags. -/
def World.unusedSocketId (w : World) (socketId : Text) : Prop :=
  ∀ s ∈ w.sockets.rows, (classify w s.id).socketId ≠ some socketId

def World.unusedWsId (w : World) (wsId : Text) : Prop :=
  ∀ s ∈ w.sockets.rows, clientWsId w s.id ≠ some wsId

instance (w : World) (socketId : Text) : Decidable (w.unusedSocketId socketId) :=
  inferInstanceAs (Decidable (∀ s ∈ w.sockets.rows, (classify w s.id).socketId ≠ some socketId))

instance (w : World) (wsId : Text) : Decidable (w.unusedWsId wsId) :=
  inferInstanceAs (Decidable (∀ s ∈ w.sockets.rows, clientWsId w s.id ≠ some wsId))

def State.step (s : State) : Act → Option State
  | .acceptClient ws wsId =>
    if wsId ≠ [] ∧ s.world.unusedWsId wsId then
      (Sockets.acceptClientSocket s.world ws wsId).map fun world => { s with world }
    else none
  | .acceptSandbox ws sandboxId suffix host =>
    if s.world.unusedSocketId (newSocketId suffix) then
      (acceptAndSetSandboxSocket s.world ws sandboxId suffix host).map fun accepted =>
        { s with world := accepted.1, bridge := some ws }
    else none
  | .getSandboxSocket host => some { s with world := (Sockets.getSandboxSocket s.world host).2 }
  | .getSandboxCommandTarget host =>
    some { s with world := (Sockets.getSandboxCommandTarget s.world host).2 }
  | .clearSandboxSocket => some { s with world := Sockets.clearSandboxSocket s.world }
  | .detachSandboxSocket host =>
    some { s with world := Sockets.detachSandboxSocket s.world host, bridge := none }
  | .closeEvent ws => some { s with world := (clearSandboxSocketIfMatch s.world ws).2 }
  | .close ws outcome =>
    some { s with world := { s.world with sockets := s.world.sockets.close ws outcome } }
  | .dropped ws =>
    some
      { s with
        world :=
          { s.world with
            sockets := s.world.sockets.update (fun x => x.id = ws ∧ x.isOpen = false)
              fun x => { x with listed := false } } }
  | .rowChanged status modal_sandbox_id boot_phase =>
    some
      { s with
        world :=
          { s.world with
            row := s.world.row.map fun row => { row with status, modal_sandbox_id, boot_phase } } }
  | .rowRevoked status modal_sandbox_id boot_phase =>
    some
      { s with
        world :=
          { s.world with
            row := s.world.row.map fun _ =>
              { status, modal_sandbox_id, boot_phase, active_socket_id := some [] } } }
  | .hibernate => some { s with world := { s.world with memory := Memory.fresh } }
  | .activateClient ws info synchronized =>
    -- the mapping's participant is a foreign key
    if s.world.participants.any (· = info.participantId) then
      (Sockets.activateClient s.world ws info synchronized).map fun activated =>
        { s with
          world := activated.2
          lease :=
            if activated.1 then Function.update s.lease ws (some info.authorizationExpiresAt)
            else s.lease }
    else none
  | .removeClient ws =>
    some
      { s with
        world := (Sockets.removeClient s.world ws).2
        lease := Function.update s.lease ws none }
  | .setClientSynchronizing ws synchronizing =>
    some { s with world := Sockets.setClientSynchronizing s.world ws synchronizing }
  | .lookupClient ws host => some { s with world := (Sockets.lookupClient s.world ws host).2 }
  | .getClientInfo ws host => some { s with world := (Sockets.getClientInfo s.world ws host).2 }
  | .isAuthenticated ws host => some { s with world := (Sockets.isAuthenticated s.world ws host).2 }
  | .forEachClientSocket host =>
    some
      { s with
        world := (authenticatedClientSockets host s.world.sockets.listedIds s.world).2 }
  | .expireAuthorizationLeases host =>
    some { s with world := Sockets.expireAuthorizationLeases s.world host }
  | .tick now => if s.world.now ≤ now then some { s with world := { s.world with now } } else none
  | .participantAdded id =>
    some { s with world := { s.world with participants := id :: s.world.participants } }

def socketSystem : System State Act where
  step := State.step

/-- A session that has no socket yet, over a sandbox row. -/
def State.initial (row : SandboxRow) (participants : List Text) (now : Int) : State where
  world :=
    { sockets := Table.empty
      memory := Memory.fresh
      row := some row
      mappings := Table.empty
      participants
      now }
  bridge := none
  lease _ := none

/-! ## The invariant -/

/-- The row names a socket id or revokes it, and only the bridge carries the id it names. -/
structure Bridged (s : State) : Prop where
  row : ∃ row active, s.world.row = some row ∧ row.active_socket_id = some active
  named : ∀ row active ws, s.world.row = some row → row.active_socket_id = some active →
    (classify s.world ws).socketId = some active → s.bridge = some ws
  nonempty : ∀ ws, (classify s.world ws).socketId ≠ some []
  distinct : ∀ ws ws' socketId, (classify s.world ws).socketId = some socketId →
    (classify s.world ws').socketId = some socketId → ws = ws'
  listed : s.world.Listed
  leased : s.world.Leased s.lease

theorem Bridged.initial {row : SandboxRow} (h : row.active_socket_id ≠ none)
    (participants : List Text) (now : Int) : Bridged (.initial row participants now) := by
  obtain ⟨active, ha⟩ := Option.ne_none_iff_exists'.mp h
  exact
    { row := ⟨row, active, rfl, ha⟩
      named := by
        intro _ _ ws _ _ hws
        cases hws
      nonempty := by
        intro ws hws
        cases hws
      distinct := by
        intro ws _ _ hws
        cases hws
      listed := by
        intro ws hws
        cases hws
      leased :=
        { persisted := fun _ => rfl
          cached := fun _ _ he => by cases he
          known := fun _ _ he => by cases he
          distinct := fun _ _ _ hw => by cases hw
          owned := fun _ hm => by cases hm
          joined := fun _ hm => by cases hm } }

variable {s : State} {ws : Nat}

/-- The active socket is the bridge. -/
theorem Bridged.active (h : Bridged s) (ha : isActiveSandboxSocket s.world ws = true) :
    s.bridge = some ws := by
  obtain ⟨row, active, hrow, hactive⟩ := h.row
  rw [isActiveSandboxSocket, hrow] at ha
  obtain ⟨sandboxId, hc, _⟩ := isAuthoritative_names hactive ha
  exact h.named row active ws hrow hactive (by rw [hc]; rfl)

theorem Bridged.exclusive (h : Bridged s) : s.world.Exclusive := by
  intro ws ws' ha ha'
  exact Option.some.inj ((h.active ha).symm.trans (h.active ha'))

/-- Closing sockets, moving the pointer and changing leases keeps the bridge. -/
theorem Bridged.steady (h : Bridged s) {w : World} {lease : Nat → Option Int}
    (hs : s.world.Steady w) (hl : w.Leased lease) : Bridged { s with world := w, lease } := by
  have hc : ∀ ws, classify w ws = classify s.world ws := by
    intro ws
    rw [classify, hs.sockets.tags ws]
    rfl
  exact
    { row := by
        dsimp only
        rw [hs.row]
        exact h.row
      named := by
        intro row active ws hrow hactive hws
        rw [hs.row] at hrow
        rw [hc ws] at hws
        exact h.named row active ws hrow hactive hws
      nonempty := by
        intro ws hws
        rw [hc ws] at hws
        exact h.nonempty ws hws
      distinct := by
        intro ws ws' socketId hw hw'
        rw [hc ws] at hw
        rw [hc ws'] at hw'
        exact h.distinct ws ws' socketId hw hw'
      listed := listed_of_steady hs h.listed
      leased := hl }

theorem Bridged.quiet (h : Bridged s) {w : World} (hq : s.world.Quiet w) :
    Bridged { s with world := w } :=
  h.steady hq.toSteady (leased_quiet hq h.leased)

/-- The columns of the row other than its socket id decide nothing here. -/
theorem Bridged.rowChanged (h : Bridged s) (f : SandboxRow → SandboxRow)
    (hf : ∀ row, (f row).active_socket_id = row.active_socket_id) :
    Bridged { s with world := { s.world with row := s.world.row.map f } } :=
  { h with
    row := by
      obtain ⟨row, active, hrow, hactive⟩ := h.row
      exact ⟨f row, active, by dsimp only; rw [hrow]; rfl, (hf row).trans hactive⟩
    named := by
      intro row active ws hrow hactive hws
      obtain ⟨old, hold, rfl⟩ := Option.map_eq_some_iff.mp hrow
      exact h.named old active ws hold ((hf old).symm.trans hactive) hws
    leased := ⟨h.leased.persisted, h.leased.cached, h.leased.known, h.leased.distinct,
      h.leased.owned, h.leased.joined⟩ }

/-- Once the row's socket id is revoked no socket carries it. -/
theorem Bridged.revoked (h : Bridged s) (f : SandboxRow → SandboxRow)
    (hf : ∀ row, (f row).active_socket_id = some []) (bridge : Option Nat) :
    Bridged { s with world := { s.world with row := s.world.row.map f }, bridge } where
  row := by
    obtain ⟨row, active, hrow, _⟩ := h.row
    exact ⟨f row, [], by dsimp only; rw [hrow]; rfl, hf row⟩
  named := by
    intro row active ws hrow hactive hws
    obtain ⟨old, hold, rfl⟩ := Option.map_eq_some_iff.mp hrow
    rw [hf old, Option.some.injEq] at hactive
    subst hactive
    exact absurd hws (h.nonempty ws)
  nonempty := h.nonempty
  distinct := h.distinct
  listed := h.listed
  leased := ⟨h.leased.persisted, h.leased.cached, h.leased.known, h.leased.distinct,
    h.leased.owned, h.leased.joined⟩

/-! ## Accepting a socket -/

/-- What adopting a socket does to the tags of all sockets. -/
structure World.Adopted (w w' : World) (ws : Nat) (tags : List Text) : Prop where
  own : w'.sockets.tags ws = tags
  others : ∀ x, x ≠ ws → w'.sockets.tags x = w.sockets.tags x
  fresh : w.sockets.tags ws = []
  listed : w.Listed → w'.Listed
  row : w'.row = w.row

theorem adopt_adopted {w w' : World} {tags : List Text} (h : adopt w ws tags = some w') :
    w.Adopted w' ws tags := by
  obtain ⟨sockets, hs, rfl⟩ := Option.map_eq_some_iff.mp h
  have hget := Table.get?_insert? hs
  dsimp only at hget
  exact
    { own := by simp only [SocketTable.tags, hget, if_pos, Option.map_some, Option.getD_some]
      others := by
        intro x hx
        simp only [SocketTable.tags, hget, if_neg (Ne.symm hx)]
      fresh := by
        have hn : w.sockets.get? ws = none := Table.get?_of_insert? hs
        simp only [SocketTable.tags, hn]
        rfl
      listed := by
        intro hl x hx
        simp only [SocketTable.isOpen, hget] at hx
        simp only [SocketTable.listedIds, Table.rows_insert? hs, List.filter_append,
          List.map_append, List.mem_append]
        by_cases hw : ws = x
        · exact .inr (by simp [hw])
        · rw [if_neg hw] at hx
          exact .inl (hl x hx)
      row := rfl }

/-- A socket the host does not know has no tags. -/
theorem tags_of_notMem {t : SocketTable} (h : ∀ s ∈ t.rows, s.id ≠ ws) :
    t.tags ws = [] := by
  have hn : t.get? ws = none := Table.get?_eq_none.mpr h
  simp only [SocketTable.tags, hn]
  rfl

theorem classify_of_notMem {w : World} (h : ∀ s ∈ w.sockets.rows, s.id ≠ ws) :
    classify w ws = .client none := by
  rw [classify, tags_of_notMem h]
  rfl

theorem World.unusedSocketId.everywhere {w : World} {socketId : Text}
    (h : w.unusedSocketId socketId) (ws : Nat) : (classify w ws).socketId ≠ some socketId := by
  by_cases hm : ∀ s ∈ w.sockets.rows, s.id ≠ ws
  · rw [classify_of_notMem hm]
    intro he
    cases he
  · push Not at hm
    obtain ⟨s, hs, rfl⟩ := hm
    exact h s hs

theorem World.unusedWsId.everywhere {w : World} {wsId : Text} (h : w.unusedWsId wsId) (ws : Nat) :
    clientWsId w ws ≠ some wsId := by
  by_cases hm : ∀ s ∈ w.sockets.rows, s.id ≠ ws
  · rw [clientWsId, classify_of_notMem hm]
    intro he
    cases he
  · push Not at hm
    obtain ⟨s, hs, rfl⟩ := hm
    exact h s hs

theorem classifyTags_client (wsId : Text) :
    classifyTags [wsidPrefix ++ wsId] = .client (some wsId) := rfl

theorem classifyTags_sandbox (sandboxId : Option Text) (socketId : Text) :
    classifyTags (sandboxTags sandboxId socketId) =
      .sandbox (sandboxId.filter (· ≠ [])) (some socketId) := by
  cases h : sandboxId.filter (· ≠ []) with
  | none =>
    simp only [sandboxTags, h]
    rfl
  | some id =>
    simp only [sandboxTags, h]
    rfl

theorem Bridged.acceptClient (h : Bridged s) {wsId : Text} {w : World}
    (hnew : s.world.unusedWsId wsId) (ha : Sockets.acceptClientSocket s.world ws wsId = some w) :
    Bridged { s with world := w } := by
  have had := adopt_adopted ha
  have hown : classify w ws = .client (some wsId) := by
    rw [classify, had.own]
    exact classifyTags_client wsId
  have hc : ∀ x, (classify w x).socketId = (classify s.world x).socketId := by
    intro x
    by_cases hx : x = ws
    · subst hx
      rw [hown, classify, had.fresh]
      rfl
    · rw [classify, had.others x hx]
      rfl
  exact
    { row := by
        dsimp only
        rw [had.row]
        exact h.row
      named := by
        intro row active x hrow hactive hx
        rw [had.row] at hrow
        rw [hc x] at hx
        exact h.named row active x hrow hactive hx
      nonempty := by
        intro x hx
        rw [hc x] at hx
        exact h.nonempty x hx
      distinct := by
        intro x y socketId hx hy
        rw [hc x] at hx
        rw [hc y] at hy
        exact h.distinct x y socketId hx hy
      listed := had.listed h.listed
      leased := by
        refine leased_adopt h.leased ha ?_
        intro x id hid
        rw [clientWsId, hown, Option.filter_eq_some_iff] at hid
        obtain ⟨rfl⟩ := Option.some.inj hid.1
        exact hnew.everywhere x }

theorem newSocketId_ne_nil (suffix : Text) : newSocketId suffix ≠ [] := by
  simp [newSocketId]

/-- **Accepting a sandbox socket** makes it the bridge before any earlier one is closed. -/
theorem Bridged.acceptSandbox (h : Bridged s) {sandboxId : Option Text} {suffix : Text}
    {host : Nat → CloseOutcome} {accepted : World × Bool}
    (hnew : s.world.unusedSocketId (newSocketId suffix))
    (ha : acceptAndSetSandboxSocket s.world ws sandboxId suffix host = some accepted) :
    Bridged { s with world := accepted.1, bridge := some ws } := by
  obtain ⟨w, hw, rfl⟩ := Option.map_eq_some_iff.mp ha
  have had := adopt_adopted hw
  have hown : (classify w ws).socketId = some (newSocketId suffix) := by
    rw [classify, had.own, classifyTags_sandbox]
    rfl
  have hothers : ∀ x, x ≠ ws → (classify w x).socketId = (classify s.world x).socketId := by
    intro x hx
    rw [classify, had.others x hx]
    rfl
  have hnamed : ∀ x, (classify w x).socketId = some (newSocketId suffix) → x = ws := by
    intro x hx
    by_contra hne
    rw [hothers x hne] at hx
    exact hnew.everywhere x hx
  have hleased : w.Leased s.lease := by
    refine leased_adopt h.leased hw ?_
    intro x id hid
    rw [clientWsId, classify, had.own, classifyTags_sandbox] at hid
    cases hid
  -- the row is written; every close comes after it
  have hb : Bridged
      { s with
        world := { w with row := w.row.map fun row =>
          { row with active_socket_id := some (newSocketId suffix) } }
        bridge := some ws } :=
    { row := by
        obtain ⟨row, _, hrow, _⟩ := h.row
        exact ⟨_, newSocketId suffix, by dsimp only; rw [had.row, hrow]; rfl, rfl⟩
      named := by
        intro row active x hrow hactive hx
        obtain ⟨old, _, rfl⟩ := Option.map_eq_some_iff.mp hrow
        rw [← Option.some.inj hactive] at hx
        exact congrArg some (hnamed x hx).symm
      nonempty := by
        intro x hx
        change (classify w x).socketId = _ at hx
        by_cases hxw : x = ws
        · subst hxw
          rw [hown] at hx
          exact newSocketId_ne_nil suffix (Option.some.inj hx)
        · rw [hothers x hxw] at hx
          exact h.nonempty x hx
      distinct := by
        intro x y socketId hx hy
        change (classify w x).socketId = _ at hx
        change (classify w y).socketId = _ at hy
        by_cases hxw : x = ws
        · subst hxw
          rw [hown] at hx
          exact (hnamed y (hy.trans hx.symm)).symm
        · by_cases hyw : y = ws
          · subst hyw
            rw [hown] at hy
            exact hnamed x (hx.trans hy.symm)
          · rw [hothers x hxw] at hx
            rw [hothers y hyw] at hy
            exact h.distinct x y socketId hx hy
      listed := had.listed h.listed
      leased := ⟨hleased.persisted, hleased.cached, hleased.known, hleased.distinct, hleased.owned,
        hleased.joined⟩ }
  exact hb.quiet ((quiet_closeAll host _ _).trans (quiet_pointer _ (some ws)))

/-! ## One step -/

theorem quiet_clearIfMatch (w : World) (ws : Nat) : w.Quiet (clearSandboxSocketIfMatch w ws).2 := by
  unfold clearSandboxSocketIfMatch
  dsimp only
  split
  next => exact quiet_pointer w none
  next => exact .refl w

theorem mem_listedIds {t : SocketTable} :
    ws ∈ t.listedIds ↔ ∃ x, t.get? ws = some x ∧ x.listed = true := by
  simp only [SocketTable.listedIds, List.mem_map, List.mem_filter, Table.get?_eq_some]
  constructor
  · intro hboth
    obtain ⟨x, ⟨hx, hl⟩, hid⟩ := hboth
    exact ⟨x, ⟨hx, hid⟩, hl⟩
  · intro hboth
    obtain ⟨x, ⟨hx, hid⟩, hl⟩ := hboth
    exact ⟨x, ⟨hx, hl⟩, hid⟩

/-- A socket that is no longer listed was not open. -/
theorem Bridged.dropped (h : Bridged s) {sockets : SocketTable}
    (hs : sockets = s.world.sockets.update (fun x => x.id = ws ∧ x.isOpen = false)
      fun x => { x with listed := false }) :
    Bridged { s with world := { s.world with sockets } } := by
  have hget : ∀ x, sockets.get? x = (s.world.sockets.get? x).map fun r =>
      if r.id = ws ∧ r.isOpen = false then { r with listed := false } else r := by
    intro x
    simp only [hs, Table.get?_update, decide_eq_true_eq]
  have htags : ∀ x, sockets.tags x = s.world.sockets.tags x := by
    intro x
    simp only [SocketTable.tags, hget, Option.map_map]
    congr 2
    funext r
    simp only [Function.comp]
    split <;> rfl
  have hc : ∀ x, classify { s.world with sockets } x = classify s.world x := by
    intro x
    rw [classify, classify]
    exact congrArg classifyTags (htags x)
  exact
    { row := h.row
      named := by
        intro row active x hrow hactive hx
        rw [hc x] at hx
        exact h.named row active x hrow hactive hx
      nonempty := by
        intro x hx
        rw [hc x] at hx
        exact h.nonempty x hx
      distinct := by
        intro x y socketId hx hy
        rw [hc x] at hx
        rw [hc y] at hy
        exact h.distinct x y socketId hx hy
      listed := by
        intro x hx
        simp only [SocketTable.isOpen, hget] at hx
        cases hr : s.world.sockets.get? x with
        | none => simp [hr] at hx
        | some r =>
          rw [hr, Option.map_some, Option.any_some] at hx
          have ho : r.isOpen = true := by
            split at hx
            next => exact hx
            next => exact hx
          have hl := h.listed x (by simp [SocketTable.isOpen, hr, ho])
          obtain ⟨r', hr', hlisted⟩ := mem_listedIds.mp hl
          rw [hr, Option.some.injEq] at hr'
          subst hr'
          refine mem_listedIds.mpr ⟨r, ?_, hlisted⟩
          change sockets.get? x = some r
          rw [hget, hr, Option.map_some, if_neg (by simp [ho])]
      leased := leased_of_tags h.leased htags rfl rfl rfl rfl }

/-- An activation grants its lease exactly where it publishes. -/
theorem Bridged.activate (h : Bridged s) {info : ClientInfo} {synchronized : Bool}
    {activated : Bool × World} (hparticipant : info.participantId ∈ s.world.participants)
    (ha : Sockets.activateClient s.world ws info synchronized = some activated) :
    Bridged { s with
      world := activated.2
      lease :=
        if activated.1 then Function.update s.lease ws (some info.authorizationExpiresAt)
        else s.lease } := by
  refine h.steady (steady_activate ha) ?_
  cases synchronized with
  | false =>
    unfold Sockets.activateClient at ha
    split at ha
    next => cases ha
    next =>
      split at ha
      next => cases ha
      next =>
        rw [if_pos (by simp)] at ha
        cases ha
        exact h.leased
  | true =>
    have hpublished : activated.1 = true := by
      unfold Sockets.activateClient at ha
      split at ha
      next => cases ha
      next =>
        split at ha
        next => cases ha
        next =>
          rw [if_neg (by simp)] at ha
          cases ha
          rfl
    obtain ⟨published, w⟩ := activated
    dsimp only at hpublished
    subst hpublished
    exact leased_activate h.leased hparticipant ha

theorem Bridged.step {s t : State} (h : Bridged s) {a : Act} (hstep : s.step a = some t) :
    Bridged t := by
  cases a with
  | acceptClient ws wsId =>
    simp only [State.step] at hstep
    split at hstep
    next hnew =>
      obtain ⟨w, ha, rfl⟩ := Option.map_eq_some_iff.mp hstep
      exact h.acceptClient hnew.2 ha
    next => cases hstep
  | acceptSandbox ws sandboxId suffix host =>
    simp only [State.step] at hstep
    split at hstep
    next hnew =>
      obtain ⟨accepted, ha, rfl⟩ := Option.map_eq_some_iff.mp hstep
      exact h.acceptSandbox hnew ha
    next => cases hstep
  | getSandboxSocket host =>
    cases hstep
    exact h.quiet (quiet_getForRow s.world s.world.row host)
  | getSandboxCommandTarget host =>
    cases hstep
    exact h.quiet (quiet_commandTarget s.world host)
  | clearSandboxSocket =>
    cases hstep
    exact h.quiet (quiet_pointer s.world none)
  | detachSandboxSocket host =>
    cases hstep
    have hr := h.revoked (fun row => { row with active_socket_id := some [] }) (fun _ => rfl) none
    exact hr.quiet ((quiet_pointer _ none).trans (quiet_closeAll host _ _))
  | closeEvent ws =>
    cases hstep
    exact h.quiet (quiet_clearIfMatch s.world ws)
  | close ws outcome =>
    cases hstep
    exact h.quiet (quiet_close s.world ws outcome)
  | dropped ws =>
    cases hstep
    exact h.dropped rfl
  | rowChanged status modal_sandbox_id boot_phase =>
    cases hstep
    exact h.rowChanged _ fun _ => rfl
  | rowRevoked status modal_sandbox_id boot_phase =>
    cases hstep
    exact h.revoked _ (fun _ => rfl) s.bridge
  | hibernate =>
    cases hstep
    exact h.steady ⟨.refl _, rfl, rfl, rfl⟩ (leased_hibernate h.leased)
  | activateClient ws info synchronized =>
    simp only [State.step] at hstep
    split at hstep
    next hany =>
      obtain ⟨activated, ha, rfl⟩ := Option.map_eq_some_iff.mp hstep
      have hparticipant : info.participantId ∈ s.world.participants := by
        obtain ⟨id, hid, he⟩ := List.any_eq_true.mp hany
        rwa [of_decide_eq_true he] at hid
      exact h.activate hparticipant ha
    next => cases hstep
  | removeClient ws =>
    cases hstep
    exact h.steady (steady_teardown s.world ws) (leased_remove h.leased ws)
  | setClientSynchronizing ws synchronizing =>
    cases hstep
    exact h.quiet ⟨⟨.refl _, rfl, rfl, rfl⟩, rfl, rfl⟩
  | lookupClient ws host =>
    cases hstep
    exact h.steady (steady_lookup s.world ws host) (leased_lookup h.leased ws host)
  | getClientInfo ws host =>
    cases hstep
    exact h.steady (steady_getClientInfo s.world ws host) (leased_getClientInfo h.leased ws host)
  | isAuthenticated ws host =>
    cases hstep
    exact h.steady (steady_isAuthenticated s.world ws host)
      (leased_isAuthenticated h.leased ws host)
  | forEachClientSocket host =>
    cases hstep
    exact h.steady (steady_authenticatedClientSockets host s.world.sockets.listedIds s.world)
      (leased_authenticatedClientSockets host s.world.sockets.listedIds h.leased)
  | expireAuthorizationLeases host =>
    cases hstep
    exact h.steady (steady_expire s.world host) (leased_expire h.leased host)
  | tick now =>
    simp only [State.step] at hstep
    split at hstep
    next hn =>
      cases hstep
      have hl := leased_tick h.leased hn
      exact ⟨h.row, h.named, h.nonempty, h.distinct, h.listed, hl⟩
    next => cases hstep
  | participantAdded id =>
    cases hstep
    exact ⟨h.row, h.named, h.nonempty, h.distinct, h.listed, leased_participant h.leased id⟩

/-! ## Every run -/

/-- A client socket's own lease has not expired. -/
def State.Authorized (s : State) (ws : Nat) : Prop := ∃ e, s.lease ws = some e ∧ s.world.now < e

/-- What a served bridge socket is: open, accepted last and not detached since, tagged for the row's
sandbox when the row has one, on a row that is not dead. -/
structure State.Bridge (s : State) (ws : Nat) : Prop where
  opened : s.world.sockets.isOpen ws = true
  last : s.bridge = some ws
  sandbox : ∀ row id, s.world.row = some row → row.modal_sandbox_id = some id → id ≠ [] →
    ∃ socketId, classify s.world ws = .sandbox (some id) socketId
  alive : ∀ row, s.world.row = some row → row.status.isDead = false

/-- The close of `ws` completes and its close event is handled. -/
def World.closeHandled (w : World) (ws : Nat) (outcome : CloseOutcome) : Bool × World :=
  clearSandboxSocketIfMatch { w with sockets := w.sockets.close ws outcome } ws

def World.hibernated (w : World) : World := { w with memory := Memory.fresh }

/-- The authority of bridges and clients in one state. -/
structure BridgeSafe (s : State) : Prop where
  exclusive : ∀ ws ws', isActiveSandboxSocket s.world ws = true →
    isActiveSandboxSocket s.world ws' = true → ws = ws'
  served : ∀ host ws, (getSandboxSocket s.world host).1 = some ws → s.Bridge ws
  commanded : ∀ host ws, (getSandboxCommandTarget s.world host).1 = .dispatch ws → s.Bridge ws
  hibernated : ∀ host host',
    (getSandboxSocket s.world.hibernated host').1 = (getSandboxSocket s.world host).1 ∧
      (getSandboxCommandTarget s.world.hibernated host').1 =
        (getSandboxCommandTarget s.world host).1
  replaced : ∀ ws outcome, s.bridge ≠ some ws →
    (s.world.closeHandled ws outcome).1 = false ∧
      ∀ host host',
        (getSandboxSocket (s.world.closeHandled ws outcome).2 host').1 =
          (getSandboxSocket s.world host).1 ∧
        (getSandboxCommandTarget (s.world.closeHandled ws outcome).2 host').1 =
          (getSandboxCommandTarget s.world host).1
  authenticated : ∀ ws host, (isAuthenticated s.world ws host).1 = true ↔ s.Authorized ws
  identified : ∀ ws host, (getClientInfo s.world ws host).1.isSome = true ↔ s.Authorized ws
  visited : ∀ ws host,
    ws ∈ (authenticatedClientSockets host s.world.sockets.listedIds s.world).1 ↔
      ws ∈ s.world.sockets.listedIds ∧ (classify s.world ws).isSandbox = false ∧ s.Authorized ws
  counted : getConnectedClientCount s.world =
    s.world.sockets.listedIds.countP fun ws =>
      ¬ (classify s.world ws).isSandbox ∧ s.world.sockets.isOpen ws ∧
        (s.lease ws).any (s.world.now < ·)

theorem Bridged.bridge_of_serves (h : Bridged s) (hs : s.world.Serves ws) :
    s.Bridge ws := by
  obtain ⟨hdead, hopen, hactive⟩ := hs
  exact
    { opened := hopen
      last := h.active hactive
      sandbox := by
        intro row id hrow hid hne
        obtain ⟨row', active, hrow', hnamed⟩ := h.row
        rw [hrow, Option.some.injEq] at hrow'
        subst hrow'
        rw [isActiveSandboxSocket, hrow] at hactive
        obtain ⟨sandboxId, hc, hsame⟩ := isAuthoritative_names hnamed hactive
        exact ⟨some active, by rw [hc, hsame id hid hne]⟩
      alive := by
        intro row hrow
        rw [hrow] at hdead
        exact hdead }

/-- After another socket than the bridge has closed, the same socket serves. -/
theorem Bridged.serves_closeHandled (h : Bridged s) (hne : s.bridge ≠ some ws)
    (outcome : CloseOutcome) (x : Nat) :
    (s.world.closeHandled ws outcome).2.Serves x ↔ s.world.Serves x := by
  have hq : s.world.Quiet (s.world.closeHandled ws outcome).2 :=
    (quiet_close s.world ws outcome).trans (quiet_clearIfMatch _ ws)
  have hsockets :
      (s.world.closeHandled ws outcome).2.sockets = s.world.sockets.close ws outcome := by
    simp only [World.closeHandled, clearSandboxSocketIfMatch, clearSandboxSocket]
    split <;> rfl
  simp only [World.Serves, hq.row, active_of_steady hq.toSteady, hsockets]
  refine and_congr_right fun _ => and_congr_left ?_
  intro hactive
  have hx : x ≠ ws := by
    intro hx
    subst hx
    exact hne (h.active hactive)
  rw [isOpen_close_ne s.world.sockets outcome hx]

theorem Bridged.safe (h : Bridged s) : BridgeSafe s := by
  have hserves : ∀ host ws, (getSandboxSocket s.world host).1 = some ws ↔ s.world.Serves ws :=
    getSandboxSocket_iff h.exclusive h.listed
  have hsame : ∀ w' : World, s.world.Steady w' → (∀ ws, w'.Serves ws ↔ s.world.Serves ws) →
      ∀ host host',
        (getSandboxSocket w' host').1 = (getSandboxSocket s.world host).1 ∧
        (getSandboxCommandTarget w' host').1 = (getSandboxCommandTarget s.world host).1 := by
    intro w' hsteady hw' host host'
    have hsocket := getSandboxSocket_congr h.exclusive h.listed
      (exclusive_of_steady hsteady h.exclusive) (listed_of_steady hsteady h.listed) hw' host host'
    exact ⟨hsocket, commandTarget_congr hsteady.row hsocket⟩
  exact
    { exclusive := h.exclusive
      served := by
        intro host ws hws
        exact h.bridge_of_serves ((hserves host ws).mp hws)
      commanded := by
        intro host ws hws
        exact h.bridge_of_serves ((hserves host ws).mp (commandTarget_dispatch hws))
      hibernated := by
        intro host host'
        refine hsame s.world.hibernated ⟨.refl _, rfl, rfl, rfl⟩ ?_ host host'
        intro ws
        exact Iff.rfl
      replaced := by
        intro ws outcome hne
        have hq := quiet_close s.world ws outcome
        refine ⟨?_, ?_⟩
        · by_contra hreported
          rw [Bool.not_eq_false] at hreported
          have hactive : isActiveSandboxSocket
              { s.world with sockets := s.world.sockets.close ws outcome } ws = true := by
            simp only [World.closeHandled, clearSandboxSocketIfMatch] at hreported
            split at hreported
            next => exact hreported
            next => exact hreported
          rw [active_of_steady hq.toSteady] at hactive
          exact hne (h.active hactive)
        · exact hsame _ (hq.trans (quiet_clearIfMatch _ ws)).toSteady
            (h.serves_closeHandled hne outcome)
      authenticated := by
        intro ws host
        exact isAuthenticated_iff h.leased host ws
      identified := by
        intro ws host
        exact getClientInfo_iff h.leased host ws
      visited := by
        intro ws host
        exact mem_authenticatedClientSockets host s.world.sockets.listedIds h.leased ws
      counted := by
        unfold getConnectedClientCount
        refine List.countP_congr ?_
        intro ws _
        rw [decide_eq_true_eq, decide_eq_true_eq]
        refine and_congr_right fun _ => and_congr_right fun _ => ?_
        rw [counted_iff h.leased ws, Option.any_eq_true]
        simp only [decide_eq_true_eq] }

/-- **Bridge authority survives hibernation.** From a row that names a socket id or revokes it, in
every state that any run reaches: at most one sandbox socket is active; a socket that is selected or
dispatched to is the open, last accepted, undetached bridge of a live sandbox; a hibernation just
before changes no answer; closing another socket is neither reported as the loss of the bridge nor
changes an answer; and a client is authenticated exactly while its own lease is unexpired. -/
theorem bridge_authority {row : SandboxRow} (hrow : row.active_socket_id ≠ none)
    {participants : List Text} {now : Int} {s : State}
    (h : socketSystem.Reachable anyStep (.initial row participants now) s) : BridgeSafe s := by
  have hb : Bridged s :=
    h.inv Bridged (.initial hrow participants now) fun _ _ _ hb _ hstep => hb.step hstep
  exact hb.safe

/-- A bridge that was replaced before a hibernation and whose close lingers. -/
theorem bridge_authority_replaced : ∃ s,
    socketSystem.Reachable anyStep
      (.initial
        { status := .ready, modal_sandbox_id := some ['m'], active_socket_id := some []
          boot_phase := none }
        [['p']] 0) s ∧
      s.world.sockets.isOpen 1 = true ∧ s.bridge = some 2 ∧
      (getSandboxSocket s.world fun _ => .closing).1 = some 2 ∧
      (isAuthenticated s.world 3 fun _ => .closing).1 = true ∧ BridgeSafe s := by
  have hrun : (socketSystem.run anyStep
      (.initial
        { status := .ready, modal_sandbox_id := some ['m'], active_socket_id := some []
          boot_phase := none }
        [['p']] 0)
      [.acceptSandbox 1 (some ['m']) ['a'] fun _ => .lingering,
        .acceptSandbox 2 (some ['m']) ['b'] fun _ => .lingering,
        .acceptClient 3 ['w'],
        .activateClient 3
          { participantId := ['p'], clientId := ['c'], authorizationExpiresAt := 9 } true,
        .hibernate, .tick 8]).any
      (fun s => s.world.sockets.isOpen 1 && decide (s.bridge = some 2) &&
        decide ((getSandboxSocket s.world fun _ => .closing).1 = some 2) &&
        (isAuthenticated s.world 3 fun _ => .closing).1) = true := by
    decide +kernel
  obtain ⟨s, hs, hp⟩ := (Option.any_eq_true _ _).mp hrun
  have hreach := System.run_reachable hs
  simp only [Bool.and_eq_true, decide_eq_true_eq] at hp
  exact ⟨s, hreach, hp.1.1.1, hp.1.1.2, hp.1.2, hp.2, bridge_authority (by decide) hreach⟩

end BackgroundAgents.Sockets

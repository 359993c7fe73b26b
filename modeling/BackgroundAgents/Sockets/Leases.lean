import BackgroundAgents.Sockets.Selection

/-!
# Client leases

A client's lease stands in `ws_client_mapping` and, until the next hibernation,
in the registry. Either copy may be gone once it has expired, so what is kept
true is that both give the same *unexpired* lease: the one that was granted.
-/

namespace BackgroundAgents.Sockets

/-- A lease, while it has not expired. -/
def unexpired (now : Int) (lease : Option Int) : Option Int := lease.filter (now < ·)

theorem unexpired_eq_some {now e : Int} {lease : Option Int} :
    unexpired now lease = some e ↔ lease = some e ∧ now < e := by
  simp [unexpired, Option.filter_eq_some_iff]

theorem unexpired_eq_none {now : Int} {lease : Option Int} :
    unexpired now lease = none ↔ ∀ e, lease = some e → e ≤ now := by
  simp [unexpired, Option.filter_eq_none_iff]

/-- What has not expired later has not expired now. -/
theorem unexpired_later {now later : Int} (h : now ≤ later) (lease : Option Int) :
    unexpired later (unexpired now lease) = unexpired later lease := by
  refine Option.ext ?_
  intro e
  rw [unexpired_eq_some, unexpired_eq_some, unexpired_eq_some]
  constructor
  · intro hboth
    obtain ⟨⟨hl, _⟩, he⟩ := hboth
    exact ⟨hl, he⟩
  · intro hboth
    obtain ⟨hl, he⟩ := hboth
    exact ⟨⟨hl, lt_of_le_of_lt h he⟩, he⟩

theorem unexpired_later_congr {now later : Int} (h : now ≤ later) {lease lease' : Option Int}
    (hl : unexpired now lease = unexpired now lease') :
    unexpired later lease = unexpired later lease' := by
  rw [← unexpired_later h lease, hl, unexpired_later h]

/-- The lease that the socket's mapping holds. -/
def persistedExpiry (w : World) (ws : Nat) : Option Int :=
  ((clientWsId w ws).bind (getWsClientMapping w)).map (·.authorization_expires_at)

/-- Registry and mappings agree with the leases that were granted. -/
structure World.Leased (w : World) (lease : Nat → Option Int) : Prop where
  persisted : ∀ ws, unexpired w.now (persistedExpiry w ws) = unexpired w.now (lease ws)
  cached : ∀ ws entry, w.memory.clients.get? ws = some entry →
    unexpired w.now (some entry.info.authorizationExpiresAt) = unexpired w.now (lease ws)
  known : ∀ ws entry, w.memory.clients.get? ws = some entry → (clientWsId w ws).isSome
  distinct : ∀ ws ws' wsId, clientWsId w ws = some wsId → clientWsId w ws' = some wsId → ws = ws'
  owned : ∀ m ∈ w.mappings.rows, ∃ ws, clientWsId w ws = some m.ws_id
  joined : ∀ m ∈ w.mappings.rows, m.participant_id ∈ w.participants

variable {lease : Nat → Option Int} {w : World}

/-- The lease that the manager reads is the one granted, as long as it has not expired. -/
theorem unexpired_authorizationExpiry (h : w.Leased lease) (ws : Nat) :
    unexpired w.now (authorizationExpiry w ws) = unexpired w.now (lease ws) := by
  unfold authorizationExpiry
  split
  next entry he => exact h.cached ws entry he
  next => exact h.persisted ws

theorem isAuthenticated_iff (h : w.Leased lease) (host : Nat → CloseOutcome) (ws : Nat) :
    (isAuthenticated w ws host).1 = true ↔ ∃ e, lease ws = some e ∧ w.now < e := by
  have hiff : (isAuthenticated w ws host).1 = true ↔
      ∃ e, unexpired w.now (authorizationExpiry w ws) = some e := by
    unfold isAuthenticated
    split
    next hn => simp [hn, unexpired]
    next e he =>
      split
      next hlt => simp [he, unexpired, hlt]
      next hlt => simp [he, unexpired, hlt]
  rw [hiff, unexpired_authorizationExpiry h ws]
  simp only [unexpired_eq_some]

/-- `lookupClient` resolves a socket exactly while its lease is unexpired. -/
theorem getClientInfo_iff (h : w.Leased lease) (host : Nat → CloseOutcome) (ws : Nat) :
    (getClientInfo w ws host).1.isSome = true ↔ ∃ e, lease ws = some e ∧ w.now < e := by
  have hiff : (getClientInfo w ws host).1.isSome = true ↔
      ∃ e, unexpired w.now (authorizationExpiry w ws) = some e := by
    unfold getClientInfo lookupClient authorizationExpiry
    cases hc : w.memory.clients.get? ws with
    | some entry =>
      dsimp only
      by_cases he : entry.info.authorizationExpiresAt ≤ w.now
      · rw [if_pos he]
        simp [unexpired, he]
      · rw [if_neg he]
        simp only [Int.not_le] at he
        simp [unexpired, he]
    | none =>
      dsimp only
      cases hm : (clientWsId w ws).bind (getWsClientMapping w) with
      | none => simp [unexpired]
      | some mapping =>
        dsimp only
        by_cases he : mapping.authorization_expires_at ≤ w.now
        · rw [if_pos he]
          simp [unexpired, he]
        · rw [if_neg he]
          simp only [Int.not_le] at he
          simp [unexpired, he]
  rw [hiff, unexpired_authorizationExpiry h ws]
  simp only [unexpired_eq_some]

/-! ## What keeps the copies in agreement -/

variable {ws : Nat}

variable {w w' : World}

theorem clientWsId_of_tags (h : w'.sockets.tags ws = w.sockets.tags ws) :
    clientWsId w' ws = clientWsId w ws := by
  simp only [clientWsId, classify, h]

/-- The mapping of a joined row, without the join. -/
theorem persistedExpiry_eq (h : ∀ m ∈ w.mappings.rows, m.participant_id ∈ w.participants) (ws : Nat)
    :
    persistedExpiry w ws =
      ((clientWsId w ws).bind w.mappings.get?).map (·.authorization_expires_at) := by
  unfold persistedExpiry
  congr 2
  funext wsId
  unfold getWsClientMapping
  cases hm : w.mappings.get? wsId with
  | none => rfl
  | some m => simp [Option.filter, h m (Table.mem_of_get? hm)]

/-- Of the sockets, only the tags matter. -/
theorem leased_of_tags (h : w.Leased lease) (htags : ∀ ws, w'.sockets.tags ws = w.sockets.tags ws)
    (hclients : w'.memory.clients = w.memory.clients) (hmappings : w'.mappings = w.mappings)
    (hparticipants : w'.participants = w.participants) (hnow : w'.now = w.now) :
    w'.Leased lease := by
  have hid : ∀ ws, clientWsId w' ws = clientWsId w ws := fun ws => clientWsId_of_tags (htags ws)
  have hp : ∀ ws, persistedExpiry w' ws = persistedExpiry w ws := by
    intro ws
    unfold persistedExpiry
    rw [hid ws]
    congr 2
    funext wsId
    simp only [getWsClientMapping, hmappings, hparticipants]
  exact
    { persisted := by
        intro ws
        rw [hp ws, hnow]
        exact h.persisted ws
      cached := by
        intro ws entry he
        rw [hclients] at he
        rw [hnow]
        exact h.cached ws entry he
      known := by
        intro ws entry he
        rw [hclients] at he
        rw [hid ws]
        exact h.known ws entry he
      distinct := by
        intro ws ws' wsId hw hw'
        rw [hid] at hw hw'
        exact h.distinct ws ws' wsId hw hw'
      owned := by
        intro m hm
        rw [hmappings] at hm
        obtain ⟨ws, hws⟩ := h.owned m hm
        exact ⟨ws, (hid ws).trans hws⟩
      joined := by
        intro m hm
        rw [hmappings] at hm
        rw [hparticipants]
        exact h.joined m hm }

theorem leased_quiet (hq : w.Quiet w') (h : w.Leased lease) : w'.Leased lease :=
  leased_of_tags h hq.sockets.tags hq.clients hq.mappings hq.participants hq.now

/-- A hibernation loses only one of the copies. -/
theorem leased_hibernate (h : w.Leased lease) :
    { w with memory := Memory.fresh }.Leased lease :=
  { h with
    cached := fun _ _ he => by cases he
    known := fun _ _ he => by cases he }

theorem leased_tick (h : w.Leased lease) {now : Int} (hn : w.now ≤ now) :
    { w with now }.Leased lease :=
  { h with
    persisted := fun ws => unexpired_later_congr hn (h.persisted ws)
    cached := fun ws entry he => unexpired_later_congr hn (h.cached ws entry he) }

theorem leased_participant (h : w.Leased lease) (id : Text) :
    { w with participants := id :: w.participants }.Leased lease := by
  have hj : ∀ m ∈ w.mappings.rows, m.participant_id ∈ id :: w.participants :=
    fun m hm => List.mem_cons_of_mem id (h.joined m hm)
  exact
    { h with
      persisted := by
        intro ws
        rw [persistedExpiry_eq hj ws]
        exact (congrArg (unexpired w.now) (persistedExpiry_eq h.joined ws)).symm.trans
          (h.persisted ws)
      joined := hj }

/-- A socket that was just adopted holds no lease: its id is in no mapping. -/
theorem leased_adopt {tags : List Text} (h : w.Leased lease) (ha : adopt w ws tags = some w')
    (hnew : ∀ ws' wsId, clientWsId w' ws = some wsId → clientWsId w ws' ≠ some wsId) :
    w'.Leased lease := by
  obtain ⟨sockets, hs, rfl⟩ := Option.map_eq_some_iff.mp ha
  have hget := Table.get?_insert? hs
  have hother : ∀ x, x ≠ ws → clientWsId { w with sockets } x = clientWsId w x := by
    intro x hx
    refine clientWsId_of_tags ?_
    simp only [SocketTable.tags, hget x, if_neg (Ne.symm hx)]
  have hnone : clientWsId w ws = none := by
    have ht : w.sockets.tags ws = [] := by
      have hn := Table.get?_of_insert? hs
      simp only [SocketTable.tags]
      rw [show w.sockets.get? ws = none from hn]
      rfl
    simp only [clientWsId, classify, ht]
    rfl
  have hfree : ∀ wsId, clientWsId { w with sockets } ws = some wsId →
      w.mappings.get? wsId = none := by
    intro wsId hw
    refine Table.get?_eq_none.mpr ?_
    intro m hm hk
    obtain ⟨x, hx⟩ := h.owned m hm
    exact hnew x wsId hw (hk ▸ hx)
  have hpnone : persistedExpiry { w with sockets } ws = none := by
    rw [persistedExpiry_eq (w := { w with sockets }) h.joined ws]
    cases hc : clientWsId { w with sockets } ws with
    | none => rfl
    | some wsId =>
      rw [Option.bind_some, hfree wsId hc]
      rfl
  exact
    { h with
      persisted := by
        intro x
        by_cases hx : x = ws
        · subst hx
          rw [hpnone, ← h.persisted x]
          simp only [persistedExpiry, hnone]
          rfl
        · have hp := h.persisted x
          simp only [persistedExpiry] at hp ⊢
          rw [hother x hx]
          exact hp
      known := by
        intro x entry he
        have hx : x ≠ ws := by
          intro hx
          subst hx
          have hk := h.known x entry he
          simp [hnone] at hk
        rw [hother x hx]
        exact h.known x entry he
      distinct := by
        intro x y wsId hx hy
        by_cases hxw : x = ws
        · subst hxw
          by_cases hyw : y = x
          · exact hyw.symm
          · rw [hother y hyw] at hy
            exact absurd hy (hnew y wsId hx)
        · by_cases hyw : y = ws
          · subst hyw
            rw [hother x hxw] at hx
            exact absurd hx (hnew x wsId hy)
          · rw [hother x hxw] at hx
            rw [hother y hyw] at hy
            exact h.distinct x y wsId hx hy
      owned := by
        intro m hm
        obtain ⟨x, hx⟩ := h.owned m hm
        have hxw : x ≠ ws := by
          intro hxw
          subst hxw
          simp [hnone] at hx
        exact ⟨x, (hother x hxw).trans hx⟩ }

/-! ## Ending a lease -/

/-- The same world, as far as the sockets, the row, the participants and the clock go. -/
theorem steady_teardown (w : World) (ws : Nat) : w.Steady (teardownClient w ws) where
  sockets := .refl _
  row := rfl
  participants := rfl
  now := rfl

theorem get?_clients_teardown (w : World) (ws x : Nat) :
    (teardownClient w ws).memory.clients.get? x =
      if x = ws then none else w.memory.clients.get? x := by
  simp only [teardownClient, Table.get?_delete]
  cases hg : w.memory.clients.get? x with
  | none => simp
  | some entry =>
    have hk := Table.key_of_get? hg
    by_cases hx : x = ws
    · subst hx
      simp [hk, Option.filter]
    · have hne : entry.ws ≠ ws := fun he => hx (hk.symm.trans he)
      simp [hne, hx, Option.filter]

theorem mem_mappings_teardown {m : WsClientMapping} :
    m ∈ (teardownClient w ws).mappings.rows ↔
      m ∈ w.mappings.rows ∧ clientWsId w ws ≠ some m.ws_id := by
  unfold teardownClient
  dsimp only
  split
  next wsId h =>
    simp only [Table.delete, List.mem_filter, Bool.not_eq_true', decide_eq_false_iff_not, h,
      ne_eq, Option.some.injEq]
    rw [eq_comm]
  next h => simp [h]

/-- **Ending the lease of one socket** leaves the others' as they are. -/
theorem leased_teardown {lease lease' : Nat → Option Int} (h : w.Leased lease)
    (hown : unexpired w.now (lease' ws) = none) (hothers : ∀ x, x ≠ ws → lease' x = lease x) :
    (teardownClient w ws).Leased lease' := by
  have hjoined : ∀ m ∈ (teardownClient w ws).mappings.rows,
      m.participant_id ∈ (teardownClient w ws).participants :=
    fun m hm => h.joined m (mem_mappings_teardown.mp hm).1
  have hget : ∀ wsId, (teardownClient w ws).mappings.get? wsId =
      if clientWsId w ws = some wsId then none else w.mappings.get? wsId := by
    intro wsId
    refine Option.ext ?_
    intro m
    rw [Table.get?_eq_some, mem_mappings_teardown]
    by_cases hw : clientWsId w ws = some wsId
    · rw [if_pos hw]
      constructor
      · intro hboth
        obtain ⟨⟨_, hne⟩, hk⟩ := hboth
        exact absurd (hk ▸ hw) hne
      · intro hm
        cases hm
    · rw [if_neg hw, Table.get?_eq_some]
      constructor
      · intro hboth
        obtain ⟨⟨hm, _⟩, hk⟩ := hboth
        exact ⟨hm, hk⟩
      · intro hboth
        obtain ⟨hm, hk⟩ := hboth
        exact ⟨⟨hm, fun he => hw (hk ▸ he)⟩, hk⟩
  exact
    { persisted := by
        intro x
        rw [persistedExpiry_eq hjoined x]
        have hid : clientWsId (teardownClient w ws) x = clientWsId w x := rfl
        rw [hid]
        by_cases hx : x = ws
        · subst hx
          refine Eq.trans ?_ hown.symm
          cases hc : clientWsId w x with
          | none => rfl
          | some wsId =>
            rw [Option.bind_some, hget wsId, if_pos hc]
            rfl
        · rw [hothers x hx]
          have hp := h.persisted x
          rw [persistedExpiry_eq h.joined x] at hp
          cases hc : clientWsId w x with
          | none =>
            rw [hc] at hp
            exact hp
          | some wsId =>
            have hne : clientWsId w ws ≠ some wsId := fun he => hx (h.distinct x ws wsId hc he)
            rw [hc, Option.bind_some] at hp
            rw [Option.bind_some, hget wsId, if_neg hne]
            exact hp
      cached := by
        intro x entry he
        rw [get?_clients_teardown] at he
        split at he
        next => cases he
        next hx =>
          rw [hothers x hx]
          exact h.cached x entry he
      known := by
        intro x entry he
        rw [get?_clients_teardown] at he
        split at he
        next => cases he
        next => exact h.known x entry he
      distinct := h.distinct
      owned := by
        intro m hm
        exact h.owned m (mem_mappings_teardown.mp hm).1
      joined := hjoined }

theorem leased_remove (h : w.Leased lease) (ws : Nat) :
    (teardownClient w ws).Leased (Function.update lease ws none) :=
  leased_teardown h (by rw [Function.update_self]; rfl)
    fun _ hx => Function.update_of_ne hx none lease

theorem steady_reject (w : World) (ws : Nat) (host : Nat → CloseOutcome) :
    w.Steady (rejectExpiredAuthorization w ws host) :=
  (steady_teardown w ws).trans (quiet_close (teardownClient w ws) ws (host ws)).toSteady

/-- Retiring a lease that has expired changes no lease that has not. -/
theorem leased_reject (h : w.Leased lease) (hexp : unexpired w.now (lease ws) = none)
    (host : Nat → CloseOutcome) :
    (rejectExpiredAuthorization w ws host).Leased lease :=
  leased_quiet (quiet_close (teardownClient w ws) ws (host ws))
    (leased_teardown h hexp fun _ _ => rfl)

theorem unexpired_of_le {now e : Int} (h : e ≤ now) : unexpired now (some e) = none :=
  unexpired_eq_none.mpr fun _ he => Option.some.inj he ▸ h

theorem steady_isAuthenticated (w : World) (ws : Nat) (host : Nat → CloseOutcome) :
    w.Steady (isAuthenticated w ws host).2 := by
  unfold isAuthenticated
  split
  next => exact .refl w
  next =>
    split
    next => exact .refl w
    next => exact steady_reject w ws host

theorem leased_isAuthenticated (h : w.Leased lease) (ws : Nat) (host : Nat → CloseOutcome) :
    (isAuthenticated w ws host).2.Leased lease := by
  have hexp := unexpired_authorizationExpiry h ws
  unfold isAuthenticated
  split
  next => exact h
  next e he =>
    split
    next => exact h
    next hlt =>
      rw [he, unexpired_of_le (Int.not_lt.mp hlt)] at hexp
      exact leased_reject h hexp.symm host

theorem steady_lookup (w : World) (ws : Nat) (host : Nat → CloseOutcome) :
    w.Steady (lookupClient w ws host).2 := by
  unfold lookupClient
  split
  next =>
    split
    next => exact steady_reject w ws host
    next => exact .refl w
  next =>
    split
    next => exact .refl w
    next =>
      split
      next => exact steady_reject w ws host
      next => exact .refl w

theorem leased_lookup (h : w.Leased lease) (ws : Nat) (host : Nat → CloseOutcome) :
    (lookupClient w ws host).2.Leased lease := by
  unfold lookupClient
  split
  next entry hc =>
    have hexp := h.cached ws entry hc
    split
    next he =>
      rw [unexpired_of_le he] at hexp
      exact leased_reject h hexp.symm host
    next => exact h
  next hc =>
    have hexp := h.persisted ws
    split
    next => exact h
    next mapping hm =>
      split
      next he =>
        rw [persistedExpiry, hm, Option.map_some, unexpired_of_le he] at hexp
        exact leased_reject h hexp.symm host
      next => exact h

/-! ## Recovering and granting a lease -/

theorem get?_setClient (w : World) (ws x : Nat) (info : ClientInfo) :
    (setClient w ws info).memory.clients.get? x =
      if x = ws then some { ws, info } else w.memory.clients.get? x := by
  simp only [setClient]
  rw [Table.get?_upsert]
  by_cases hx : ws = x
  · subst hx
    rw [if_pos rfl, if_pos rfl]
    cases hg : w.memory.clients.get? ws with
    | none => rfl
    | some entry =>
      have hk := Table.key_of_get? hg
      simp only [Option.map_some, Option.getD_some, Option.some.injEq, ClientEntry.mk.injEq,
        and_true]
      exact hk
  · rw [if_neg hx, if_neg (Ne.symm hx)]

variable {info : ClientInfo}

/-- A registry entry that repeats the granted lease. -/
theorem leased_setClient (h : w.Leased lease) (hid : (clientWsId w ws).isSome)
    (hinfo : unexpired w.now (some info.authorizationExpiresAt) = unexpired w.now (lease ws)) :
    (setClient w ws info).Leased lease :=
  { h with
    cached := by
      intro x entry he
      rw [get?_setClient] at he
      split at he
      next hx =>
        cases he
        subst hx
        exact hinfo
      next => exact h.cached x entry he
    known := by
      intro x entry he
      rw [get?_setClient] at he
      split at he
      next hx =>
        subst hx
        exact hid
      next => exact h.known x entry he }

/-- What `lookupClient` recovers is the mapping of the socket's own id. -/
theorem lookup_recovered {host : Nat → CloseOutcome} {mapping : WsClientMapping} {w' : World}
    (h : lookupClient w ws host = (.recovered mapping, w')) :
    w' = w ∧ (clientWsId w ws).bind (getWsClientMapping w) = some mapping := by
  unfold lookupClient at h
  split at h
  next =>
    split at h
    next => cases h
    next => cases h
  next =>
    split at h
    next => cases h
    next m hm =>
      split at h
      next => cases h
      next =>
        cases h
        exact ⟨rfl, hm⟩

theorem leased_getClientInfo (h : w.Leased lease) (ws : Nat) (host : Nat → CloseOutcome) :
    (getClientInfo w ws host).2.Leased lease := by
  have hl := leased_lookup h ws host
  unfold getClientInfo
  split
  next client w' heq =>
    rw [heq] at hl
    exact hl
  next mapping w' heq =>
    obtain ⟨rfl, hm⟩ := lookup_recovered heq
    refine leased_setClient h ?_ ?_
    · cases hc : clientWsId w' ws with
      | none => simp [hc] at hm
      | some wsId => rfl
    · have hp := h.persisted ws
      rw [persistedExpiry, hm] at hp
      exact hp
  next w' heq =>
    rw [heq] at hl
    exact hl
  next w' heq =>
    rw [heq] at hl
    exact leased_quiet (quiet_close w' ws (host ws)) hl

theorem steady_getClientInfo (w : World) (ws : Nat) (host : Nat → CloseOutcome) :
    w.Steady (getClientInfo w ws host).2 := by
  have hl := steady_lookup w ws host
  unfold getClientInfo
  split
  next client w' heq =>
    rw [heq] at hl
    exact hl
  next mapping w' heq =>
    rw [heq] at hl
    exact ⟨hl.sockets, hl.row, hl.participants, hl.now⟩
  next w' heq =>
    rw [heq] at hl
    exact hl
  next w' heq =>
    rw [heq] at hl
    exact hl.trans (quiet_close w' ws (host ws)).toSteady

/-- The upsert rewrites every column of the row but the id it is found by. -/
theorem get?_upsertWsClientMapping (t : Table WsClientMapping.ws_id) (mapping : WsClientMapping)
    (k : Text) :
    (t.upsert mapping fun old => { mapping with ws_id := old.ws_id }).get? k =
      if k = mapping.ws_id then some mapping else t.get? k := by
  rw [Table.get?_upsert]
  by_cases hk : mapping.ws_id = k
  · subst hk
    rw [if_pos rfl, if_pos rfl]
    cases hg : t.get? mapping.ws_id with
    | none => rfl
    | some old =>
      have hold := Table.key_of_get? hg
      simp only [Option.map_some, Option.getD_some, hold]
  · rw [if_neg hk, if_neg (Ne.symm hk)]

/-- **Granting a lease.** Registry and mapping are written together. -/
theorem leased_publish (h : w.Leased lease) {mapping : WsClientMapping}
    {mappings : Table WsClientMapping.ws_id}
    (hget : ∀ k, mappings.get? k = if k = mapping.ws_id then some mapping else w.mappings.get? k)
    (hid : clientWsId w ws = some mapping.ws_id)
    (hparticipant : mapping.participant_id ∈ w.participants)
    (hexp : mapping.authorization_expires_at = info.authorizationExpiresAt) :
    (setClient { w with mappings } ws info).Leased
      (Function.update lease ws (some info.authorizationExpiresAt)) := by
  have hrows : ∀ m ∈ mappings.rows, m = mapping ∨ m ∈ w.mappings.rows := by
    intro m hm
    rw [Table.mem_rows_iff, hget] at hm
    split at hm
    next => exact .inl (Option.some.inj hm).symm
    next => exact .inr (Table.mem_of_get? hm)
  have hjoined : ∀ m ∈ mappings.rows, m.participant_id ∈ w.participants := by
    intro m hm
    rcases hrows m hm with he | hm
    · rw [he]
      exact hparticipant
    · exact h.joined m hm
  have hids : ∀ x, clientWsId (setClient { w with mappings } ws info) x = clientWsId w x :=
    fun _ => rfl
  exact
    { persisted := by
        intro x
        have hpe := persistedExpiry_eq (w := setClient { w with mappings } ws info) hjoined x
        rw [hids] at hpe
        rw [hpe]
        by_cases hx : x = ws
        · subst hx
          rw [hid, Option.bind_some, Function.update_self]
          change unexpired w.now ((mappings.get? mapping.ws_id).map _) = _
          rw [hget, if_pos rfl, ← hexp]
          rfl
        · rw [Function.update_of_ne hx]
          have hp := h.persisted x
          rw [persistedExpiry_eq h.joined x] at hp
          cases hc : clientWsId w x with
          | none =>
            rw [hc] at hp
            exact hp
          | some k =>
            have hk : k ≠ mapping.ws_id := by
              intro hk
              subst hk
              exact hx (h.distinct x ws _ hc hid)
            rw [hc, Option.bind_some] at hp
            rw [Option.bind_some]
            change unexpired w.now ((mappings.get? k).map _) = _
            rw [hget, if_neg hk]
            exact hp
      cached := by
        intro x entry he
        rw [get?_setClient] at he
        split at he
        next hx =>
          cases he
          subst hx
          rw [Function.update_self]
        next hx =>
          rw [Function.update_of_ne hx]
          exact h.cached x entry he
      known := by
        intro x entry he
        rw [hids]
        rw [get?_setClient] at he
        split at he
        next hx =>
          subst hx
          rw [hid]
          rfl
        next => exact h.known x entry he
      distinct := h.distinct
      owned := by
        intro m hm
        rcases hrows m hm with he | hm
        · refine ⟨ws, ?_⟩
          rw [he]
          exact hid
        · exact h.owned m hm
      joined := hjoined }

/-- An activation that publishes grants the lease it was asked for. -/
theorem leased_activate (h : w.Leased lease) (hparticipant : info.participantId ∈ w.participants)
    (ha : activateClient w ws info true = some (true, w')) :
    w'.Leased (Function.update lease ws (some info.authorizationExpiresAt)) := by
  unfold activateClient at ha
  split at ha
  next => cases ha
  next wsId hid =>
    split at ha
    next => cases ha
    next =>
      split at ha
      next => cases ha
      next =>
        cases ha
        exact leased_publish h (get?_upsertWsClientMapping w.mappings _) hid hparticipant rfl

theorem steady_activate {synchronized published : Bool}
    (ha : activateClient w ws info synchronized = some (published, w')) : w.Steady w' := by
  unfold activateClient at ha
  split at ha
  next => cases ha
  next =>
    split at ha
    next => cases ha
    next =>
      split at ha
      next =>
        cases ha
        exact .refl _
      next =>
        cases ha
        exact ⟨.refl _, rfl, rfl, rfl⟩

/-! ## All clients -/

theorem steady_authenticatedClientSockets (host : Nat → CloseOutcome) (sockets : List Nat)
    (w : World) : w.Steady (authenticatedClientSockets host sockets w).2 := by
  induction sockets generalizing w with
  | nil => exact .refl w
  | cons ws rest ih =>
    simp only [authenticatedClientSockets]
    split
    next => exact ih w
    next => exact (steady_isAuthenticated w ws host).trans (ih _)

theorem leased_authenticatedClientSockets (host : Nat → CloseOutcome) (sockets : List Nat)
    (h : w.Leased lease) :
    (authenticatedClientSockets host sockets w).2.Leased lease := by
  induction sockets generalizing w with
  | nil => exact h
  | cons ws rest ih =>
    simp only [authenticatedClientSockets]
    split
    next => exact ih h
    next => exact ih (leased_isAuthenticated h ws host)

/-- The visit reaches the client sockets whose lease is unexpired, and no others. -/
theorem mem_authenticatedClientSockets (host : Nat → CloseOutcome) (sockets : List Nat)
    (h : w.Leased lease) (ws : Nat) :
    ws ∈ (authenticatedClientSockets host sockets w).1 ↔
      ws ∈ sockets ∧ (classify w ws).isSandbox = false ∧
        ∃ e, lease ws = some e ∧ w.now < e := by
  induction sockets generalizing w with
  | nil => simp [authenticatedClientSockets]
  | cons x rest ih =>
    simp only [authenticatedClientSockets]
    split
    next hsandbox =>
      rw [ih h, List.mem_cons]
      constructor
      · intro hboth
        obtain ⟨hm, hc⟩ := hboth
        exact ⟨.inr hm, hc⟩
      · intro hboth
        obtain ⟨hm, hc⟩ := hboth
        rcases hm with rfl | hm
        · simp [hsandbox] at hc
        · exact ⟨hm, hc⟩
    next hclient =>
      rw [Bool.not_eq_true] at hclient
      have hsteady := steady_isAuthenticated w x host
      have hrest := ih (leased_isAuthenticated h x host)
      rw [hsteady.now] at hrest
      simp only [classify, hsteady.sockets.tags] at hrest
      have hown := isAuthenticated_iff h host x
      split
      next hauth =>
        rw [List.mem_cons, List.mem_cons, hrest]
        constructor
        · intro hm
          rcases hm with rfl | ⟨hm, hc⟩
          · exact ⟨.inl rfl, hclient, hown.mp hauth⟩
          · exact ⟨.inr hm, hc⟩
        · intro hboth
          obtain ⟨hm, hc⟩ := hboth
          rcases hm with rfl | hm
          · exact .inl rfl
          · exact .inr ⟨hm, hc⟩
      next hauth =>
        rw [hrest, List.mem_cons]
        constructor
        · intro hboth
          obtain ⟨hm, hc⟩ := hboth
          exact ⟨.inr hm, hc⟩
        · intro hboth
          obtain ⟨hm, hc⟩ := hboth
          rcases hm with rfl | hm
          · exact absurd (hown.mpr hc.2) hauth
          · exact ⟨hm, hc⟩

/-- What the alarm does to one socket. -/
def retireExpired (host : Nat → CloseOutcome) (w : World) (ws : Nat) : World :=
  if (classify w ws).isSandbox then w
  else if (authorizationExpiry w ws).any (· ≤ w.now) then rejectExpiredAuthorization w ws host
  else w

theorem steady_retireExpired (host : Nat → CloseOutcome) (w : World) (ws : Nat) :
    w.Steady (retireExpired host w ws) := by
  unfold retireExpired
  split
  next => exact .refl w
  next =>
    split
    next => exact steady_reject w ws host
    next => exact .refl w

theorem leased_retireExpired (h : w.Leased lease) (host : Nat → CloseOutcome) (ws : Nat) :
    (retireExpired host w ws).Leased lease := by
  unfold retireExpired
  split
  next => exact h
  next =>
    split
    next hexp =>
      obtain ⟨e, he, hle⟩ := (Option.any_eq_true _ _).mp hexp
      have hread := unexpired_authorizationExpiry h ws
      rw [he, unexpired_of_le (of_decide_eq_true hle)] at hread
      exact leased_reject h hread.symm host
    next => exact h

theorem steady_retireAll (host : Nat → CloseOutcome) (sockets : List Nat) (w : World) :
    w.Steady (sockets.foldl (retireExpired host) w) := by
  induction sockets generalizing w with
  | nil => exact .refl w
  | cons ws rest ih => exact (steady_retireExpired host w ws).trans (ih _)

theorem leased_retireAll (host : Nat → CloseOutcome) (sockets : List Nat) (h : w.Leased lease) :
    (sockets.foldl (retireExpired host) w).Leased lease := by
  induction sockets generalizing w with
  | nil => exact h
  | cons ws rest ih => exact ih (leased_retireExpired h host ws)

theorem steady_expire (w : World) (host : Nat → CloseOutcome) :
    w.Steady (expireAuthorizationLeases w host) := by
  have hr := steady_retireAll host w.sockets.listedIds w
  exact ⟨hr.sockets, hr.row, hr.participants, hr.now⟩

/-- Deleting expired mappings. -/
theorem leased_deleteExpired (h : w.Leased lease) {mappings : Table WsClientMapping.ws_id}
    (hm : mappings = w.mappings.delete fun m => m.authorization_expires_at ≤ w.now) :
    { w with mappings }.Leased lease := by
  have hsub : ∀ m ∈ mappings.rows, m ∈ w.mappings.rows := by
    intro m hmem
    rw [hm] at hmem
    exact (List.mem_filter.mp hmem).1
  have hjoined : ∀ m ∈ mappings.rows, m.participant_id ∈ w.participants :=
    fun m hmem => h.joined m (hsub m hmem)
  exact
    { h with
      persisted := by
        intro ws
        refine Eq.trans ?_ (h.persisted ws)
        rw [persistedExpiry_eq h.joined ws, persistedExpiry_eq hjoined ws]
        change unexpired w.now (((clientWsId w ws).bind mappings.get?).map _) = _
        cases hc : clientWsId w ws with
        | none => rfl
        | some wsId =>
          simp only [Option.bind_some, hm, Table.get?_delete]
          cases hg : w.mappings.get? wsId with
          | none => rfl
          | some m =>
            by_cases he : m.authorization_expires_at ≤ w.now
            · simp [Option.filter, he, unexpired]
            · simp [Option.filter, he]
      owned := fun m hmem => h.owned m (hsub m hmem)
      joined := hjoined }

theorem leased_expire (h : w.Leased lease) (host : Nat → CloseOutcome) :
    (expireAuthorizationLeases w host).Leased lease :=
  leased_deleteExpired (leased_retireAll host w.sockets.listedIds h) rfl

/-- The clients that are counted. -/
theorem counted_iff (h : w.Leased lease) (ws : Nat) :
    (authorizationExpiry w ws).any (w.now < ·) = true ↔ ∃ e, lease ws = some e ∧ w.now < e := by
  have hread := unexpired_authorizationExpiry h ws
  rw [Option.any_eq_true]
  constructor
  · intro hboth
    obtain ⟨e, he, hlt⟩ := hboth
    refine ⟨e, unexpired_eq_some.mp ?_⟩
    rw [← hread]
    exact unexpired_eq_some.mpr ⟨he, of_decide_eq_true hlt⟩
  · intro hboth
    obtain ⟨e, he⟩ := hboth
    have hl := unexpired_eq_some.mpr he
    rw [← hread] at hl
    obtain ⟨hx, hlt⟩ := unexpired_eq_some.mp hl
    exact ⟨e, hx, decide_eq_true hlt⟩

end BackgroundAgents.Sockets

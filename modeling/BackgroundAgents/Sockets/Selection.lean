import BackgroundAgents.Sockets.Manager

/-!
# Which bridge is selected

`getSandboxSocket` answers from its cached pointer when it has one, and from the
tags of the host's sockets when it has none. `World.Serves` says what the answer
means in terms of the row and the sockets alone; `getSandboxSocket_iff` is that
both paths give it, so the pointer is only a cache.
-/

namespace BackgroundAgents.Sockets

/-! ## Closing sockets -/

theorem get?_close (t : SocketTable) (ws k : Nat) (outcome : CloseOutcome) :
    (t.close ws outcome).get? k = (t.get? k).map fun s =>
      if s.id = ws then { s with isOpen := s.isOpen && outcome ≠ .closing } else s := by
  simp only [SocketTable.close, Table.get?_update, decide_eq_true_eq]

/-- Sockets were closed, and nothing else happened to them. -/
structure SocketTable.Closed (t t' : SocketTable) : Prop where
  tags : ∀ ws, t'.tags ws = t.tags ws
  listed : t'.listedIds = t.listedIds
  opened : ∀ ws, t'.isOpen ws = true → t.isOpen ws = true

theorem SocketTable.Closed.refl (t : SocketTable) : t.Closed t where
  tags _ := rfl
  listed := rfl
  opened _ h := h

theorem SocketTable.Closed.trans {t u v : SocketTable} (h : t.Closed u) (h' : u.Closed v) :
    t.Closed v where
  tags ws := (h'.tags ws).trans (h.tags ws)
  listed := h'.listed.trans h.listed
  opened ws hv := h.opened ws (h'.opened ws hv)

theorem tags_close (t : SocketTable) (ws k : Nat) (outcome : CloseOutcome) :
    (t.close ws outcome).tags k = t.tags k := by
  simp only [SocketTable.tags, get?_close, Option.map_map]
  congr 2
  funext s
  simp only [Function.comp]
  split <;> rfl

theorem isOpen_close_ne (t : SocketTable) {ws k : Nat} (outcome : CloseOutcome) (h : k ≠ ws) :
    (t.close ws outcome).isOpen k = t.isOpen k := by
  simp only [SocketTable.isOpen, get?_close]
  cases hg : t.get? k with
  | none => rfl
  | some s =>
    have hs : s.id ≠ ws := fun he => h ((Table.key_of_get? hg).symm.trans he)
    simp only [Option.map_some, Option.any_some, if_neg hs]

theorem listedIds_close (t : SocketTable) (ws : Nat) (outcome : CloseOutcome) :
    (t.close ws outcome).listedIds = t.listedIds := by
  simp only [SocketTable.listedIds, SocketTable.close, Table.update, List.filter_map,
    List.map_map, decide_eq_true_eq]
  have hl : (fun s : Socket => s.listed) ∘ (fun s : Socket =>
      if s.id = ws then { s with isOpen := s.isOpen && outcome ≠ .closing } else s)
      = fun s => s.listed := by
    funext s
    simp only [Function.comp]
    split <;> rfl
  rw [hl]
  refine List.map_congr_left ?_
  intro s _
  simp only [Function.comp]
  split <;> rfl

theorem closed_close (t : SocketTable) (ws : Nat) (outcome : CloseOutcome) :
    t.Closed (t.close ws outcome) where
  tags k := tags_close t ws k outcome
  listed := listedIds_close t ws outcome
  opened k h := by
    simp only [SocketTable.isOpen, get?_close] at h
    cases hg : t.get? k with
    | none => simp [hg] at h
    | some s =>
      simp only [hg, Option.map_some, Option.any_some] at h
      simp only [SocketTable.isOpen, hg, Option.any_some]
      split at h
      next => exact (Bool.and_eq_true_iff.mp h).1
      next => exact h

/-! ## What the manager leaves alone -/

/-- Sockets were closed; the row, the participants and the clock are as before. -/
structure World.Steady (w w' : World) : Prop where
  sockets : w.sockets.Closed w'.sockets
  row : w'.row = w.row
  participants : w'.participants = w.participants
  now : w'.now = w.now

theorem World.Steady.refl (w : World) : w.Steady w where
  sockets := .refl _
  row := rfl
  participants := rfl
  now := rfl

theorem World.Steady.trans {u v w : World} (h : u.Steady v) (h' : v.Steady w) : u.Steady w where
  sockets := h.sockets.trans h'.sockets
  row := h'.row.trans h.row
  participants := h'.participants.trans h.participants
  now := h'.now.trans h.now

/-- And the leases are as before, too: only the bridge pointer may have moved. -/
structure World.Quiet (w w' : World) : Prop extends w.Steady w' where
  clients : w'.memory.clients = w.memory.clients
  mappings : w'.mappings = w.mappings

theorem World.Quiet.refl (w : World) : w.Quiet w where
  toSteady := .refl w
  clients := rfl
  mappings := rfl

theorem World.Quiet.trans {u v w : World} (h : u.Quiet v) (h' : v.Quiet w) : u.Quiet w where
  toSteady := h.toSteady.trans h'.toSteady
  clients := h'.clients.trans h.clients
  mappings := h'.mappings.trans h.mappings

theorem quiet_pointer (w : World) (pointer : Option Nat) :
    w.Quiet { w with memory := { w.memory with sandboxWs := pointer } } where
  sockets := .refl _
  clients := rfl
  row := rfl
  mappings := rfl
  participants := rfl
  now := rfl

theorem quiet_close (w : World) (ws : Nat) (outcome : CloseOutcome) :
    w.Quiet { w with sockets := w.sockets.close ws outcome } where
  sockets := closed_close _ _ _
  clients := rfl
  row := rfl
  mappings := rfl
  participants := rfl
  now := rfl

theorem quiet_closeAll (host : Nat → CloseOutcome) (sockets : List Nat) (w : World) :
    w.Quiet (closeAll w sockets host) := by
  induction sockets generalizing w with
  | nil => exact .refl w
  | cons ws rest ih => exact (quiet_close w ws (host ws)).trans (ih _)

theorem quiet_recover (sandbox : Option SandboxRow) (host : Nat → CloseOutcome)
    (sockets : List Nat) (w : World) :
    w.Quiet (recoverSandboxSocket sandbox host sockets w).2 := by
  induction sockets generalizing w with
  | nil => exact .refl w
  | cons ws rest ih =>
    simp only [recoverSandboxSocket]
    split
    next => exact ih w
    next =>
      split
      next => exact (quiet_close w ws (host ws)).trans (ih _)
      next =>
        split
        next => exact ih w
        next => exact quiet_pointer w (some ws)

theorem quiet_getForRow (w : World) (sandbox : Option SandboxRow) (host : Nat → CloseOutcome) :
    w.Quiet (getSandboxSocketForRow w sandbox host).2 := by
  unfold getSandboxSocketForRow
  split
  next => exact (quiet_pointer w none).trans (quiet_closeAll host _ _)
  next =>
    split
    next ws _ =>
      split
      next =>
        split
        next => exact .refl w
        next =>
          refine .trans ?_ (quiet_recover sandbox host _ _)
          exact (quiet_close w ws (host ws)).trans (quiet_pointer _ none)
      next => exact quiet_recover sandbox host _ w
    next => exact quiet_recover sandbox host _ w

theorem quiet_commandTarget (w : World) (host : Nat → CloseOutcome) :
    w.Quiet (getSandboxCommandTarget w host).2 := by
  unfold getSandboxCommandTarget
  dsimp only
  have hq := quiet_getForRow w w.row host
  split
  next =>
    split
    · exact hq
    · exact hq
    · exact hq
  next => exact hq

/-! ## The authoritative socket -/

variable {sandbox : Option SandboxRow}

variable {parsed : Classification}

theorem isAuthoritative_sandbox (h : isAuthoritative parsed sandbox = true) :
    parsed.isSandbox = true := by
  cases parsed with
  | sandbox sandboxId socketId => rfl
  | client wsId => simp [isAuthoritative] at h

theorem isAuthoritative_notWrong (h : isAuthoritative parsed sandbox = true) :
    wrongSandbox parsed sandbox = false := by
  cases parsed with
  | client wsId => rfl
  | sandbox sandboxId socketId =>
    cases sandbox with
    | none => rfl
    | some row =>
      simp only [isAuthoritative] at h
      split at h
      next => cases h
      next hw => simpa only [wrongSandbox, Bool.not_eq_true] using hw

/-- On a row that names a socket id, the authoritative socket carries exactly that id. -/
theorem isAuthoritative_names {row : SandboxRow} {active : Text}
    (hr : row.active_socket_id = some active) (h : isAuthoritative parsed (some row) = true) :
    ∃ sandboxId, parsed = .sandbox sandboxId (some active) ∧
      ∀ id, row.modal_sandbox_id = some id → id ≠ [] → sandboxId = some id := by
  cases parsed with
  | client wsId => simp [isAuthoritative] at h
  | sandbox sandboxId socketId =>
    simp only [isAuthoritative, hr] at h
    split at h
    next => cases h
    next hw =>
      refine ⟨sandboxId, ?_, ?_⟩
      · rw [of_decide_eq_true h]
      · intro id hid hne
        by_contra hsid
        exact hw (by simp [hid, hne, hsid])

/-- **What the answer means.** The sandbox is not dead, and the socket is open and the one its
row names. -/
def World.Serves (w : World) (ws : Nat) : Prop :=
  w.row.any (·.status.isDead) = false ∧ w.sockets.isOpen ws = true ∧
    isActiveSandboxSocket w ws = true

/-- At most one socket is the one the row names. -/
def World.Exclusive (w : World) : Prop :=
  ∀ ws ws', isActiveSandboxSocket w ws = true → isActiveSandboxSocket w ws' = true → ws = ws'

/-- The host lists every open socket. -/
def World.Listed (w : World) : Prop :=
  ∀ ws, w.sockets.isOpen ws = true → ws ∈ w.sockets.listedIds

variable {w w' : World}

theorem active_of_steady (h : w.Steady w') (ws : Nat) :
    isActiveSandboxSocket w' ws = isActiveSandboxSocket w ws := by
  simp only [isActiveSandboxSocket, classify, h.sockets.tags ws, h.row]

theorem exclusive_of_steady (h : w.Steady w') (he : w.Exclusive) : w'.Exclusive := by
  intro ws ws' ha ha'
  rw [active_of_steady h] at ha ha'
  exact he ws ws' ha ha'

theorem listed_of_steady (h : w.Steady w') (hl : w.Listed) : w'.Listed := by
  intro ws ho
  rw [h.sockets.listed]
  exact hl ws (h.sockets.opened ws ho)

variable {host : Nat → CloseOutcome}

/-- What the recovery loop selects was open and authoritative. -/
theorem recover_sound {ws : Nat} {sockets : List Nat} {w : World}
    (h : (recoverSandboxSocket sandbox host sockets w).1 = some ws) :
    w.sockets.isOpen ws = true ∧ isAuthoritative (classify w ws) sandbox = true := by
  induction sockets generalizing w with
  | nil => cases h
  | cons x rest ih =>
    simp only [recoverSandboxSocket] at h
    split at h
    next => exact ih h
    next hopen =>
      split at h
      next =>
        have hq := closed_close w.sockets x (host x)
        obtain ⟨ho, ha⟩ := ih h
        refine ⟨hq.opened ws ho, ?_⟩
        rwa [classify, hq.tags ws] at ha
      next =>
        split at h
        next => exact ih h
        next ha =>
          cases h
          simp only [not_or, Decidable.not_not] at hopen ha
          exact ⟨by simpa using hopen.2, ha⟩

/-- The loop reaches the authoritative socket when it is listed and open: it closes none but
sockets of another sandbox on the way. -/
theorem recover_complete {ws : Nat} {sockets : List Nat} {w : World} (hmem : ws ∈ sockets)
    (ho : w.sockets.isOpen ws = true) (ha : isAuthoritative (classify w ws) sandbox = true)
    (hone : ∀ x, isAuthoritative (classify w x) sandbox = true → x = ws) :
    (recoverSandboxSocket sandbox host sockets w).1 = some ws := by
  induction sockets generalizing w with
  | nil => cases hmem
  | cons x rest ih =>
    simp only [recoverSandboxSocket]
    by_cases hx : x = ws
    · subst hx
      rw [if_neg (by simp [ho, isAuthoritative_sandbox ha]),
        if_neg (by simp [isAuthoritative_notWrong ha]), if_neg (by simp [ha])]
    · have hrest : ws ∈ rest := by
        rcases List.mem_cons.mp hmem with he | hr
        · exact absurd he.symm hx
        · exact hr
      split
      next => exact ih hrest ho ha hone
      next =>
        split
        next =>
          have ht : ∀ y, (w.sockets.close x (host x)).tags y = w.sockets.tags y :=
            fun y => tags_close w.sockets x y (host x)
          refine ih hrest ?_ ?_ ?_
          · exact (isOpen_close_ne w.sockets (host x) (Ne.symm hx)).trans ho
          · rw [classify, ht ws]
            exact ha
          · intro y hy
            rw [classify, ht y] at hy
            exact hone y hy
        next =>
          split
          next => exact ih hrest ho ha hone
          next hact =>
            rw [Decidable.not_not] at hact
            exact absurd (hone x hact) hx

theorem recover_iff {w : World} (he : w.Exclusive) (hl : w.Listed) (host : Nat → CloseOutcome)
    (ws : Nat) :
    (recoverSandboxSocket w.row host w.sockets.listedIds w).1 = some ws ↔
      w.sockets.isOpen ws = true ∧ isActiveSandboxSocket w ws = true := by
  constructor
  · intro h
    exact recover_sound h
  · intro h
    exact recover_complete (hl ws h.1) h.1 h.2 fun x hx => he x ws hx h.2

/-- **The pointer is only a cache.** Whatever it holds, the socket selected is the open one that
the row names, unless the sandbox is dead. -/
theorem getSandboxSocket_iff {w : World} (he : w.Exclusive) (hl : w.Listed)
    (host : Nat → CloseOutcome) (ws : Nat) :
    (getSandboxSocket w host).1 = some ws ↔ w.Serves ws := by
  simp only [getSandboxSocket, getSandboxSocketForRow, World.Serves]
  split
  next hdead =>
    simp [hdead]
  next hdead =>
    rw [Bool.not_eq_true] at hdead
    simp only [hdead, true_and]
    split
    next cached hc =>
      split
      next hopen =>
        split
        next hauth =>
          rw [Option.some.injEq]
          constructor
          · intro h
            subst h
            exact ⟨hopen, hauth⟩
          · intro h
            exact he cached ws hauth h.2
        next hauth =>
          -- the cached socket is closed first; it was not the one the row names
          have hq : w.Quiet { w with
              sockets := w.sockets.close cached (host cached)
              memory := { w.memory with sandboxWs := none } } :=
            (quiet_close w cached (host cached)).trans (quiet_pointer _ none)
          have hrec := recover_iff (exclusive_of_steady hq.toSteady he)
            (listed_of_steady hq.toSteady hl) host ws
          refine hrec.trans ?_
          rw [active_of_steady hq.toSteady]
          refine and_congr_left ?_
          intro hact
          have hne : ws ≠ cached := by
            intro h
            subst h
            exact hauth hact
          dsimp only
          rw [isOpen_close_ne w.sockets (host cached) hne]
      next => exact recover_iff he hl host ws
    next => exact recover_iff he hl host ws

/-- The answer depends on the row and on the sockets, not on the manager's fields. -/
theorem getSandboxSocket_congr (he : w.Exclusive) (hl : w.Listed) (he' : w'.Exclusive)
    (hl' : w'.Listed) (h : ∀ ws, w'.Serves ws ↔ w.Serves ws) (host host' : Nat → CloseOutcome) :
    (getSandboxSocket w' host').1 = (getSandboxSocket w host).1 := by
  refine Option.ext ?_
  intro ws
  exact (getSandboxSocket_iff he' hl' host' ws).trans
    ((h ws).trans (getSandboxSocket_iff he hl host ws).symm)

/-- The command target is decided by the socket that is selected and by the row. -/
theorem commandTarget_eq (w : World) (host : Nat → CloseOutcome) :
    (getSandboxCommandTarget w host).1 =
      match (getSandboxSocket w host).1, w.row with
      | some ws, some row =>
        match evaluateSandboxCommandAvailability row.status with
        | .dispatch => .dispatch ws
        | .booting => .booting row.boot_phase
        | .unavailable => .unavailable
      | _, _ => .unavailable := by
  unfold getSandboxCommandTarget getSandboxSocket
  generalize getSandboxSocketForRow w w.row host = found
  obtain ⟨target, _⟩ := found
  cases target with
  | none => rfl
  | some ws =>
    cases w.row with
    | none => rfl
    | some row =>
      dsimp only
      cases evaluateSandboxCommandAvailability row.status with
      | dispatch => rfl
      | booting => rfl
      | unavailable => rfl

/-- A command is dispatched to the selected socket or to none. -/
theorem commandTarget_dispatch {w : World} {ws : Nat}
    (h : (getSandboxCommandTarget w host).1 = .dispatch ws) :
    (getSandboxSocket w host).1 = some ws := by
  rw [commandTarget_eq] at h
  split at h
  next x row hx hrow =>
    split at h
    next =>
      cases h
      exact hx
    next => cases h
    next => cases h
  next => cases h

theorem commandTarget_congr (hrow : w'.row = w.row) {host host' : Nat → CloseOutcome}
    (h : (getSandboxSocket w' host').1 = (getSandboxSocket w host).1) :
    (getSandboxCommandTarget w' host').1 = (getSandboxCommandTarget w host).1 := by
  rw [commandTarget_eq, commandTarget_eq, h, hrow]

end BackgroundAgents.Sockets

import BackgroundAgents.SessionIndex.Rows
import BackgroundAgents.Lib.Transition
import BackgroundAgents.Lib.Workers
import Mathlib.Data.Finset.Card
import Mathlib.Data.Finset.Dedup

/-!
# Admission of child sessions

A parent session may run a limited number of children at a time. A spawn or a
resume first takes a lease (`acquireChildAdmissionLease`), counted together
with the children that are active already, and then makes its child active or
gives the lease back. The child itself removes the lease once its active
status has reached the index (`finalizeChildAdmission`), which it names by the
child only, not by the lease's token.

`Admissions` is the system of all these calls: an admission reads the clock
once, then executes its two statements, each atomic, with any other step in
between. `bounded_of_reachable` is the bound over every run in which a
finalization finds no unexpired lease that another admission has yet to use.
The invariant that carries it, `AdmissionInv`, is that such a lease is in the
table: its child is counted before it is active.

Without that condition the bound fails (`late_finalization_exceeds_limit`): the
finalization of an earlier activation, arriving late, removes the lease of a
resume of the same child, whose capacity then goes to another child.
-/

namespace BackgroundAgents.SessionIndex

open Transition

/-- A `crypto.randomUUID()`; nothing is used of it but that no two are equal. -/
abbrev LeaseToken := Nat

/-- A row of `child_admission_leases`, whose child is unique. -/
structure ChildAdmissionLease where
  token : LeaseToken
  parentSessionId : SessionId
  childSessionId : SessionId
  expiresAt : Millis
  deriving DecidableEq, Repr

def childAdmissionLeaseTtlMs : Millis := 5 * 60 * 1000

structure AdmissionDb where
  sessions : SessionTable
  leases : Table ChildAdmissionLease.childSessionId

namespace AdmissionDb

/-- The children that count against the capacity of a parent: those active under it and
those with an unexpired lease. -/
def admittedChildren (db : AdmissionDb) (parentSessionId : SessionId) (now : Millis) :
    Finset SessionId :=
  ((db.sessions.rows.filter fun r =>
      r.parentSessionId = some parentSessionId && !isSessionInactive r.status).map (·.id) ++
    (db.leases.rows.filter fun l =>
      l.parentSessionId = parentSessionId && decide (now < l.expiresAt)).map
        (·.childSessionId)).toFinset

def deleteExpired (db : AdmissionDb) (now : Millis) : AdmissionDb :=
  { db with leases := db.leases.delete fun l => l.expiresAt ≤ now }

/-- Whether the conditional upsert of a lease changes a row. -/
def admits (db : AdmissionDb) (lease : ChildAdmissionLease) (maxConcurrentChildren : Nat)
    (now : Millis) : Bool :=
  decide ((db.admittedChildren lease.parentSessionId now).card < maxConcurrentChildren) &&
    (db.leases.get? lease.childSessionId).all fun held => held.expiresAt ≤ now

def insertLease (db : AdmissionDb) (lease : ChildAdmissionLease) (maxConcurrentChildren : Nat)
    (now : Millis) : AdmissionDb :=
  if db.admits lease maxConcurrentChildren now then
    { db with
      leases := db.leases.upsert lease fun held =>
        { held with
          token := lease.token
          parentSessionId := lease.parentSessionId
          expiresAt := lease.expiresAt } }
  else db

def releaseChildAdmissionLease (db : AdmissionDb) (childSessionId : SessionId)
    (token : LeaseToken) : AdmissionDb :=
  { db with
    leases := db.leases.delete fun l => l.childSessionId = childSessionId && l.token = token }

def finalizeChildAdmission (db : AdmissionDb) (childSessionId : SessionId) : AdmissionDb :=
  { db with leases := db.leases.delete fun l => l.childSessionId = childSessionId }

def setStatus (db : AdmissionDb) (id : SessionId) (status : SessionStatus) : AdmissionDb :=
  { db with sessions := db.sessions.update (fun r => r.id = id) fun r => { r with status } }

/-- The child's row becomes active under the parent: a spawn inserts it, a resume finds it. -/
def activate (db : AdmissionDb) (parentSessionId childSessionId : SessionId)
    (status : SessionStatus) : Option AdmissionDb :=
  if isSessionInactive status then none
  else
    match db.sessions.get? childSessionId with
    | none =>
      (db.sessions.insert?
        { id := childSessionId
          status := status
          parentSessionId := some parentSessionId }).map fun sessions => { db with sessions }
    | some r =>
      if r.parentSessionId = some parentSessionId then some (db.setStatus childSessionId status)
      else none

end AdmissionDb

/-- What an admission executes next. -/
inductive AdmissionStage where
  | deletingExpired
  | inserting
  | holding
  | active
  | ended
  deriving DecidableEq, Repr

/-- A spawn or a resume of a child. `now` is the clock it read when it called
`acquireChildAdmissionLease`. -/
structure Admission where
  parentSessionId : SessionId
  childSessionId : SessionId
  token : LeaseToken
  now : Millis
  stage : AdmissionStage
  deriving DecidableEq, Repr

namespace Admission

def expiresAt (a : Admission) : Millis := a.now + childAdmissionLeaseTtlMs

def lease (a : Admission) : ChildAdmissionLease where
  token := a.token
  parentSessionId := a.parentSessionId
  childSessionId := a.childSessionId
  expiresAt := a.expiresAt

/-- It has its lease, which has not expired, and has yet to make the child active. -/
def waiting (a : Admission) (clock : Millis) : Bool :=
  a.stage = .holding && clock < a.expiresAt

end Admission

structure AdmissionState where
  clock : Millis
  db : AdmissionDb
  admissions : List Admission := []
  /-- The finalizations that active projections are yet to execute. -/
  finalizing : List SessionId := []
  nextToken : LeaseToken := 0

inductive AdmissionStep where
  | tick (elapsed : Millis)
  | acquire (parentSessionId childSessionId : SessionId)
  | deleteExpired (i : Nat)
  | insert (i : Nat)
  | activate (i : Nat) (status : SessionStatus)
  | release (i : Nat)
  /-- A child's status reaches the index by no admission: it settles, or is active already. -/
  | project (childSessionId : SessionId) (status : SessionStatus)
  | finalize (k : Nat)
  deriving DecidableEq, Repr

namespace AdmissionState

/-- The finalization that follows the projection of an active status. -/
def projected (finalizing : List SessionId) (childSessionId : SessionId)
    (status : SessionStatus) : List SessionId :=
  if status = .active then finalizing ++ [childSessionId] else finalizing

def setAdmission (s : AdmissionState) (i : Nat) (a : Admission) : AdmissionState :=
  { s with admissions := advance s.admissions i (some a) }

def step (limit : SessionId → Nat) (s : AdmissionState) : AdmissionStep → Option AdmissionState
  | .tick elapsed => some { s with clock := s.clock + elapsed }
  | .acquire parentSessionId childSessionId =>
    some { s with
      admissions := s.admissions ++
        [{ parentSessionId
           childSessionId
           token := s.nextToken
           now := s.clock
           stage := .deletingExpired }]
      nextToken := s.nextToken + 1 }
  | .deleteExpired i =>
    match s.admissions[i]? with
    | some a =>
      if a.stage = .deletingExpired then
        some (({ s with db := s.db.deleteExpired a.now }).setAdmission i
          { a with stage := .inserting })
      else none
    | none => none
  | .insert i =>
    match s.admissions[i]? with
    | some a =>
      if a.stage = .inserting then
        let maxConcurrentChildren := limit a.parentSessionId
        some (({ s with db := s.db.insertLease a.lease maxConcurrentChildren a.now }).setAdmission i
          { a with
            stage :=
              if s.db.admits a.lease maxConcurrentChildren a.now then .holding else .ended })
      else none
    | none => none
  | .activate i status =>
    match s.admissions[i]? with
    | some a =>
      if a.stage = .holding then
        (s.db.activate a.parentSessionId a.childSessionId status).map fun db =>
          ({ s with
            db
            finalizing := projected s.finalizing a.childSessionId status }).setAdmission i
              { a with stage := .active }
      else none
    | none => none
  | .release i =>
    match s.admissions[i]? with
    | some a =>
      if a.stage = .holding ∨ a.stage = .active then
        some (({ s with
          db := s.db.releaseChildAdmissionLease a.childSessionId a.token }).setAdmission i
            { a with stage := .ended })
      else none
    | none => none
  | .project childSessionId status =>
    match s.db.sessions.get? childSessionId with
    | some r =>
      if isSessionInactive r.status && !isSessionInactive status then none
      else
        some { s with
          db := s.db.setStatus childSessionId status
          finalizing := projected s.finalizing childSessionId status }
    | none => none
  | .finalize k =>
    match s.finalizing[k]? with
    | some childSessionId =>
      some { s with
        db := s.db.finalizeChildAdmission childSessionId
        finalizing := s.finalizing.eraseIdx k }
    | none => none

end AdmissionState

/-- The admissions of all parents, each with its fixed limit. -/
def admissionSystem (limit : SessionId → Nat) : System AdmissionState AdmissionStep where
  step := AdmissionState.step limit

/-- An admission makes its child active, if at all, before its lease expires. -/
def inTime (s : AdmissionState) : AdmissionStep → Bool
  | .activate i _ => s.admissions[i]?.all fun a => s.clock < a.expiresAt
  | _ => true

/-- A finalization finds no admission of its child that has yet to use its lease. -/
def noneWaiting (s : AdmissionState) : AdmissionStep → Bool
  | .finalize k => s.finalizing[k]?.all fun c =>
      s.admissions.all fun a => !(a.childSessionId = c && a.waiting s.clock)
  | _ => true

/-! ## What each statement does -/

namespace AdmissionDb

variable {db db' : AdmissionDb} {parent child c : SessionId} {now : Millis}

/-- A child counts against the capacity of its parent. -/
def Counts (db : AdmissionDb) (parent : SessionId) (now : Millis) (child : SessionId) : Prop :=
  (∃ r, db.sessions.get? child = some r ∧ r.parentSessionId = some parent ∧
    isSessionInactive r.status = false) ∨
  ∃ l, db.leases.get? child = some l ∧ l.parentSessionId = parent ∧ now < l.expiresAt

theorem mem_admittedChildren :
    child ∈ db.admittedChildren parent now ↔ db.Counts parent now child := by
  simp only [admittedChildren, List.mem_toFinset, List.mem_append, List.mem_map, List.mem_filter,
    Bool.and_eq_true, decide_eq_true_eq, Bool.not_eq_true']
  refine or_congr ⟨?_, ?_⟩ ⟨?_, ?_⟩
  · rintro ⟨r, ⟨hr, hp, hs⟩, hid⟩
    exact ⟨r, Table.get?_eq_some.mpr ⟨hr, hid⟩, hp, hs⟩
  · rintro ⟨r, hr, hp, hs⟩
    exact ⟨r, ⟨Table.mem_of_get? hr, hp, hs⟩, Table.key_of_get? hr⟩
  · rintro ⟨l, ⟨hl, hp, hn⟩, hc⟩
    exact ⟨l, Table.get?_eq_some.mpr ⟨hl, hc⟩, hp, hn⟩
  · rintro ⟨l, hl, hp, hn⟩
    exact ⟨l, ⟨Table.mem_of_get? hl, hp, hn⟩, Table.key_of_get? hl⟩

/-- Fewer children count: the capacity in use does not grow. -/
theorem card_admitted_le {now' : Millis}
    (h : ∀ c, db'.Counts parent now' c → db.Counts parent now c) :
    (db'.admittedChildren parent now').card ≤ (db.admittedChildren parent now).card := by
  refine Finset.card_le_card ?_
  intro c hc
  exact mem_admittedChildren.mpr (h c (mem_admittedChildren.mp hc))

/-- A lease counts no longer than until it expires. -/
theorem Counts.earlier {now' : Millis} (hle : now ≤ now') (h : db.Counts parent now' c) :
    db.Counts parent now c := by
  rcases h with h | ⟨l, hl, hp, hn⟩
  · exact .inl h
  · exact .inr ⟨l, hl, hp, Nat.lt_of_le_of_lt hle hn⟩

theorem Counts.of_delete {p : ChildAdmissionLease → Bool}
    (h : ({ db with leases := db.leases.delete p } : AdmissionDb).Counts parent now c) :
    db.Counts parent now c := by
  rcases h with h | ⟨l, hl, hp, hn⟩
  · exact .inl h
  · rw [Table.get?_delete, Option.filter_eq_some_iff] at hl
    exact .inr ⟨l, hl.1, hp, hn⟩

theorem get?_delete_of_not {p : ChildAdmissionLease → Bool} {l : ChildAdmissionLease}
    (h : db.leases.get? c = some l) (hp : p l = false) : (db.leases.delete p).get? c = some l := by
  rw [Table.get?_delete, h, Option.filter_some, hp]
  rfl

theorem get?_setStatus (id : SessionId) (status : SessionStatus) :
    (db.setStatus id status).sessions.get? c =
      (db.sessions.get? c).map fun r => if r.id = id then { r with status } else r := by
  simp only [setStatus, Table.get?_update, decide_eq_true_eq]

/-- A status that keeps an inactive child inactive counts no further child. -/
theorem Counts.of_setStatus {id : SessionId} {status : SessionStatus}
    (hs : ∀ r, db.sessions.get? id = some r → isSessionInactive r.status = true →
      isSessionInactive status = true)
    (h : (db.setStatus id status).Counts parent now c) : db.Counts parent now c := by
  rcases h with ⟨r, hr, hp, hact⟩ | h
  · rw [get?_setStatus] at hr
    obtain ⟨r₀, hr₀, rfl⟩ := Option.map_eq_some_iff.mp hr
    refine .inl ⟨r₀, hr₀, ?_⟩
    by_cases hid : r₀.id = id
    · rw [if_pos hid] at hp hact
      refine ⟨hp, ?_⟩
      have hc : id = c := hid.symm.trans (Table.key_of_get? hr₀)
      subst hc
      cases hin : isSessionInactive r₀.status with
      | false => rfl
      | true =>
        rw [hs r₀ hr₀ hin] at hact
        exact hact
    · rw [if_neg hid] at hp hact
      exact ⟨hp, hact⟩
  · exact .inr h

/-- Only the child that is made active may count in addition, under its parent. -/
theorem Counts.of_activate {p : SessionId} {status : SessionStatus}
    (ha : db.activate p child status = some db') (h : db'.Counts parent now c) :
    db.Counts parent now c ∨ (c = child ∧ parent = p) := by
  unfold activate at ha
  split at ha
  next => cases ha
  next hact =>
    split at ha
    next hnone =>
      obtain ⟨sessions, hins, rfl⟩ := Option.map_eq_some_iff.mp ha
      rcases h with ⟨r, hr, hp, hs⟩ | h
      · rw [Table.get?_insert? hins] at hr
        split at hr
        next hc =>
          cases hr
          exact .inr ⟨hc.symm, (Option.some.inj hp).symm⟩
        next => exact .inl (.inl ⟨r, hr, hp, hs⟩)
      · exact .inl (.inr h)
    next r hr =>
      split at ha
      next hparent =>
        cases ha
        rcases h with ⟨r', hr', hp, hs⟩ | h
        · rw [get?_setStatus] at hr'
          obtain ⟨r₀, hr₀, rfl⟩ := Option.map_eq_some_iff.mp hr'
          by_cases hid : r₀.id = child
          · have hc : c = child := (Table.key_of_get? hr₀).symm.trans hid
            subst hc
            rw [hr] at hr₀
            cases hr₀
            rw [if_pos hid] at hp
            exact .inr ⟨rfl, Option.some.inj (hp.symm.trans hparent)⟩
          · rw [if_neg hid] at hp hs
            exact .inl (.inl ⟨r₀, hr₀, hp, hs⟩)
        · exact .inl (.inr h)
      next => cases ha

theorem leases_activate {p : SessionId} {status : SessionStatus}
    (ha : db.activate p child status = some db') : db'.leases = db.leases := by
  unfold activate at ha
  split at ha
  next => cases ha
  next =>
    split at ha
    next =>
      obtain ⟨_, _, rfl⟩ := Option.map_eq_some_iff.mp ha
      rfl
    next =>
      split at ha
      next =>
        cases ha
        rfl
      next => cases ha

section Insert

variable {lease : ChildAdmissionLease} {max : Nat}

theorem get?_insertLease (h : db.admits lease max now = true) :
    (db.insertLease lease max now).leases.get? c =
      if lease.childSessionId = c then some lease else db.leases.get? c := by
  rw [insertLease, if_pos h, Table.get?_upsert]
  split
  next hc =>
    cases hg : db.leases.get? c with
    | none => rfl
    | some held =>
      have hk : held.childSessionId = lease.childSessionId :=
        (Table.key_of_get? hg).trans hc.symm
      rw [Option.map_some, Option.getD_some, hk]
  next => rfl

theorem insertLease_of_not_admits (h : db.admits lease max now = false) :
    db.insertLease lease max now = db := by
  rw [insertLease, h]
  rfl

/-- What it replaced has expired. -/
theorem expired_of_admits (h : db.admits lease max now = true) {held : ChildAdmissionLease}
    (hg : db.leases.get? lease.childSessionId = some held) : held.expiresAt ≤ now := by
  rw [admits, hg, Bool.and_eq_true, Option.all_some] at h
  exact of_decide_eq_true h.2

theorem Counts.of_insertLease (h : db.admits lease max now = true) {clock : Millis}
    (hc : (db.insertLease lease max now).Counts parent clock c) :
    db.Counts parent clock c ∨ (c = lease.childSessionId ∧ parent = lease.parentSessionId) := by
  rcases hc with hc | ⟨l, hl, hp, hn⟩
  · refine .inl (.inl ?_)
    rwa [insertLease, if_pos h] at hc
  · rw [get?_insertLease h] at hl
    split at hl
    next hid =>
      cases hl
      exact .inr ⟨hid.symm, hp.symm⟩
    next => exact .inl (.inr ⟨l, hl, hp, hn⟩)

/-- **One more within the limit.** The count was taken at the time the admission read; at
any later time no more children count. -/
theorem card_insertLease_le {clock limit : Nat} (h : db.admits lease max now = true)
    (hmax : lease.parentSessionId = parent → max = limit) (hle : now ≤ clock)
    (hb : (db.admittedChildren parent clock).card ≤ limit) :
    ((db.insertLease lease max now).admittedChildren parent clock).card ≤ limit := by
  by_cases hp : lease.parentSessionId = parent
  · have hlt : (db.admittedChildren lease.parentSessionId now).card < max := by
      rw [admits, Bool.and_eq_true] at h
      exact of_decide_eq_true h.1
    rw [hp, hmax hp] at hlt
    have hsub : (db.insertLease lease max now).admittedChildren parent clock ⊆
        insert lease.childSessionId (db.admittedChildren parent now) := by
      intro c hc
      rw [Finset.mem_insert]
      rcases Counts.of_insertLease h (mem_admittedChildren.mp hc) with hc | ⟨hc, _⟩
      · exact .inr (mem_admittedChildren.mpr (hc.earlier hle))
      · exact .inl hc
    calc ((db.insertLease lease max now).admittedChildren parent clock).card
        ≤ (insert lease.childSessionId (db.admittedChildren parent now)).card :=
          Finset.card_le_card hsub
      _ ≤ (db.admittedChildren parent now).card + 1 := Finset.card_insert_le _ _
      _ ≤ limit := hlt
  · refine le_trans (card_admitted_le ?_) hb
    intro c hc
    rcases Counts.of_insertLease h hc with hc | ⟨_, hc⟩
    · exact hc
    · exact absurd hc.symm hp

end Insert

end AdmissionDb

/-! ## The bound -/

/-- The admission's lease is the one in the table. -/
def Admission.Owns (a : Admission) (db : AdmissionDb) : Prop :=
  db.leases.get? a.childSessionId = some a.lease

/-- What holds of a parent between any two steps. -/
structure AdmissionInv (limit : SessionId → Nat) (parent : SessionId) (s : AdmissionState) :
    Prop where
  bound : (s.db.admittedChildren parent s.clock).card ≤ limit parent
  held : ∀ a ∈ s.admissions, a.waiting s.clock = true → a.Owns s.db
  tokens : s.admissions.Pairwise fun a b => a.token ≠ b.token
  below : ∀ a ∈ s.admissions, a.token < s.nextToken
  past : ∀ a ∈ s.admissions, a.now ≤ s.clock

namespace AdmissionInv

variable {limit : SessionId → Nat} {parent : SessionId} {s t : AdmissionState} {a b : Admission}
  {i : Nat}

theorem waiting_iff {clock : Millis} :
    a.waiting clock = true ↔ a.stage = .holding ∧ clock < a.expiresAt := by
  rw [Admission.waiting, Bool.and_eq_true, decide_eq_true_eq, decide_eq_true_eq]

variable {finalizing : List SessionId}

/-- A step of one admission, on the leases and on its own stage. The other admissions that
wait keep their leases, and so does its own if it goes on waiting. -/
theorem moved (h : AdmissionInv limit parent s) (hget : s.admissions[i]? = some a)
    {db : AdmissionDb} {stage : AdmissionStage}
    (hbound : (db.admittedChildren parent s.clock).card ≤ limit parent)
    (hown : stage = .holding → s.clock < a.expiresAt → a.Owns db)
    (hothers : ∀ b ∈ s.admissions, a.token ≠ b.token → b.waiting s.clock = true → b.Owns s.db →
      b.Owns db) :
    AdmissionInv limit parent
      (({ s with db, finalizing }).setAdmission i { a with stage }) where
  bound := hbound
  held b hb hw := by
    have hb : b ∈ advance s.admissions i (some { a with stage }) := hb
    rcases mem_advance_pairwise (fun _ _ hne => hne.symm) h.tokens hget hb with hb | ⟨hb, hne⟩
    · cases hb
      obtain ⟨hs, hlt⟩ := waiting_iff.mp hw
      exact hown hs hlt
    · exact hothers b hb hne hw (h.held b hb hw)
  tokens := by
    show (advance s.admissions i (some { a with stage })).Pairwise _
    refine pairwise_advance (fun _ _ hne => hne.symm) h.tokens hget ?_
    intro n hn b hne
    cases hn
    exact hne
  below b hb := by
    have hb : b ∈ advance s.admissions i (some { a with stage }) := hb
    rcases mem_of_mem_advance hb with hb | hb
    · exact h.below b hb
    · cases hb
      exact h.below a (List.mem_of_getElem? hget)
  past b hb := by
    have hb : b ∈ advance s.admissions i (some { a with stage }) := hb
    rcases mem_of_mem_advance hb with hb | hb
    · exact h.past b hb
    · cases hb
      exact h.past a (List.mem_of_getElem? hget)

theorem tick (h : AdmissionInv limit parent s) (elapsed : Millis) :
    AdmissionInv limit parent { s with clock := s.clock + elapsed } where
  bound := le_trans (AdmissionDb.card_admitted_le fun _ hc => hc.earlier (Nat.le_add_right _ _))
    h.bound
  held a ha hw := by
    obtain ⟨hs, hlt⟩ := waiting_iff.mp hw
    exact h.held a ha (waiting_iff.mpr ⟨hs, Nat.lt_of_le_of_lt (Nat.le_add_right _ _) hlt⟩)
  tokens := h.tokens
  below := h.below
  past a ha := le_trans (h.past a ha) (Nat.le_add_right _ _)

theorem acquire (h : AdmissionInv limit parent s) (p child : SessionId) :
    AdmissionInv limit parent
      { s with
        admissions := s.admissions ++
          [{ parentSessionId := p
             childSessionId := child
             token := s.nextToken
             now := s.clock
             stage := .deletingExpired }]
        nextToken := s.nextToken + 1 } where
  bound := h.bound
  held a ha hw := by
    rcases List.mem_append.mp ha with ha | ha
    · exact h.held a ha hw
    · cases List.mem_singleton.mp ha
      cases (waiting_iff.mp hw).1
  tokens := by
    refine List.pairwise_append.mpr ⟨h.tokens, List.pairwise_singleton _ _, ?_⟩
    intro a ha b hb
    cases List.mem_singleton.mp hb
    exact Nat.ne_of_lt (h.below a ha)
  below a ha := by
    rcases List.mem_append.mp ha with ha | ha
    · exact Nat.lt_succ_of_lt (h.below a ha)
    · cases List.mem_singleton.mp ha
      exact Nat.lt_succ_self _
  past a ha := by
    rcases List.mem_append.mp ha with ha | ha
    · exact h.past a ha
    · cases List.mem_singleton.mp ha
      exact le_rfl

/-- The rows that have expired when the admission read the clock are no waiting one's. -/
theorem deleteExpired (h : AdmissionInv limit parent s) (hget : s.admissions[i]? = some a) :
    AdmissionInv limit parent
      (({ s with db := s.db.deleteExpired a.now }).setAdmission i
        { a with stage := .inserting }) := by
  refine h.moved hget ?_ (fun hs _ => by cases hs) ?_
  · exact le_trans (AdmissionDb.card_admitted_le fun _ hc => hc.of_delete) h.bound
  · intro b _ _ hw hb
    refine AdmissionDb.get?_delete_of_not hb (decide_eq_false (Nat.not_le.mpr ?_))
    exact Nat.lt_of_le_of_lt (h.past a (List.mem_of_getElem? hget)) (waiting_iff.mp hw).2

theorem insert (h : AdmissionInv limit parent s) (hget : s.admissions[i]? = some a) :
    AdmissionInv limit parent
      (({ s with db := s.db.insertLease a.lease (limit a.parentSessionId) a.now }).setAdmission i
        { a with
          stage :=
            if s.db.admits a.lease (limit a.parentSessionId) a.now then .holding
            else .ended }) := by
  have hpast := h.past a (List.mem_of_getElem? hget)
  cases hadm : s.db.admits a.lease (limit a.parentSessionId) a.now with
  | false =>
    rw [AdmissionDb.insertLease_of_not_admits hadm]
    exact h.moved hget h.bound (fun hs _ => by cases hs) fun _ _ _ _ hb => hb
  | true =>
    refine h.moved hget ?_ ?_ ?_
    · exact AdmissionDb.card_insertLease_le hadm (fun hp => by rw [← hp]; rfl) hpast h.bound
    · intro _ _
      show _ = _
      rw [AdmissionDb.get?_insertLease hadm]
      exact if_pos rfl
    · intro b _ _ hw hb
      show _ = _
      rw [AdmissionDb.get?_insertLease hadm]
      split
      next hc =>
        -- it would have replaced a lease that has not expired
        have hheld : s.db.leases.get? a.lease.childSessionId = some b.lease := by
          rw [hc]
          exact hb
        have hexp := AdmissionDb.expired_of_admits hadm hheld
        exact absurd (le_trans hexp hpast) (Nat.not_le.mpr (waiting_iff.mp hw).2)
      next => exact hb

/-- **The lease becomes the active child.** The child counted already. -/
theorem activate (h : AdmissionInv limit parent s) (hget : s.admissions[i]? = some a)
    (hstage : a.stage = .holding) (htime : s.clock < a.expiresAt) {status : SessionStatus}
    {db : AdmissionDb} (ha : s.db.activate a.parentSessionId a.childSessionId status = some db) :
    AdmissionInv limit parent
      (({ s with db, finalizing }).setAdmission i { a with stage := .active }) := by
  have hown := h.held a (List.mem_of_getElem? hget) (waiting_iff.mpr ⟨hstage, htime⟩)
  have hleases := AdmissionDb.leases_activate ha
  refine h.moved hget ?_ (fun hs _ => by cases hs) ?_
  · refine le_trans (AdmissionDb.card_admitted_le ?_) h.bound
    intro c hc
    rcases AdmissionDb.Counts.of_activate ha hc with hc | ⟨rfl, rfl⟩
    · exact hc
    · exact .inr ⟨a.lease, hown, rfl, htime⟩
  · intro b _ _ _ hb
    rwa [Admission.Owns, hleases]

theorem release (h : AdmissionInv limit parent s) (hget : s.admissions[i]? = some a) :
    AdmissionInv limit parent
      (({ s with
        db := s.db.releaseChildAdmissionLease a.childSessionId a.token }).setAdmission i
          { a with stage := .ended }) := by
  refine h.moved hget ?_ (fun hs _ => by cases hs) ?_
  · exact le_trans (AdmissionDb.card_admitted_le fun _ hc => hc.of_delete) h.bound
  · intro b _ hne _ hb
    refine AdmissionDb.get?_delete_of_not hb ?_
    rw [Bool.and_eq_false_iff, decide_eq_false_iff_not, decide_eq_false_iff_not]
    exact .inr fun he => hne he.symm

theorem project (h : AdmissionInv limit parent s) {child : SessionId} {status : SessionStatus}
    (hs : ∀ r, s.db.sessions.get? child = some r → isSessionInactive r.status = true →
      isSessionInactive status = true) :
    AdmissionInv limit parent { s with db := s.db.setStatus child status, finalizing } :=
  { h with
    bound := le_trans (AdmissionDb.card_admitted_le fun _ hc => hc.of_setStatus hs) h.bound }

theorem finalize (h : AdmissionInv limit parent s) {child : SessionId}
    (hnone : ∀ a ∈ s.admissions, a.childSessionId = child → a.waiting s.clock = false) :
    AdmissionInv limit parent
      { s with db := s.db.finalizeChildAdmission child, finalizing } where
  bound := le_trans (AdmissionDb.card_admitted_le fun _ hc => hc.of_delete) h.bound
  held a ha hw := by
    refine AdmissionDb.get?_delete_of_not (h.held a ha hw) (decide_eq_false fun hc => ?_)
    rw [hnone a ha hc] at hw
    cases hw
  tokens := h.tokens
  below := h.below
  past := h.past

/-- **One step keeps the bound.** -/
theorem step (h : AdmissionInv limit parent s) {act : AdmissionStep} (htime : inTime s act = true)
    (hnone : noneWaiting s act = true) (hs : s.step limit act = some t) :
    AdmissionInv limit parent t := by
  cases act with
  | tick elapsed =>
    cases hs
    exact h.tick elapsed
  | acquire p child =>
    cases hs
    exact h.acquire p child
  | deleteExpired i =>
    simp only [AdmissionState.step] at hs
    split at hs
    next a hget =>
      split at hs
      next =>
        cases hs
        exact h.deleteExpired hget
      next => cases hs
    next => cases hs
  | insert i =>
    simp only [AdmissionState.step] at hs
    split at hs
    next a hget =>
      split at hs
      next =>
        cases hs
        exact h.insert hget
      next => cases hs
    next => cases hs
  | activate i status =>
    simp only [AdmissionState.step] at hs
    split at hs
    next a hget =>
      split at hs
      next hstage =>
        obtain ⟨db, ha, rfl⟩ := Option.map_eq_some_iff.mp hs
        rw [inTime, hget, Option.all_some] at htime
        exact h.activate hget hstage (of_decide_eq_true htime) ha
      next => cases hs
    next => cases hs
  | release i =>
    simp only [AdmissionState.step] at hs
    split at hs
    next a hget =>
      split at hs
      next =>
        cases hs
        exact h.release hget
      next => cases hs
    next => cases hs
  | project child status =>
    simp only [AdmissionState.step] at hs
    split at hs
    next r hr =>
      split at hs
      next => cases hs
      next hno =>
        cases hs
        refine h.project ?_
        intro r' hr' hin
        cases hr.symm.trans hr'
        simpa [hin] using hno
    next => cases hs
  | finalize k =>
    simp only [AdmissionState.step] at hs
    split at hs
    next child hk =>
      cases hs
      refine h.finalize ?_
      intro a ha hc
      simp only [noneWaiting, hk, Option.all_some, List.all_eq_true] at hnone
      have hw := hnone a ha
      rw [decide_eq_true hc, Bool.true_and, Bool.not_eq_true'] at hw
      exact hw
    next => cases hs

end AdmissionInv

/-- Where a run begins: no admission is under way, and the children that are active, or
that a lease left behind still counts, are within the limit. -/
structure Idle (limit : SessionId → Nat) (parent : SessionId) (s : AdmissionState) : Prop where
  admissions : s.admissions = []
  bound : (s.db.admittedChildren parent s.clock).card ≤ limit parent

/-- The children of a parent are bounded, and an admission's lease is its own. -/
structure Bounded (limit : SessionId → Nat) (parent : SessionId) (s : AdmissionState) :
    Prop where
  bound : (s.db.admittedChildren parent s.clock).card ≤ limit parent
  /-- One holder at a time owns the lease of a child. -/
  owner : ∀ (i j : Nat) (a b : Admission), s.admissions[i]? = some a →
    s.admissions[j]? = some b → a.Owns s.db → b.Owns s.db →
    a.childSessionId = b.childSessionId → i = j
  /-- Nothing that other admissions did took the lease of one that has yet to use it. -/
  held : ∀ a ∈ s.admissions, a.waiting s.clock = true → a.Owns s.db
  /-- A release, however late, removes no other holder's lease. -/
  released : ∀ a ∈ s.admissions, ∀ b ∈ s.admissions, a.token ≠ b.token → b.Owns s.db →
    b.Owns (s.db.releaseChildAdmissionLease a.childSessionId a.token)

theorem AdmissionInv.idle {limit : SessionId → Nat} {parent : SessionId} {s : AdmissionState}
    (h : Idle limit parent s) : AdmissionInv limit parent s where
  bound := h.bound
  held a ha := by
    rw [h.admissions] at ha
    cases ha
  tokens := by
    rw [h.admissions]
    exact .nil
  below a ha := by
    rw [h.admissions] at ha
    cases ha
  past a ha := by
    rw [h.admissions] at ha
    cases ha

theorem AdmissionInv.bounded {limit : SessionId → Nat} {parent : SessionId} {s : AdmissionState}
    (h : AdmissionInv limit parent s) : Bounded limit parent s where
  bound := h.bound
  owner i j a b hi hj ha hb hc := by
    have htok : a.token = b.token := by
      rw [Admission.Owns, hc, hb] at ha
      exact congrArg (·.token) (Option.some.inj ha).symm
    obtain ⟨hilt, rfl⟩ := List.getElem?_eq_some_iff.mp hi
    obtain ⟨hjlt, rfl⟩ := List.getElem?_eq_some_iff.mp hj
    have hne := List.pairwise_iff_getElem.mp h.tokens
    rcases Nat.lt_trichotomy i j with hlt | rfl | hgt
    · exact absurd htok (hne i j hilt hjlt hlt)
    · rfl
    · exact absurd htok.symm (hne j i hjlt hilt hgt)
  held := h.held
  released a _ b _ hne hb := by
    refine AdmissionDb.get?_delete_of_not hb ?_
    rw [Bool.and_eq_false_iff, decide_eq_false_iff_not, decide_eq_false_iff_not]
    exact .inr fun he => hne he.symm

/-- **Child concurrency is bounded** over every run in which admissions use their leases in
time and no finalization finds one that another admission has yet to use. -/
theorem child_concurrency_bounded {limit : SessionId → Nat} {parent : SessionId}
    {s₀ s : AdmissionState} (h₀ : Idle limit parent s₀)
    (hr : (admissionSystem limit).Reachable
      (fun s a => inTime s a = true ∧ noneWaiting s a = true) s₀ s) :
    Bounded limit parent s := by
  refine AdmissionInv.bounded (hr.inv (AdmissionInv limit parent) (AdmissionInv.idle h₀) ?_)
  intro s a t hi hok hs
  exact hi.step hok.1 hok.2 hs

/-! ## Two runs -/

def oneChild : SessionId → Nat := fun _ => 1

/-- A parent that is active and has no children. -/
def parentOnly : AdmissionState where
  clock := 0
  db :=
    { sessions := ⟨[{ id := ['p'], status := .active }], by decide⟩
      leases := .empty }

theorem parentOnly_idle : Idle oneChild ['p'] parentOnly where
  admissions := rfl
  bound := by decide

/-- A child is spawned and its turn ends. -/
def spawnedAndSettled : List AdmissionStep :=
  [.acquire ['p'] ['c'], .deleteExpired 0, .insert 0, .activate 0 .created, .release 0,
    .project ['c'] .active, .project ['c'] .completed]

/-- The child is resumed and waits with its lease. -/
def resuming : List AdmissionStep :=
  [.acquire ['p'] ['c'], .deleteExpired 1, .insert 1]

/-- Another child is spawned, and then both are active, if the capacity allows. -/
def bothActive : List AdmissionStep :=
  [.acquire ['p'] ['d'], .deleteExpired 2, .insert 2, .activate 2 .created, .activate 1 .active]

theorem child_concurrency_bounded_resumed :
    ∃ s, (admissionSystem oneChild).run
        (fun s a => inTime s a = true ∧ noneWaiting s a = true) parentOnly
        (spawnedAndSettled ++ [.finalize 0] ++ resuming ++
          [.acquire ['p'] ['d'], .deleteExpired 2, .insert 2, .activate 1 .active]) = some s ∧
      Bounded oneChild ['p'] s := by
  obtain ⟨s, hs⟩ := Option.isSome_iff_exists.mp (show ((admissionSystem oneChild).run
    (fun s a => inTime s a = true ∧ noneWaiting s a = true) parentOnly
    (spawnedAndSettled ++ [.finalize 0] ++ resuming ++
      [.acquire ['p'] ['d'], .deleteExpired 2, .insert 2, .activate 1 .active])).isSome = true by
    decide +kernel)
  exact ⟨s, hs, child_concurrency_bounded parentOnly_idle (System.run_reachable hs)⟩

/-- **The finalization of an earlier activation takes the lease of a resume.** The limit is one;
the second child is admitted on the capacity of the lease that the late finalization removed,
and the resume then makes the first one active, well before its lease would have expired. -/
theorem late_finalization_exceeds_limit :
    Idle oneChild ['p'] parentOnly ∧
      ∃ s, (admissionSystem oneChild).Reachable (fun s a => inTime s a = true) parentOnly s ∧
        oneChild ['p'] < (s.db.admittedChildren ['p'] s.clock).card := by
  refine ⟨parentOnly_idle, ?_⟩
  have hrun : ((admissionSystem oneChild).run (fun s a => inTime s a = true) parentOnly
      (spawnedAndSettled ++ resuming ++ [.finalize 0] ++ bothActive)).map
        (fun s => (s.db.admittedChildren ['p'] s.clock).card) = some 2 := by
    decide +kernel
  obtain ⟨s, hs, hcard⟩ := Option.map_eq_some_iff.mp hrun
  refine ⟨s, System.run_reachable hs, ?_⟩
  rw [hcard]
  exact Nat.lt_succ_self 1

end BackgroundAgents.SessionIndex

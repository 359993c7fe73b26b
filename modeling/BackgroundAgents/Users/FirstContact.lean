import BackgroundAgents.Users.Identities

/-!
# First contacts

Any number of calls meet the two unique indexes in any order. Rows are only
added, so what a call has read stays true: the identity row that it found, the
user who has its email (`Call.Sound`). What a call returns is the user that its
identity row names (`Finished.Sound`), from then on in every state.

The one retry is not enough for a third contact. A retry that links to the user
who took its email may find its identity linked meanwhile, and nothing retries
that; `RetryUncontested` is that this does not happen.
-/

namespace BackgroundAgents.Users

open Transition

section

variable {db db' : Db} {user : UserRow} {row : UserIdentityRow} {error : ResolveError}

/-! ## Insertions -/

theorem insertUser_ok (h : db.insertUser user = .ok db') :
    db'.users.rows = db.users.rows ++ [user] ∧ db'.user_identities = db.user_identities := by
  unfold Db.insertUser at h
  split at h
  next => cases h
  next =>
    split at h
    next => cases h
    next users hinsert =>
      cases h
      exact ⟨Table.rows_insert? hinsert, rfl⟩

theorem insertUser_error (h : db.insertUser user = .error error) : error = .uniqueConstraint := by
  unfold Db.insertUser at h
  split at h
  next =>
    cases h
    rfl
  next =>
    split at h
    next =>
      cases h
      rfl
    next => cases h

theorem insertIdentity_ok (h : db.insertIdentity row = .ok db') :
    db'.user_identities.rows = db.user_identities.rows ++ [row] ∧ db'.users = db.users := by
  unfold Db.insertIdentity at h
  split at h
  next => cases h
  next =>
    split at h
    next => cases h
    next user_identities hinsert =>
      split at h
      next =>
        cases h
        exact ⟨Table.rows_insert? hinsert, rfl⟩
      next => cases h

/-- An identity of a user who is there is refused by the unique index only. -/
theorem insertIdentity_error (howner : user ∈ db.users.rows) (hid : user.id = row.user_id)
    (h : db.insertIdentity row = .error error) : error = .uniqueConstraint := by
  unfold Db.insertIdentity at h
  split at h
  next =>
    cases h
    rfl
  next =>
    split at h
    next =>
      cases h
      rfl
    next =>
      split at h
      next => cases h
      next hnone => exact absurd ⟨user, howner, hid⟩ hnone

/-- Rows are only added. -/
structure Db.Grows (db db' : Db) : Prop where
  users : ∀ user ∈ db.users.rows, user ∈ db'.users.rows
  identities : ∀ row ∈ db.user_identities.rows, row ∈ db'.user_identities.rows

theorem Db.Grows.refl (db : Db) : db.Grows db := ⟨fun _ h => h, fun _ h => h⟩

theorem insertIdentity_grows (h : db.insertIdentity row = .ok db') : db.Grows db' := by
  obtain ⟨hrows, husers⟩ := insertIdentity_ok h
  refine ⟨?_, ?_⟩
  · rw [husers]
    exact fun _ h => h
  · rw [hrows]
    exact fun _ h => List.mem_append_left _ h

theorem insertUser_grows (h : db.insertUser user = .ok db') : db.Grows db' := by
  obtain ⟨hrows, hidentities⟩ := insertUser_ok h
  refine ⟨?_, ?_⟩
  · rw [hrows]
    exact fun _ h => List.mem_append_left _ h
  · rw [hidentities]
    exact fun _ h => h

theorem Db.Grows.trans {db'' : Db} (h : db.Grows db') (h' : db'.Grows db'') : db.Grows db'' :=
  ⟨fun user huser => h'.users user (h.users user huser),
    fun row hrow => h'.identities row (h.identities row hrow)⟩

theorem getIdentity_some {provider providerUserId : String}
    (h : db.getIdentity provider providerUserId = some row) :
    row ∈ db.user_identities.rows ∧ row.identity = some (provider, providerUserId) := by
  obtain ⟨hmem, hp⟩ := Table.find?_some h
  obtain ⟨hprovider, hid⟩ := of_decide_eq_true hp
  refine ⟨Table.mem_of_get? hmem, ?_⟩
  rw [UserIdentityRow.identity, hprovider, hid]

theorem getIdentity_of_mem {provider providerUserId : String}
    (hmem : row ∈ db.user_identities.rows) (hid : row.identity = some (provider, providerUserId)) :
    db.getIdentity provider providerUserId = some row := by
  cases hfound : db.getIdentity provider providerUserId with
  | none =>
    rw [UserIdentityRow.identity, Option.some.injEq, Prod.mk.injEq] at hid
    have hno := Table.find?_none.mp hfound _ row (Table.mem_rows_iff.mp hmem)
    exact absurd hid (of_decide_eq_false hno)
  | some other =>
    obtain ⟨hother, hidentity⟩ := getIdentity_some hfound
    rw [db.identities other hother row hmem _ hidentity hid]

end

section Calls

variable {trim toLowerCase : String → String}

theorem normalizeEmail_normal
    (hnormal : ∀ email, toLowerCase (trim (toLowerCase (trim email))) = toLowerCase (trim email))
    {email : Option String} {normalized : String}
    (h : normalizeEmail trim toLowerCase email = some normalized) :
    normalizeEmail trim toLowerCase (some normalized) = some normalized := by
  unfold normalizeEmail at h
  cases email with
  | none => cases h
  | some email =>
    dsimp only [Option.map_some] at h
    split at h
    next => cases h
    next hne =>
      cases h
      unfold normalizeEmail
      dsimp only [Option.map_some]
      rw [hnormal, if_neg hne]

variable {db db' : Db} {c : Call} {drawn : Nat} {user : UserRow}

theorem getUserByEmail_some {email : String}
    (h : db.getUserByEmail trim toLowerCase email = some user) :
    user ∈ db.users.rows ∧ user.email = normalizeEmail trim toLowerCase (some email) := by
  obtain ⟨normalized, hnormalized, hfound⟩ := Option.bind_eq_some_iff.mp h
  obtain ⟨hmem, hp⟩ := Table.find?_some hfound
  exact ⟨Table.mem_of_get? hmem, (of_decide_eq_true hp).trans hnormalized.symm⟩

theorem getUserByEmail_of_mem {email normalized : String} (hmem : user ∈ db.users.rows)
    (hemail : user.email = some normalized)
    (hnormalized : normalizeEmail trim toLowerCase (some email) = some normalized) :
    db.getUserByEmail trim toLowerCase email = some user := by
  rw [Db.getUserByEmail, hnormalized, Option.bind_some]
  cases hfound : db.users.find? fun user => user.email = some normalized with
  | none =>
    have hno := Table.find?_none.mp hfound _ user (Table.mem_rows_iff.mp hmem)
    exact absurd hemail (of_decide_eq_false hno)
  | some other =>
    obtain ⟨hother, hp⟩ := Table.find?_some hfound
    rw [db.emails other (Table.mem_of_get? hother) user hmem _ (of_decide_eq_true hp) hemail]

/-- What a call relies on while it waits. -/
def Stage.Sound (db : Db) (identity : ProviderIdentity) (normalizedEmail : Option String) :
    Stage → Prop
  | .readingUser existing => existing ∈ db.user_identities.rows ∧
      existing.identity = some (identity.provider, identity.providerUserId)
  | .readingEmail email => normalizedEmail = some email
  | .linking emailUser => emailUser ∈ db.users.rows ∧ emailUser.email = normalizedEmail
  | _ => True

/-- A call whose email a user has had since before it began. -/
structure Call.Expected (trim toLowerCase : String → String) (db : Db) (c : Call) (id : Nat) :
    Prop where
  user : ∃ user ∈ db.users.rows, user.id = id ∧
    ∃ email, user.email = some email ∧ c.normalizedEmail trim toLowerCase = some email
  notAsked : c.asked = false
  notAsking : c.stage ≠ .asking
  notCreating : c.stage ≠ .creating

structure Call.Sound (trim toLowerCase : String → String) (db : Db) (c : Call) : Prop where
  stage : c.stage.Sound db c.identity (c.normalizedEmail trim toLowerCase)
  expected : ∀ id, c.emailUser = some id → c.Expected trim toLowerCase db id

theorem Call.Sound.grows (h : c.Sound trim toLowerCase db) (hgrows : db.Grows db') :
    c.Sound trim toLowerCase db' := by
  refine ⟨?_, ?_⟩
  · have hstage := h.stage
    cases hc : c.stage with
    | readingUser existing =>
      rw [hc] at hstage
      exact ⟨hgrows.identities _ hstage.1, hstage.2⟩
    | linking emailUser =>
      rw [hc] at hstage
      exact ⟨hgrows.users _ hstage.1, hstage.2⟩
    | readingEmail email =>
      rw [hc] at hstage
      exact hstage
    | readingIdentity => exact trivial
    | asking => exact trivial
    | creating => exact trivial
  · intro id hid
    have hexpected := h.expected id hid
    obtain ⟨user, huser, hrest⟩ := hexpected.user
    exact ⟨⟨user, hgrows.users _ huser, hrest⟩, hexpected.notAsked, hexpected.notAsking,
      hexpected.notCreating⟩

/-- What a call came to. -/
structure Finished.Sound (db : Db) (f : Finished) : Prop where
  returned : ∀ user, f.result = .returned user → ∃ row ∈ db.user_identities.rows,
    row.identity = some (f.call.identity.provider, f.call.identity.providerUserId) ∧
      row.user_id = user.id
  expected : ∀ id, f.call.emailUser = some id → f.call.asked = false ∧
    (∀ user, f.result = .returned user → user.outcome ≠ .existing → user.id = id) ∧
    ∀ error, f.result = .failed error → error = .uniqueConstraint

theorem Finished.Sound.grows {f : Finished} (h : f.Sound db) (hgrows : db.Grows db') :
    f.Sound db' := by
  refine ⟨?_, h.expected⟩
  intro user huser
  obtain ⟨row, hrow, hrest⟩ := h.returned user huser
  exact ⟨row, hgrows.identities _ hrow, hrest⟩

/-- Either the call starts over, or it fails. -/
theorem caught_cases (c : Call) (error : ResolveError) :
    c.caught error = .more { c with retrying := true, stage := .readingIdentity } ∨
      c.caught error = .done (.failed error) ∧
        (isUniqueConstraintError error = false ∨ c.retrying = true) := by
  unfold Call.caught
  split
  next => exact .inl rfl
  next hfails =>
    refine .inr ⟨rfl, ?_⟩
    cases hunique : isUniqueConstraintError error with
    | false => exact .inl rfl
    | true =>
      cases hretrying : c.retrying with
      | false => exact absurd ⟨hunique, hretrying⟩ hfails
      | true => exact .inr rfl

/-- A row that an index would refuse stands in the way of what the call inserts. -/
def Call.contested (trim toLowerCase : String → String) (db : Db) (c : Call) : Bool :=
  match c.stage with
  | .linking _ => (db.getIdentity c.identity.provider c.identity.providerUserId).isSome
  | .creating => (db.getIdentity c.identity.provider c.identity.providerUserId).isSome ||
      (c.normalizedEmail trim toLowerCase).any fun email =>
        db.users.rows.any fun user => user.email = some email
  | _ => false

/-- Ids are not drawn twice. -/
structure Db.Fresh (db : Db) (drawn : Nat) : Prop where
  users : ∀ user ∈ db.users.rows, user.id < drawn
  identities : ∀ row ∈ db.user_identities.rows, row.id < drawn

/-- What a step of a call does. -/
structure Moved (trim toLowerCase : String → String) (db : Db) (c : Call) (drawn : Nat) (db' : Db)
    (progress : Progress) : Prop where
  grows : db.Grows db'
  changes : db' = db ∨ ∃ user, progress = .done (.returned user)
  more : ∀ next, progress = .more next → next.Sound trim toLowerCase db'
  done : ∀ result, progress = .done result → Finished.Sound db' { call := c, result }
  refused : progress = .done (.failed .uniqueConstraint) →
    c.retrying = true ∧ c.contested trim toLowerCase db = true
  owned : ∀ user ∈ db'.users.rows, user ∈ db.users.rows ∨
    ∃ row ∈ db'.user_identities.rows, row.user_id = user.id
  fresh : db'.Fresh (drawn + 2)

theorem Db.Fresh.mono (h : db.Fresh drawn) : db.Fresh (drawn + 2) :=
  ⟨fun user huser => Nat.lt_add_right 2 (h.users user huser),
    fun row hrow => Nat.lt_add_right 2 (h.identities row hrow)⟩

/-- A step that goes on without an insertion. -/
theorem moved_more {next : Call} (hfresh : db.Fresh drawn)
    (hnext : next.Sound trim toLowerCase db) :
    Moved trim toLowerCase db c drawn db (.more next) where
  grows := .refl db
  changes := .inl rfl
  more := by
    intro n hn
    cases hn
    exact hnext
  done := fun _ h => by cases h
  refused := fun h => by cases h
  owned := fun _ h => .inl h
  fresh := hfresh.mono

/-- A step that ends a call without an insertion. -/
theorem moved_done {result : Result} (hfresh : db.Fresh drawn)
    (hdone : Finished.Sound db { call := c, result })
    (hrefused : result = .failed .uniqueConstraint →
      c.retrying = true ∧ c.contested trim toLowerCase db = true) :
    Moved trim toLowerCase db c drawn db (.done result) where
  grows := .refl db
  changes := .inl rfl
  more := fun _ h => by cases h
  done := by
    intro r hr
    cases hr
    exact hdone
  refused := by
    intro h
    cases h
    exact hrefused rfl
  owned := fun _ h => .inl h
  fresh := hfresh.mono

variable {error : ResolveError}

/-- What an index refuses sends the call back, or was contested in its retry. -/
theorem moved_caught (hfresh : db.Fresh drawn) (hc : c.Sound trim toLowerCase db)
    (hcontested : error = .uniqueConstraint → c.contested trim toLowerCase db = true)
    (hexpected : c.emailUser ≠ none → error = .uniqueConstraint) :
    Moved trim toLowerCase db c drawn db (c.caught error) := by
  rcases caught_cases c error with hretry | ⟨hfailed, hwhy⟩
  · rw [hretry]
    refine moved_more hfresh ⟨trivial, fun id hid => ?_⟩
    have hexpect := hc.expected id hid
    exact ⟨hexpect.user, hexpect.notAsked, fun h => (by cases h), fun h => (by cases h)⟩
  · rw [hfailed]
    refine moved_done hfresh ⟨fun user huser => (by cases huser), fun id hid => ?_⟩ ?_
    · refine ⟨(hc.expected id hid).notAsked, fun user huser => (by cases huser), ?_⟩
      intro e he
      cases he
      exact hexpected (by rw [hid]; exact Option.some_ne_none id)
    · intro he
      cases he
      rcases hwhy with hwhy | hwhy
      · exact absurd hwhy Bool.false_ne_true.symm
      · exact ⟨hwhy, hcontested rfl⟩

theorem insertIdentity_taken {row : UserIdentityRow} (howner : user ∈ db.users.rows)
    (hid : user.id = row.user_id) (hfresh : ∀ other ∈ db.user_identities.rows, other.id ≠ row.id)
    (h : db.insertIdentity row = .error error) :
    error = .uniqueConstraint ∧ (db.getIdentity row.provider row.provider_user_id).isSome := by
  refine ⟨insertIdentity_error howner hid h, ?_⟩
  unfold Db.insertIdentity at h
  split at h
  next htaken =>
    obtain ⟨other, hother, _, hsame⟩ := htaken
    rw [getIdentity_of_mem hother hsame]
    rfl
  next =>
    split at h
    next hnone =>
      obtain ⟨other, hother⟩ := Table.insert?_eq_none.mp hnone
      exact absurd (Table.key_of_get? hother) (hfresh other (Table.mem_of_get? hother))
    next =>
      split at h
      next => cases h
      next hnone => exact absurd ⟨user, howner, hid⟩ hnone

theorem insertUser_taken (hfresh : ∀ other ∈ db.users.rows, other.id ≠ user.id)
    (h : db.insertUser user = .error error) :
    ∃ email, user.email = some email ∧ db.users.rows.any fun other => other.email = some email := by
  unfold Db.insertUser at h
  split at h
  next htaken =>
    obtain ⟨other, hother, hne, hsame⟩ := htaken
    obtain ⟨email, hemail⟩ := Option.ne_none_iff_exists'.mp hne
    refine ⟨email, hsame.symm.trans hemail, ?_⟩
    exact List.any_eq_true.mpr ⟨other, hother, decide_eq_true hemail⟩
  next =>
    split at h
    next hnone =>
      obtain ⟨other, hother⟩ := Table.insert?_eq_none.mp hnone
      exact absurd (Table.key_of_get? hother) (hfresh other (Table.mem_of_get? hother))
    next => cases h

/-- The call is not one whose email had a user before it began. -/
theorem not_expected (hc : c.Sound trim toLowerCase db) (h : c.stage = .asking ∨ c.stage = .creating) :
    c.emailUser = none := by
  cases hid : c.emailUser with
  | none => rfl
  | some id =>
    have hexpect := hc.expected id hid
    rcases h with h | h
    · exact absurd h hexpect.notAsking
    · exact absurd h hexpect.notCreating

/-- Who has the email of a call that does not find its user was not there before it. -/
theorem not_expected_of_email (hc : c.Sound trim toLowerCase db)
    (h : ∀ email, c.normalizedEmail trim toLowerCase = some email →
      ∀ user ∈ db.users.rows, user.email ≠ some email) : c.emailUser = none := by
  cases hid : c.emailUser with
  | none => rfl
  | some id =>
    obtain ⟨user, huser, _, email, hemail, hnormalized⟩ := (hc.expected id hid).user
    exact absurd hemail (h email hnormalized user huser)

theorem sound_of_none {next : Call} (hnone : next.emailUser = none)
    (hstage : next.stage.Sound db next.identity (next.normalizedEmail trim toLowerCase)) :
    next.Sound trim toLowerCase db :=
  ⟨hstage, fun id hid => by
    rw [hnone] at hid
    cases hid⟩

variable {admission : Admission}

theorem linking_moved {s : State} {emailUser : UserRow} (hfresh : s.db.Fresh s.drawn)
    (hc : c.Sound trim toLowerCase s.db) (hstage : c.stage = .linking emailUser) :
    Moved trim toLowerCase s.db c s.drawn (c.next trim toLowerCase s admission).1
      (c.next trim toLowerCase s admission).2 := by
  have hsound := hc.stage
  rw [hstage] at hsound
  obtain ⟨howner, hemail⟩ := hsound
  unfold Call.next
  rw [hstage]
  dsimp only
  cases hinsert : s.db.insertIdentity
      (c.identityRow trim toLowerCase s.drawn emailUser.id s.now) with
  | error error =>
    obtain ⟨rfl, htaken⟩ := insertIdentity_taken howner rfl
      (fun other hother => Nat.ne_of_lt (hfresh.identities other hother)) hinsert
    refine moved_caught hfresh hc (fun _ => ?_) fun _ => rfl
    rw [Call.contested, hstage]
    exact htaken
  | ok db' =>
    obtain ⟨hrows, husers⟩ := insertIdentity_ok hinsert
    have hnew : c.identityRow trim toLowerCase s.drawn emailUser.id s.now ∈
        db'.user_identities.rows := by
      rw [hrows]
      exact List.mem_append_right _ (List.mem_singleton.mpr rfl)
    constructor
    case grows => exact insertIdentity_grows hinsert
    case changes => exact .inr ⟨_, rfl⟩
    case more =>
      intro next h
      cases h
    case done =>
      intro result h
      cases h
      refine ⟨?_, fun id hid => ?_⟩
      · intro user huser
        cases huser
        exact ⟨_, hnew, rfl, rfl⟩
      · have hexpect := hc.expected id hid
        refine ⟨hexpect.notAsked, ?_, fun error h => by cases h⟩
        intro user huser _
        cases huser
        -- the user who had the email before is the one it has found
        obtain ⟨known, hknown, rfl, email, hknownEmail, hnormalized⟩ := hexpect.user
        have hsame := s.db.emails emailUser howner known hknown email (hemail.trans hnormalized)
          hknownEmail
        rw [← hsame]
        rfl
    case refused =>
      intro h
      cases h
    case owned =>
      intro user huser
      rw [husers] at huser
      exact .inl huser
    case fresh =>
      refine ⟨?_, ?_⟩
      · rw [husers]
        exact hfresh.mono.users
      · intro row hrow
        rw [hrows] at hrow
        rcases List.mem_append.mp hrow with hrow | hrow
        · exact hfresh.mono.identities row hrow
        · rw [List.mem_singleton.mp hrow]
          show s.drawn < s.drawn + 2
          omega

theorem creating_moved {s : State} (hfresh : s.db.Fresh s.drawn)
    (hc : c.Sound trim toLowerCase s.db) (hstage : c.stage = .creating) :
    Moved trim toLowerCase s.db c s.drawn (c.next trim toLowerCase s admission).1
      (c.next trim toLowerCase s admission).2 := by
  have hnone := not_expected hc (.inr hstage)
  unfold Call.next
  rw [hstage]
  dsimp only
  cases huser : s.db.insertUser (c.userRow trim toLowerCase s.drawn s.now) with
  | error error =>
    have hunique := insertUser_error huser
    obtain ⟨email, hemail, htaken⟩ := insertUser_taken
      (fun other hother => Nat.ne_of_lt (hfresh.users other hother)) huser
    refine moved_caught hfresh hc (fun _ => ?_) fun _ => hunique
    have hnormalized : c.normalizedEmail trim toLowerCase = some email := hemail
    rw [Call.contested, hstage]
    dsimp only
    rw [hnormalized, Option.any_some, htaken, Bool.or_true]
  | ok db₁ =>
    obtain ⟨husers, hidentities⟩ := insertUser_ok huser
    have hnewUser : c.userRow trim toLowerCase s.drawn s.now ∈ db₁.users.rows := by
      rw [husers]
      exact List.mem_append_right _ (List.mem_singleton.mpr rfl)
    have hbind : (Except.ok db₁ : Except ResolveError Db).bind
        (fun db => db.insertIdentity (c.identityRow trim toLowerCase (s.drawn + 1) s.drawn s.now)) =
          db₁.insertIdentity (c.identityRow trim toLowerCase (s.drawn + 1) s.drawn s.now) := rfl
    rw [hbind]
    have hfresh₁ : ∀ other ∈ db₁.user_identities.rows, other.id ≠ s.drawn + 1 := by
      intro other hother
      rw [hidentities] at hother
      have hlt := hfresh.identities other hother
      omega
    cases hinsert : db₁.insertIdentity
        (c.identityRow trim toLowerCase (s.drawn + 1) s.drawn s.now) with
    | error error =>
      obtain ⟨hunique, htaken⟩ := insertIdentity_taken hnewUser rfl hfresh₁ hinsert
      refine moved_caught hfresh hc (fun _ => ?_) fun _ => hunique
      have hsame : s.db.getIdentity c.identity.provider c.identity.providerUserId =
          db₁.getIdentity c.identity.provider c.identity.providerUserId := by
        rw [Db.getIdentity, Db.getIdentity, hidentities]
      rw [Call.contested, hstage]
      dsimp only
      rw [hsame, show (db₁.getIdentity c.identity.provider c.identity.providerUserId).isSome = true
        from htaken, Bool.true_or]
    | ok db' =>
      obtain ⟨hrows, husers'⟩ := insertIdentity_ok hinsert
      have hnew : c.identityRow trim toLowerCase (s.drawn + 1) s.drawn s.now ∈
          db'.user_identities.rows := by
        rw [hrows]
        exact List.mem_append_right _ (List.mem_singleton.mpr rfl)
      constructor
      case grows => exact (insertUser_grows huser).trans (insertIdentity_grows hinsert)
      case changes => exact .inr ⟨_, rfl⟩
      case more =>
        intro next h
        cases h
      case done =>
        intro result h
        cases h
        refine ⟨?_, fun id hid => ?_⟩
        · intro user huser
          cases huser
          exact ⟨_, hnew, rfl, rfl⟩
        · rw [show c.emailUser = some id from hid] at hnone
          cases hnone
      case refused =>
        intro h
        cases h
      case owned =>
        intro user hmem
        rw [husers', husers] at hmem
        rcases List.mem_append.mp hmem with hmem | hmem
        · exact .inl hmem
        · rw [List.mem_singleton.mp hmem]
          exact .inr ⟨_, hnew, rfl⟩
      case fresh =>
        refine ⟨?_, ?_⟩
        · intro user hmem
          rw [husers', husers] at hmem
          rcases List.mem_append.mp hmem with hmem | hmem
          · exact hfresh.mono.users user hmem
          · rw [List.mem_singleton.mp hmem]
            show s.drawn < s.drawn + 2
            omega
        · intro row hrow
          rw [hrows, hidentities] at hrow
          rcases List.mem_append.mp hrow with hrow | hrow
          · exact hfresh.mono.identities row hrow
          · rw [List.mem_singleton.mp hrow]
            show s.drawn + 1 < s.drawn + 2
            omega

/-- Every step of a call. -/
theorem next_moved
    (hnormal : ∀ email, toLowerCase (trim (toLowerCase (trim email))) = toLowerCase (trim email))
    {s : State} (hfresh : s.db.Fresh s.drawn) (hc : c.Sound trim toLowerCase s.db) :
    Moved trim toLowerCase s.db c s.drawn (c.next trim toLowerCase s admission).1
      (c.next trim toLowerCase s admission).2 := by
  cases hstage : c.stage with
  | linking emailUser => exact linking_moved hfresh hc hstage
  | creating => exact creating_moved hfresh hc hstage
  | readingIdentity =>
    unfold Call.next
    rw [hstage]
    dsimp only
    cases hfound : s.db.getIdentity c.identity.provider c.identity.providerUserId with
    | some existing =>
      refine moved_more hfresh ⟨getIdentity_some hfound, fun id hid => ?_⟩
      have hexpect := hc.expected id hid
      exact ⟨hexpect.user, hexpect.notAsked, fun h => (by cases h), fun h => (by cases h)⟩
    | none =>
      dsimp only
      cases hemail : c.normalizedEmail trim toLowerCase with
      | some email =>
        refine moved_more hfresh ⟨hemail, fun id hid => ?_⟩
        have hexpect := hc.expected id hid
        exact ⟨hexpect.user, hexpect.notAsked, fun h => (by cases h), fun h => (by cases h)⟩
      | none =>
        have hnone : c.emailUser = none := by
          refine not_expected_of_email hc ?_
          intro email hsome
          rw [hemail] at hsome
          cases hsome
        exact moved_more hfresh (sound_of_none hnone trivial)
  | readingUser existing =>
    have hsound := hc.stage
    rw [hstage] at hsound
    obtain ⟨hexisting, hidentity⟩ := hsound
    obtain ⟨user, huser, hid⟩ := s.db.owned existing hexisting
    have hfound : s.db.getUserById existing.user_id = some user := by
      rw [← hid]
      exact Table.mem_rows_iff.mp huser
    unfold Call.next
    rw [hstage]
    dsimp only
    rw [hfound]
    refine moved_done hfresh ⟨?_, fun id hexpected => ?_⟩ fun h => by cases h
    · intro resolved hresolved
      cases hresolved
      exact ⟨existing, hexisting, hidentity, hid.symm⟩
    · refine ⟨(hc.expected id hexpected).notAsked, ?_, fun error h => by cases h⟩
      intro resolved hresolved hne
      cases hresolved
      exact absurd rfl hne
  | readingEmail email =>
    have hemail := hc.stage
    rw [hstage] at hemail
    have hnormalized : normalizeEmail trim toLowerCase (some email) = some email :=
      normalizeEmail_normal hnormal hemail
    unfold Call.next
    rw [hstage]
    dsimp only
    cases hfound : s.db.getUserByEmail trim toLowerCase email with
    | some emailUser =>
      obtain ⟨huser, hsame⟩ := getUserByEmail_some hfound
      refine moved_more hfresh ⟨⟨huser, ?_⟩, fun id hid => ?_⟩
      · rw [hsame, hnormalized]
        exact hemail.symm
      · have hexpect := hc.expected id hid
        exact ⟨hexpect.user, hexpect.notAsked, fun h => (by cases h), fun h => (by cases h)⟩
    | none =>
      have hnone : c.emailUser = none := by
        refine not_expected_of_email hc ?_
        intro other hother user huser hsome
        rw [show c.normalizedEmail trim toLowerCase = some email from hemail,
          Option.some.injEq] at hother
        subst hother
        rw [getUserByEmail_of_mem huser hsome hnormalized] at hfound
        cases hfound
      exact moved_more hfresh (sound_of_none hnone trivial)
  | asking =>
    have hnone := not_expected hc (.inl hstage)
    unfold Call.next
    rw [hstage]
    dsimp only
    cases admission with
    | admitted => exact moved_more hfresh (sound_of_none hnone trivial)
    | refused readsUnique =>
      refine moved_caught hfresh hc (fun h => by cases h) fun hne => ?_
      exact absurd hnone hne

/-! ## Runs -/

/-- The invariant, over the users of the start. -/
structure Sound (trim toLowerCase : String → String) (db₀ : Db) (s : State) : Prop where
  fresh : s.db.Fresh s.drawn
  calls : ∀ c ∈ s.calls, c.Sound trim toLowerCase s.db
  finished : ∀ f ∈ s.finished, f.Sound s.db
  owned : ∀ user ∈ s.db.users.rows, user ∈ db₀.users.rows ∨
    ∃ row ∈ s.db.user_identities.rows, row.user_id = user.id

theorem begin_sound {identity : ProviderIdentity} :
    (Call.begin trim toLowerCase db identity).Sound trim toLowerCase db := by
  refine ⟨trivial, fun id hid => ⟨?_, rfl, fun h => (by cases h), fun h => (by cases h)⟩⟩
  obtain ⟨user, hfound, rfl⟩ := Option.map_eq_some_iff.mp hid
  obtain ⟨email, hemail, hfound⟩ := Option.bind_eq_some_iff.mp hfound
  obtain ⟨huser, hsame⟩ := getUserByEmail_some hfound
  cases hnormalized : normalizeEmail trim toLowerCase (some email) with
  | none =>
    rw [Db.getUserByEmail, hnormalized] at hfound
    cases hfound
  | some normalized =>
    refine ⟨user, huser, rfl, normalized, hsame.trans hnormalized, ?_⟩
    show normalizeEmail trim toLowerCase identity.providerEmail = some normalized
    rw [hemail, hnormalized]

theorem Sound.step
    (hnormal : ∀ email, toLowerCase (trim (toLowerCase (trim email))) = toLowerCase (trim email))
    {db₀ : Db} {s t : State} {act : Act} (h : Sound trim toLowerCase db₀ s)
    (hstep : s.step trim toLowerCase act = some t) : Sound trim toLowerCase db₀ t := by
  cases act with
  | resolve identity =>
    cases hstep
    refine ⟨h.fresh, ?_, h.finished, h.owned⟩
    intro c hc
    rcases List.mem_append.mp hc with hc | hc
    · exact h.calls c hc
    · rw [List.mem_singleton.mp hc]
      exact begin_sound
  | tick now =>
    rw [State.step] at hstep
    split at hstep
    next =>
      cases hstep
      exact ⟨h.fresh, h.calls, h.finished, h.owned⟩
    next => cases hstep
  | next i admission =>
    obtain ⟨c, hc, rfl⟩ := Option.map_eq_some_iff.mp hstep
    have hmoved : Moved trim toLowerCase s.db c s.drawn (c.next trim toLowerCase s admission).1
        (c.next trim toLowerCase s admission).2 :=
      next_moved hnormal h.fresh (h.calls c (List.mem_of_getElem? hc))
    refine ⟨hmoved.fresh, ?_, ?_, ?_⟩
    · intro other hother
      rcases mem_of_mem_advance hother with hother | hother
      · exact (h.calls other hother).grows hmoved.grows
      · cases hprogress : (c.next trim toLowerCase s admission).2 with
        | more n =>
          rw [hprogress] at hother
          cases hother
          exact hmoved.more _ hprogress
        | done result =>
          rw [hprogress] at hother
          cases hother
    · intro f hf
      rcases List.mem_append.mp hf with hf | hf
      · exact (h.finished f hf).grows hmoved.grows
      · cases hprogress : (c.next trim toLowerCase s admission).2 with
        | more n =>
          rw [hprogress] at hf
          cases hf
        | done result =>
          rw [hprogress] at hf
          rw [List.mem_singleton.mp hf]
          exact hmoved.done _ hprogress
    · intro user huser
      rcases hmoved.owned user huser with huser | howned
      · refine (h.owned user huser).imp_right ?_
        rintro ⟨row, hrow, hid⟩
        exact ⟨row, hmoved.grows.identities row hrow, hid⟩
      · exact .inr howned

/-- A retry does not meet, in what it inserts, a row that another call has added meanwhile. -/
def RetryUncontested (trim toLowerCase : String → String) (s : State) : Act → Prop
  | .next i _ => (s.calls[i]?).all fun c => !(c.retrying && c.contested trim toLowerCase s.db)
  | .resolve _ => True
  | .tick _ => True

instance (trim toLowerCase : String → String) :
    ∀ (s : State) (act : Act), Decidable (RetryUncontested trim toLowerCase s act)
  | s, .next i _ => inferInstanceAs (Decidable
      ((s.calls[i]?).all (fun c => !(c.retrying && c.contested trim toLowerCase s.db)) = true))
  | _, .resolve _ => .isTrue trivial
  | _, .tick _ => .isTrue trivial

theorem step_refused
    (hnormal : ∀ email, toLowerCase (trim (toLowerCase (trim email))) = toLowerCase (trim email))
    {db₀ : Db} {s t : State} {act : Act} (h : Sound trim toLowerCase db₀ s)
    (hok : RetryUncontested trim toLowerCase s act)
    (hstep : s.step trim toLowerCase act = some t)
    (hnone : ∀ f ∈ s.finished, f.result ≠ .failed .uniqueConstraint) :
    ∀ f ∈ t.finished, f.result ≠ .failed .uniqueConstraint := by
  cases act with
  | resolve identity =>
    cases hstep
    exact hnone
  | tick now =>
    rw [State.step] at hstep
    split at hstep
    next =>
      cases hstep
      exact hnone
    next => cases hstep
  | next i admission =>
    obtain ⟨c, hc, rfl⟩ := Option.map_eq_some_iff.mp hstep
    have hmoved : Moved trim toLowerCase s.db c s.drawn (c.next trim toLowerCase s admission).1
        (c.next trim toLowerCase s admission).2 :=
      next_moved hnormal h.fresh (h.calls c (List.mem_of_getElem? hc))
    intro f hf
    rcases List.mem_append.mp hf with hf | hf
    · exact hnone f hf
    · cases hprogress : (c.next trim toLowerCase s admission).2 with
      | more n =>
        rw [hprogress] at hf
        cases hf
      | done result =>
        rw [hprogress] at hf
        rw [List.mem_singleton.mp hf]
        rintro rfl
        obtain ⟨hretrying, hcontested⟩ := hmoved.refused hprogress
        rw [RetryUncontested, hc, Option.all_some, hretrying, hcontested] at hok
        cases hok

/-- Only a call that returns has written. -/
theorem step_writes
    (hnormal : ∀ email, toLowerCase (trim (toLowerCase (trim email))) = toLowerCase (trim email))
    {db₀ : Db} {s t : State} {act : Act} (h : Sound trim toLowerCase db₀ s)
    (hstep : s.step trim toLowerCase act = some t) :
    t.db = s.db ∨ ∃ f user, t.finished = s.finished ++ [f] ∧ f.result = .returned user := by
  cases act with
  | resolve identity =>
    cases hstep
    exact .inl rfl
  | tick now =>
    rw [State.step] at hstep
    split at hstep
    next =>
      cases hstep
      exact .inl rfl
    next => cases hstep
  | next i admission =>
    obtain ⟨c, hc, rfl⟩ := Option.map_eq_some_iff.mp hstep
    have hmoved : Moved trim toLowerCase s.db c s.drawn (c.next trim toLowerCase s admission).1
        (c.next trim toLowerCase s admission).2 :=
      next_moved hnormal h.fresh (h.calls c (List.mem_of_getElem? hc))
    refine hmoved.changes.imp_right ?_
    rintro ⟨user, huser⟩
    refine ⟨{ call := c, result := .returned user }, user, ?_, rfl⟩
    show s.finished ++ (c.next trim toLowerCase s admission).2.finished c = _
    rw [huser]
    rfl

end Calls

/-- **First contacts.** In every run, a call that returned returned the user that its identity's
row names, so that two calls for one identity agree; no two users share an email; a call whose
email a user had before it began has not asked admission, returned that user unless its identity
had become known, and fails by the unique index only; and nothing is written except in the step in
which a call returns, so that every new user has an identity. No call fails with a uniqueness
error where no retry is contested. -/
theorem one_identity_one_user (trim toLowerCase : String → String)
    (hnormal : ∀ email, toLowerCase (trim (toLowerCase (trim email))) = toLowerCase (trim email))
    (db₀ : Db) (drawn : Nat) (now : Int) (hfresh : db₀.Fresh drawn) :
    (∀ s, (resolveSystem trim toLowerCase).Reachable anyStep (State.initial db₀ drawn now) s →
      (∀ f ∈ s.finished, ∀ user, f.result = .returned user → ∃ row,
        s.db.getIdentity f.call.identity.provider f.call.identity.providerUserId = some row ∧
          row.user_id = user.id) ∧
      (∀ user ∈ s.db.users.rows, ∀ other ∈ s.db.users.rows, ∀ email, user.email = some email →
        other.email = some email → user = other) ∧
      (∀ f ∈ s.finished, ∀ id, f.call.emailUser = some id → f.call.asked = false ∧
        (∀ user, f.result = .returned user → user.outcome ≠ .existing → user.id = id) ∧
        ∀ error, f.result = .failed error → error = .uniqueConstraint) ∧
      (∀ user ∈ s.db.users.rows, user ∈ db₀.users.rows ∨
        ∃ row ∈ s.db.user_identities.rows, row.user_id = user.id) ∧
      ∀ act t, (resolveSystem trim toLowerCase).step s act = some t → t.db = s.db ∨
        ∃ f user, t.finished = s.finished ++ [f] ∧ f.result = .returned user) ∧
    ∀ s, (resolveSystem trim toLowerCase).Reachable (RetryUncontested trim toLowerCase)
        (State.initial db₀ drawn now) s →
      ∀ f ∈ s.finished, f.result ≠ .failed .uniqueConstraint := by
  have hinitial : Sound trim toLowerCase db₀ (State.initial db₀ drawn now) :=
    ⟨hfresh, fun _ h => absurd h List.not_mem_nil, fun _ h => absurd h List.not_mem_nil,
      fun _ h => .inl h⟩
  constructor
  · intro s h
    have hsound : Sound trim toLowerCase db₀ s :=
      h.inv (Sound trim toLowerCase db₀) hinitial fun _ _ _ hs _ hstep => hs.step hnormal hstep
    refine ⟨?_, s.db.emails, fun f hf => (hsound.finished f hf).expected, hsound.owned, ?_⟩
    · intro f hf user huser
      obtain ⟨row, hrow, hidentity, hid⟩ := (hsound.finished f hf).returned user huser
      exact ⟨row, getIdentity_of_mem hrow hidentity, hid⟩
    · intro act t hstep
      exact step_writes hnormal hsound hstep
  · intro s h
    have hsafe := h.inv
      (fun s => Sound trim toLowerCase db₀ s ∧
        ∀ f ∈ s.finished, f.result ≠ .failed .uniqueConstraint)
      ⟨hinitial, fun _ h => absurd h List.not_mem_nil⟩
      fun _ _ _ hs hok hstep =>
        ⟨hs.1.step hnormal hstep, step_refused hnormal hs.1 hok hstep hs.2⟩
    exact hsafe.2

/-! ## Three contacts -/

def noUsers : Db where
  users := Table.empty
  user_identities := Table.empty
  emails := Table.unique_empty _
  identities := Table.unique_empty _
  owned := fun _ h => absurd h List.not_mem_nil

def contact (provider providerUserId : String) : ProviderIdentity where
  provider
  providerUserId
  providerLogin := none
  providerEmail := some "ann@example.com"
  displayName := none
  avatarUrl := none

/-- A first contact by GitHub loses its email to one by Google and starts over. -/
def twoContacts : List Act :=
  [.resolve (contact "github" "1"), .resolve (contact "google" "2"),
    .next 0 .admitted, .next 0 .admitted, .next 0 .admitted,
    .next 1 .admitted, .next 1 .admitted, .next 1 .admitted, .next 1 .admitted,
    .next 0 .admitted, .next 0 .admitted, .next 0 .admitted]

/-- Before it has linked, a second contact by GitHub links the same identity. -/
def threeContacts : List Act :=
  twoContacts ++
    [.resolve (contact "github" "1"), .next 1 .admitted, .next 1 .admitted, .next 1 .admitted,
      .next 0 .admitted]

theorem third_contact_fails :
    ∃ s, (resolveSystem id id).Reachable anyStep (State.initial noUsers 0 0) s ∧
      ∃ f ∈ s.finished, f.result = .failed .uniqueConstraint := by
  have hrun : ((resolveSystem id id).run anyStep (State.initial noUsers 0 0) threeContacts).any
      (fun s => s.finished.any fun f => f.result = .failed .uniqueConstraint) = true := by
    decide +kernel
  obtain ⟨s, hs, hfacts⟩ := (Option.any_eq_true _ _).mp hrun
  obtain ⟨f, hf, hfailed⟩ := List.any_eq_true.mp hfacts
  exact ⟨s, System.run_reachable hs, f, hf, of_decide_eq_true hfailed⟩

theorem one_identity_one_user_twoContacts :
    ∃ s : State, s.finished.length = 2 ∧ ∀ f ∈ s.finished, f.result ≠ .failed .uniqueConstraint := by
  have hrun : ((resolveSystem id id).run (RetryUncontested id id) (State.initial noUsers 0 0)
      (twoContacts ++ [.next 0 .admitted])).any (fun s => s.finished.length = 2) = true := by
    decide +kernel
  obtain ⟨s, hs, hfacts⟩ := (Option.any_eq_true _ _).mp hrun
  have hcontacts := one_identity_one_user id id (fun _ => rfl) noUsers 0 0
    ⟨fun _ h => absurd h List.not_mem_nil, fun _ h => absurd h List.not_mem_nil⟩
  exact ⟨s, of_decide_eq_true hfacts, hcontacts.2 s (System.run_reachable hs)⟩

end BackgroundAgents.Users

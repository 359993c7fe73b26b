import BackgroundAgents.SlackBot.ThreadSessions

/-!
# A closed thread stays closed

A closure does nothing where it finds its tombstone, and a reopening deletes the
tombstone long after it was allowed to. A reopening that was checked before a
closure was called may so delete the tombstone that the closure relied on
(`closure_overtaken`).

Where no reopening overtakes a closure in this way, `Inv` holds: the tombstone of
every closure that found or wrote one still stands, or was deleted by a reopening
that was checked after the closure was called. Every read of a record is followed
by one of the tombstone, so that the answers follow from it.
-/

namespace BackgroundAgents.SlackBot

open Programs Transition

/-- A reopening checked after `calledAt` has deleted the tombstone. -/
def State.Lifts (s : State) (sessionId : String) (calledAt : Nat) : Prop :=
  ∃ l ∈ s.lifted, l.sessionId = sessionId ∧ calledAt < l.checkedAt

/-- A closure that returned before the question stands, or was lifted before the answer. -/
def Answered.Obeys (s : State) (a : Answered) (r : Returned) : Prop :=
  a.sessionId = r.sessionId → r.returnedAt ≤ a.askedAt →
    a.closed = true ∨ ∃ l ∈ s.lifted, l.sessionId = r.sessionId ∧ r.calledAt < l.checkedAt ∧
      l.liftedAt ≤ a.answeredAt

structure Inv (s : State) : Prop where
  marked : ∀ m ∈ s.marked, s.closures m.sessionId = true ∨ s.Lifts m.sessionId m.calledAt
  lifted : ∀ l ∈ s.lifted, l.liftedAt ≤ s.now
  returned : ∀ r ∈ s.returned, ∃ m ∈ s.marked, m.sessionId = r.sessionId ∧ m.calledAt = r.calledAt
  asked : ∀ a ∈ s.answered, a.askedAt < s.now
  answered : ∀ a ∈ s.answered, ∀ r ∈ s.returned, a.Obeys s r
  threadClosing : ∀ session ∈ s.thread, session.closed = true → session.sessionId ∈ s.closing
  closuresClosing : ∀ sessionId, s.closures sessionId = true → sessionId ∈ s.closing
  recordsClosing : ∀ session ∈ s.records, session.closed = true → session.sessionId ∈ s.closing
  answeredClosing : ∀ a ∈ s.answered, a.closed = true → a.sessionId ∈ s.closing

/-- What every turn does to the notes. -/
structure Later (s t : State) : Prop where
  now : s.now ≤ t.now
  marked : ∀ m ∈ s.marked, m ∈ t.marked
  lifted : ∀ l ∈ s.lifted, l ∈ t.lifted
  closing : ∀ sessionId ∈ s.closing, sessionId ∈ t.closing

/-- A call may rely on the notes, and keeps them. -/
def threadContract : Contract State where
  inv := Inv
  rely := Later
  guar := fun s t => s.now < t.now ∧ Later s t
  waits := fun _ => True

variable {s₀ s t u : State} {call : Call} {o : KvOp} {kvEnd : KvEnd} {sessionId : String}
  {calledAt : Nat}

theorem Later.refl (s : State) : Later s s :=
  ⟨Nat.le_refl _, fun _ h => h, fun _ h => h, fun _ h => h⟩

theorem Later.trans (h : Later s t) (h' : Later t u) : Later s u where
  now := Nat.le_trans h.now h'.now
  marked := fun m hm => h'.marked m (h.marked m hm)
  lifted := fun l hl => h'.lifted l (h.lifted l hl)
  closing := fun i hi => h'.closing i (h.closing i hi)

theorem State.Lifts.mono (h : s.Lifts sessionId calledAt) (hlater : Later s t) :
    t.Lifts sessionId calledAt := by
  obtain ⟨l, hl, hfacts⟩ := h
  exact ⟨l, hlater.lifted l hl, hfacts⟩

theorem inv_initial : Inv State.initial := by
  constructor <;> intro x hx <;> cases hx

/-! ## A single access -/

/-- What the accesses of a call are. -/
def KvOp.Fits (call : Call) (s : State) : KvOp → Prop
  | .putThread session => session.closed = true → session.sessionId ∈ s.closing
  | .putClosure sessionId => sessionId ∈ s.closing
  | .deleteClosure _ => ∃ session checkedAt, call.request = .reopen session checkedAt
  | _ => True

/-- No reopening deletes a tombstone that a closure called after its access check has found or
written, unless a reopening checked after that closure did so already. -/
def NotOvertaking (call : Call) (o : KvOp) (kvEnd : KvEnd) (s : State) : Prop :=
  match call.request, o with
  | .reopen _ checkedAt, .deleteClosure sessionId =>
    kvEnd = .failed false ∨ ∀ m ∈ s.marked, m.sessionId = sessionId →
      m.calledAt < checkedAt ∨
        ∃ l ∈ s.lifted, l.sessionId = sessionId ∧ m.calledAt < l.checkedAt
  | _, _ => True

def notOvertaking : Condition State Call KvOp KvEnd where
  call _ _ := True
  answer _ := NotOvertaking

/-- Notes that only grow, where nothing is answered. -/
theorem Inv.grow (h : Inv s) (hlater : Later s t) (hreturned : t.returned = s.returned)
    (hrecords : t.records = s.records) (hanswered : t.answered = s.answered)
    (hmarked : ∀ m ∈ t.marked, t.closures m.sessionId = true ∨ t.Lifts m.sessionId m.calledAt)
    (hlifted : ∀ l ∈ t.lifted, l.liftedAt ≤ t.now)
    (hthread : ∀ session ∈ t.thread, session.closed = true → session.sessionId ∈ t.closing)
    (hclosures : ∀ sessionId, t.closures sessionId = true → sessionId ∈ t.closing) : Inv t where
  marked := hmarked
  lifted := hlifted
  returned := by
    intro r hr
    rw [hreturned] at hr
    obtain ⟨m, hm, hfacts⟩ := h.returned r hr
    exact ⟨m, hlater.marked m hm, hfacts⟩
  asked := by
    intro a ha
    rw [hanswered] at ha
    exact Nat.lt_of_lt_of_le (h.asked a ha) hlater.now
  answered := by
    intro a ha r hr
    rw [hanswered] at ha
    rw [hreturned] at hr
    intro hsession hbefore
    rcases h.answered a ha r hr hsession hbefore with hclosed | ⟨l, hl, hfacts⟩
    · exact .inl hclosed
    · exact .inr ⟨l, hlater.lifted l hl, hfacts⟩
  threadClosing := hthread
  closuresClosing := hclosures
  recordsClosing := by
    intro session hsession hclosed
    rw [hrecords] at hsession
    exact hlater.closing _ (h.recordsClosing session hsession hclosed)
  answeredClosing := by
    intro a ha hclosed
    rw [hanswered] at ha
    exact hlater.closing _ (h.answeredClosing a ha hclosed)

theorem tick_later (s : State) : Later s s.tick :=
  ⟨Nat.le_succ _, fun _ h => h, fun _ h => h, fun _ h => h⟩

theorem Inv.tick (h : Inv s) : Inv s.tick :=
  h.grow (tick_later s) rfl rfl rfl h.marked (fun l hl => Nat.le_succ_of_le (h.lifted l hl))
    h.threadClosing h.closuresClosing

/-- A closure that finds its tombstone, or has just written it. -/
theorem Inv.mark (h : Inv s) (hfound : s.closures sessionId = true) :
    Inv { s with marked := s.marked ++ [{ sessionId, calledAt }] } := by
  have hlater : Later s { s with marked := s.marked ++ [{ sessionId, calledAt }] } :=
    ⟨Nat.le_refl _, fun m hm => List.mem_append_left _ hm, fun _ hl => hl, fun _ hi => hi⟩
  refine h.grow hlater rfl rfl rfl ?_ h.lifted h.threadClosing h.closuresClosing
  intro m hm
  rcases List.mem_append.mp hm with hold | hnew
  · exact (h.marked m hold).imp_right fun hlifts => hlifts.mono hlater
  · rw [List.mem_singleton.mp hnew]
    exact .inl hfound

theorem Inv.putThread (h : Inv s) {session : ThreadSession}
    (hclosing : session.closed = true → session.sessionId ∈ s.closing) :
    Inv { s with thread := some session } := by
  refine h.grow ⟨Nat.le_refl _, fun _ hm => hm, fun _ hl => hl, fun _ hi => hi⟩ rfl rfl rfl
    h.marked h.lifted ?_ h.closuresClosing
  intro other hother
  cases hother
  exact hclosing

theorem Inv.notices (h : Inv s) (notices : String → Bool) : Inv { s with notices } :=
  h.grow ⟨Nat.le_refl _, fun _ hm => hm, fun _ hl => hl, fun _ hi => hi⟩ rfl rfl rfl h.marked
    h.lifted h.threadClosing h.closuresClosing

theorem Inv.deleteThread (h : Inv s) : Inv { s with thread := none } := by
  refine h.grow ⟨Nat.le_refl _, fun _ hm => hm, fun _ hl => hl, fun _ hi => hi⟩ rfl rfl rfl
    h.marked h.lifted ?_ h.closuresClosing
  intro other hother
  cases hother

theorem Inv.putClosure (h : Inv s) (hclosing : sessionId ∈ s.closing) :
    Inv { s with closures := Function.update s.closures sessionId true } := by
  have hput : ∀ other, s.closures other = true →
      Function.update s.closures sessionId true other = true := by
    intro other hother
    by_cases he : other = sessionId
    · rw [he, Function.update_self]
    · rwa [Function.update_of_ne he]
  refine h.grow ⟨Nat.le_refl _, fun _ hm => hm, fun _ hl => hl, fun _ hi => hi⟩ rfl rfl rfl
    ?_ h.lifted h.threadClosing ?_
  · intro m hm
    exact (h.marked m hm).imp_left (hput m.sessionId)
  · intro other hother
    by_cases he : other = sessionId
    · rw [he]
      exact hclosing
    · have hold : Function.update s.closures sessionId true other = true := hother
      rw [Function.update_of_ne he] at hold
      exact h.closuresClosing other hold

theorem Inv.lift (h : Inv s) {checkedAt : Nat}
    (hok : ∀ m ∈ s.marked, m.sessionId = sessionId →
      m.calledAt < checkedAt ∨ s.Lifts sessionId m.calledAt) :
    Inv { s with
      closures := Function.update s.closures sessionId false
      lifted := s.lifted ++ [{ sessionId, checkedAt, liftedAt := s.now }] } := by
  have hlater : Later s { s with
      closures := Function.update s.closures sessionId false
      lifted := s.lifted ++ [{ sessionId, checkedAt, liftedAt := s.now }] } :=
    ⟨Nat.le_refl _, fun _ hm => hm, fun l hl => List.mem_append_left _ hl, fun _ hi => hi⟩
  refine h.grow hlater rfl rfl rfl ?_ ?_ h.threadClosing ?_
  · intro m hm
    by_cases he : m.sessionId = sessionId
    · right
      rcases hok m hm he with hlt | hlifts
      · exact ⟨_, List.mem_append_right _ (List.mem_singleton_self _), he.symm, hlt⟩
      · rw [he]
        exact hlifts.mono hlater
    · rcases h.marked m hm with hfound | hlifts
      · left
        show Function.update s.closures sessionId false m.sessionId = true
        rwa [Function.update_of_ne he]
      · exact .inr (hlifts.mono hlater)
  · intro l hl
    rcases List.mem_append.mp hl with hold | hnew
    · exact h.lifted l hold
    · obtain rfl := List.mem_singleton.mp hnew
      exact Nat.le_refl _
  · intro other hother
    by_cases he : other = sessionId
    · have hfalse : Function.update s.closures sessionId false other = true := hother
      rw [he, Function.update_self] at hfalse
      exact absurd hfalse Bool.false_ne_true
    · have hold : Function.update s.closures sessionId false other = true := hother
      rw [Function.update_of_ne he] at hold
      exact h.closuresClosing other hold

/-- An access that landed. -/
theorem Inv.landed (h : Inv s) (hfits : o.Fits call s) (hok : NotOvertaking call o kvEnd s)
    (hlanded : kvEnd ≠ .failed false) : Inv (call.note o (o.effect s)) := by
  cases o with
  | getThread => exact h
  | getNotice sessionId => exact h
  | putThread session => exact h.putThread hfits
  | deleteThread => exact h.deleteThread
  | putNotice sessionId => exact h.notices _
  | deleteNotice sessionId => exact h.notices _
  | getClosure sessionId =>
    unfold Call.note
    dsimp only
    split
    next hfound => exact h.mark hfound.2
    next => exact h
  | putClosure sessionId =>
    exact (h.putClosure hfits).mark (Function.update_self _ _ _)
  | deleteClosure sessionId =>
    obtain ⟨session, checkedAt, hrequest⟩ := hfits
    unfold NotOvertaking at hok
    unfold Call.note
    simp only [hrequest] at hok ⊢
    exact h.lift (hok.resolve_left hlanded)

theorem landed_later (call : Call) (o : KvOp) (s : State) :
    Later s (call.note o (o.effect s)) := by
  have hsame : Later s s := Later.refl s
  cases o with
  | getThread => exact hsame
  | getNotice sessionId => exact hsame
  | putThread session => exact ⟨hsame.now, hsame.marked, hsame.lifted, hsame.closing⟩
  | deleteThread => exact ⟨hsame.now, hsame.marked, hsame.lifted, hsame.closing⟩
  | putNotice sessionId => exact ⟨hsame.now, hsame.marked, hsame.lifted, hsame.closing⟩
  | deleteNotice sessionId => exact ⟨hsame.now, hsame.marked, hsame.lifted, hsame.closing⟩
  | getClosure sessionId =>
    unfold Call.note
    dsimp only
    split
    · exact ⟨hsame.now, fun m hm => List.mem_append_left _ hm, hsame.lifted, hsame.closing⟩
    · exact hsame
  | putClosure sessionId =>
    exact ⟨hsame.now, fun m hm => List.mem_append_left _ hm, hsame.lifted, hsame.closing⟩
  | deleteClosure sessionId =>
    unfold Call.note
    dsimp only
    split
    · exact ⟨hsame.now, hsame.marked, fun l hl => List.mem_append_left _ hl, hsame.closing⟩
    · exact ⟨hsame.now, hsame.marked, hsame.lifted, hsame.closing⟩

theorem landed_now (call : Call) (o : KvOp) (s : State) :
    (call.note o (o.effect s)).now = s.now := by
  cases o with
  | getClosure sessionId =>
    unfold Call.note
    dsimp only
    split <;> rfl
  | deleteClosure sessionId =>
    unfold Call.note
    dsimp only
    split <;> rfl
  | _ => rfl

/-- **An access** keeps the invariant and the notes. -/
theorem Inv.answer (h : Inv s) (hfits : o.Fits call s) (hok : NotOvertaking call o kvEnd s) :
    Inv (call.answer o kvEnd s).2 := by
  have hfits' : o.Fits call s.tick := by
    cases o with
    | putThread session => exact hfits
    | putClosure sessionId => exact hfits
    | deleteClosure sessionId => exact hfits
    | _ => trivial
  unfold Call.answer
  split
  next => exact h.tick.landed hfits' hok (by decide)
  next => exact h.tick.landed hfits' hok (by decide)
  next => exact h.tick

theorem answer_guar (call : Call) (o : KvOp) (kvEnd : KvEnd) (s : State) :
    threadContract.guar s (call.answer o kvEnd s).2 := by
  have hticked : s.now < s.tick.now := Nat.lt_succ_self _
  unfold Call.answer
  split
  next =>
    exact ⟨by rw [landed_now]; exact hticked, (tick_later s).trans (landed_later call o s.tick)⟩
  next =>
    exact ⟨by rw [landed_now]; exact hticked, (tick_later s).trans (landed_later call o s.tick)⟩
  next => exact ⟨hticked, tick_later s⟩

/-! ## The functions -/

/-- Where a turn of a call may end, later than `base`. -/
structure Begun (call : Call) (base s₀ s : State) : Prop where
  ends : threadContract.Ends s₀ s
  called : call.calledAt ≤ s.now
  later : Later base s

/-- The same after an access to the store. -/
structure Reached (call : Call) (base s₀ s : State) : Prop where
  ends : threadContract.Ends s₀ s
  called : call.calledAt < s.now
  later : Later base s

theorem Reached.begun {base : State} (h : Reached call base s₀ s) : Begun call base s₀ s :=
  ⟨h.ends, Nat.le_of_lt h.called, h.later⟩

/-- What an answer says about a session. -/
structure Told (s : State) (sessionId : String) (closed : Bool) : Prop where
  closing : closed = true → sessionId ∈ s.closing
  lifts : closed = false → ∀ m ∈ s.marked, m.sessionId = sessionId → s.Lifts sessionId m.calledAt

/-- The accesses of a call. -/
abbrev threadAnswers (id : Nat) (call : Call) (o : KvOp) (s : State) :
    Except KvError o.Answer → State → Prop :=
  threadServer.Answers notOvertaking id call o s

variable {id : Nat} {base : State}

/-- An access that is done goes on with what it read; one that failed throws. -/
theorem wp_kv {post : State → State → Except KvError o.Answer → Prop}
    (h : Begun call base s₀ s)
    (hfits : ∀ t, Later s t → o.Fits call t)
    (hdone : ∀ t, Later s t → Reached call base t (call.note o (o.effect t.tick)) →
      post t (call.note o (o.effect t.tick)) (.ok (o.read t)))
    (hfailed : ∀ t u, Later s u → Reached call base t u → post t u (.error .unavailable)) :
    (kv o).Wp threadContract (threadAnswers id call) post s₀ s := by
  refine Program.wp_perform h.ends trivial ?_
  intro t hlater hinv _ answer u hanswer
  obtain ⟨kvEnd, hok, hanswered⟩ := hanswer
  have he : call.answer o kvEnd t = (answer, u) := Option.some.inj hanswered
  have hguar := answer_guar call o kvEnd t
  have hreached : Reached call base t (call.answer o kvEnd t).2 :=
    ⟨⟨hinv.answer (hfits t hlater) hok, hguar⟩,
      Nat.lt_of_le_of_lt (Nat.le_trans h.called hlater.now) hguar.1,
      (h.later.trans hlater).trans hguar.2⟩
  cases kvEnd with
  | done =>
    cases he
    exact hdone t hlater hreached
  | failed landed =>
    rw [he] at hreached hguar
    have herror : answer = .error .unavailable := by
      cases landed <;> exact (congrArg Prod.fst he).symm
    rw [herror]
    exact hfailed t u (hlater.trans hguar.2) hreached

/-- What a tombstone that is not there says. -/
theorem Inv.told (h : Inv s) {found : Bool} (hfound : s.closures sessionId = found) :
    Told s sessionId found where
  closing := fun he => h.closuresClosing _ (hfound.trans he)
  lifts := by
    intro he m hm hsession
    rcases h.marked m hm with hmark | hlifts
    · rw [hsession, hfound, he] at hmark
      exact absurd hmark Bool.false_ne_true
    · rwa [hsession] at hlifts

theorem wp_hasThreadClosure (h : Begun call base s₀ s) :
    (hasThreadClosure sessionId).Wp threadContract (threadAnswers id call)
      (fun s₀ s r => Reached call base s₀ s ∧ ∀ found, r = .ok found → Told s sessionId found ∧
        (call.request = .close sessionId → found = true →
          { sessionId, calledAt := call.calledAt } ∈ s.marked)) s₀ s := by
  refine wp_kv h (fun _ _ => trivial) ?_ ?_
  · intro t hlater hreached
    refine ⟨hreached, ?_⟩
    intro found hfound
    have hread : t.closures sessionId = found := Except.ok.inj hfound
    by_cases hmark : call.request = .close sessionId ∧ t.closures sessionId = true
    · have hnote : call.note (.getClosure sessionId) t.tick = { t.tick with
          marked := t.marked ++ [{ sessionId, calledAt := call.calledAt }] } := if_pos hmark
      rw [KvOp.effect, hnote] at hreached ⊢
      refine ⟨hreached.ends.inv.told hread, fun _ _ => ?_⟩
      exact List.mem_append_right _ (List.mem_singleton_self _)
    · have hnote : call.note (.getClosure sessionId) t.tick = t.tick := if_neg hmark
      rw [KvOp.effect, hnote] at hreached ⊢
      refine ⟨hreached.ends.inv.told hread, fun hclose he => ?_⟩
      exact absurd ⟨hclose, hread.trans he⟩ hmark
  · intro t u _ hreached
    exact ⟨hreached, fun found hfound => by cases hfound⟩

theorem wp_lookupThreadSession (h : Begun call base s₀ s) :
    lookupThreadSession.Wp threadContract (threadAnswers id call)
      (fun s₀ s r => Reached call base s₀ s ∧ ∃ found : Option ThreadSession, r = .ok found ∧
        ∀ session ∈ found, Told s session.sessionId session.closed) s₀ s := by
  have hnone : ∀ t u, Reached call base t u → Reached call base t u ∧ ∃ found : Option ThreadSession,
      (.ok none : Except KvError (Option ThreadSession)) = .ok found ∧
        ∀ session ∈ found, Told u session.sessionId session.closed :=
    fun t u hreached => ⟨hreached, none, rfl, fun session hsession => by cases hsession⟩
  refine Program.wp_handle (Program.wp_bind ?_)
  refine wp_kv h (fun _ _ => trivial) ?_ (fun t u _ hreached => hnone t u hreached)
  intro t hlater hreached
  have hread : KvOp.read t .getThread = t.thread := rfl
  rw [hread]
  dsimp only
  cases hdata : t.thread.filter ThreadSession.parses with
  | none => exact hnone _ _ hreached
  | some session =>
    have hthread : session ∈ t.thread := (Option.mem_filter_iff.mp hdata).1
    refine Program.wp_bind ?_
    unfold findsClosure
    cases hclosed : session.closed with
    | true =>
      refine ⟨hreached, some session, rfl, ?_⟩
      intro found hfound
      cases hfound
      refine ⟨fun _ => hreached.ends.inv.threadClosing session hthread hclosed, fun he => ?_⟩
      exact absurd (hclosed.symm.trans he) Bool.false_ne_true.symm
    | false =>
      refine (wp_hasThreadClosure hreached.begun).mono ?_
      rintro s₀ s (error | found) ⟨hreached, htold⟩
      · exact hnone s₀ s hreached
      · obtain ⟨htold, _⟩ := htold found rfl
        refine ⟨hreached, _, rfl, ?_⟩
        intro answer hanswer
        cases hanswer
        cases found with
        | true => exact htold
        | false =>
          rw [← hclosed] at htold
          exact htold

theorem wp_storeThreadSession {session : ThreadSession} (h : Begun call base s₀ s)
    (hclosing : session.closed = true → session.sessionId ∈ s.closing) :
    (storeThreadSession session).Wp threadContract (threadAnswers id call)
      (fun s₀ s _ => Reached call base s₀ s) s₀ s := by
  refine Program.wp_handle (Program.wp_bind ?_)
  unfold findsClosure
  cases hclosed : session.closed with
  | true =>
    refine wp_kv h ?_ (fun _ _ hreached => hreached) (fun _ _ _ hreached => hreached)
    intro t hlater _
    exact hlater.closing _ (hclosing hclosed)
  | false =>
    refine (wp_hasThreadClosure h).mono ?_
    rintro s₀ s (error | found) ⟨hreached, htold⟩
    · exact hreached
    · obtain ⟨htold, _⟩ := htold found rfl
      refine wp_kv hreached.begun ?_
        (fun _ _ hreached => hreached) (fun _ _ _ hreached => hreached)
      intro t hlater hstored
      cases found with
      | true => exact hlater.closing _ (htold.closing rfl)
      | false => exact absurd (hclosed.symm.trans hstored) Bool.false_ne_true

theorem wp_isThreadSessionClosed (h : Begun call base s₀ s) :
    (isThreadSessionClosed sessionId).Wp threadContract (threadAnswers id call)
      (fun s₀ s r => Reached call base s₀ s ∧ ∀ closed, r = .ok closed → Told s sessionId closed)
      s₀ s := by
  refine Program.wp_bind ((wp_lookupThreadSession h).mono ?_)
  rintro s₀ s r ⟨hreached, found, rfl, htold⟩
  dsimp only
  cases hfound : found.filter (·.sessionId = sessionId) with
  | none =>
    refine (wp_hasThreadClosure hreached.begun).mono ?_
    intro s₀ s r hanswer
    exact ⟨hanswer.1, fun closed he => (hanswer.2 closed he).1⟩
  | some session =>
    obtain ⟨hmem, hsession⟩ := Option.mem_filter_iff.mp hfound
    refine ⟨hreached, ?_⟩
    intro closed he
    cases he
    rw [← of_decide_eq_true hsession]
    exact htold session hmem

theorem Reached.trans (h : Later base t) (hreached : Reached call t s₀ s) :
    Reached call base s₀ s :=
  ⟨hreached.ends, hreached.called, h.trans hreached.later⟩

theorem wp_closeThreadSession (h : Begun call base s₀ s)
    (hrequest : call.request = .close sessionId) (hclosing : sessionId ∈ base.closing) :
    (closeThreadSession sessionId).Wp threadContract (threadAnswers id call)
      (fun s₀ s r => Reached call base s₀ s ∧ ∀ u, r = .ok u →
        { sessionId, calledAt := call.calledAt } ∈ s.marked) s₀ s := by
  have hthrew : ∀ s₀ s (error : KvError), Reached call base s₀ s → Reached call base s₀ s ∧
      ∀ u : Unit, (.error error : Except KvError Unit) = .ok u →
        { sessionId, calledAt := call.calledAt } ∈ s.marked :=
    fun s₀ s error hreached => ⟨hreached, fun u he => by cases he⟩
  refine Program.wp_bind ((wp_hasThreadClosure h).mono ?_)
  rintro s₀ s (error | found) ⟨hreached, htold⟩
  · exact hthrew _ _ _ hreached
  obtain ⟨_, hmark⟩ := htold found rfl
  cases found with
  | true => exact ⟨hreached, fun _ _ => hmark hrequest rfl⟩
  | false =>
    refine Program.wp_bind (wp_kv hreached.begun ?_ ?_ (fun t u _ hu => hthrew t u _ hu))
    · exact fun t hlater => hlater.closing _ (hreached.later.closing _ hclosing)
    intro t hlater hput
    -- the tombstone is written; what follows keeps the note
    generalize hu : call.note (.putClosure sessionId) (KvOp.effect t.tick _) = u at hput ⊢
    have hmarked : { sessionId, calledAt := call.calledAt } ∈ u.marked := by
      rw [← hu]
      exact List.mem_append_right _ (List.mem_singleton_self _)
    have hkeeps : ∀ s₀ s, Reached call u s₀ s → Reached call base s₀ s ∧
        { sessionId, calledAt := call.calledAt } ∈ s.marked :=
      fun s₀ s hs => ⟨hs.trans hput.later, hs.later.marked _ hmarked⟩
    have hbegun : Begun call u t u := ⟨hput.ends, Nat.le_of_lt hput.called, Later.refl u⟩
    refine Program.wp_bind ((wp_lookupThreadSession hbegun).mono ?_)
    rintro s₀ s r ⟨hlooked, mapping, rfl, htold⟩
    dsimp only
    cases hmapping : mapping.filter (·.sessionId = sessionId) with
    | none => exact ⟨(hkeeps _ _ hlooked).1, fun _ _ => (hkeeps _ _ hlooked).2⟩
    | some session =>
      have hsession := of_decide_eq_true (Option.mem_filter_iff.mp hmapping).2
      refine (wp_storeThreadSession hlooked.begun ?_).mono ?_
      · intro _
        rw [hsession]
        exact hlooked.later.closing _ (hput.later.closing _ hclosing)
      · exact fun s₀ s r hs => ⟨(hkeeps s₀ s hs).1, fun _ _ => (hkeeps s₀ s hs).2⟩

theorem wp_reopenThreadSession {session : ThreadSession} {checkedAt : Nat}
    (h : Begun call base s₀ s) (hrequest : call.request = .reopen session checkedAt) :
    (reopenThreadSession session).Wp threadContract (threadAnswers id call)
      (fun s₀ s _ => Reached call base s₀ s) s₀ s := by
  refine Program.wp_bind (wp_kv h ?_ ?_ (fun _ _ _ hs => hs))
  · exact fun t _ => ⟨session, checkedAt, hrequest⟩
  intro t _ hclosure
  refine Program.wp_bind (wp_kv hclosure.begun (fun _ _ => trivial) ?_ (fun _ _ _ hs => hs))
  intro t _ hnotice
  refine Program.wp_bind ((wp_lookupThreadSession hnotice.begun).mono ?_)
  rintro s₀ s r ⟨hlooked, mapping, rfl, _⟩
  dsimp only
  split
  next closed _ =>
    refine Program.wp_bind ((wp_storeThreadSession hlooked.begun ?_).mono ?_)
    · exact fun he => absurd he Bool.false_ne_true
    · rintro s₀ s (error | _) hs
      · exact hs
      · exact hs
  next => exact hlooked

theorem wp_advanceLastPromptTs {promptTs : String} (h : Begun call base s₀ s) :
    (advanceLastPromptTs promptTs).Wp threadContract (threadAnswers id call)
      (fun s₀ s _ => Reached call base s₀ s) s₀ s := by
  refine Program.wp_bind ((wp_lookupThreadSession h).mono ?_)
  rintro s₀ s r ⟨hlooked, current, rfl, htold⟩
  dsimp only
  split
  next => exact hlooked
  next session hsession =>
    have hopen : session.closed = false := by
      have hnot := (Option.mem_filter_iff.mp hsession).2
      simpa using hnot
    have hstore : ∀ lastPromptTs, (storeThreadSession { session with lastPromptTs }).Wp
        threadContract (threadAnswers id call) (fun s₀ s _ => Reached call base s₀ s) s₀ s :=
      fun _ => wp_storeThreadSession hlooked.begun
        fun he => absurd (hopen.symm.trans he) Bool.false_ne_true
    split
    next => exact hstore _
    next =>
      split
      next => exact hlooked
      next =>
        split
        · exact hlooked
        · exact hstore _

/-! ## Calls -/

theorem Inv.answered_append (h : Inv s) (a : Answered) (records : List ThreadSession)
    (htold : Told s a.sessionId a.closed) (hasked : a.askedAt < s.now)
    (hat : a.answeredAt = s.now)
    (hrecords : ∀ session ∈ records, session.closed = true → session.sessionId ∈ s.closing) :
    Inv { s with records := s.records ++ records, answered := s.answered ++ [a] } := by
  constructor
  case marked => exact h.marked
  case lifted => exact h.lifted
  case returned => exact h.returned
  case asked =>
    intro b hb
    rcases List.mem_append.mp hb with hold | hnew
    · exact h.asked b hold
    · rw [List.mem_singleton.mp hnew]
      exact hasked
  case answered =>
    intro b hb r hr
    rcases List.mem_append.mp hb with hold | hnew
    · exact h.answered b hold r hr
    · rw [List.mem_singleton.mp hnew]
      intro hsession _
      cases hclosed : a.closed with
      | true => exact .inl rfl
      | false =>
        obtain ⟨m, hm, hid, hcalled⟩ := h.returned r hr
        obtain ⟨l, hl, hlid, hlt⟩ := htold.lifts hclosed m hm (hid.trans hsession.symm)
        refine .inr ⟨l, hl, hlid.trans hsession, hcalled ▸ hlt, ?_⟩
        rw [hat]
        exact h.lifted l hl
  case threadClosing => exact h.threadClosing
  case closuresClosing => exact h.closuresClosing
  case recordsClosing =>
    intro session hsession
    rcases List.mem_append.mp hsession with hold | hnew
    · exact h.recordsClosing session hold
    · exact hrecords session hnew
  case answeredClosing =>
    intro b hb
    rcases List.mem_append.mp hb with hold | hnew
    · exact h.answeredClosing b hold
    · rw [List.mem_singleton.mp hnew]
      exact htold.closing

theorem Inv.returned_append (h : Inv s) {r : Returned}
    (hmarked : { sessionId := r.sessionId, calledAt := r.calledAt } ∈ s.marked)
    (hat : r.returnedAt = s.now) : Inv { s with returned := s.returned ++ [r] } :=
  { h with
    returned := by
      intro other hother
      rcases List.mem_append.mp hother with hold | hnew
      · exact h.returned other hold
      · rw [List.mem_singleton.mp hnew]
        exact ⟨_, hmarked, rfl, rfl⟩
    answered := by
      intro a ha other hother
      rcases List.mem_append.mp hother with hold | hnew
      · exact h.answered a ha other hold
      · rw [List.mem_singleton.mp hnew]
        intro _ hbefore
        have hasked := h.asked a ha
        rw [hat] at hbefore
        omega }

theorem Inv.close (h : Inv s) (sessionId : String) :
    Inv { s with closing := s.closing ++ [sessionId] } := by
  have hlater : Later s { s with closing := s.closing ++ [sessionId] } :=
    ⟨Nat.le_refl _, fun _ hm => hm, fun _ hl => hl, fun _ hi => List.mem_append_left _ hi⟩
  exact h.grow hlater rfl rfl rfl h.marked h.lifted
    (fun session hsession hclosed => hlater.closing _ (h.threadClosing session hsession hclosed))
    (fun other hother => hlater.closing _ (h.closuresClosing other hother))

/-- What a call may use when it is made. -/
def Request.Made (s : State) : Request → Prop
  | .store session => session.closed = true → session.sessionId ∈ s.closing
  | .close sessionId => sessionId ∈ s.closing
  | _ => True

theorem enter_begun (h : Inv s) (henter : call.enter s = some t) :
    Begun call t s t ∧ call.request.Made t := by
  have hbegun : ∀ t, Inv t → t.now = s.now + 1 → Later s t → call.calledAt = s.now + 1 →
      Begun call t s t := by
    intro t hinv hnow hlater hcalled
    exact ⟨⟨hinv, by omega, hlater⟩, by omega, Later.refl t⟩
  unfold Call.enter at henter
  split at henter
  next hcalled =>
    have htick := hbegun s.tick h.tick rfl (tick_later s) hcalled
    split at henter
    next session hrequest =>
      split at henter
      next hrecord =>
        cases henter
        refine ⟨htick, ?_⟩
        rw [hrequest]
        intro hclosed
        rcases hrecord with hopen | hread
        · exact absurd (hopen.symm.trans hclosed) Bool.false_ne_true
        · exact h.recordsClosing session hread hclosed
      next => cases henter
    next sessionId hrequest =>
      cases henter
      refine ⟨hbegun _ (h.tick.close sessionId) rfl ?_ hcalled, ?_⟩
      · exact ⟨Nat.le_succ _, fun _ hm => hm, fun _ hl => hl, fun _ hi => List.mem_append_left _ hi⟩
      · rw [hrequest]
        exact List.mem_append_right _ (List.mem_singleton_self _)
    next hrequest =>
      split at henter
      next =>
        cases henter
        refine ⟨htick, ?_⟩
        rw [hrequest]
        trivial
      next => cases henter
    next hstore hclose _ =>
      cases henter
      refine ⟨htick, ?_⟩
      cases hrequest : call.request with
      | store session => exact absurd hrequest (hstore session)
      | close sessionId => exact absurd hrequest (hclose sessionId)
      | _ => trivial
  next => cases henter

theorem thread_sound : threadServer.Sound notOvertaking (fun _ => threadContract) Inv where
  inv_eq := fun _ => rfl
  refl := fun _ => Later.refl
  trans := fun _ _ _ _ => Later.trans
  compatible := fun _ _ _ _ _ hguar => hguar.2
  stable := fun _ _ _ _ _ => trivial
  enters := by
    intro id call s t hinv _ henter
    obtain ⟨hbegun, hmade⟩ := enter_begun hinv henter
    have hends : ∀ base s₀ s, Reached call base s₀ s → threadContract.Ends s₀ s :=
      fun _ _ _ hs => hs.ends
    obtain ⟨request, calledAt⟩ := call
    cases request with
    | lookup =>
      refine Program.wp_bind ((wp_lookupThreadSession hbegun).mono ?_)
      rintro s₀ s r ⟨hreached, found, rfl, htold⟩
      cases found with
      | none => exact hreached.ends
      | some session =>
        have htold := htold session rfl
        refine ⟨hreached.ends.inv.answered_append
          ⟨session.sessionId, session.closed, calledAt, s.now⟩ [session] htold hreached.called
          rfl ?_, ?_⟩
        · intro other hother
          rw [List.mem_singleton.mp hother]
          exact htold.closing
        · exact ⟨hreached.ends.guar.1, hreached.ends.guar.2.now, hreached.ends.guar.2.marked,
            hreached.ends.guar.2.lifted, hreached.ends.guar.2.closing⟩
    | isClosed sessionId =>
      refine Program.wp_bind ((wp_isThreadSessionClosed hbegun).mono ?_)
      rintro s₀ s (error | closed) ⟨hreached, htold⟩
      · exact hreached.ends
      · refine ⟨?_, hreached.ends.guar.1, hreached.ends.guar.2.now, hreached.ends.guar.2.marked,
          hreached.ends.guar.2.lifted, hreached.ends.guar.2.closing⟩
        have hinv := hreached.ends.inv.answered_append ⟨sessionId, closed, calledAt, s.now⟩ []
          (htold closed rfl) hreached.called rfl (fun _ h => absurd h List.not_mem_nil)
        rwa [List.append_nil] at hinv
    | store session =>
      refine Program.wp_bind ((wp_storeThreadSession hbegun hmade).mono ?_)
      rintro s₀ s (error | _) hreached
      · exact hreached.ends
      · exact hreached.ends
    | advance promptTs =>
      refine Program.wp_bind ((wp_advanceLastPromptTs hbegun).mono ?_)
      rintro s₀ s (error | _) hreached
      · exact hreached.ends
      · exact hreached.ends
    | clear =>
      refine Program.wp_bind (Program.wp_handle ?_)
      refine wp_kv hbegun (fun _ _ => trivial) ?_ ?_
      · exact fun _ _ hreached => hreached.ends
      · exact fun _ _ _ hreached => hreached.ends
    | close sessionId =>
      refine Program.wp_bind ((wp_closeThreadSession hbegun rfl hmade).mono ?_)
      rintro s₀ s (error | _) ⟨hreached, hmarked⟩
      · exact hreached.ends
      · refine ⟨hreached.ends.inv.returned_append (hmarked () rfl) rfl, hreached.ends.guar.1, ?_⟩
        exact ⟨hreached.ends.guar.2.now, hreached.ends.guar.2.marked,
          hreached.ends.guar.2.lifted, hreached.ends.guar.2.closing⟩
    | reopen session checkedAt =>
      refine Program.wp_bind ((wp_reopenThreadSession hbegun rfl).mono ?_)
      rintro s₀ s (error | _) hreached
      · exact hreached.ends
      · exact hreached.ends
    | isNoticeSent sessionId =>
      refine Program.wp_bind (wp_kv hbegun (fun _ _ => trivial) ?_ ?_)
      · exact fun _ _ hreached => hreached.ends
      · exact fun _ _ _ hreached => hreached.ends
    | markNoticeSent sessionId =>
      refine Program.wp_bind (wp_kv hbegun (fun _ _ => trivial) ?_ ?_)
      · exact fun _ _ hreached => hreached.ends
      · exact fun _ _ _ hreached => hreached.ends

/-- **A closed thread stays closed**, in the runs in which no reopening overtakes a closure: an
answer asked for after a closure returned says closed, unless a reopening that was checked after
the closure was called has deleted the tombstone. A record is closed, or read as closed, only for a
session that was asked to be closed. -/
theorem closed_threads_stay (pool : Pool State Call KvOp KvOp.Answer KvError Result)
    (h : threadServer.system.Reachable notOvertaking.Allows
      (Server.idle State.initial) pool) :
    (∀ r ∈ pool.shared.returned, ∀ a ∈ pool.shared.answered, a.sessionId = r.sessionId →
      r.returnedAt ≤ a.askedAt → a.closed = true ∨ ∃ l ∈ pool.shared.lifted,
        l.sessionId = r.sessionId ∧ r.calledAt < l.checkedAt ∧ l.liftedAt ≤ a.answeredAt) ∧
      (∀ session ∈ pool.shared.thread, session.closed = true →
        session.sessionId ∈ pool.shared.closing) ∧
      ∀ a ∈ pool.shared.answered, a.closed = true → a.sessionId ∈ pool.shared.closing := by
  have hinv : Inv pool.shared := (thread_sound.reachable inv_initial h).inv
  exact ⟨fun r hr a ha => hinv.answered a ha r hr, hinv.threadClosing, hinv.answeredClosing⟩

/-- A record of a session of the workspace. -/
def appSession : ThreadSession where
  sessionId := "session-1"
  teamId := some none
  closed := false
  repoId := "acme/app"
  repoFullName := "acme/app"
  model := "openai/gpt-5.4"
  reasoningEffort := none
  createdAt := 1
  lastPromptTs := none

/-- The session is stored and closed. -/
def closedThread : List (Act Call KvEnd) :=
  [.call ⟨.store appSession, 1⟩, .resume 0 .done, .resume 0 .done,
    .call ⟨.close "session-1", 4⟩, .resume 0 .done, .resume 0 .done, .resume 0 .done,
    .resume 0 .done, .resume 0 .done]

instance (call : Call) (o : KvOp) (kvEnd : KvEnd) (s : State) :
    Decidable (NotOvertaking call o kvEnd s) := by
  unfold NotOvertaking
  split <;> infer_instance

instance (pool : Pool State Call KvOp KvOp.Answer KvError Result) (act : Act Call KvEnd) :
    Decidable (notOvertaking.Allows pool act) := by
  unfold Condition.Allows notOvertaking
  split <;> infer_instance

theorem closed_threads_stay_once : ∃ s : State,
    s.answered.any (fun a => a.sessionId = "session-1" ∧ 9 ≤ a.askedAt) = true ∧
      ∀ a ∈ s.answered, a.sessionId = "session-1" → 9 ≤ a.askedAt →
        a.closed = true ∨ ∃ l ∈ s.lifted, l.sessionId = "session-1" ∧ 4 < l.checkedAt ∧
          l.liftedAt ≤ a.answeredAt := by
  have hrun : (threadServer.system.run notOvertaking.Allows (Server.idle State.initial)
      (closedThread ++ [.call ⟨.lookup, 10⟩, .resume 0 .done])).any
      (fun pool =>
        pool.shared.returned.any
          (fun r => r.sessionId = "session-1" ∧ r.calledAt = 4 ∧ r.returnedAt = 9) ∧
        pool.shared.answered.any (fun a => a.sessionId = "session-1" ∧ 9 ≤ a.askedAt)) = true := by
    decide +kernel
  obtain ⟨pool, hpool, hfacts⟩ := (Option.any_eq_true _ _).mp hrun
  obtain ⟨hreturned, hanswered⟩ := of_decide_eq_true hfacts
  obtain ⟨r, hr, hr'⟩ := List.any_eq_true.mp hreturned
  obtain ⟨hsession, hcalled, hat⟩ := of_decide_eq_true hr'
  have hstay := closed_threads_stay pool (System.run_reachable hpool)
  refine ⟨pool.shared, hanswered, ?_⟩
  intro a ha ha' hasked
  have hanswer := hstay.1 r hr a ha (ha'.trans hsession.symm) (hat ▸ hasked)
  rwa [hsession, hcalled] at hanswer

/-- A reopening is checked and called, and before it deletes the tombstone a second closure finds it
and returns; then the thread is asked about. -/
def overtakenClosure : List (Act Call KvEnd) :=
  closedThread ++
    [.call ⟨.reopen appSession 9, 10⟩, .call ⟨.close "session-1", 11⟩, .resume 1 .done,
      .resume 0 .done, .resume 0 .done, .resume 0 .done, .resume 0 .done, .resume 0 .done,
      .call ⟨.lookup, 18⟩, .resume 0 .done, .resume 0 .done]

theorem closure_overtaken :
    ∃ pool, threadServer.system.Reachable anyStep (Server.idle State.initial) pool ∧
      ∃ r ∈ pool.shared.returned, ∃ a ∈ pool.shared.answered, a.sessionId = r.sessionId ∧
        r.returnedAt ≤ a.askedAt ∧ a.closed = false ∧
          ∀ l ∈ pool.shared.lifted, l.checkedAt < r.calledAt := by
  have hrun : (threadServer.system.run anyStep (Server.idle State.initial) overtakenClosure).any
      (fun pool => ∃ r ∈ pool.shared.returned, ∃ a ∈ pool.shared.answered,
        a.sessionId = r.sessionId ∧ r.returnedAt ≤ a.askedAt ∧ a.closed = false ∧
          ∀ l ∈ pool.shared.lifted, l.checkedAt < r.calledAt) = true := by
    decide +kernel
  obtain ⟨pool, hpool, hfacts⟩ := (Option.any_eq_true _ _).mp hrun
  exact ⟨pool, System.run_reachable hpool, of_decide_eq_true hfacts⟩

end BackgroundAgents.SlackBot

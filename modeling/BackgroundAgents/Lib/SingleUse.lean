import Mathlib.Data.Multiset.Count
import Mathlib.Data.Multiset.Filter
import Mathlib.Logic.Relation

/-!
# A grant that can be used once

A store holds a grant under a version. Using it consumes it, and what comes
back is stored under the next version. Whoever uses it first takes a lease,
which carries a generation; a fence ends a lease whose holder is not heard of,
and closes the store.

`Move` is what can happen, one write or one call of the grant at a time, with
any number of claims in any phase. A claim whose lease was fenced may still be
about to use the grant, so a store is opened only where its version has neither
been used nor a claim that is to use it (`State.Fresh`), or where a lease is
out. `Move free` lets it be opened elsewhere when `free` holds; without that,
`Inv` is preserved (`Move.inv`), and `Inv.used_once` is what it buys.
-/

namespace BackgroundAgents.SingleUse

/-- How far a claim got. -/
inductive Phase where
  /-- It holds the lease and has not used the grant. -/
  | claimed
  | inUse
  /-- The grant was not consumed, and the lease is to be given back. -/
  | returning
  | settling
  deriving DecidableEq, Repr

structure Claim where
  version : Nat
  generation : Nat
  phase : Phase
  deriving DecidableEq, Repr

structure State where
  version : Nat
  generation : Nat
  leased : Bool
  /-- Whether a lease may be taken. -/
  opened : Bool
  /-- The versions used, but for uses that did not consume them. -/
  used : Multiset Nat
  claims : Multiset Claim

/-- A claim in a phase, of some version. -/
def Claim.isAt (phase : Phase) (v : Nat) (c : Claim) : Prop :=
  c.version = v ∧ c.phase = phase

instance (phase : Phase) (v : Nat) : DecidablePred (Claim.isAt phase v) :=
  fun _ => inferInstanceAs (Decidable (_ ∧ _))

namespace State

/-- How often a version was used or is to be used. -/
def uses (s : State) (v : Nat) : Nat :=
  s.claims.countP (Claim.isAt .claimed v) + s.used.count v

/-- The stored grant was not used, and no claim is to use it. -/
def Fresh (s : State) : Prop :=
  s.uses s.version = 0

end State

inductive Move (free : Prop) (s : State) : State → Prop where
  /-- A claim is given up. -/
  | drop {c : Claim} {rest : Multiset Claim} : s.claims = c ::ₘ rest →
    Move free s { s with claims := rest }
  /-- The lease is taken, by a claim that may not learn of it. -/
  | begin : s.leased = false → s.opened = true →
    Move free s
      { s with
        leased := true
        generation := s.generation + 1
        claims := ⟨s.version, s.generation + 1, .claimed⟩ ::ₘ s.claims }
  | use {v g : Nat} {rest : Multiset Claim} : s.claims = ⟨v, g, .claimed⟩ ::ₘ rest →
    Move free s { s with used := v ::ₘ s.used, claims := ⟨v, g, .inUse⟩ ::ₘ rest }
  | abandon {v g : Nat} {rest : Multiset Claim} : s.claims = ⟨v, g, .claimed⟩ ::ₘ rest →
    Move free s { s with claims := ⟨v, g, .returning⟩ ::ₘ rest }
  /-- The grant comes back unconsumed. -/
  | unused {v g : Nat} {rest : Multiset Claim} : s.claims = ⟨v, g, .inUse⟩ ::ₘ rest →
    Move free s { s with used := s.used.erase v, claims := ⟨v, g, .returning⟩ ::ₘ rest }
  | settle {v g : Nat} {rest : Multiset Claim} : s.claims = ⟨v, g, .inUse⟩ ::ₘ rest →
    Move free s { s with claims := ⟨v, g, .settling⟩ ::ₘ rest }
  /-- The lease is given back. -/
  | clear {c : Claim} : c ∈ s.claims → c.phase = .returning → c.version = s.version →
    c.generation = s.generation → Move free s { s with leased := false }
  /-- A new grant is stored, and the store may be opened. -/
  | store (opened : Bool) : Move free s { s with version := s.version + 1, leased := false, opened }
  | fence : Move free s
      { s with leased := false, generation := s.generation + 1, opened := false }
  | close : Move free s { s with opened := false }
  | reopen : free ∨ s.leased = true ∨ s.Fresh → Move free s { s with opened := true }

/-- What holds of a store and its claims. -/
structure Inv (s : State) : Prop where
  versions : ∀ c ∈ s.claims, c.version ≤ s.version
  generations : ∀ c ∈ s.claims, c.generation ≤ s.generation
  distinct : (s.claims.map Claim.generation).Nodup
  usedVersions : ∀ v ∈ s.used, v ≤ s.version
  once : ∀ v, s.uses v ≤ 1
  inUse : ∀ v, s.claims.countP (Claim.isAt .inUse v) ≤ s.used.count v
  ready : s.opened = true → s.leased = false → s.Fresh
  returning : ∀ c ∈ s.claims, c.phase = .returning → c.version = s.version →
    c.generation = s.generation → s.Fresh

namespace Inv

variable {s : State}

/-- **Used once.** -/
theorem used_once (h : Inv s) : s.used.Nodup := by
  rw [Multiset.nodup_iff_count_le_one]
  intro v
  exact (Nat.le_add_left _ _).trans (h.once v)

/-- After a use that was not undone, no lease is taken until a new grant is stored. -/
theorem closed_of_used (h : Inv s) (hused : s.version ∈ s.used) (hleased : s.leased = false) :
    s.opened = false := by
  by_contra hopened
  have hfresh := h.ready (Bool.eq_true_of_not_eq_false hopened) hleased
  have hcount := Multiset.count_pos.mpr hused
  unfold State.Fresh State.uses at hfresh
  omega

/-- A lease has at most one holder. -/
theorem one_holder (h : Inv s) :
    s.claims.countP (fun c => c.generation = s.generation) ≤ 1 := by
  have hcount := Multiset.nodup_iff_count_le_one.mp h.distinct s.generation
  rw [Multiset.count_map, ← Multiset.countP_eq_card_filter] at hcount
  simpa only [eq_comm] using hcount

end Inv

/-! ## The moves -/

section Moves

variable {s : State} {v g : Nat} {rest : Multiset Claim}

/-- No version above the stored one was used. -/
theorem fresh_next (h : Inv s) : s.uses (s.version + 1) = 0 := by
  have hclaims : s.claims.countP (Claim.isAt .claimed (s.version + 1)) = 0 := by
    refine Multiset.countP_eq_zero.mpr ?_
    rintro c hc ⟨hversion, -⟩
    have := h.versions c hc
    omega
  have hused : s.used.count (s.version + 1) = 0 := by
    refine Multiset.count_eq_zero.mpr fun hmem => ?_
    have := h.usedVersions _ hmem
    omega
  rw [State.uses, hclaims, hused]

theorem countP_cons_isAt (phase p : Phase) (w : Nat) :
    ((⟨v, g, p⟩ : Claim) ::ₘ rest).countP (Claim.isAt phase w) =
      rest.countP (Claim.isAt phase w) + if v = w ∧ p = phase then 1 else 0 :=
  Multiset.countP_cons _ _ _

/-- A claim goes on to another phase. -/
theorem Inv.phase (h : Inv s) {p q : Phase} (hc : s.claims = ⟨v, g, p⟩ ::ₘ rest)
    {used : Multiset Nat} (husedVersions : ∀ w ∈ used, w ≤ s.version)
    (huses : ∀ w, State.uses { s with used, claims := ⟨v, g, q⟩ ::ₘ rest } w ≤ s.uses w)
    (hinUse : ∀ w, ((⟨v, g, q⟩ : Claim) ::ₘ rest).countP (Claim.isAt .inUse w) ≤ used.count w)
    (hreturning : q = .returning → v = s.version →
      State.uses { s with used, claims := ⟨v, g, q⟩ ::ₘ rest } s.version = 0) :
    Inv { s with used, claims := ⟨v, g, q⟩ ::ₘ rest } := by
  have hself : (⟨v, g, p⟩ : Claim) ∈ s.claims := hc ▸ Multiset.mem_cons_self _ _
  have hversion : v ≤ s.version := h.versions _ hself
  have hgeneration : g ≤ s.generation := h.generations _ hself
  have hrest : ∀ c ∈ rest, c ∈ s.claims := fun c hmem => hc ▸ Multiset.mem_cons_of_mem hmem
  have hdistinct := h.distinct
  rw [hc, Multiset.map_cons] at hdistinct
  refine
    { versions := ?_
      generations := ?_
      distinct := ?_
      usedVersions := husedVersions
      once := fun w => (huses w).trans (h.once w)
      inUse := hinUse
      ready := fun ho hl => Nat.le_zero.mp ((huses _).trans (Nat.le_of_eq (h.ready ho hl)))
      returning := ?_ }
  · intro c hmem
    rcases Multiset.mem_cons.mp hmem with rfl | hmem
    · exact hversion
    · exact h.versions c (hrest c hmem)
  · intro c hmem
    rcases Multiset.mem_cons.mp hmem with rfl | hmem
    · exact hgeneration
    · exact h.generations c (hrest c hmem)
  · rw [Multiset.map_cons]
    exact hdistinct
  · intro c hmem hp hv hg
    rcases Multiset.mem_cons.mp hmem with rfl | hmem
    · exact hreturning hp hv
    · have hfresh := h.returning c (hrest c hmem) hp hv hg
      exact Nat.le_zero.mp ((huses _).trans (Nat.le_of_eq hfresh))

/-- A new version of the store. -/
theorem Inv.store (h : Inv s) (opened : Bool) :
    Inv { s with version := s.version + 1, leased := false, opened } :=
  { h with
    versions := fun c hc => (h.versions c hc).trans (Nat.le_succ _)
    usedVersions := fun v hv => (h.usedVersions v hv).trans (Nat.le_succ _)
    ready := fun _ _ => fresh_next h
    returning := fun _ _ _ _ _ => fresh_next h }

theorem Inv.begin (h : Inv s) (hleased : s.leased = false) (hopened : s.opened = true) :
    Inv { s with
      leased := true
      generation := s.generation + 1
      claims := ⟨s.version, s.generation + 1, .claimed⟩ ::ₘ s.claims } := by
  have hfresh := h.ready hopened hleased
  unfold State.Fresh at hfresh
  refine
    { versions := ?_
      generations := ?_
      distinct := ?_
      usedVersions := h.usedVersions
      once := ?_
      inUse := ?_
      ready := fun _ hl => by cases hl
      returning := ?_ }
  · intro c hc
    rcases Multiset.mem_cons.mp hc with rfl | hc
    · exact Nat.le_refl _
    · exact h.versions c hc
  · intro c hc
    rcases Multiset.mem_cons.mp hc with rfl | hc
    · exact Nat.le_refl _
    · exact (h.generations c hc).trans (Nat.le_succ _)
  · rw [Multiset.map_cons, Multiset.nodup_cons]
    refine ⟨fun hmem => ?_, h.distinct⟩
    obtain ⟨c, hc, hgen⟩ := Multiset.mem_map.mp hmem
    have hle := h.generations c hc
    dsimp only at hgen
    omega
  · intro v
    have hone := h.once v
    unfold State.uses at hone hfresh ⊢
    dsimp only
    rw [countP_cons_isAt]
    split
    next hv =>
      rw [← hv.1]
      omega
    next => omega
  · intro v
    rw [countP_cons_isAt, if_neg (fun hv => by cases hv.2)]
    exact h.inUse v
  · intro c hc hp hv hg
    rcases Multiset.mem_cons.mp hc with rfl | hc
    · cases hp
    · have hle := h.generations c hc
      dsimp only at hg
      omega

theorem Inv.drop (h : Inv s) {c : Claim} (hc : s.claims = c ::ₘ rest) :
    Inv { s with claims := rest } := by
  have hle : rest ≤ s.claims := hc ▸ Multiset.le_cons_self _ _
  have huses : ∀ v, State.uses { s with claims := rest } v ≤ s.uses v :=
    fun v => Nat.add_le_add_right (Multiset.countP_le_of_le _ hle) _
  have hfresh : s.Fresh → State.Fresh { s with claims := rest } :=
    fun hf => Nat.le_zero.mp ((huses _).trans (Nat.le_of_eq hf))
  exact
    { versions := fun c hc => h.versions c (Multiset.mem_of_le hle hc)
      generations := fun c hc => h.generations c (Multiset.mem_of_le hle hc)
      distinct := Multiset.nodup_of_le (Multiset.map_le_map hle) h.distinct
      usedVersions := h.usedVersions
      once := fun v => (huses v).trans (h.once v)
      inUse := fun v => (Multiset.countP_le_of_le _ hle).trans (h.inUse v)
      ready := fun ho hl => hfresh (h.ready ho hl)
      returning := fun c hc hp hv hg =>
        hfresh (h.returning c (Multiset.mem_of_le hle hc) hp hv hg) }

/-- **The step lemma.** -/
theorem Move.inv {t : State} (h : Inv s) (m : Move False s t) : Inv t := by
  cases m with
  | drop hc => exact h.drop hc
  | begin hleased hopened => exact h.begin hleased hopened
  | @use v g rest hc =>
    have hself : (⟨v, g, .claimed⟩ : Claim) ∈ s.claims := hc ▸ Multiset.mem_cons_self _ _
    refine h.phase hc ?_ ?_ ?_ (fun hp => by cases hp)
    · intro w hw
      rcases Multiset.mem_cons.mp hw with rfl | hw
      · exact h.versions _ hself
      · exact h.usedVersions w hw
    · intro w
      unfold State.uses
      rw [hc, countP_cons_isAt, countP_cons_isAt, Multiset.count_cons]
      by_cases hw : v = w
      · simp [hw]
        omega
      · simp [hw, Ne.symm hw]
    · intro w
      have hle := h.inUse w
      rw [hc, countP_cons_isAt] at hle
      rw [countP_cons_isAt, Multiset.count_cons]
      by_cases hw : v = w
      · simp [hw] at hle ⊢
        omega
      · simp [hw, Ne.symm hw] at hle ⊢
        omega
  | @abandon v g rest hc =>
    have huses : ∀ w, State.uses { s with claims := ⟨v, g, .returning⟩ ::ₘ rest } w +
        (if v = w then 1 else 0) = s.uses w := by
      intro w
      unfold State.uses
      rw [hc, countP_cons_isAt, countP_cons_isAt]
      by_cases hw : v = w
      · simp [hw]
        omega
      · simp [hw]
    refine h.phase hc h.usedVersions ?_ ?_ ?_
    · intro w
      have := huses w
      omega
    · intro w
      have hle := h.inUse w
      rw [hc, countP_cons_isAt] at hle
      rw [countP_cons_isAt]
      simpa using hle
    · intro _ hv
      have heq := huses s.version
      have hone := h.once s.version
      rw [if_pos hv] at heq
      omega
  | @unused v g rest hc =>
    have hin : 0 < s.used.count v := by
      have hle := h.inUse v
      rw [hc, countP_cons_isAt, if_pos ⟨rfl, rfl⟩] at hle
      omega
    have huses : ∀ w, State.uses
        { s with used := s.used.erase v, claims := ⟨v, g, .returning⟩ ::ₘ rest } w +
        (if v = w then 1 else 0) = s.uses w := by
      intro w
      unfold State.uses
      rw [hc, countP_cons_isAt, countP_cons_isAt]
      by_cases hw : v = w
      · subst hw
        simp [Multiset.count_erase_self]
        omega
      · simp [hw, Multiset.count_erase_of_ne (Ne.symm hw)]
    refine h.phase hc ?_ ?_ ?_ ?_
    · exact fun w hw => h.usedVersions w (Multiset.mem_of_mem_erase hw)
    · intro w
      have := huses w
      omega
    · intro w
      have hle := h.inUse w
      rw [hc, countP_cons_isAt] at hle
      rw [countP_cons_isAt]
      by_cases hw : v = w
      · subst hw
        simp [Multiset.count_erase_self] at hle ⊢
        omega
      · simpa [hw, Multiset.count_erase_of_ne (Ne.symm hw)] using hle
    · intro _ hv
      have heq := huses s.version
      have hone := h.once s.version
      rw [if_pos hv] at heq
      omega
  | @settle v g rest hc =>
    refine h.phase hc h.usedVersions ?_ ?_ (fun hp => by cases hp)
    · intro w
      unfold State.uses
      rw [hc, countP_cons_isAt, countP_cons_isAt]
      simp
    · intro w
      have hle := h.inUse w
      rw [hc, countP_cons_isAt] at hle
      rw [countP_cons_isAt]
      have hdrop : ¬(v = w ∧ Phase.settling = .inUse) := fun hv => by cases hv.2
      rw [if_neg hdrop]
      omega
  | @clear c hc hp hv hg =>
    exact { h with ready := fun _ _ => h.returning c hc hp hv hg }
  | store opened => exact h.store opened
  | fence =>
    exact
      { h with
        generations := fun c hc => (h.generations c hc).trans (Nat.le_succ _)
        ready := fun ho _ => by cases ho
        returning := fun c hc _ _ hg => by
          have hle := h.generations c hc
          dsimp only at hg
          omega }
  | close => exact { h with ready := fun ho _ => by cases ho }
  | reopen hguard =>
    refine { h with ready := fun _ hl => ?_ }
    rcases hguard with hfree | hleased | hfresh
    · exact hfree.elim
    · dsimp only at hl
      rw [hleased] at hl
      cases hl
    · exact hfresh

theorem Move.inv_star {t : State} (h : Inv s) (m : Relation.ReflTransGen (Move False) s t) :
    Inv t := by
  induction m with
  | refl => exact h
  | tail _ hm ih => exact hm.inv ih

/-- Versions and generations go up. -/
theorem Move.mono_star {free : Prop} {t : State} (m : Relation.ReflTransGen (Move free) s t) :
    s.version ≤ t.version ∧ s.generation ≤ t.generation := by
  induction m with
  | refl => exact ⟨Nat.le_refl _, Nat.le_refl _⟩
  | tail _ hm ih =>
    refine ⟨ih.1.trans ?_, ih.2.trans ?_⟩
    · cases hm with
      | store => exact Nat.le_succ _
      | _ => exact Nat.le_refl _
    · cases hm with
      | begin | fence => exact Nat.le_succ _
      | _ => exact Nat.le_refl _

end Moves

end BackgroundAgents.SingleUse

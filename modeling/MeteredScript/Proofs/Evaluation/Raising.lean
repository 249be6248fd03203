import MeteredScript.Proofs.Evaluation.Frames

/-!
# Raising signals

Every frame has signals of its own; a guarded frame shows those of the frame that it stands for. A
signal that is raised on a frame is raised on frames of its chain only, and on all of them unless a
guarded frame holds it up; in any case the frame itself shows it afterwards.
-/

namespace MeteredScript

namespace Machine

variable {m m' : Machine} {s s' : Signal} {f g n : Nat}

/-- The signal that a frame itself has. -/
def own (m : Machine) (s : Signal) (f : Nat) : Bool := m.frames[f]?.any (·.signal s)

/-- The frame passes signals on to another one. -/
def Guarded (m : Machine) (f : Nat) : Prop := ∃ delegate, m.kind? f = some (.guarded delegate)

/-- No frame of the chain is guarded. -/
def Unguarded (m : Machine) (f : Nat) : Prop := ∀ g, m.OnChain f g → ¬ m.Guarded g

theorem signal_eq_own (m : Machine) (s : Signal) (f : Nat) :
    m.signal s f = m.own s (m.base f) := rfl

theorem own_eq (m : Machine) (s : Signal) (f : Nat) :
    m.own s f = (m.outline f).any (·.signal s) := by
  unfold own outline
  cases m.frames[f]? <;> simp

theorem signal_setSignal (frame : Frame) (s s' : Signal) (on : Bool) :
    (frame.setSignal s on).signal s' = if s' = s then on else frame.signal s' := by
  cases s <;> cases s' <;> rfl

theorem own_setOwn (m : Machine) (s s' : Signal) (on : Bool) (hf : f < m.frames.size) (g : Nat) :
    (m.setOwn s on f).own s' g = if s' = s ∧ g = f then on else m.own s' g := by
  unfold own setOwn
  rw [Array.getElem?_modify]
  by_cases hg : f = g
  · subst hg
    simp [Array.getElem?_eq_getElem hf, signal_setSignal]
  · simp [hg, Ne.symm hg]

theorem own_setOwn_true (m : Machine) (s s' : Signal) (hf : f < m.frames.size) (g : Nat) :
    (m.setOwn s true f).own s' g = true ↔ m.own s' g = true ∨ s' = s ∧ g = f := by
  rw [own_setOwn m s s' true hf]
  split <;> simp_all

/-! ## The frame that a frame stands for -/

theorem guarded_iff : m.Guarded f ↔ ∃ delegate, m.standsFor f = some (.inl delegate) := by
  unfold Guarded standsFor
  rcases m.kind? f with _ | _ | _ | _ | _ <;> simp [FrameKind.standsFor]

instance (m : Machine) (f : Nat) : Decidable (m.Guarded f) :=
  decidable_of_iff ((m.standsFor f).any (·.isLeft) = true) <| by
    rw [guarded_iff]
    rcases m.standsFor f with _ | delegate | source <;> simp

theorem base_of_not_guarded (h : ¬ m.Guarded f) : m.base f = f := by
  rw [base, baseTo_succ]
  rcases hs : m.standsFor f with _ | delegate | _
  · rfl
  · exact absurd (guarded_iff.mpr ⟨delegate, hs⟩) h
  · rfl

section Stacked

variable (h : m.StackedTo n) (hf : f < n)

include h hf

/-- The number of a frame bounds the number of guarded frames to pass. -/
theorem baseTo_eq {fuel fuel' : Nat} (hfuel : f < fuel) (hfuel' : f < fuel') :
    m.baseTo fuel f = m.baseTo fuel' f := by
  induction fuel generalizing f fuel' with
  | zero => exact absurd hfuel (Nat.not_lt_zero f)
  | succ fuel ih =>
    cases fuel' with
    | zero => exact absurd hfuel' (Nat.not_lt_zero f)
    | succ fuel' =>
      rw [baseTo_succ, baseTo_succ]
      rcases hs : m.standsFor f with _ | delegate | _
      · rfl
      · have hlt := h f hf delegate (below?_of_standsFor hs)
        exact ih (Nat.lt_trans hlt hf) (by omega) (by omega)
      · rfl

theorem base_of_guarded {delegate : Nat} (hs : m.standsFor f = some (.inl delegate)) :
    m.base f = m.base delegate := by
  have hlt := h f hf delegate (below?_of_standsFor hs)
  rw [base, baseTo_succ, hs]
  exact baseTo_eq h (Nat.lt_trans hlt hf) hlt (Nat.lt_succ_self delegate)

/-- A guarded frame shows the signals of the frame that it guards. -/
theorem signal_of_guarded {delegate : Nat} (hs : m.standsFor f = some (.inl delegate))
    (s : Signal) : m.signal s f = m.signal s delegate := by
  rw [signal_eq_own, base_of_guarded h hf hs, signal_eq_own]

theorem base_lt : m.base f < n := by
  unfold base
  generalize f + 1 = fuel
  induction fuel generalizing f with
  | zero => exact hf
  | succ fuel ih =>
    rw [baseTo_succ]
    rcases hs : m.standsFor f with _ | delegate | _
    · exact hf
    · exact ih (Nat.lt_trans (h f hf delegate (below?_of_standsFor hs)) hf)
    · exact hf

end Stacked

/-! ## Machines that differ in signals -/

namespace SameButSignals

variable (h : m.SameButSignals m')

include h

theorem standsFor (f : Nat) : m'.standsFor f = m.standsFor f := by
  rw [Machine.standsFor, h.kind, Machine.standsFor]

theorem base (f : Nat) : m'.base f = m.base f :=
  baseTo_congr (funext fun g => h.standsFor g) (f + 1) f

theorem below? (f : Nat) : m'.below? f = m.below? f := by
  rw [Machine.below?, h.kind, Machine.below?]

theorem stackedTo (hm : m.StackedTo n) : m'.StackedTo n :=
  fun f hf g hg => hm f hf g (h.below? f ▸ hg)

theorem onChain (hc : m.OnChain f g) : m'.OnChain f g := by
  induction hc with
  | here f => exact .here f
  | down found next _ ih => exact .down ((h.kind _).trans found) next ih

end SameButSignals

theorem SameButSignals.symm (h : m.SameButSignals m') : m'.SameButSignals m :=
  ⟨h.store.symm, h.locals.symm, h.tables.symm, h.context.symm, h.size.symm, fun f => (h.kind f).symm⟩

theorem SameButSignals.unguarded (h : m.SameButSignals m') (hu : m.Unguarded f) :
    m'.Unguarded f :=
  fun g hg ⟨delegate, hk⟩ => hu g (h.symm.onChain hg) ⟨delegate, (h.kind g).symm.trans hk⟩

/-! ## Lowering and guarding -/

theorem sameButSignals_lower (m : Machine) (s : Signal) (f : Nat) :
    m.SameButSignals (m.lower s f) := by
  unfold lower
  split
  · exact .refl m
  · exact .setOwn m s false f

/-- Only a frame that is not guarded has a signal lowered. -/
theorem signal_lower (m : Machine) (s s' : Signal) (hf : f < m.frames.size) :
    (m.lower s f).signal s' f = true ↔ m.signal s' f = true ∧ (s' = s → m.Guarded f) := by
  rw [signal_eq_own, (m.sameButSignals_lower s f).base, signal_eq_own]
  unfold lower
  split
  · next delegate hk =>
    have hguarded : m.Guarded f := ⟨delegate, hk⟩
    simp only [hguarded, implies_true, and_true]
  · next hno =>
    have hu : ¬ m.Guarded f := fun ⟨delegate, hk⟩ => hno delegate hk
    rw [base_of_not_guarded hu, own_setOwn m s s' false hf]
    split <;> simp_all

theorem Stacked.pushFrame (h : m.Stacked) {kind : FrameKind}
    (hk : ∀ g, kind.below = some g → g < m.frames.size) : (m.pushFrame kind).2.Stacked := by
  intro f hf g hg
  rw [below?, kind?_pushFrame] at hg
  split at hg
  · next heq => exact heq ▸ hk g hg
  · next hne =>
    have hlt : f < m.frames.size + 1 := by simpa [Machine.pushFrame] using hf
    exact h f (by omega) g hg

/-! ## What raising does -/

section Turn

variable (s) (fuel : Nat)

theorem raiseTo_missing (hf : m.frames.size ≤ f) : m.raiseTo s (fuel + 1) f = m := by
  have hk : m.kind? f = none := by rw [kind?, Array.getElem?_eq_none hf]; rfl
  rw [raiseTo, hk]

theorem raiseTo_guarded {delegate : Nat} (hk : m.kind? f = some (.guarded delegate)) :
    m.raiseTo s (fuel + 1) f = if m.signal s delegate then m else m.raiseTo s fuel delegate := by
  rw [raiseTo, hk]

theorem raiseTo_unguarded (hf : f < m.frames.size) (hu : ¬ m.Guarded f) :
    m.raiseTo s (fuel + 1) f = match m.below? f with
      | some next => (m.setOwn s true f).raiseTo s fuel next
      | none => m.setOwn s true f := by
  obtain ⟨kind, hk⟩ : ∃ kind, m.kind? f = some kind :=
    ⟨_, by rw [kind?, Array.getElem?_eq_getElem hf]; rfl⟩
  rw [raiseTo, below?, hk]
  cases kind with
  | guarded delegate => exact absurd ⟨delegate, hk⟩ hu
  | named | indexed | hosted => rfl

end Turn

theorem OnChain.of_below? {h : Nat} (hb : m.below? f = some g) (hc : m.OnChain g h) :
    m.OnChain f h := by
  obtain ⟨kind, hk, hkind⟩ := Option.bind_eq_some_iff.mp hb
  exact .down hk hkind hc

/-- Signals are raised on frames of the chain, and no others, and none is lowered. -/
theorem own_raiseTo (s : Signal) (fuel f : Nat) (m : Machine) (s' : Signal) (g : Nat) :
    (m.own s' g = true → (m.raiseTo s fuel f).own s' g = true) ∧
      ((m.raiseTo s fuel f).own s' g = true → m.own s' g = true ∨ s' = s ∧ m.OnChain f g) := by
  induction fuel generalizing f m with
  | zero => exact ⟨id, .inl⟩
  | succ fuel ih =>
    rcases Nat.lt_or_ge f m.frames.size with hf | hf
    · by_cases hg : m.Guarded f
      · obtain ⟨delegate, hk⟩ := hg
        rw [raiseTo_guarded s fuel hk]
        split
        · exact ⟨id, .inl⟩
        · have hdown {h : Nat} (hc : m.OnChain delegate h) : m.OnChain f h := .down hk rfl hc
          refine ⟨(ih delegate m).1, fun h => ?_⟩
          exact ((ih delegate m).2 h).imp_right fun h => ⟨h.1, hdown h.2⟩
      · -- The frame has its own signal raised, and then those below are raised.
        have hset := own_setOwn_true m s s' hf g
        have hhere : m.own s' g = true ∨ s' = s ∧ g = f →
            m.own s' g = true ∨ s' = s ∧ m.OnChain f g := Or.imp_right fun h => ⟨h.1, h.2 ▸ .here g⟩
        rw [raiseTo_unguarded s fuel hf hg]
        cases hb : m.below? f with
        | none =>
          constructor
          · intro h
            exact hset.mpr (.inl h)
          · intro h
            exact hhere (hset.mp h)
        | some next =>
          obtain ⟨hup, hdown⟩ := ih next (m.setOwn s true f)
          constructor
          · intro h
            exact hup (hset.mpr (.inl h))
          · intro h
            rcases hdown h with h | ⟨rfl, h⟩
            · exact hhere (hset.mp h)
            · have hc := (SameButSignals.setOwn m s' true f).symm.onChain h
              exact .inr ⟨rfl, .of_below? hb hc⟩
    · rw [raiseTo_missing s fuel hf]
      exact ⟨id, .inl⟩

theorem own_raiseTo_self (s : Signal) (fuel : Nat) (hf : f < m.frames.size) (hu : ¬ m.Guarded f) :
    (m.raiseTo s (fuel + 1) f).own s f = true := by
  have hset := (own_setOwn_true m s s hf f).mpr (.inr ⟨rfl, rfl⟩)
  rw [raiseTo_unguarded s fuel hf hu]
  cases m.below? f with
  | none => exact hset
  | some next => exact (own_raiseTo s fuel next _ s f).1 hset

theorem own_raise_of_ne (m : Machine) (f : Nat) (hs : s' ≠ s) (g : Nat) :
    (m.raise s f).own s' g = m.own s' g := by
  obtain ⟨hup, hdown⟩ := own_raiseTo s (f + 1) f m s' g
  refine Bool.eq_iff_iff.mpr ⟨?_, hup⟩
  intro h
  rcases hdown h with hown | ⟨hsame, -⟩
  · exact hown
  · exact absurd hsame hs

theorem own_raise_of_not_onChain (m : Machine) (s : Signal) (h : ¬ m.OnChain f g) :
    (m.raise s f).own s g = m.own s g := by
  obtain ⟨hup, hdown⟩ := own_raiseTo s (f + 1) f m s g
  refine Bool.eq_iff_iff.mpr ⟨?_, hup⟩
  intro hg
  rcases hdown hg with hown | ⟨-, hon⟩
  · exact hown
  · exact absurd hon h

theorem sameButSignals_raise (m : Machine) (s : Signal) (f : Nat) :
    m.SameButSignals (m.raise s f) := .raiseTo s (f + 1) f m

section Stacked

variable (h : m.StackedTo n) (hn : n ≤ m.frames.size) (hf : f < n)

include h hn hf

/-- The frame shows the signal afterwards. -/
theorem signal_raiseTo (s : Signal) {fuel : Nat} (hfuel : f < fuel) :
    (m.raiseTo s fuel f).signal s f = true := by
  induction fuel generalizing f m with
  | zero => exact absurd hfuel (Nat.not_lt_zero f)
  | succ fuel ih =>
    by_cases hg : m.Guarded f
    · obtain ⟨delegate, hk⟩ := hg
      have hs : m.standsFor f = some (.inl delegate) := by rw [standsFor, hk]; rfl
      have hlt : delegate < f := h f hf delegate (below?_of_standsFor hs)
      rw [signal_eq_own, (SameButSignals.raiseTo s (fuel + 1) f m).base, base_of_guarded h hf hs,
        raiseTo_guarded s fuel hk]
      split
      · next hup => exact hup
      · rw [← (SameButSignals.raiseTo s fuel delegate m).base]
        exact ih h hn (Nat.lt_trans hlt hf) (by omega)
    · rw [signal_eq_own, (SameButSignals.raiseTo s (fuel + 1) f m).base, base_of_not_guarded hg]
      exact own_raiseTo_self s fuel (Nat.lt_of_lt_of_le hf hn) hg

/-- Without guarded frames on the chain, all of its frames have the signal afterwards. -/
theorem own_raiseTo_onChain (s : Signal) {fuel : Nat} (hfuel : f < fuel) (hu : m.Unguarded f)
    (hc : m.OnChain f g) : (m.raiseTo s fuel f).own s g = true := by
  induction fuel generalizing f m with
  | zero => exact absurd hfuel (Nat.not_lt_zero f)
  | succ fuel ih =>
    have hsize := Nat.lt_of_lt_of_le hf hn
    have hplain := hu f (.here f)
    cases hc with
    | here => exact own_raiseTo_self s fuel hsize hplain
    | @down _ next _ kind found hnext rest =>
      have same := SameButSignals.setOwn m s true f
      have hb : m.below? f = some next := by rw [below?, found]; exact hnext
      have hlt := h f hf next hb
      rw [raiseTo_unguarded s fuel hsize hplain, hb]
      exact ih (same.stackedTo h) (same.size ▸ hn) (Nat.lt_trans hlt hf) (by omega)
        (same.unguarded fun k hk => hu k (.of_below? hb hk)) (same.onChain rest)

end Stacked

end Machine

end MeteredScript

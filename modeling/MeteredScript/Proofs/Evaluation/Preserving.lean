import MeteredScript.Proofs.Evaluation.Running

/-!
# Properties that operations preserve

An operation preserves a property of states if it does not lead out of the states that have it,
whether it has a result or fails. This passes from the parts of an operation to the whole, as does
what is known of the results.
-/

namespace MeteredScript

/-- From states with a property an operation leads to such states, and what it answers has another
property. -/
def Preserves {ε σ α : Type} (I : σ → Prop) (x : ExceptT ε (StateM σ) α) (Q : α → Prop) : Prop :=
  ∀ s, I s → I (x.run s).2 ∧ ∀ a, (x.run s).1 = .ok a → Q a

/-- The same if nothing is asked of what it answers. -/
abbrev PreservesOnly {ε σ α : Type} (I : σ → Prop) (x : ExceptT ε (StateM σ) α) : Prop :=
  Preserves I x fun _ => True

namespace Preserves

variable {ε σ α β : Type} {I : σ → Prop} {P Q : α → Prop}

/-! ## Single operations and sequences -/

theorem pure {a : α} (h : Q a) : Preserves (ε := ε) I (pure a) Q := by
  intro s hs
  refine ⟨hs, ?_⟩
  intro b hb
  rwa [← Except.ok.inj hb]

theorem throw (e : ε) (Q : α → Prop) : Preserves (ε := ε) I (throw e) Q := by
  intro s hs
  refine ⟨hs, ?_⟩
  intro b hb
  cases hb

/-- A state is looked at. -/
theorem look {x : ExceptT ε (StateM σ) α} (h : ∀ s, I s → ∃ a, x.run s = (.ok a, s) ∧ Q a) :
    Preserves I x Q := by
  intro s hs
  obtain ⟨a, hrun, ha⟩ := h s hs
  rw [hrun]
  exact ⟨hs, fun b hb => Except.ok.inj hb ▸ ha⟩

theorem get : Preserves (ε := ε) I get I := look fun s hs => ⟨s, rfl, hs⟩

/-- A state is replaced. -/
theorem change {x : ExceptT ε (StateM σ) α} {f : σ → σ} (hx : ∀ s, (x.run s).2 = f s)
    (hf : ∀ s, I s → I (f s)) : PreservesOnly I x :=
  fun s hs => ⟨hx s ▸ hf s hs, fun _ _ => trivial⟩

theorem bind {x : ExceptT ε (StateM σ) α} {f : α → ExceptT ε (StateM σ) β} {Q : β → Prop}
    (hx : Preserves I x P) (hf : ∀ a, P a → Preserves I (f a) Q) : Preserves I (x >>= f) Q := by
  intro s hs
  obtain ⟨ht, hp⟩ := hx s hs
  rw [run_bind]
  rcases hrun : x.run s with ⟨e | a, t⟩ <;> rw [hrun] at ht hp
  · exact ⟨ht, by simp⟩
  · exact hf a (hp a rfl) t ht

/-- What comes next does not depend on what is answered. -/
theorem next {x : ExceptT ε (StateM σ) α} {f : α → ExceptT ε (StateM σ) β} {Q : β → Prop}
    (hx : PreservesOnly I x) (hf : ∀ a, Preserves I (f a) Q) : Preserves I (x >>= f) Q :=
  hx.bind fun a _ => hf a

theorem weaken {x : ExceptT ε (StateM σ) α} (hx : Preserves I x P) (h : ∀ a, P a → Q a) :
    Preserves I x Q :=
  fun s hs => ⟨(hx s hs).1, fun a ha => h a ((hx s hs).2 a ha)⟩

theorem lift {x : Except ε α} (h : ∀ a, x = .ok a → Q a) :
    Preserves I (liftM x : ExceptT ε (StateM σ) α) Q :=
  fun _ hs => ⟨hs, h⟩

/-- What comes next after a pure result, whatever it is. -/
theorem check {x : Except ε α} {f : α → ExceptT ε (StateM σ) β} {Q : β → Prop}
    (hf : ∀ a, Preserves I (f a) Q) :
    Preserves I ((liftM x : ExceptT ε (StateM σ) α) >>= f) Q :=
  next (lift fun _ _ => trivial) hf

/-! ## Loops -/

theorem forM {items : List α} {f : α → ExceptT ε (StateM σ) PUnit}
    (hf : ∀ a ∈ items, PreservesOnly I (f a)) : PreservesOnly I (items.forM f) := by
  induction items with
  | nil => exact .pure trivial
  | cons a rest ih =>
    obtain ⟨ha, hrest⟩ := List.forall_mem_cons.mp hf
    exact next ha fun _ => ih hrest

theorem foldlM {items : List α} {f : β → α → ExceptT ε (StateM σ) β}
    (hf : ∀ a ∈ items, ∀ b, PreservesOnly I (f b a)) (start : β) :
    PreservesOnly I (items.foldlM f start) := by
  induction items generalizing start with
  | nil => exact .pure trivial
  | cons a rest ih =>
    obtain ⟨ha, hrest⟩ := List.forall_mem_cons.mp hf
    rw [List.foldlM_cons]
    exact next (ha start) (ih hrest)

theorem mapM {items : List α} {f : α → ExceptT ε (StateM σ) β} {Q : β → Prop}
    (hf : ∀ a ∈ items, Preserves I (f a) Q) : Preserves I (items.mapM f) (∀ b ∈ ·, Q b) := by
  induction items with
  | nil => exact .pure fun _ hb => absurd hb List.not_mem_nil
  | cons a rest ih =>
    obtain ⟨ha, hrest⟩ := List.forall_mem_cons.mp hf
    rw [List.mapM_cons]
    refine ha.bind fun b hb => (ih hrest).bind fun bs hbs => ?_
    exact .pure (List.forall_mem_cons.mpr ⟨hb, hbs⟩)

end Preserves

/-! ## Operations as parts of a run -/

namespace Preserves

variable {α β : Type} {I : Machine → Prop} {Q : α → Prop}

theorem onStore {x : StoreM α}
    (hx : ∀ m, I m → Preserves (fun s => I { m with store := s }) x Q) :
    Preserves I (Act.onStore x) Q :=
  fun m hm => hx m hm m.store hm

/-- What an operation on containers preserves on machines it preserves whatever else there is. -/
theorem of_onStore {x : StoreM α} (hx : PreservesOnly I (Act.onStore x)) (m : Machine) :
    PreservesOnly (fun s => I { m with store := s }) x :=
  fun s hs => hx { m with store := s } hs

theorem act {x : Act α} (hx : Preserves I x Q) : Preserves I (Run.act x) Q := by
  intro m hm
  obtain ⟨ht, hq⟩ := hx m hm
  rw [Run.run_act]
  rcases hrun : x.run m with ⟨f | a, t⟩ <;> rw [hrun] at ht hq
  · exact ⟨ht, by simp⟩
  · exact ⟨ht, fun b hb => hq b (congrArg _ (Except.ok.inj hb))⟩

theorem pureAct {x : Except Fault α} (h : ∀ a, x = .ok a → Q a) :
    Preserves I (Run.pureAct x) Q := by
  unfold Run.pureAct
  cases x with
  | ok a => exact .pure (h a rfl)
  | error f => exact .throw _ Q

theorem body {x : Run Value} (hx : PreservesOnly I x) : PreservesOnly I (Run.body x) := by
  intro m hm
  have ht := (hx m hm).1
  rw [Run.run_body]
  rcases hrun : x.run m with ⟨(_ | _ | _ | _) | a, t⟩ <;> rw [hrun] at ht <;>
    exact ⟨ht, fun _ _ => trivial⟩

theorem turn {x : Run Bool} {y : Run Value} (hx : PreservesOnly I x) (hy : PreservesOnly I y) :
    PreservesOnly I (do if ← x then y else return .null) := by
  refine hx.next fun more => ?_
  cases more with
  | true => exact hy
  | false => exact .pure trivial

theorem repeatWhile {x : Run Bool} (hx : PreservesOnly I x) (fuel : Nat) :
    PreservesOnly I (Run.repeatWhile x fuel) := by
  induction fuel with
  | zero => exact .throw _ _
  | succ fuel ih =>
    rw [Run.repeatWhile_succ]
    exact turn hx ih

theorem forItems {x : α → Run Bool} {items : List α} (hx : ∀ a, PreservesOnly I (x a)) :
    PreservesOnly I (Run.forItems x items) := by
  induction items with
  | nil => exact .pure trivial
  | cons a rest ih =>
    rw [Run.forItems_cons]
    exact turn (hx a) ih

end Preserves

end MeteredScript

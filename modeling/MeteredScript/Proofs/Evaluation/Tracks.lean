import MeteredScript.Proofs.Evaluation.Setting

/-!
# Operations that track each other

Two operations track each other from a machine if they do the same from there, if that is done in
steps of the setting, and if what comes out of it may be held. This passes from the parts of an
operation to the whole, whatever the operation is made with: sequences, loops over items, and loops
with fuel.
-/

namespace MeteredScript

/-- What leaves an evaluation early may be held. -/
def Exit.Held (R : Realm) : Exit → Prop
  | .returned v => R.admits v
  | .fault _ | .broke | .exhausted => True

/-- Of the ways to leave an evaluation early, nothing is asked but of returns. -/
class Exit.Lenient (E : Exit → Prop) : Prop where
  fault : ∀ f, E (.fault f)
  broke : E .broke
  exhausted : E .exhausted

instance (R : Realm) : Exit.Lenient (Exit.Held R) := ⟨fun _ => trivial, trivial, trivial⟩

/-- The first operation does what the second one does, and that are steps of the setting. -/
structure TracksFrom {ε α : Type} (S : Setting) (E : ε → Prop) (m : Machine)
    (x' x : ExceptT ε (StateM Machine) α) (Q : α → Prop) : Prop where
  same : x'.run m = x.run m
  steps : Machine.Steps S m (x.run m).2
  result : ∀ a, (x.run m).1 = .ok a → Q a
  exit : ∀ e, (x.run m).1 = .error e → E e

/-- Operations that track each other from every machine that holds what it may. -/
def Tracks {ε α : Type} (S : Setting) (E : ε → Prop) (x' x : ExceptT ε (StateM Machine) α)
    (Q : α → Prop) : Prop :=
  ∀ m : Machine, m.Held S → TracksFrom S E m x' x Q

/-- An operation of which no fault says anything, alone. -/
abbrev Act.Keeps {α : Type} (S : Setting) (x : Act α) (Q : α → Prop) : Prop :=
  Tracks S (fun _ => True) x x Q

abbrev Run.Tracks {α : Type} (S : Setting) (x' x : Run α) (Q : α → Prop) : Prop :=
  MeteredScript.Tracks S (Exit.Held S.toRealm) x' x Q

variable {ε α β : Type} {S : Setting} {E : ε → Prop}

/-! ## Single operations and sequences -/

namespace TracksFrom

variable {m : Machine}

theorem pure {a : α} {Q : α → Prop} (h : Q a) : TracksFrom S E m (pure a) (pure a) Q := by
  constructor
  case same => rfl
  case steps => exact .refl
  case result =>
    intro b hb
    rwa [← Except.ok.inj hb]
  case exit =>
    intro e he
    cases he

theorem throw {e : ε} (he : E e) (Q : α → Prop) : TracksFrom S E m (throw e) (throw e) Q := by
  constructor
  case same => rfl
  case steps => exact .refl
  case result =>
    intro b hb
    cases hb
  case exit =>
    intro e' he'
    rwa [← Except.error.inj he']

theorem bind [S.Lawful] {x' x : ExceptT ε (StateM Machine) α}
    {f' f : α → ExceptT ε (StateM Machine) β} {P : α → Prop} {Q : β → Prop} (hm : m.Held S) (hx : TracksFrom S E m x' x P)
    (hf : ∀ a, P a → Tracks S E (f' a) (f a) Q) : TracksFrom S E m (x' >>= f') (x >>= f) Q := by
  obtain ⟨hsame, hsteps, hresult, hexit⟩ := hx
  rcases hxm : x.run m with ⟨e | a, t⟩
  · rw [hxm] at hsame hsteps hexit
    have hrun : (x >>= f).run m = (.error e, t) := by rw [run_bind, hxm]
    have hrun' : (x' >>= f').run m = (.error e, t) := by rw [run_bind, hsame]
    refine ⟨hrun'.trans hrun.symm, ?_, fun a ha => ?_, fun e' he => ?_⟩
    · rwa [hrun]
    · rw [hrun] at ha
      cases ha
    · rw [hrun] at he
      exact Except.error.inj he ▸ hexit e rfl
  · rw [hxm] at hsame hsteps hresult
    have hrun : (x >>= f).run m = (f a).run t := by rw [run_bind, hxm]
    have hrun' : (x' >>= f').run m = (f' a).run t := by rw [run_bind, hsame]
    obtain ⟨hs, hst, hr, he⟩ := hf a (hresult a rfl) t (hsteps.held hm)
    rw [← hrun', ← hrun] at hs
    rw [← hrun] at hst hr he
    exact ⟨hs, hsteps.trans hst, hr, he⟩

theorem ends {x : ExceptT ε (StateM Machine) α} {a : α} {m' : Machine} {Q : α → Prop}
    (hrun : x.run m = (.ok a, m')) (hsteps : Machine.Steps S m m') (hq : Q a) :
    TracksFrom S E m x x Q := by
  refine ⟨rfl, ?_, fun b hb => ?_, fun e he => ?_⟩
  · rwa [hrun]
  · rw [hrun] at hb
    exact Except.ok.inj hb ▸ hq
  · rw [hrun] at he
    cases he

theorem fails {x : ExceptT ε (StateM Machine) α} {e : ε} (hrun : x.run m = (.error e, m))
    (he : E e) (Q : α → Prop) : TracksFrom S E m x x Q := by
  refine ⟨rfl, ?_, fun b hb => ?_, fun e' he' => ?_⟩
  · rw [hrun]
  · rw [hrun] at hb
    cases hb
  · rw [hrun] at he'
    exact Except.error.inj he' ▸ he

/-- What comes after an operation that only looks at the machine starts from the same machine. -/
theorem look {x : ExceptT ε (StateM Machine) α} {a : α} (hrun : x.run m = (.ok a, m))
    {f' f : α → ExceptT ε (StateM Machine) β} {Q : β → Prop}
    (hf : TracksFrom S E m (f' a) (f a) Q) : TracksFrom S E m (x >>= f') (x >>= f) Q := by
  have hf' : (x >>= f').run m = (f' a).run m := by rw [run_bind, hrun]
  have hf₀ : (x >>= f).run m = (f a).run m := by rw [run_bind, hrun]
  obtain ⟨hs, hst, hr, he⟩ := hf
  rw [← hf', ← hf₀] at hs
  rw [← hf₀] at hst hr he
  exact ⟨hs, hst, hr, he⟩

theorem get {f' f : Machine → ExceptT ε (StateM Machine) β} {Q : β → Prop}
    (hf : TracksFrom S E m (f' m) (f m) Q) :
    TracksFrom S E m (MonadState.get >>= f') (MonadState.get >>= f) Q := by
  have hrun : (MonadState.get : ExceptT ε (StateM Machine) Machine).run m = (.ok m, m) := rfl
  exact look hrun hf

end TracksFrom

namespace Tracks

theorem pure {a : α} {Q : α → Prop} (h : Q a) : Tracks S E (pure a) (pure a) Q :=
  fun _ _ => .pure h

theorem throw {e : ε} (he : E e) (Q : α → Prop) : Tracks S E (throw e) (throw e) Q :=
  fun _ _ => .throw he Q

theorem bind [S.Lawful] {x' x : ExceptT ε (StateM Machine) α}
    {f' f : α → ExceptT ε (StateM Machine) β} {P : α → Prop} {Q : β → Prop} (hx : Tracks S E x' x P)
    (hf : ∀ a, P a → Tracks S E (f' a) (f a) Q) : Tracks S E (x' >>= f') (x >>= f) Q :=
  fun m hm => (hx m hm).bind hm hf

theorem get : Tracks S E (get : ExceptT ε (StateM Machine) Machine) get (·.Held S) := by
  intro m hm
  constructor
  case same => rfl
  case steps => exact .refl
  case result =>
    intro m' hm'
    rwa [← Except.ok.inj hm']
  case exit =>
    intro e he
    cases he

/-! ## Loops -/

theorem foldlM [S.Lawful] {items : List α} {f' f : β → α → ExceptT ε (StateM Machine) β}
    {Q : β → Prop} (hf : ∀ b, ∀ a ∈ items, Q b → Tracks S E (f' b a) (f b a) Q) {start : β} (hs : Q start) :
    Tracks S E (items.foldlM f' start) (items.foldlM f start) Q := by
  induction items generalizing start with
  | nil => exact .pure hs
  | cons a rest ih =>
    rw [List.foldlM_cons, List.foldlM_cons]
    refine .bind (hf start a List.mem_cons_self hs) fun b hb => ?_
    exact ih (fun b a ha => hf b a (List.mem_cons_of_mem _ ha)) hb

theorem mapM [S.Lawful] {items : List α} {f' f : α → ExceptT ε (StateM Machine) β} {Q : β → Prop}
    (hf : ∀ a ∈ items, Tracks S E (f' a) (f a) Q) :
    Tracks S E (items.mapM f') (items.mapM f) (∀ b ∈ ·, Q b) := by
  induction items with
  | nil => exact .pure fun _ hb => absurd hb List.not_mem_nil
  | cons a rest ih =>
    obtain ⟨ha, hr⟩ := List.forall_mem_cons.mp hf
    rw [List.mapM_cons, List.mapM_cons]
    refine .bind ha fun b hb => .bind (ih hr) fun bs hbs => ?_
    exact .pure (List.forall_mem_cons.mpr ⟨hb, hbs⟩)

end Tracks

/-! ## Operations on the store, and operations as parts of a run -/

theorem Tracks.onStore {x : StoreM α} {Q : α → Prop} (hx : x.Safe S.toRealm Q) :
    Act.Keeps S (Act.onStore x) Q := by
  intro m hm
  obtain ⟨hsteps, hq⟩ := hx m.store hm.store
  exact ⟨rfl, .single (.store _ hsteps), hq, fun _ _ => trivial⟩

theorem Tracks.checkLiveness : Act.Keeps S Act.checkLiveness fun _ => True := by
  intro m _
  exact ⟨rfl, .single (.tick _), fun _ _ => trivial, fun _ _ => trivial⟩

namespace Tracks

/-- More may be what comes out. -/
theorem weaken {x' x : ExceptT ε (StateM Machine) α} {E' : ε → Prop} {P Q : α → Prop}
    (hx : Tracks S E' x' x P) (hq : ∀ a, P a → Q a) (he : ∀ e, E' e → E e) : Tracks S E x' x Q :=
  fun m hm => ⟨(hx m hm).same, (hx m hm).steps, fun a ha => hq a ((hx m hm).result a ha),
    fun e h => he e ((hx m hm).exit e h)⟩

variable {E : Exit → Prop} [Exit.Lenient E]

theorem act {x' x : Act α} {Q : α → Prop} (hx : Tracks S (fun _ => True) x' x Q) :
    Tracks S E (Run.act x') (Run.act x) Q := by
  intro m hm
  obtain ⟨hsame, hsteps, hresult, -⟩ := hx m hm
  have hrun := Run.run_act x m
  have hrun' := Run.run_act x' m
  rcases hxm : x.run m with ⟨f | a, t⟩
  · rw [hsame, hxm] at hrun'
    rw [hxm] at hrun hsteps
    refine ⟨hrun'.trans hrun.symm, ?_, fun a ha => ?_, fun e he => ?_⟩
    · rwa [hrun]
    · rw [hrun] at ha
      cases ha
    · rw [hrun] at he
      exact Except.error.inj he ▸ Exit.Lenient.fault f
  · rw [hsame, hxm] at hrun'
    rw [hxm] at hrun hsteps hresult
    refine ⟨hrun'.trans hrun.symm, ?_, fun b hb => ?_, fun e he => ?_⟩
    · rwa [hrun]
    · rw [hrun] at hb
      exact Except.ok.inj hb ▸ hresult a rfl
    · rw [hrun] at he
      cases he

theorem pureAct {x : Except Fault α} {Q : α → Prop} (h : ∀ a, x = .ok a → Q a) :
    Tracks S E (Run.pureAct x) (Run.pureAct x) Q := by
  unfold Run.pureAct
  cases x with
  | ok a => exact .pure (h a rfl)
  | error f => exact .throw (Exit.Lenient.fault f) Q

/-- Whatever comes next is tracked for each result of a test. -/
theorem test [S.Lawful] {x : Except Fault α} {f' f : α → Run β} {Q : β → Prop}
    (hf : ∀ a, Tracks S E (f' a) (f a) Q) :
    Tracks S E (Run.pureAct x >>= f') (Run.pureAct x >>= f) Q :=
  .bind (pureAct fun _ _ => trivial) fun a (_ : True) => hf a

omit [Exit.Lenient E] in
theorem body {x' x : Run Value} {Q : Value → Prop} (hx : Tracks S E x' x Q) :
    Tracks S E (Run.body x') (Run.body x) fun _ => True := by
  intro m hm
  obtain ⟨hsame, hsteps, hresult, hexit⟩ := hx m hm
  have hrun := Run.run_body x m
  have hrun' := Run.run_body x' m
  rw [hsame] at hrun'
  refine ⟨hrun'.trans hrun.symm, ?_, fun _ _ => trivial, fun e he => ?_⟩
  · rw [hrun]
    rcases hxm : x.run m with ⟨(_ | _ | _ | _) | a, t⟩ <;> rw [hxm] at hsteps <;> exact hsteps
  · rw [hrun] at he
    rcases hxm : x.run m with ⟨(f | v | _ | _) | a, t⟩ <;> rw [hxm] at he hexit
    · exact Except.error.inj he ▸ hexit _ rfl
    · exact Except.error.inj he ▸ hexit _ rfl
    · cases he
    · exact Except.error.inj he ▸ hexit _ rfl
    · cases he

section Loops

variable [S.Lawful] {Q : Value → Prop} (hq : Q .null)

include hq

omit [Exit.Lenient E] in
theorem turn {x' x : Run Bool} (hx : Tracks S E x' x fun _ => True) {y' y : Run Value}
    (hy : Tracks S E y' y Q) :
    Tracks S E (do if ← x' then y' else return .null) (do if ← x then y else return .null) Q := by
  refine .bind hx fun more _ => ?_
  cases more with
  | true => exact hy
  | false => exact .pure hq

theorem repeatWhile {x' x : Run Bool} (hx : Tracks S E x' x fun _ => True) (fuel : Nat) :
    Tracks S E (Run.repeatWhile x' fuel) (Run.repeatWhile x fuel) Q := by
  induction fuel with
  | zero => exact .throw Exit.Lenient.exhausted Q
  | succ fuel ih =>
    rw [Run.repeatWhile_succ, Run.repeatWhile_succ]
    exact turn hq hx ih

omit [Exit.Lenient E] in
theorem forItems {x' x : α → Run Bool} {items : List α}
    (hx : ∀ a ∈ items, Tracks S E (x' a) (x a) fun _ => True) :
    Tracks S E (Run.forItems x' items) (Run.forItems x items) Q := by
  induction items with
  | nil => exact .pure hq
  | cons a rest ih =>
    obtain ⟨ha, hr⟩ := List.forall_mem_cons.mp hx
    rw [Run.forItems_cons, Run.forItems_cons]
    exact turn hq ha (ih hr)

end Loops

end Tracks

end MeteredScript

import MeteredScript.Proofs.Evaluation.Printing
import MeteredScript.Proofs.Scope.Mirror

/-!
# Runs on machines that mirror each other

Two runs are twins if from machines that mirror each other they come to the same ending and to such
machines again, while the first of them leaves everything that was there as it was. What the first
run does before it gives up is of no interest, nor what the second one does then.
-/

namespace MeteredScript

/-- The ending with the containers of its value under other numbers. -/
def Exit.move (σ : Nat → Nat) : Exit → Exit
  | returned v => returned (v.move σ)
  | exit => exit

/-- A value that refers to nothing that is not there, and the one that mirrors it. -/
structure Moved (ρ : Renaming) (m : Machine) (v w : Value) : Prop where
  has : m.store.Has v
  eq : w = v.move ρ.containers

theorem Moved.of_plain {ρ : Renaming} {m : Machine} {v : Value} (h : v.handle? = none) :
    Moved ρ m v v := ⟨Store.has_of_plain h, (Value.move_of_plain h).symm⟩

theorem Moved.null {ρ : Renaming} {m : Machine} : Moved ρ m .null .null := .of_plain rfl

theorem Moved.mono {ρ : Renaming} {n : Nat} {m s : Machine} {v w : Value} (h : Moved ρ m v w)
    (hs : m.Leaves n s) : Moved ρ s v w := ⟨hs.store.has h.has, h.eq⟩

/-- Whole machines that mirror each other, in contexts without limits. At least `n` frames are
there. -/
structure Machine.Pair (ρ : Renaming) (n : Nat) (s t : Machine) : Prop where
  base : n ≤ s.frames.size
  whole : s.Whole
  mirrors : s.Mirrors ρ t
  left : s.context.Unlimited
  right : t.context.Unlimited

variable {α β γ δ : Type} {ρ : Renaming} {n : Nat} {w : Machine}

/-- What twins come to from a machine. The machines after a fault need not mirror each other. -/
inductive Twin (ρ : Renaming) (n : Nat) (m : Machine) (Q : Machine → α → β → Prop) :
    Except Exit α × Machine → Except Exit β × Machine → Prop
  | ok {a : α} {b : β} {s t : Machine} (leaves : m.Leaves n s) (pair : s.Pair ρ n t)
      (related : Q s a b) : Twin ρ n m Q (.ok a, s) (.ok b, t)
  | exit {e : Exit} {s t : Machine} (leaves : m.Leaves n s)
      (pair : (∃ f, e = .fault f) ∨ s.Pair ρ n t) :
      Twin ρ n m Q (.error e, s) (.error (e.move ρ.containers), t)
  | exhausted (s : Machine) (r : Except Exit β × Machine) : Twin ρ n m Q (.error .exhausted, s) r

/-- The two runs are twins wherever a machine has come to that leaves what is there in `w`. -/
def Run.Twins (ρ : Renaming) (n : Nat) (w : Machine) (x : Run α) (y : Run β)
    (Q : Machine → α → β → Prop) : Prop :=
  ∀ s t, s.Pair ρ n t → w.Leaves n s → Twin ρ n s Q (x.run s) (y.run t)

theorem Run.run_checkLiveness {m : Machine} (h : m.context.Unlimited) :
    (Run.act Act.checkLiveness).run m = (.ok (), m.checked) := by
  have hcheck : m.context.check m.usage? = (.ok (), m.checked.context) := by
    obtain ⟨hlimits, hrunning⟩ := h
    simp only [Limits.isUnbounded, Bool.and_eq_true, Option.isNone_iff_eq_none] at hlimits
    obtain ⟨⟨hdeadline, hmemory⟩, hiterations⟩ := hlimits
    simp [Context.check, Context.exceeded, Context.exceeded.overCount, Machine.checked,
      Moment.isOver, hrunning,
      hdeadline, hmemory, hiterations]
  rw [run_act, show Act.checkLiveness.run m = ((m.context.check m.usage?).1,
    { m with context := (m.context.check m.usage?).2 }) from rfl, hcheck]
  rfl

theorem Machine.Owns.declare_run {m : Machine} {f : Nat} (h : m.Owns f) (names : Interner)
    (name : Name) (v : Value) : (Scope.declare names f name v none).run m =
      (.ok (.own m.locals.size), m.bindNew f ⟨v, none⟩ fun i => (·.bind name i)) := by
  have hbind := Scope.bindNew_eq f (fun i => (·.bind name i)) m v none
  rw [Scope.declare_run, h.base]
  obtain ⟨kind, hk, hown⟩ := h
  rw [hk]
  cases kind with
  | named | indexed => exact hbind
  | guarded | hosted => cases hown

theorem Machine.Mirrors.owns {m t : Machine} {f : Nat} (h : m.Mirrors ρ t) (hf : m.Owns f) :
    t.Owns (ρ.frames f) := by
  obtain ⟨kind, hk, hown⟩ := hf
  exact ⟨kind.move ρ, by rw [h.kinds, hk]; rfl, (FrameKind.standsFor_move_eq_none ρ).mpr hown⟩

namespace Run.Twins

variable {x : Run α} {y : Run β} {P : Machine → α → β → Prop} {Q : Machine → γ → δ → Prop}

theorem mono (h : Twins ρ n w x y P) {w' : Machine} (hw : w.Leaves n w') :
    Twins ρ n w' x y P :=
  fun s t hp hs => h s t hp (hw.trans hs)

theorem pure {a : α} {b : β} (h : ∀ s, w.Leaves n s → P s a b) :
    Twins ρ n w (pure a) (pure b) P :=
  fun s _ hp hs => .ok (.refl n s) hp (h s hs)

theorem throw (e : Exit) (P : Machine → α → β → Prop) :
    Twins ρ n w (throw e) (throw (e.move ρ.containers)) P :=
  fun s _ hp _ => .exit (.refl n s) (.inr hp)

theorem giveUp (y : Run β) (P : Machine → α → β → Prop) :
    Twins ρ n w (MonadExcept.throw Exit.exhausted) y P :=
  fun s t _ _ => .exhausted s (y.run t)

theorem bind {f : α → Run γ} {g : β → Run δ} (hx : Twins ρ n w x y P)
    (hf : ∀ s a b, w.Leaves n s → P s a b → Twins ρ n s (f a) (g b) Q) :
    Twins ρ n w (x >>= f) (y >>= g) Q := by
  intro s t hp hs
  have h := hx s t hp hs
  rw [run_bind, run_bind]
  generalize x.run s = r at h ⊢
  generalize y.run t = r' at h ⊢
  cases h with
  | @ok a b s' t' leaves pair related =>
    have h := hf s' a b (hs.trans leaves) related s' t' pair (.refl n s')
    dsimp only
    generalize (f a).run s' = r at h ⊢
    generalize (g b).run t' = r' at h ⊢
    cases h with
    | ok leaves' pair' related' => exact .ok (leaves.trans leaves') pair' related'
    | exit leaves' pair' => exact .exit (leaves.trans leaves') pair'
    | exhausted s => exact .exhausted s _
  | exit leaves pair => exact .exit leaves pair
  | exhausted s => exact .exhausted s _

/-- Both machines are looked at. -/
theorem get : Twins ρ n w get get fun s m m' => m = s ∧ m.Pair ρ n m' :=
  fun s _ hp _ => .ok (.refl n s) hp ⟨rfl, hp⟩

theorem pureAct {u : Except Fault α} {u' : Except Fault β} {g : α → β} (hu : u' = u.map g)
    (h : ∀ s a, w.Leaves n s → u = .ok a → P s a (g a)) :
    Twins ρ n w (Run.pureAct u) (Run.pureAct u') P := by
  subst hu
  cases u with
  | ok a => exact .pure fun s hs => h s a hs rfl
  | error f => exact .throw (.fault f) P

theorem branch {x y : Run Bool} {u v : Run γ} {u' v' : Run δ}
    (h : Twins ρ n w x y fun _ b b' => b' = b)
    (hu : ∀ s, w.Leaves n s → Twins ρ n s u u' Q) (hv : ∀ s, w.Leaves n s → Twins ρ n s v v' Q) :
    Twins ρ n w (do if ← x then u else v) (do if ← y then u' else v') Q := by
  refine h.bind fun s _ b hs he => ?_
  subst he
  cases b with
  | true => exact hu s hs
  | false => exact hv s hs

/-! ## Loops -/

theorem body {x y : Run Value} {P : Machine → Value → Value → Prop} (h : Twins ρ n w x y P) :
    Twins ρ n w (Run.body x) (Run.body y) fun _ b b' => b' = b := by
  intro s t hp hs
  have h := h s t hp hs
  rw [run_body, run_body]
  generalize x.run s = r at h ⊢
  generalize y.run t = r' at h ⊢
  cases h with
  | ok leaves pair related => exact .ok leaves pair rfl
  | exhausted s => exact .exhausted s _
  | @exit e _ _ leaves pair =>
    cases e with
    | broke => exact .ok leaves (pair.resolve_left (by simp)) rfl
    | fault | returned | exhausted => exact .exit leaves pair

variable {z z' : Run Value}

theorem turn {x y : Run Bool} (hx : Twins ρ n w x y fun _ b b' => b' = b)
    (hz : Twins ρ n w z z' (Moved ρ)) :
    Twins ρ n w (do if ← x then z else return .null) (do if ← y then z' else return .null)
      (Moved ρ) :=
  hx.branch (fun _ hs => hz.mono hs) fun _ _ => .pure fun _ _ => .null

theorem repeatWhile {x y : Run Bool} (h : Twins ρ n w x y fun _ b b' => b' = b) (fuel : Nat) :
    Twins ρ n w (Run.repeatWhile x fuel) (Run.repeatWhile y fuel) (Moved ρ) := by
  induction fuel with
  | zero => exact .giveUp _ _
  | succ fuel ih =>
    rw [repeatWhile_succ, repeatWhile_succ]
    exact turn h ih

theorem forItems {x : α → Run Bool} {y : β → Run Bool} {g : α → β} {items : List α}
    (h : ∀ a ∈ items, Twins ρ n w (x a) (y (g a)) fun _ b b' => b' = b) :
    Twins ρ n w (Run.forItems x items) (Run.forItems y (items.map g)) (Moved ρ) := by
  induction items with
  | nil => exact .pure fun _ _ => .null
  | cons a rest ih =>
    obtain ⟨ha, hrest⟩ := List.forall_mem_cons.mp h
    rw [List.map_cons, forItems_cons, forItems_cons]
    exact turn ha (ih hrest)

/-! ## Names -/

theorem resolve {f : Nat} (hf : f < w.frames.size) (names : Interner) (name : Name) :
    Twins ρ n w (Run.act (Scope.resolve names f name))
      (Run.act (Scope.resolve names (ρ.frames f) name)) fun _ c c' => c' = c.move ρ := by
  intro s t hp hs
  have hresolve := hp.mirrors.resolve? hp.whole.stacked (Nat.lt_of_lt_of_le hf hs.size) names name
  rw [run_act, run_act, Scope.resolve_run, Scope.resolve_run, hresolve]
  cases s.resolve? names f name with
  | some cell => exact .ok (.refl n s) hp rfl
  | none => exact .exit (.refl n s) (.inr hp)

theorem enter {f : Nat} (hf : f < w.frames.size) :
    Twins ρ n w (Run.act (Scope.enter f)) (Run.act (Scope.enter (ρ.frames f)))
      fun s g g' => g' = ρ.frames g ∧ n ≤ g ∧ s.Owns g := by
  intro s t hp hs
  have hleaves : s.Leaves n _ := .pushFrame hp.base (.named [] (some f))
  have hwhole := hp.whole.enter (Nat.lt_of_lt_of_le hf hs.size)
  have howns : Machine.Owns _ s.frames.size :=
    ⟨_, (Machine.kind?_pushFrame (.named [] (some f)) s _).trans (if_pos rfl), rfl⟩
  exact .ok hleaves
    ⟨Nat.le_trans hp.base hleaves.size, hwhole, hp.mirrors.enter f, hp.left, hp.right⟩
    ⟨hp.mirrors.frames.eq_next.symm, hp.base, howns⟩

theorem checkLiveness : Twins ρ n w (Run.act Act.checkLiveness) (Run.act Act.checkLiveness)
    fun _ _ _ => True := by
  intro s t hp hs
  rw [run_checkLiveness hp.left, run_checkLiveness hp.right]
  refine .ok (.checked n s) ⟨hp.base, hp.whole.checked, hp.mirrors.checked, ?_, ?_⟩ trivial
  · exact ⟨hp.left.limits, hp.left.running⟩
  · exact ⟨hp.right.limits, hp.right.running⟩

theorem declare {f : Nat} (hf : w.Owns f) (hn : n ≤ f) (names : Interner) (name : Name)
    {v v' : Value} (hv : Moved ρ w v v') :
    Twins ρ n w (Run.act (Scope.declare names f name v none))
      (Run.act (Scope.declare names (ρ.frames f) name v' none)) fun _ _ _ => True := by
  intro s t hp hs
  obtain ⟨hv, rfl⟩ := hv
  have hown : s.Owns f := hs.owns f hf
  have hown' : t.Owns (ρ.frames f) := hp.mirrors.owns hown
  rw [run_act, run_act, hown.declare_run, hown'.declare_run]
  refine .ok (.bindNew hn _ name) ⟨?_, ?_, hp.mirrors.bindNew f ⟨v, none⟩ name, hp.left, hp.right⟩
    trivial
  · exact Nat.le_trans hp.base (Machine.Leaves.bindNew hn ⟨v, none⟩ name).size
  · exact hp.whole.bindNew (hs.store.has hv) name

/-! ## New containers -/

theorem onStore {x : StoreM α} {y : StoreM β} {Q : Store → α → β → Prop}
    (h : ∀ s t, s.Whole → Store.Mirrors ρ.containers s t → w.store.Keeps s →
      Store.Twin ρ.containers s Q (x.run s) (y.run t)) :
    Twins ρ n w (Run.act (Act.onStore x)) (Run.act (Act.onStore y)) fun s => Q s.store := by
  intro s t hp hs
  have h := h s.store t.store hp.whole.store hp.mirrors.store hs.store
  rw [run_act, run_act, run_onStore, run_onStore]
  generalize x.run s.store = r at h ⊢
  generalize y.run t.store = r' at h ⊢
  cases h with
  | error f keeps => exact .exit (.keeps keeps n) (.inl ⟨f, rfl⟩)
  | ok keeps whole mirrors related =>
    exact .ok (.keeps keeps n) ⟨hp.base, hp.whole.keeps keeps whole, hp.mirrors.onStore mirrors,
      hp.left, hp.right⟩ related

end Run.Twins

end MeteredScript

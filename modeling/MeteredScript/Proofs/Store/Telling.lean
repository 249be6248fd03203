import MeteredScript.Proofs.Faults
import MeteredScript.Proofs.Store.Replay

/-!
# Operations that tell what they change

A store moves by changes that are told in full to an account, and by new containers and views. Only
where it is said so, a list may also be put into another order, which is not told. An operation is
honest if it moves the store in such a way, or fails and leaves the store as it is.
-/

namespace MeteredScript

namespace Store

/-- A handle leads to a container of the kind. -/
def Fits (s : Store) (kind : ValueType) (h : Handle) : Prop :=
  s.containers[h.target]?.map (·.contents.type) = some kind

instance (s : Store) (kind : ValueType) (h : Handle) : Decidable (s.Fits kind h) :=
  inferInstanceAs (Decidable (_ = _))

/-- One move of a store; the containers that are loose may be reordered. -/
inductive Move (loose : Nat → Prop) (s : Store) : Store → Prop
  | tell {target : Nat} {c : Container} {new : Contents} {changes : List (Change × Slot × Value)}
      (found : s.containers[target]? = some c) (tells : c.contents.Tells changes new) :
      Move loose s (s.commit target new changes)
  | reorder {target : Nat} {c : Container} {values sorted : List Value} (may : loose target)
      (found : s.containers[target]? = some c) (list : c.contents = .items values)
      (perm : values.Perm sorted) : Move loose s (s.commit target (.items sorted) [])
  | allocate (account : Nat) {contents : Contents} (empty : contents = contents.blank) :
      Move loose s (s.allocate account contents).2
  | readOnly (h : Handle) : Move loose s (s.readOnly h).2

abbrev Moves (loose : Nat → Prop) : Store → Store → Prop := Relation.ReflTransGen (Move loose)

variable {loose : Nat → Prop} {s t : Store}

theorem commit_contents (s : Store) (target : Nat) (new : Contents)
    (changes : List (Change × Slot × Value)) (n : Nat) :
    (s.commit target new changes).containers[n]?.map (·.contents) =
      if target = n then s.containers[n]?.map (fun _ => new)
      else s.containers[n]?.map (·.contents) := by
  rw [commit, (sameContents_posts _ target changes).contents n, Array.getElem?_modify]
  split <;> simp [Function.comp_def]

theorem Move.kind (h : Move loose s t) {n : Nat} {kind : ValueType}
    (hn : s.containers[n]?.map (·.contents.type) = some kind) :
    t.containers[n]?.map (·.contents.type) = some kind := by
  have kept {target : Nat} {c : Container} {new : Contents}
      {changes : List (Change × Slot × Value)} (found : s.containers[target]? = some c)
      (same : new.type = c.contents.type) :
      (s.commit target new changes).containers[n]?.map (·.contents.type) = some kind := by
    have hcontents := congrArg (·.map Contents.type) (commit_contents s target new changes n)
    simp only [Option.map_map, Function.comp_def] at hcontents
    rw [hcontents]
    by_cases ht : target = n
    · simp_all
    · simpa [ht, Function.comp_def] using hn
  cases h with
  | tell found tells => exact kept found tells.kind
  | reorder _ found list _ => exact kept found (by rw [list]; rfl)
  | allocate account empty =>
    obtain ⟨c, hc, hk⟩ := Option.map_eq_some_iff.mp hn
    have hlt := (Array.getElem?_eq_some_iff.mp hc).1
    simp [Store.allocate, Array.getElem?_push, Nat.ne_of_lt hlt, hc, hk]
  | readOnly h => rwa [readOnly_containers]

/-- What each move keeps is kept. -/
theorem Moves.keep {P : Store → Prop} (h : Moves loose s t)
    (hmove : ∀ {s t}, Move loose s t → P s → P t) (hs : P s) : P t := by
  induction h with
  | refl => exact hs
  | tail _ h ih => exact hmove h ih

theorem Moves.fits (h : Moves loose s t) {kind : ValueType} {handle : Handle}
    (hf : s.Fits kind handle) : t.Fits kind handle :=
  h.keep (P := fun u => u.Fits kind handle) (fun hmove hu => hmove.kind hu) hf

/-- A move is a step like any other. -/
theorem Move.step (h : Move loose s t) : Step .everything s t := by
  have hall : ∀ v, Realm.everything.admits v := fun v => by cases v <;> trivial
  cases h with
  | @tell target c new changes _ _ =>
    exact .commit ⟨target, .owner⟩ new changes trivial rfl fun v _ => hall v
  | @reorder target c values sorted _ _ _ _ =>
    exact .commit ⟨target, .owner⟩ (.items sorted) [] trivial rfl fun v _ => hall v
  | allocate account empty =>
    exact .allocate account _ (by rw [empty]; cases ‹Contents› <;> rfl)
  | readOnly h => exact .readOnly h trivial

/-! ## What handles read -/

theorem Fits.items {l : Handle} (h : s.Fits .list l) :
    ∃ c, s.containers[l.target]? = some c ∧ c.contents = .items (s.items l) := by
  obtain ⟨⟨id, account, memory, contents⟩, hc, hk⟩ := Option.map_eq_some_iff.mp h
  cases contents with
  | items values => exact ⟨_, hc, by simp [Store.items, hc]⟩
  | entries | elements => cases hk

theorem Fits.entries {m : Handle} (h : s.Fits .map m) :
    ∃ c, s.containers[m.target]? = some c ∧ c.contents = .entries (s.entries m) := by
  obtain ⟨⟨id, account, memory, contents⟩, hc, hk⟩ := Option.map_eq_some_iff.mp h
  cases contents with
  | entries pairs => exact ⟨_, hc, by simp [Store.entries, hc]⟩
  | items | elements => cases hk

theorem Fits.elements {h : Handle} (hf : s.Fits .set h) :
    ∃ c, s.containers[h.target]? = some c ∧ c.contents = .elements (s.elements h) := by
  obtain ⟨⟨id, account, memory, contents⟩, hc, hk⟩ := Option.map_eq_some_iff.mp hf
  cases contents with
  | elements keys => exact ⟨_, hc, by simp [Store.elements, hc]⟩
  | items | entries => cases hk

end Store

namespace StoreM

/-- An operation that has a result and moves the store, if what it relies on holds. -/
structure Sure {α : Type} (fits : Prop) (loose : Nat → Prop) (s : Store) (x : StoreM α) : Prop where
  moves : fits → Store.Moves loose s (x.run s).2
  result : ∃ a, (x.run s).1 = .ok a

/-- An operation that moves the store, if what it relies on holds, and if it fails does nothing. -/
structure Honest {α : Type} (fits : Prop) (loose : Nat → Prop) (s : Store) (x : StoreM α) :
    Prop where
  moves : fits → Store.Moves loose s (x.run s).2
  clean : ∀ f, (x.run s).1 = .error f → (x.run s).2 = s ∧ f.isLiveness = false

/-- An operation that moves the store, if what it relies on holds, and may stop half way. -/
structure Told {α : Type} (fits : Prop) (loose : Nat → Prop) (s : Store) (x : StoreM α) : Prop where
  moves : fits → Store.Moves loose s (x.run s).2
  ordinary : Ordinary (x.run s).1

variable {α β : Type} {fits : Prop} {loose : Nat → Prop} {s : Store}

/-- Operations in a row move the store one after the other, as far as they get. -/
theorem moves_bind {x : StoreM α} {f : α → StoreM β} (hx : fits → Store.Moves loose s (x.run s).2)
    (hf : ∀ a t, (fits → Store.Moves loose s t) → fits → Store.Moves loose t ((f a).run t).2)
    (h : fits) : Store.Moves loose s ((x >>= f).run s).2 := by
  rw [run_bind]
  rcases hr : x.run s with ⟨_ | a, t⟩ <;> rw [hr] at hx
  · exact hx h
  · exact (hx h).trans (hf a t hx h)

namespace Sure

theorem pure (a : α) : Sure fits loose s (pure a) := ⟨fun _ => .refl, a, rfl⟩

theorem bind {x : StoreM α} {f : α → StoreM β} (hx : Sure fits loose s x)
    (hf : ∀ a t, (fits → Store.Moves loose s t) → Sure fits loose t (f a)) :
    Sure fits loose s (x >>= f) := by
  refine ⟨moves_bind hx.moves fun a t ht => (hf a t ht).moves, ?_⟩
  obtain ⟨hmoves, a, ha⟩ := hx
  rw [run_bind]
  rcases hr : x.run s with ⟨_ | b, t⟩
  · simp [hr] at ha
  · rw [hr] at hmoves
    exact (hf b t hmoves).result

/-- Reading does not move the store. -/
theorem read {x : StoreM α} {f : α → StoreM β} {a : α} (hx : x.run s = (.ok a, s))
    (hf : Sure fits loose s (f a)) : Sure fits loose s (x >>= f) := by
  constructor
  · rw [run_bind, hx]
    exact hf.moves
  · rw [run_bind, hx]
    exact hf.result

theorem check {x : Except Fault α} {f : α → StoreM β} {a : α} (hx : x = .ok a)
    (hf : Sure fits loose s (f a)) : Sure fits loose s (liftM x >>= f) := by
  cases hx
  exact ⟨hf.moves, hf.result⟩

theorem weaken {other : Prop} {x : StoreM α} (h : fits → other) (hx : Sure other loose s x) :
    Sure fits loose s x := ⟨fun hf => hx.moves (h hf), hx.result⟩

theorem commit {h : Handle} {new : Contents} {changes : List (Change × Slot × Value)}
    (ht : fits → ∃ c, s.containers[h.target]? = some c ∧ c.contents.Tells changes new) :
    Sure fits loose s (StoreM.commit h new changes) := by
  constructor
  · intro hf
    obtain ⟨c, hc, htells⟩ := ht hf
    exact .single (.tell hc htells)
  · exact ⟨(), rfl⟩

/-- A new container is where its handle leads to. -/
theorem allocate (account : Nat) {contents : Contents} (empty : contents = contents.blank)
    {f : Handle → StoreM β}
    (hf : ∀ h t, t.containers[h.target]?.map (·.contents) = some contents →
      Sure fits loose t (f h)) :
    Sure fits loose s (StoreM.allocate account contents >>= f) := by
  have hrest := hf (s.allocate account contents).1 (s.allocate account contents).2
    (by simp [Store.allocate])
  exact ⟨fun h => .head (.allocate account empty) (hrest.moves h), hrest.result⟩

theorem readOnly (h : Handle) : Sure fits loose s (StoreM.readOnly h) :=
  ⟨fun _ => .single (.readOnly h), _, rfl⟩

end Sure

namespace Honest

theorem of_sure {x : StoreM α} (h : Sure fits loose s x) : Honest fits loose s x := by
  obtain ⟨hmoves, a, ha⟩ := h
  constructor
  · exact hmoves
  · intro f hf
    simp [ha] at hf

theorem throw {f : Fault} (h : f.isLiveness = false) :
    Honest fits loose s (throw f : StoreM α) := by
  constructor
  · exact fun _ => .refl
  · intro g hg
    obtain rfl : f = g := Except.error.inj hg
    exact ⟨rfl, h⟩

theorem read {x : StoreM α} {f : α → StoreM β} {a : α} (hx : x.run s = (.ok a, s))
    (hf : Honest fits loose s (f a)) : Honest fits loose s (x >>= f) := by
  constructor
  · rw [run_bind, hx]
    exact hf.moves
  · rw [run_bind, hx]
    exact hf.clean

theorem check {x : Except Fault α} {f : α → StoreM β} (hx : Ordinary x)
    (hf : ∀ a, x = .ok a → Honest fits loose s (f a)) :
    Honest fits loose s (liftM x >>= f) := by
  cases x with
  | error g => exact throw (hx g rfl)
  | ok a => exact hf a rfl

/-- What follows an honest operation must not fail any more. -/
theorem bind {x : StoreM α} {f : α → StoreM β} (hx : Honest fits loose s x)
    (hf : ∀ a t, (fits → Store.Moves loose s t) → Sure fits loose t (f a)) :
    Honest fits loose s (x >>= f) := by
  refine ⟨moves_bind hx.moves fun a t ht => (hf a t ht).moves, ?_⟩
  obtain ⟨hmoves, hclean⟩ := hx
  rw [run_bind]
  rcases hr : x.run s with ⟨g | a, t⟩ <;> rw [hr] at hmoves hclean
  · intro g' hg
    obtain rfl : g = g' := Except.error.inj hg
    exact hclean g rfl
  · intro g hg
    obtain ⟨b, hb⟩ := (hf a t hmoves).result
    simp [hb] at hg

theorem map {x : StoreM α} (g : α → β) (hx : Honest fits loose s x) :
    Honest fits loose s (do return g (← x)) :=
  hx.bind fun a _ _ => .pure (g a)

end Honest

namespace Told

theorem of_sure {x : StoreM α} (h : Sure fits loose s x) : Told fits loose s x := by
  obtain ⟨hmoves, a, ha⟩ := h
  exact ⟨hmoves, by simp [ha]⟩

theorem bind {x : StoreM α} {f : α → StoreM β} (hx : Told fits loose s x)
    (hf : ∀ a t, (fits → Store.Moves loose s t) → Told fits loose t (f a)) :
    Told fits loose s (x >>= f) := by
  refine ⟨moves_bind hx.moves fun a t ht => (hf a t ht).moves, ?_⟩
  obtain ⟨hmoves, hordinary⟩ := hx
  rw [run_bind]
  rcases hr : x.run s with ⟨g | a, t⟩ <;> rw [hr] at hmoves hordinary
  · simpa using hordinary
  · exact (hf a t hmoves).ordinary

theorem check {x : Except Fault α} {f : α → StoreM β} (hx : Ordinary x)
    (hf : ∀ a, x = .ok a → Told fits loose s (f a)) : Told fits loose s (liftM x >>= f) := by
  cases x with
  | error g =>
    constructor
    case moves => exact fun _ => .refl
    case ordinary =>
      intro e he
      obtain rfl := Except.error.inj he
      exact hx g rfl
  | ok a =>
    have h := hf a rfl
    exact ⟨h.moves, h.ordinary⟩

theorem allocate (account : Nat) {contents : Contents} (empty : contents = contents.blank)
    {f : Handle → StoreM β}
    (hf : ∀ h t, t.containers[h.target]?.map (·.contents) = some contents →
      Told fits loose t (f h)) :
    Told fits loose s (StoreM.allocate account contents >>= f) := by
  have hrest := hf (s.allocate account contents).1 (s.allocate account contents).2
    (by simp [Store.allocate])
  exact ⟨fun h => .head (.allocate account empty) (hrest.moves h), hrest.ordinary⟩

theorem forM {items : List α} {f : α → StoreM PUnit}
    (h : ∀ a ∈ items, ∀ t, (fits → Store.Moves loose s t) → Told fits loose t (f a)) :
    Told fits loose s (items.forM f) := by
  induction items generalizing s with
  | nil => exact .of_sure (.pure _)
  | cons a rest ih =>
    apply Told.bind (h a List.mem_cons_self s fun _ => .refl)
    intro _ t ht
    apply ih
    intro b hb u hu
    exact h b (List.mem_cons_of_mem a hb) u fun hf => (ht hf).trans (hu hf)

end Told

end StoreM

end MeteredScript

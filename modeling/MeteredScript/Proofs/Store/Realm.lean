import Mathlib.Logic.Relation
import MeteredScript.Proofs.Evaluation.Running

/-!
# Steps of a store

Whatever is done to containers is done in three kinds of steps: a container is changed through an
owner of it, a container is added, or a view of one is made. A realm says which handles and which
native types may be held while that happens. A store that holds nothing else stays so, step by step.
-/

namespace MeteredScript

/-- The handles and the native types that may be held. With a handle, a view of it may be held. -/
structure Realm where
  handle : Handle → Prop
  native : NativeType → Prop
  view : ∀ (h : Handle) (id : Nat), handle h → handle ⟨h.target, .readOnly id⟩

namespace Realm

def everything : Realm := ⟨fun _ => True, fun _ => True, fun _ _ _ => trivial⟩

def admits (R : Realm) : Value → Prop
  | .list h | .map h | .set h => R.handle h
  | .native t => R.native t
  | .null | .bool _ | .int _ | .float _ | .str _ => True

variable {R : Realm}

theorem admits_of_isScalar {v : Value} (h : v.isScalar = true) : R.admits v := by
  cases v with
  | list | map | set | native => cases h
  | null | bool | int | float | str => trivial

theorem admits_key (k : Key) : R.admits k.toValue := by cases k <;> trivial

theorem everything_admits (v : Value) : everything.admits v := by cases v <;> trivial

end Realm

/-- The values that contents hold. -/
def Contents.values : Contents → List Value
  | items values => values
  | entries pairs => pairs.map (·.2)
  | elements keys => keys.map Key.toValue

namespace Store

/-- All values in containers may be held, and so may containers that are not there yet. -/
structure Held (R : Realm) (s : Store) : Prop where
  fresh : ∀ n, s.containers.size ≤ n → R.handle ⟨n, .owner⟩
  contents : ∀ (n : Nat) (c : Container), s.containers[n]? = some c →
    ∀ v ∈ c.contents.values, R.admits v

theorem everything_held (s : Store) : s.Held .everything :=
  ⟨fun _ _ => trivial, fun _ _ _ v _ => Realm.everything_admits v⟩

inductive Step (R : Realm) (s : Store) : Store → Prop
  | commit (h : Handle) (contents : Contents) (changes : List (Change × Slot × Value))
      (held : R.handle h) (owner : h.view = .owner) (admitted : ∀ v ∈ contents.values, R.admits v) :
      Step R s (s.commit h.target contents changes)
  | allocate (account : Nat) (contents : Contents) (empty : contents.values = []) :
      Step R s (s.allocate account contents).2
  | readOnly (h : Handle) (held : R.handle h) : Step R s (s.readOnly h).2

abbrev Steps (R : Realm) : Store → Store → Prop := Relation.ReflTransGen (Step R)

/-! ## What is the same after a step -/

/-- What each report keeps is kept by several ones. -/
theorem posts_keep {P : Store → Prop} {target : Nat}
    (hpost : ∀ s change slot value, P s → P (s.post target change slot value)) (hs : P s)
    (changes : List (Change × Slot × Value)) :
    P (changes.foldl (fun s (change, slot, value) => s.post target change slot value) s) := by
  induction changes generalizing s with
  | nil => exact hs
  | cons head rest ih => exact ih (hpost s head.1 head.2.1 head.2.2 hs)

theorem posts_eq {α : Type} {f : Store → α} {target : Nat}
    (hpost : ∀ s change slot value, f (s.post target change slot value) = f s)
    (s : Store) (changes : List (Change × Slot × Value)) :
    f (changes.foldl (fun s (change, slot, value) => s.post target change slot value) s) = f s :=
  posts_keep (fun t change slot value ht => (hpost t change slot value).trans ht) rfl changes

/-- Two stores that differ in accounts and memories alone. -/
structure SameContents (s t : Store) : Prop where
  size : t.containers.size = s.containers.size
  contents : ∀ n : Nat, t.containers[n]?.map (·.contents) = s.containers[n]?.map (·.contents)

theorem sameContents_post (s : Store) (target : Nat) (change : Change) (slot : Slot)
    (value : Value) : SameContents s (s.post target change slot value) := by
  unfold post
  split
  · exact ⟨rfl, fun _ => rfl⟩
  · split
    · exact ⟨rfl, fun _ => rfl⟩
    · refine ⟨Array.size_modify, fun n => ?_⟩
      rw [Array.getElem?_modify]
      split
      · rw [Option.map_map]; rfl
      · rfl

theorem SameContents.trans {s t u : Store} (h : SameContents s t) (k : SameContents t u) :
    SameContents s u :=
  ⟨k.size.trans h.size, fun n => (k.contents n).trans (h.contents n)⟩

theorem sameContents_posts (s : Store) (target : Nat) (changes : List (Change × Slot × Value)) :
    SameContents s
      (changes.foldl (fun s (change, slot, value) => s.post target change slot value) s) :=
  posts_keep (fun t change slot value ht => ht.trans (sameContents_post t target change slot value))
    ⟨rfl, fun _ => rfl⟩ changes

theorem size_commit (s : Store) (target : Nat) (contents : Contents)
    (changes : List (Change × Slot × Value)) :
    (s.commit target contents changes).containers.size = s.containers.size :=
  (sameContents_posts _ target changes).size.trans Array.size_modify

theorem getElem?_post_of_ne {target n : Nat} (h : target ≠ n) (s : Store) (change : Change)
    (slot : Slot) (value : Value) :
    (s.post target change slot value).containers[n]? = s.containers[n]? := by
  unfold post
  split
  · rfl
  · split
    · rfl
    · exact (Array.getElem?_modify ..).trans (if_neg h)

/-- Other containers are what they were, their memory included. -/
theorem getElem?_commit_of_ne {target n : Nat} (h : target ≠ n) (s : Store) (contents : Contents)
    (changes : List (Change × Slot × Value)) :
    (s.commit target contents changes).containers[n]? = s.containers[n]? := by
  have hposts := posts_eq (f := fun t : Store => t.containers[n]?)
    (fun t change slot value => getElem?_post_of_ne h t change slot value)
  rw [commit, hposts]
  exact (Array.getElem?_modify ..).trans (if_neg h)

theorem SameContents.held {R : Realm} {s t : Store} (h : SameContents s t) (hs : s.Held R) :
    t.Held R := by
  constructor
  case fresh =>
    intro n hn
    rw [h.size] at hn
    exact hs.fresh n hn
  intro n c hc v hv
  have := h.contents n
  rw [hc, Option.map_some] at this
  obtain ⟨d, hd, he⟩ := Option.map_eq_some_iff.mp this.symm
  exact hs.contents n d hd v (he ▸ hv)

/-! ## Steps keep what is held -/

theorem Held.commit {R : Realm} {s : Store} (hs : s.Held R) (target : Nat) {contents : Contents}
    (hc : ∀ v ∈ contents.values, R.admits v) (changes : List (Change × Slot × Value)) :
    (s.commit target contents changes).Held R := by
  apply (sameContents_posts _ target changes).held
  constructor
  case fresh =>
    intro n hn
    exact hs.fresh n (by simpa using hn)
  case contents =>
    intro n c hn v hv
    rw [Array.getElem?_modify] at hn
    split at hn
    · obtain ⟨d, _, rfl⟩ := Option.map_eq_some_iff.mp hn
      exact hc v hv
    · exact hs.contents n c hn v hv

theorem Held.allocate {R : Realm} {s : Store} (hs : s.Held R) (account : Nat)
    {contents : Contents} (hc : contents.values = []) :
    (s.allocate account contents).2.Held R := by
  constructor
  case fresh =>
    intro n hn
    simp only [Store.allocate, Array.size_push] at hn
    exact hs.fresh n (by omega)
  case contents =>
    intro n c hn v hv
    simp only [Store.allocate, Array.getElem?_push] at hn
    split at hn
    · rw [← Option.some.inj hn, hc] at hv
      exact absurd hv List.not_mem_nil
    · exact hs.contents n c hn v hv

theorem readOnly_containers (s : Store) (h : Handle) :
    (s.readOnly h).2.containers = s.containers := by
  unfold readOnly
  split <;> rfl

theorem Held.readOnly {R : Realm} {s : Store} (hs : s.Held R) (h : Handle) :
    (s.readOnly h).2.Held R := by
  constructor
  case fresh =>
    intro n hn
    rw [readOnly_containers] at hn
    exact hs.fresh n hn
  case contents =>
    intro n c hn
    rw [readOnly_containers] at hn
    exact hs.contents n c hn

theorem Step.held {R : Realm} {s t : Store} (h : Step R s t) (hs : s.Held R) : t.Held R := by
  cases h with
  | commit h contents changes _ _ hc => exact hs.commit h.target hc changes
  | allocate account contents hc => exact hs.allocate account hc
  | readOnly h _ => exact hs.readOnly h

theorem Steps.held {R : Realm} {s t : Store} (h : Steps R s t) (hs : s.Held R) : t.Held R := by
  induction h with
  | refl => exact hs
  | tail _ hstep ih => exact hstep.held ih

theorem readOnly_handle {R : Realm} (s : Store) {h : Handle} (hh : R.handle h) :
    R.handle (s.readOnly h).1 := by
  unfold readOnly
  split
  · exact R.view h _ hh
  · exact hh

theorem Held.items {R : Realm} {s : Store} (hs : s.Held R) (h : Handle) :
    ∀ v ∈ s.items h, R.admits v := by
  unfold Store.items
  split
  · next heq => exact hs.contents _ _ heq
  · exact fun _ hv => absurd hv List.not_mem_nil

theorem Held.entries {R : Realm} {s : Store} (hs : s.Held R) (h : Handle) :
    ∀ p ∈ s.entries h, R.admits p.2 := by
  unfold Store.entries
  split
  · next heq => exact fun p hp => hs.contents _ _ heq p.2 (List.mem_map_of_mem hp)
  · exact fun _ hp => absurd hp List.not_mem_nil

end Store

/-! ## Operations that take steps -/

/-- From a store that holds what it may, an operation takes steps, and so it does if it fails; what
it answers has the property. -/
def StoreM.Safe {α : Type} (R : Realm) (x : StoreM α) (Q : α → Prop) : Prop :=
  ∀ s : Store, s.Held R → Store.Steps R s (x.run s).2 ∧ ∀ a, (x.run s).1 = .ok a → Q a

namespace StoreM.Safe

variable {α β : Type} {R : Realm}

theorem pure {a : α} {Q : α → Prop} (h : Q a) : StoreM.Safe R (pure a) Q := by
  intro s _
  refine ⟨.refl, ?_⟩
  intro b hb
  rwa [← Except.ok.inj hb]

theorem throw (f : Fault) (Q : α → Prop) : StoreM.Safe R (throw f : StoreM α) Q := by
  intro s _
  refine ⟨.refl, ?_⟩
  intro b hb
  cases hb

theorem bind {x : StoreM α} {f : α → StoreM β} {P : α → Prop} {Q : β → Prop}
    (hx : StoreM.Safe R x P) (hf : ∀ a, P a → StoreM.Safe R (f a) Q) :
    StoreM.Safe R (x >>= f) Q := by
  intro s hs
  obtain ⟨hsteps, hpost⟩ := hx s hs
  rw [run_bind]
  rcases hxs : x.run s with ⟨e | a, t⟩
  · rw [hxs] at hsteps
    exact ⟨hsteps, by simp⟩
  · rw [hxs] at hsteps hpost
    obtain ⟨hrest, hq⟩ := hf a (hpost a rfl) t (hsteps.held hs)
    exact ⟨hsteps.trans hrest, hq⟩

theorem weaken {x : StoreM α} {P Q : α → Prop} (hx : StoreM.Safe R x P) (h : ∀ a, P a → Q a) :
    StoreM.Safe R x Q :=
  fun s hs => ⟨(hx s hs).1, fun a ha => h a ((hx s hs).2 a ha)⟩

theorem lift {x : Except Fault α} {Q : α → Prop} (h : ∀ a, x = .ok a → Q a) :
    StoreM.Safe R (liftM x : StoreM α) Q :=
  fun _ _ => ⟨.refl, h⟩

/-- A pure result may be anything when all of them may be followed. -/
theorem check {x : Except Fault α} {f : α → StoreM β} {Q : β → Prop}
    (hf : ∀ a, StoreM.Safe R (f a) Q) : StoreM.Safe R (liftM x >>= f) Q :=
  .bind (lift fun _ _ => trivial) fun a (_ : True) => hf a

theorem current : StoreM.Safe R StoreM.current (·.Held R) :=
  fun _ hs => ⟨.refl, fun _ ht => Except.ok.inj ht ▸ hs⟩

theorem items (h : Handle) : StoreM.Safe R (StoreM.items h) (∀ v ∈ ·, R.admits v) :=
  fun _ hs => ⟨.refl, fun _ ht => Except.ok.inj ht ▸ hs.items h⟩

theorem entries (h : Handle) : StoreM.Safe R (StoreM.entries h) (∀ p ∈ ·, R.admits p.2) :=
  fun _ hs => ⟨.refl, fun _ ht => Except.ok.inj ht ▸ hs.entries h⟩

theorem elements (h : Handle) : StoreM.Safe R (StoreM.elements h) fun _ => True :=
  fun _ _ => ⟨.refl, fun _ _ => trivial⟩

theorem accountOf (h : Handle) : StoreM.Safe R (StoreM.accountOf h) fun _ => True :=
  fun _ _ => ⟨.refl, fun _ _ => trivial⟩

theorem commit {h : Handle} (hh : R.handle h) (ho : h.view = .owner) {contents : Contents}
    {changes : List (Change × Slot × Value)} (hc : ∀ v ∈ contents.values, R.admits v) :
    StoreM.Safe R (StoreM.commit h contents changes) fun _ => True :=
  fun _ _ => ⟨.single (.commit h contents changes hh ho hc), fun _ _ => trivial⟩

theorem allocate (account : Nat) {contents : Contents} (hc : contents.values = []) :
    StoreM.Safe R (StoreM.allocate account contents) fun h => R.handle h ∧ h.view = .owner :=
  fun s hs => ⟨.single (.allocate account contents hc),
    fun _ ht => Except.ok.inj ht ▸ ⟨hs.fresh s.containers.size (Nat.le_refl _), rfl⟩⟩

theorem readOnly {h : Handle} (hh : R.handle h) : StoreM.Safe R (StoreM.readOnly h) R.handle :=
  fun s _ => ⟨.single (.readOnly h hh), fun _ ht => Except.ok.inj ht ▸ s.readOnly_handle hh⟩

theorem checkOwner (h : Handle) (operation : String) :
    StoreM.Safe R (liftM (h.checkOwner operation) : StoreM Unit) fun _ => h.view = .owner := by
  refine lift fun _ hu => ?_
  unfold Handle.checkOwner Handle.isReadOnly at hu
  split at hu
  · cases hu
  · next hv => simpa using hv

end StoreM.Safe

end MeteredScript

import MeteredScript.Proofs.Scope.Hosts
import MeteredScript.Proofs.Store.Realm

/-!
# Steps of a machine

An evaluation works in some frames, holds what a realm allows, and leaves to native functions what
they do. In such a setting everything it does to a machine is done in a few kinds of steps, and two
evaluations track each other if they do the same whenever the machine holds what it may.
-/

namespace MeteredScript

/-- A realm, the frames that names are looked up in, what native functions may do, and what else is
true of the machine at all times. Signals are raised if that is allowed. -/
structure Setting extends Realm where
  frame : Nat → Prop
  effect : Machine → Machine → Prop
  law : Machine → Prop
  signals : Prop := True

/-! ## Frames and what they hold -/

namespace FrameKind

/-- The frame that a frame is put on top of. -/
def below : FrameKind → Option Nat
  | named _ next | indexed _ next => next
  | guarded delegate => some delegate
  | hosted _ => none

/-- The variables that a frame binds. -/
def indices : FrameKind → List Nat
  | named bindings _ => bindings.map (·.2)
  | indexed slots _ => slots.filterMap (·.map (·.2))
  | guarded _ | hosted _ => []

/-- The values that a name can stand for in this frame may be held. -/
structure Holds (R : Realm) (m : Machine) (kind : FrameKind) : Prop where
  own : ∀ i ∈ kind.indices, ∀ x : Variable, m.locals[i]? = some x → R.admits x.value
  map : ∀ h : Handle, kind = .hosted (.map h) → R.handle h
  table : ∀ i : Nat, kind = .hosted (.table i) → ∀ v, (m.data i).Stocks v → R.admits v

end FrameKind

namespace Machine

/-- The machine holds what the setting allows, in its containers and in the frames looked up. -/
structure Held (S : Setting) (m : Machine) : Prop where
  store : m.store.Held S.toRealm
  fresh : ∀ f, m.frames.size ≤ f → S.frame f
  below : ∀ (f : Nat) (kind : FrameKind), S.frame f → m.kind? f = some kind →
    ∀ g, kind.below = some g → S.frame g
  holds : ∀ (f : Nat) (kind : FrameKind), S.frame f → m.kind? f = some kind →
    kind.Holds S.toRealm m
  law : S.law m

/-- Where everything may be held, and in every frame, nothing but the law is left to ask for. -/
theorem Held.of_everything {S : Setting} {m : Machine} (hR : S.toRealm = .everything)
    (hframe : ∀ f, S.frame f) (hlaw : S.law m) : m.Held S := by
  have hadmits (v : Value) : S.admits v := hR ▸ Realm.everything_admits v
  constructor
  case store =>
    rw [hR]
    exact m.store.everything_held
  case fresh => exact fun f _ => hframe f
  case below => exact fun _ _ _ _ g _ => hframe g
  case holds =>
    intro f kind _ _
    constructor
    case own => exact fun _ _ x _ => hadmits x.value
    case map => exact fun h _ => hadmits (.map h)
    case table => exact fun _ _ v _ => hadmits v
  case law => exact hlaw

/-- Two machines that differ in the signals of their frames alone. -/
structure SameButSignals (m m' : Machine) : Prop where
  store : m'.store = m.store
  locals : m'.locals = m.locals
  tables : m'.tables = m.tables
  context : m'.context = m.context
  size : m'.frames.size = m.frames.size
  kind : ∀ f, m'.kind? f = m.kind? f

def updateKind (m : Machine) (f : Nat) (update : FrameKind → FrameKind) : Machine :=
  { m with frames := m.frames.modify f fun frame => { frame with kind := update frame.kind } }

/-- The steps of which evaluations are made. -/
inductive Step (S : Setting) (m : Machine) : Machine → Prop
  | store (s : Store) (steps : Store.Steps S.toRealm m.store s) : Step S m { m with store := s }
  | newVariable (x : Variable) (typed : checkType x.type x.value = .ok ())
      (admitted : S.admits x.value) : Step S m { m with locals := m.locals.push x }
  | write (i : Nat) (v : Value) (typed : checkType (m.locals[i]?.bind (·.type)) v = .ok ())
      (admitted : S.admits v) :
      Step S m { m with locals := m.locals.modify i fun x => { x with value := v } }
  | put (i : Nat) (key : String) (v : Value) (admitted : S.admits v) :
      Step S m (m.setData i ((HostData.set key v).run (m.data i)).2)
  | bind (f : Nat) (name : Name) (i : Nat) (x : Variable) (inside : S.frame f)
      (bound : m.locals[i]? = some x) (admitted : S.admits x.value) :
      Step S m (m.updateKind f (·.bind name i))
  | bindSlot (f slot : Nat) (name : Name) (i : Nat) (x : Variable) (inside : S.frame f)
      (bound : m.locals[i]? = some x) (admitted : S.admits x.value)
      (slots : List (Option (Name × Nat))) (next : Option Nat)
      (kind : m.kind? f = some (.indexed slots next)) :
      Step S m (m.updateKind f fun _ => .indexed (slots.set slot (some (name, i))) next)
  | enter (f : Nat) (inside : S.frame f) : Step S m (m.pushFrame (.named [] (some f))).2
  | tick (context : Context) : Step S m { m with context }
  | signals (m' : Machine) (allowed : S.signals) (same : m.SameButSignals m') : Step S m m'
  | native (m' : Machine) (effect : S.effect m m') (held : m'.Held S) : Step S m m'

abbrev Steps (S : Setting) : Machine → Machine → Prop := Relation.ReflTransGen (Step S)

end Machine

/-- Steps keep what is true of the machine at all times. -/
class Setting.Lawful (S : Setting) : Prop where
  step : ∀ {m m' : Machine}, Machine.Step S m m' → m.Held S → S.law m'

/-! ## Steps keep what is held -/

namespace FrameKind

variable {R : Realm} {m : Machine} {kind : FrameKind}

/-- Variables and data of the host hold what may be held if they did so before. -/
theorem Holds.of_kept {m' : Machine} (h : kind.Holds R m)
    (hl : ∀ i : Nat, (∀ x, m.locals[i]? = some x → R.admits x.value) →
      ∀ x, m'.locals[i]? = some x → R.admits x.value)
    (ht : ∀ i : Nat, (∀ v, (m.data i).Stocks v → R.admits v) →
      ∀ v, (m'.data i).Stocks v → R.admits v) : kind.Holds R m' where
  own i hi := hl i (h.own i hi)
  map := h.map
  table i hk := ht i (h.table i hk)

theorem mem_bindSlot {name : Name} {i : Nat} {slots : List (Option (Name × Nat))}
    {b : Option (Name × Nat)} (h : b ∈ bindSlot name i slots) :
    b = some (name, i) ∨ b ∈ slots := by
  induction slots with
  | nil => exact .inl (List.mem_singleton.mp h)
  | cons c rest ih =>
    unfold bindSlot at h
    split at h
    · rcases List.mem_cons.mp h with rfl | h
      · exact .inl rfl
      · exact .inr (List.mem_cons_of_mem _ h)
    · rcases List.mem_cons.mp h with rfl | h
      · exact .inr List.mem_cons_self
      · exact (ih h).imp id (List.mem_cons_of_mem _)

theorem mem_slots {name : Name} {i j : Nat} {slots slots' : List (Option (Name × Nat))}
    (h : ∀ b ∈ slots', b = some (name, i) ∨ b ∈ slots)
    (hj : j ∈ slots'.filterMap (·.map (·.2))) :
    j = i ∨ j ∈ slots.filterMap (·.map (·.2)) := by
  obtain ⟨b, hb, hbj⟩ := List.mem_filterMap.mp hj
  rcases h b hb with rfl | hb
  · exact .inl (Option.some.inj hbj).symm
  · exact .inr (List.mem_filterMap.mpr ⟨b, hb, hbj⟩)

theorem mem_bind {name : Name} {i j : Nat} (h : j ∈ (kind.bind name i).indices) :
    j = i ∨ j ∈ kind.indices := by
  cases kind with
  | named bindings next =>
    obtain ⟨b, hb, rfl⟩ := List.mem_map.mp h
    exact (Entries.mem_put hb).imp (congrArg Prod.snd) List.mem_map_of_mem
  | indexed slots next => exact mem_slots (fun _ => mem_bindSlot) h
  | guarded | hosted => exact .inr h

theorem below_bind (name : Name) (i : Nat) (kind : FrameKind) :
    (kind.bind name i).below = kind.below := by
  cases kind <;> rfl

theorem bind_eq_hosted {name : Name} {i : Nat} {source : HostSource}
    (h : kind.bind name i = .hosted source) : kind = .hosted source := by
  cases kind with
  | named | indexed => cases h
  | guarded | hosted => exact h

end FrameKind

namespace Machine

variable {S : Setting} {m m' : Machine}

theorem kind?_updateKind (m : Machine) (f g : Nat) (update : FrameKind → FrameKind) :
    (m.updateKind f update).kind? g = if f = g then (m.kind? g).map update else m.kind? g := by
  unfold kind? updateKind
  rw [Array.getElem?_modify]
  split
  · rw [Option.map_map, Option.map_map]; rfl
  · rfl

theorem kind?_pushFrame (kind : FrameKind) (m : Machine) (g : Nat) :
    (m.pushFrame kind).2.kind? g = if g = m.frames.size then some kind else m.kind? g := by
  unfold kind? pushFrame
  rw [Array.getElem?_push]
  split <;> rfl

theorem Held.of_kept (h : m.Held S) (hlaw : S.law m') (hs : m'.store.Held S.toRealm)
    (hsize : m'.frames.size = m.frames.size) (hk : ∀ f, m'.kind? f = m.kind? f)
    (hl : ∀ i : Nat, (∀ x, m.locals[i]? = some x → S.admits x.value) →
      ∀ x, m'.locals[i]? = some x → S.admits x.value)
    (ht : ∀ i : Nat, (∀ v, (m.data i).Stocks v → S.admits v) →
      ∀ v, (m'.data i).Stocks v → S.admits v) :
    m'.Held S := by
  refine ⟨hs, fun f hf => h.fresh f (hsize ▸ hf), fun f kind hin hkind => ?_,
    fun f kind hin hkind => ?_, hlaw⟩
  · exact h.below f kind hin (hk f ▸ hkind)
  · exact (h.holds f kind hin (hk f ▸ hkind)).of_kept hl ht

theorem Held.updateKind (h : m.Held S) {f i : Nat} {x : Variable} (hx : m.locals[i]? = some x)
    (hv : S.admits x.value) {update : FrameKind → FrameKind} (hlaw : S.law (m.updateKind f update))
    (hbelow : ∀ kind, m.kind? f = some kind → (update kind).below = kind.below)
    (hvars : ∀ kind, m.kind? f = some kind →
      ∀ j ∈ (update kind).indices, j = i ∨ j ∈ kind.indices)
    (hhost : ∀ kind source, m.kind? f = some kind → update kind = .hosted source →
      kind = .hosted source) :
    (m.updateKind f update).Held S := by
  have hstore : (m.updateKind f update).store.Held S.toRealm := h.store
  constructor
  case store => exact hstore
  case fresh =>
    intro g hsize
    exact h.fresh g (by simpa [Machine.updateKind] using hsize)
  case law => exact hlaw
  case below =>
    intro g kind hin hkind
    rw [kind?_updateKind] at hkind
    split at hkind
    · next heq =>
      subst heq
      obtain ⟨old, ho, rfl⟩ := Option.map_eq_some_iff.mp hkind
      rw [hbelow old ho]
      exact h.below f old hin ho
    · exact h.below g kind hin hkind
  case holds =>
    intro g kind hin hkind
    rw [kind?_updateKind] at hkind
    split at hkind
    · next heq =>
      subst heq
      obtain ⟨old, ho, rfl⟩ := Option.map_eq_some_iff.mp hkind
      have hold := h.holds f old hin ho
      constructor
      case own =>
        intro j hj y hy
        rcases hvars old ho j hj with rfl | hj
        · have hxy : m.locals[j]? = some y := hy
          rw [hx] at hxy
          rw [← Option.some.inj hxy]
          exact hv
        · exact hold.own j hj y hy
      case map => exact fun k hk => hold.map k (hhost old _ ho hk)
      case table => exact fun k hk => hold.table k (hhost old _ ho hk)
    · exact (h.holds g kind hin hkind).of_kept (fun _ h => h) fun _ h => h

theorem Held.enter (h : m.Held S) {f : Nat} (hf : S.frame f)
    (hlaw : S.law (m.pushFrame (.named [] (some f))).2) :
    (m.pushFrame (.named [] (some f))).2.Held S := by
  have hstore : (m.pushFrame (.named [] (some f))).2.store.Held S.toRealm := h.store
  constructor
  case store => exact hstore
  case fresh =>
    intro g hsize
    simp only [pushFrame, Array.size_push] at hsize
    exact h.fresh g (by omega)
  case law => exact hlaw
  case below =>
    intro g kind hin hkind
    rw [kind?_pushFrame] at hkind
    split at hkind
    · rw [← Option.some.inj hkind]
      exact fun k hk => Option.some.inj hk ▸ hf
    · exact h.below g kind hin hkind
  case holds =>
    intro g kind hin hkind
    rw [kind?_pushFrame] at hkind
    split at hkind
    · rw [← Option.some.inj hkind]
      constructor
      case own => exact fun _ hi => absurd hi List.not_mem_nil
      case map => simp
      case table => simp
    · exact (h.holds g kind hin hkind).of_kept (fun _ h => h) fun _ h => h

variable [S.Lawful]

theorem Step.held (hstep : Step S m m') (h : m.Held S) : m'.Held S := by
  have hlaw := Setting.Lawful.step hstep h
  cases hstep with
  | store s steps =>
    exact h.of_kept hlaw (steps.held h.store) rfl (fun _ => rfl) (fun _ h => h) fun _ h => h
  | newVariable x _ hv =>
    refine h.of_kept hlaw h.store rfl (fun _ => rfl) (fun i hold y hy => ?_) fun _ h => h
    rw [Array.getElem?_push] at hy
    split at hy
    · exact Option.some.inj hy ▸ hv
    · exact hold y hy
  | write i v _ hv =>
    refine h.of_kept hlaw h.store rfl (fun _ => rfl) (fun j hold y hy => ?_) fun _ h => h
    rw [Array.getElem?_modify] at hy
    split at hy
    · obtain ⟨z, _, rfl⟩ := Option.map_eq_some_iff.mp hy
      exact hv
    · exact hold y hy
  | put i key v hv =>
    refine h.of_kept hlaw h.store rfl (fun _ => rfl) (fun _ h => h) fun j hold w hw => ?_
    rcases stocks_setData hw with ⟨rfl, hstocked⟩ | hstocked
    · rcases hstocked.of_set with rfl | hbefore
      · exact hv
      · exact hold w hbefore
    · exact hold w hstocked
  | bind f name i x _ hx hv =>
    exact h.updateKind hx hv hlaw (fun kind _ => kind.below_bind name i)
      (fun _ _ _ hj => FrameKind.mem_bind hj) fun _ _ _ hk => FrameKind.bind_eq_hosted hk
  | bindSlot f slot name i x _ hx hv slots next hkind =>
    refine h.updateKind hx hv hlaw (fun kind hk => ?_) (fun kind hk j hj => ?_) (by simp)
    · rw [hkind] at hk
      rw [← Option.some.inj hk]
      rfl
    · rw [hkind] at hk
      rw [← Option.some.inj hk]
      exact FrameKind.mem_slots (fun _ hb => (List.mem_or_eq_of_mem_set hb).symm) hj
  | enter f hf => exact h.enter hf hlaw
  | tick context => exact h.of_kept hlaw h.store rfl (fun _ => rfl) (fun _ h => h) fun _ h => h
  | signals _ _ same =>
    refine h.of_kept hlaw (same.store ▸ h.store) same.size same.kind (fun i hold => ?_)
      fun i hold => ?_
    · rwa [same.locals]
    · rwa [data, same.tables]
  | native _ _ held => exact held

theorem Steps.held (hsteps : Steps S m m') (h : m.Held S) : m'.Held S := by
  induction hsteps with
  | refl => exact h
  | tail _ hstep ih => exact hstep.held ih

end Machine

end MeteredScript

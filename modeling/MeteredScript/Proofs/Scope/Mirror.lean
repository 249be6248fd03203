import MeteredScript.Proofs.Evaluation.Metering
import MeteredScript.Proofs.Scope.Outcomes
import MeteredScript.Proofs.Store.Mirror

/-!
# Machines that mirror each other

A machine mirrors another one if it has each container, variable and frame of that one under another
number. Names stand for the same cells in both, which hold the same values, and go on to do so when
a frame is entered or a variable declared in both.
-/

namespace MeteredScript

/-! ## Whole machines -/

namespace Store

variable {s : Store} {v : Value}

theorem has_getD {o : Option Value} (h : ∀ v ∈ o, s.Has v) : s.Has (o.getD .null) := by
  cases o with
  | none => exact has_of_plain rfl
  | some v => exact h v rfl

end Store

/-- A context without limits that is not cancelled. -/
structure Context.Unlimited (c : Context) : Prop where
  limits : c.limits.isUnbounded = true
  running : c.cancelled = .never

namespace Machine

variable {m : Machine} {f : Nat}

/-- Frames stand on earlier ones, and all that is referred to is there. -/
structure Whole (m : Machine) : Prop where
  store : m.store.Whole
  stacked : m.Stacked
  bound : ∀ p, m.Binds p → p.2 < m.locals.size
  maps : ∀ f h, m.kind? f = some (.hosted (.map h)) → m.store.Fits .map h
  locals : ∀ (i : Nat) (x : Variable), m.locals[i]? = some x → m.store.Has x.value
  data : ∀ (i : Nat) (key : String) (v : Value), (m.data i).get? key = some v → m.store.Has v

namespace Whole

variable (hm : m.Whole)

include hm

theorem has_read (cell : Cell) : m.store.Has (cell.read m) := by
  cases cell with
  | own i =>
    refine Store.has_getD fun v hv => ?_
    obtain ⟨x, hx, rfl⟩ := Option.map_eq_some_iff.mp hv
    exact hm.locals i x hx
  | hosted source key =>
    refine Store.has_getD fun v hv => ?_
    cases source with
    | map h => exact hm.store.has_entry (mem_of_lookup_eq_some hv)
    | table i => exact hm.data i key v hv

theorem checked : m.checked.Whole where
  store := hm.store
  stacked := hm.stacked
  bound := hm.bound
  maps := hm.maps
  locals := hm.locals
  data := hm.data

theorem keeps {s : Store} (hkeeps : m.store.Keeps s) (hs : s.Whole) :
    Whole { m with store := s } where
  store := hs
  stacked := hm.stacked
  bound := hm.bound
  maps f h hk := hkeeps.fits (hm.maps f h hk)
  locals i x hx := hkeeps.has (hm.locals i x hx)
  data i key v hv := hkeeps.has (hm.data i key v hv)

theorem enter (hf : f < m.frames.size) : (m.pushFrame (.named [] (some f))).2.Whole where
  store := hm.store
  stacked := hm.stacked.pushFrame fun _ hg => Option.some.inj hg ▸ hf
  bound p hp := hm.bound p (.of_pushFrame rfl hp)
  maps g h hk := by
    rcases hosted_of_pushFrame hk with hkind | hold
    · cases hkind
    · exact hm.maps g h hold
  locals := hm.locals
  data := hm.data

theorem bindNew {x : Variable} (hx : m.store.Has x.value) (name : Name) :
    (m.bindNew f x fun i => (·.bind name i)).Whole := by
  have hrebound (kind : FrameKind) (_ : m.kind? f = some kind) :=
    kind.rebound_bind name m.locals.size
  constructor
  case store => exact hm.store
  case stacked => exact hm.stacked.bindNew hrebound x
  case bound =>
    intro p hp
    rw [size_locals_bindNew]
    rcases Binds.of_bindNew hrebound hp with rfl | hp
    · exact Nat.lt_succ_self _
    · exact Nat.lt_succ_of_lt (hm.bound p hp)
  case maps => exact fun g h hk => hm.maps g h (hosted_of_bindNew hrebound hk)
  case locals =>
    intro i y hy
    change (m.locals.push x)[i]? = some y at hy
    rw [Array.getElem?_push] at hy
    split at hy
    · exact Option.some.inj hy ▸ hx
    · exact hm.locals i y hy
  case data => exact hm.data

end Whole

/-! ## What is left as it is -/

/-- The first `n` frames, the variables, the data of the host and the containers are left as they
are. In other frames names may be bound. -/
structure Leaves (n : Nat) (m m' : Machine) : Prop where
  frames : ∀ f < n, m'.frames[f]? = m.frames[f]?
  size : m.frames.size ≤ m'.frames.size
  owns : ∀ f, m.Owns f → m'.Owns f
  locals : ∀ (i : Nat) (x : Variable), m.locals[i]? = some x → m'.locals[i]? = some x
  tables : m'.tables = m.tables
  store : m.store.Keeps m'.store
  limits : m'.context.limits = m.context.limits
  cancelled : m'.context.cancelled = m.context.cancelled

namespace Leaves

variable {n : Nat} {m' m'' : Machine}

theorem keeps {s : Store} (h : m.store.Keeps s) (n : Nat) : m.Leaves n { m with store := s } where
  frames _ _ := rfl
  size := Nat.le_refl _
  owns _ hf := hf
  locals _ _ hx := hx
  tables := rfl
  store := h
  limits := rfl
  cancelled := rfl

theorem refl (n : Nat) (m : Machine) : m.Leaves n m := keeps (.refl m.store) n

theorem checked (n : Nat) (m : Machine) : m.Leaves n m.checked where
  frames _ _ := rfl
  size := Nat.le_refl _
  owns _ hf := hf
  locals _ _ hx := hx
  tables := rfl
  store := .refl m.store
  limits := rfl
  cancelled := rfl

theorem unlimited (h : m.Leaves n m') (hm : m.context.Unlimited) : m'.context.Unlimited :=
  ⟨h.limits ▸ hm.limits, h.cancelled ▸ hm.running⟩

theorem trans (h : m.Leaves n m') (k : m'.Leaves n m'') : m.Leaves n m'' where
  frames f hf := (k.frames f hf).trans (h.frames f hf)
  size := Nat.le_trans h.size k.size
  owns f hf := k.owns f (h.owns f hf)
  locals i x hx := k.locals i x (h.locals i x hx)
  tables := k.tables.trans h.tables
  store := h.store.trans k.store
  limits := k.limits.trans h.limits
  cancelled := k.cancelled.trans h.cancelled

theorem pushFrame (hn : n ≤ m.frames.size) (kind : FrameKind) :
    m.Leaves n (m.pushFrame kind).2 where
  frames g hg := by
    have hg := Nat.lt_of_lt_of_le hg hn
    exact (Array.getElem?_push_lt hg).trans (Array.getElem?_eq_getElem hg).symm
  size := Nat.le_of_lt (Nat.lt_of_lt_of_eq (Nat.lt_succ_self _) (Array.size_push _).symm)
  owns g hg := hg.pushFrame kind
  locals _ _ hx := hx
  tables := rfl
  store := .refl m.store
  limits := rfl
  cancelled := rfl

theorem bindNew (hf : n ≤ f) (x : Variable) (name : Name) :
    m.Leaves n (m.bindNew f x fun i => (·.bind name i)) where
  frames g hg :=
    (Array.getElem?_modify ..).trans (if_neg (Nat.ne_of_gt (Nat.lt_of_lt_of_le hg hf)))
  size := Nat.le_of_eq Array.size_modify.symm
  owns g hg := by
    obtain ⟨kind, hk, hown⟩ := hg
    rw [Owns, kind?_bindNew, hk]
    split
    · refine ⟨_, rfl, ?_⟩
      cases kind with
      | named | indexed => rfl
      | guarded | hosted => cases hown
    · exact ⟨kind, rfl, hown⟩
  locals i y hy := by
    have hi := (Array.getElem?_eq_some_iff.mp hy).1
    exact (Array.getElem?_push_lt hi).trans ((Array.getElem?_eq_getElem hi).symm.trans hy)
  tables := rfl
  store := .refl m.store
  limits := rfl
  cancelled := rfl

end Leaves

end Machine

/-! ## Other numbers -/

/-- Other numbers for containers, variables and frames. -/
structure Renaming where
  containers : Nat → Nat
  locals : Nat → Nat
  frames : Nat → Nat

variable (ρ : Renaming)

def Variable.move (x : Variable) : Variable := { x with value := x.value.move ρ.containers }

def HostSource.move : HostSource → HostSource
  | map h => map (h.move ρ.containers)
  | table i => table i

def Cell.move : Cell → Cell
  | own i => own (ρ.locals i)
  | hosted source key => hosted (source.move ρ) key

namespace FrameKind

def move : FrameKind → FrameKind
  | named bindings next => named (bindings.map fun b => (b.1, ρ.locals b.2)) (next.map ρ.frames)
  | indexed slots next =>
    indexed (slots.map (Option.map fun b => (b.1, ρ.locals b.2))) (next.map ρ.frames)
  | guarded delegate => guarded (ρ.frames delegate)
  | hosted source => hosted (source.move ρ)

theorem bindSlot_move (name : Name) (i : Nat) (slots : List (Option (Name × Nat))) :
    bindSlot name (ρ.locals i) (slots.map (Option.map fun b => (b.1, ρ.locals b.2))) =
      (bindSlot name i slots).map (Option.map fun b => (b.1, ρ.locals b.2)) := by
  induction slots with
  | nil => rfl
  | cons slot rest ih =>
    rw [List.map_cons, bindSlot, bindSlot, Option.any_map]
    change (if slot.any (·.1 = name) = true then _ else _) = _
    split
    · rfl
    · rw [ih]
      rfl

theorem holder_move (name : Name) (slots : List (Option (Name × Nat))) :
    holder name (slots.map (Option.map fun b => (b.1, ρ.locals b.2))) =
      (holder name slots).map fun b => (b.1, ρ.locals b.2) := by
  induction slots with
  | nil => rfl
  | cons slot rest ih =>
    rw [List.map_cons, holder_cons, holder_cons, ih]
    cases slot with
    | none => rfl
    | some b => by_cases hb : b.1 = name <;> simp [Option.filter, hb]

theorem bind_move (name : Name) (i : Nat) (kind : FrameKind) :
    (kind.move ρ).bind name (ρ.locals i) = (kind.bind name i).move ρ := by
  cases kind with
  | named bindings next => exact congrArg (named · _) (Entries.put_map_snd ρ.locals name i bindings)
  | indexed slots next => exact congrArg (indexed · _) (bindSlot_move ρ name i slots)
  | guarded | hosted => rfl

theorem standsFor_move_eq_none {kind : FrameKind} :
    (kind.move ρ).standsFor = none ↔ kind.standsFor = none := by
  cases kind <;> simp [move, standsFor]

end FrameKind

/-! ## Mirrored machines -/

variable {ρ}

/-- The second machine has the containers, variables and frames of the first one under other
numbers, which are handed out at the same pace. Data of the host is the same, and what is read there
keeps its number. -/
structure Machine.Mirrors (ρ : Renaming) (m t : Machine) : Prop where
  store : Store.Mirrors ρ.containers m.store t.store
  cells : Renumbers ρ.locals m.locals.size t.locals.size
  locals : ∀ i : Nat, t.locals[ρ.locals i]? = m.locals[i]?.map (Variable.move ρ)
  frames : Renumbers ρ.frames m.frames.size t.frames.size
  kinds : ∀ f, t.kind? (ρ.frames f) = (m.kind? f).map (FrameKind.move ρ)
  tables : t.tables = m.tables
  data : ∀ (i : Nat) (key : String) (v : Value), (m.data i).get? key = some v →
    v.move ρ.containers = v

namespace Machine

variable {m t : Machine} {f : Nat}

/-! ### Lookup -/

/-- More fuel than the number of a frame makes no difference. -/
theorem Stacked.lineageTo_eq (h : m.Stacked) (hf : f < m.frames.size) {fuel fuel' : Nat}
    (hfuel : f < fuel) (hfuel' : f < fuel') : m.lineageTo fuel f = m.lineageTo fuel' f := by
  induction fuel generalizing f fuel' with
  | zero => exact absurd hfuel (Nat.not_lt_zero f)
  | succ fuel ih =>
    obtain ⟨fuel', rfl⟩ := Nat.exists_eq_add_of_le' (Nat.succ_le_of_lt (Nat.zero_lt_of_lt hfuel'))
    obtain ⟨kind, hk⟩ := exists_kind hf
    have hrest (g : Nat) (hg : kind.below = some g) :
        m.lineageTo fuel g = m.lineageTo fuel' g := by
      have hlt := h f hf g (by rw [below?, hk, Option.bind_some, hg])
      exact ih (Nat.lt_trans hlt hf) (by omega) (by omega)
    rw [Machine.lineageTo, Machine.lineageTo, hk]
    cases kind with
    | guarded delegate => exact hrest delegate rfl
    | hosted => rfl
    | named _ next | indexed _ next =>
      cases next with
      | none => rfl
      | some g => exact congrArg (f :: ·) (hrest g rfl)

namespace Mirrors

variable (h : m.Mirrors ρ t)

include h

theorem data_eq (i : Nat) : t.data i = m.data i := by
  rw [Machine.data, h.tables, Machine.data]

theorem get? (source : HostSource) (key : String) :
    (source.move ρ).get? t key = (source.get? m key).map (Value.move ρ.containers) := by
  cases source with
  | map g =>
    change (t.store.entries (g.move ρ.containers)).lookup _ = _
    rw [h.store.entries, Entries.lookup_move]
    rfl
  | table i =>
    change (t.data i).get? key = ((m.data i).get? key).map _
    rw [h.data_eq]
    cases hv : (m.data i).get? key with
    | none => rfl
    | some v => rw [Option.map_some, h.data i key v hv]

theorem contains (source : HostSource) (key : String) :
    (source.move ρ).contains t key = source.contains m key := by
  cases source with
  | map g =>
    have hget := congrArg Option.isSome (h.get? (.map g) key)
    rwa [Option.isSome_map] at hget
  | table i =>
    change (t.data i).contains key = (m.data i).contains key
    rw [h.data_eq]

theorem find? (names : Interner) (name : Name) (kind : FrameKind) :
    (kind.move ρ).find? t names name = (kind.find? m names name).map (Cell.move ρ) := by
  cases kind with
  | named bindings next =>
    change ((bindings.map fun b => (b.1, ρ.locals b.2)).lookup name).map Cell.own =
      ((bindings.lookup name).map Cell.own).map (Cell.move ρ)
    rw [lookup_map_snd, Option.map_map, Option.map_map]
    rfl
  | indexed slots next =>
    change (holder name (slots.map (Option.map fun b => (b.1, ρ.locals b.2)))).map _ =
      ((holder name slots).map _).map _
    rw [FrameKind.holder_move, Option.map_map, Option.map_map]
    rfl
  | guarded delegate => rfl
  | hosted source =>
    change (FrameKind.hosted (source.move ρ)).find? t names name = _
    rw [FrameKind.find?_hosted, FrameKind.find?_hosted, h.contains]
    split <;> rfl

theorem lineageTo (fuel f : Nat) :
    t.lineageTo fuel (ρ.frames f) = (m.lineageTo fuel f).map ρ.frames := by
  induction fuel generalizing f with
  | zero => rfl
  | succ fuel ih =>
    rw [Machine.lineageTo, Machine.lineageTo, h.kinds]
    rcases m.kind? f with _ | _ | _ | delegate | _
    case some.guarded => exact ih delegate
    case some.named _ next | some.indexed _ next =>
      cases next with
      | none => rfl
      | some g => exact congrArg (ρ.frames f :: ·) (ih g)
    all_goals rfl

theorem resolve? (hm : m.Stacked) (hf : f < m.frames.size) (names : Interner) (name : Name) :
    t.resolve? names (ρ.frames f) name = (m.resolve? names f name).map (Cell.move ρ) := by
  have hlineage : t.lineage (ρ.frames f) = (m.lineage f).map ρ.frames := by
    rw [lineage, h.lineageTo, lineage,
      hm.lineageTo_eq hf (Nat.lt_succ_of_le (h.frames.le f)) (Nat.lt_succ_self f)]
  have hfind (g : Nat) : t.findIn names name (ρ.frames g) =
      (m.findIn names name g).map (Cell.move ρ) := by
    rw [findIn, h.kinds, findIn]
    cases m.kind? g with
    | none => rfl
    | some kind => exact h.find? names name kind
  rw [Machine.resolve?, hlineage, List.findSome?_map, Machine.resolve?, List.map_findSome?]
  exact congrArg (List.findSome? · _) (funext hfind)

theorem read (cell : Cell) : (cell.move ρ).read t = (cell.read m).move ρ.containers := by
  cases cell with
  | own i =>
    change (t.locals[ρ.locals i]?.map (·.value)).getD .null = _
    rw [h.locals, Cell.read]
    cases m.locals[i]? <;> rfl
  | hosted source key =>
    change ((source.move ρ).get? t key).getD .null = _
    rw [h.get?, Cell.read]
    cases source.get? m key <;> rfl

/-! ### Changes -/

theorem checked : m.checked.Mirrors ρ t.checked :=
  ⟨h.store, h.cells, h.locals, h.frames, h.kinds, h.tables, h.data⟩

theorem onStore {s s' : Store} (hs : Store.Mirrors ρ.containers s s') :
    Mirrors ρ { m with store := s } { t with store := s' } :=
  ⟨hs, h.cells, h.locals, h.frames, h.kinds, h.tables, h.data⟩

theorem enter (f : Nat) : (m.pushFrame (.named [] (some f))).2.Mirrors ρ
    (t.pushFrame (.named [] (some (ρ.frames f)))).2 := by
  refine ⟨h.store, h.cells, h.locals, ?_, fun g => ?_, h.tables, h.data⟩
  · exact (Array.size_push _).symm ▸ (Array.size_push _).symm ▸ h.frames.succ
  · rw [kind?_pushFrame, kind?_pushFrame]
    simp only [h.frames.eq_next_iff]
    split
    · rfl
    · exact h.kinds g

theorem bindNew (f : Nat) (x : Variable) (name : Name) :
    (m.bindNew f x fun i => (·.bind name i)).Mirrors ρ
      (t.bindNew (ρ.frames f) (x.move ρ) fun i => (·.bind name i)) := by
  refine ⟨h.store, ?_, fun i => ?_, ?_, fun g => ?_, h.tables, h.data⟩
  · rw [size_locals_bindNew, size_locals_bindNew]
    exact h.cells.succ
  · change (t.locals.push (x.move ρ))[ρ.locals i]? = (m.locals.push x)[i]?.map _
    rw [Array.getElem?_push, Array.getElem?_push]
    simp only [h.cells.eq_next_iff]
    split
    · rfl
    · exact h.locals i
  · exact (Array.size_modify).symm ▸ (Array.size_modify).symm ▸ h.frames
  · rw [kind?_bindNew, kind?_bindNew, h.kinds]
    simp only [h.frames.injective.eq_iff]
    split
    · rw [Option.map_map, Option.map_map]
      refine congrArg (Option.map · _) (funext fun kind => ?_)
      rw [← h.cells.eq_next]
      exact FrameKind.bind_move ρ name m.locals.size kind
    · rfl

end Mirrors

end Machine

end MeteredScript

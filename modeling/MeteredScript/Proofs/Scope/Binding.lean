import MeteredScript.Proofs.Scope.Resolution
import MeteredScript.Proofs.Signals

/-!
# Frames as they are filled

Frames are put on top of each other, and names are bound in them by declarations and assignments
alone. Whatever the order of these, frames stand on earlier ones, a name is bound to a variable that
is there, and to one that no other name is bound to.
-/

namespace MeteredScript

/-! ## Data of the host -/

namespace HostSource

variable {m m' : Machine} {source : HostSource} {key : String} {v : Value}

/-- The data is there: a map of the store, or data of the host's own that is read as it was
written. -/
def There (m : Machine) : HostSource → Prop
  | map h => m.store.Fits .map h
  | table i => i < m.tables.size ∧
      ∃ valid, (m.data i).rules.Faithful valid ∧ valid (m.data i).state

instance (m : Machine) (h : Handle) : Decidable ((map h).There m) :=
  inferInstanceAs (Decidable (m.store.Fits .map h))

/-- Data under a key is read and found as before. -/
structure SameAt (source : HostSource) (m m' : Machine) (key : String) : Prop where
  get? : source.get? m' key = source.get? m key
  contains : source.contains m' key = source.contains m key

theorem sameAt (hstore : m'.store = m.store) (htables : m'.tables = m.tables)
    (source : HostSource) (key : String) : source.SameAt m m' key := by
  cases source with
  | map h =>
    constructor
    · rw [HostSource.get?, HostSource.get?, hstore]
    · rw [HostSource.contains, HostSource.contains, hstore]
  | table i =>
    constructor
    · rw [HostSource.get?, HostSource.get?, Machine.data, htables, Machine.data]
    · rw [HostSource.contains, HostSource.contains, Machine.data, htables, Machine.data]

/-- A value was written under a key of some data, and nothing else happened. -/
structure Written (source : HostSource) (key : String) (v : Value) (m m' : Machine) : Prop where
  value : source.get? m' key = some v
  found : source.contains m' key = true
  others : ∀ (other : HostSource) (key' : String), key' ≠ key → other.SameAt m m' key'
  /-- All views of the data agree on whether the key was found, and find it now. -/
  shared : ∀ other : HostSource, other.SameAt m m' key ∨
    other.contains m key = source.contains m key ∧ other.contains m' key = true
  there : ∀ other : HostSource, other.There m → other.There m'
  frames : m'.frames = m.frames
  locals : m'.locals = m.locals

/-! ### Maps -/

/-- Views of a map have the entries that it has. -/
theorem view_eq {g h : Handle} (hg : g.target = h.target) :
    (map g).get? m = (map h).get? m ∧ (map g).contains m = (map h).contains m := by
  have hentries : m.store.entries g = m.store.entries h := by rw [Store.entries, hg, Store.entries]
  constructor
  · funext key
    exact congrArg (List.lookup (Key.str key)) hentries
  · funext key
    exact congrArg (fun pairs => (List.lookup (Key.str key) pairs).isSome) hentries

section WrittenMap

variable {h : Handle} {t : Store} (hs : m.store.Fits .map h)
  (hset : ((DataContext.ofMap h).set key v).run m.store = (.ok (), t))

include hs hset

/-- Other maps have the entries that they had. -/
theorem sameAt_other {g : Handle} (hg : g.target ≠ h.target) (key' : String) :
    (map g).SameAt m { m with store := t } key' := by
  have hentries : t.entries g = m.store.entries g := by
    simp only [Store.entries, (DataContext.ofMap_writes hs hset).others _ hg]
  constructor
  · exact congrArg (List.lookup (Key.str key')) hentries
  · exact congrArg (fun pairs => (List.lookup (Key.str key') pairs).isSome) hentries

theorem written_map : (map h).Written key v m { m with store := t } := by
  have hfaithful := DataContext.ofMap_faithful h
  obtain ⟨hget, hcontains⟩ := hfaithful.reads hs hset
  constructor
  case value => exact hget
  case found => exact hcontains
  case others =>
    intro other key' hkey
    cases other with
    | table i => exact ⟨rfl, rfl⟩
    | map g =>
      by_cases hg : g.target = h.target
      · obtain ⟨hsame, hfound⟩ := hfaithful.others hs hset hkey
        constructor
        · rw [(view_eq hg).1, (view_eq hg).1]
          exact hsame
        · rw [(view_eq hg).2, (view_eq hg).2]
          exact hfound
      · exact sameAt_other hs hset hg key'
  case shared =>
    intro other
    cases other with
    | table i => exact .inl ⟨rfl, rfl⟩
    | map g =>
      by_cases hg : g.target = h.target
      · refine .inr ?_
        rw [(view_eq hg).2, (view_eq hg).2]
        exact ⟨rfl, hcontains⟩
      · exact .inl (sameAt_other hs hset hg key)
  case there =>
    intro other hother
    cases other with
    | table i => exact hother
    | map g =>
      by_cases hg : g.target = h.target
      · have hfits : t.Fits .map h := hfaithful.stays hs hset
        rwa [Store.Fits, ← hg] at hfits
      · have hsame := (DataContext.ofMap_writes hs hset).others _ hg
        rwa [There, Store.Fits, hsame]
  case frames => rfl
  case locals => rfl

end WrittenMap

/-! ### Data of its own -/

theorem written_table {i : Nat} (hi : (table i).There m) {state : List (String × Value)}
    (hset : ((m.data i).rules.set key v).run (m.data i).state = (.ok (), state)) :
    (table i).Written key v m (m.setData i { m.data i with state }) := by
  obtain ⟨hsize, valid, hfaithful, hvalid⟩ := hi
  have hdata (j : Nat) : (m.setData i { m.data i with state }).data j =
      if i = j then { m.data i with state } else m.data j := by
    rw [Machine.data_setData]
    simp only [hsize, and_true]
  obtain ⟨hget, hcontains⟩ := hfaithful.reads hvalid hset
  constructor
  case value =>
    rw [get?, hdata, if_pos rfl]
    exact hget
  case found =>
    rw [contains, hdata, if_pos rfl]
    exact hcontains
  case others =>
    intro other key' hkey
    cases other with
    | map g => exact ⟨rfl, rfl⟩
    | table j =>
      by_cases hj : i = j
      · subst hj
        obtain ⟨hsame, hfound⟩ := hfaithful.others hvalid hset hkey
        constructor
        · rw [get?, hdata, if_pos rfl]
          exact hsame
        · rw [contains, hdata, if_pos rfl]
          exact hfound
      · constructor
        · rw [get?, hdata, if_neg hj, get?]
        · rw [contains, hdata, if_neg hj, contains]
  case shared =>
    intro other
    cases other with
    | map g => exact .inl ⟨rfl, rfl⟩
    | table j =>
      by_cases hj : i = j
      · subst hj
        refine .inr ⟨rfl, ?_⟩
        rw [contains, hdata, if_pos rfl]
        exact hcontains
      · refine .inl ⟨?_, ?_⟩
        · rw [get?, hdata, if_neg hj, get?]
        · rw [contains, hdata, if_neg hj, contains]
  case there =>
    intro other hother
    cases other with
    | map g => exact hother
    | table j =>
      refine ⟨hother.1.trans_eq Array.size_setIfInBounds.symm, ?_⟩
      rw [hdata]
      split
      · exact ⟨valid, hfaithful, hfaithful.stays hvalid hset⟩
      · exact hother.2
  case frames => rfl
  case locals => rfl

/-- What is there is written, unless it is refused; then nothing happens at all. -/
theorem set_cases (hs : source.There m) (key : String) (v : Value) :
    (∃ m', (source.set key v).run m = (.ok (), m') ∧ source.Written key v m m') ∨
      ∃ e, (source.set key v).run m = (.error e, m) := by
  cases source with
  | map h =>
    rcases hset : ((DataContext.ofMap h).set key v).run m.store with ⟨e | _, t⟩
    · have hkept : t = m.store := (DataContext.ofMap_faithful h).fails hs hset
      refine .inr ⟨e, ?_⟩
      rw [set, run_onStore, hset, hkept]
    · refine .inl ⟨_, ?_, written_map hs hset⟩
      rw [set, run_onStore, hset]
  | table i =>
    rcases hset : ((m.data i).rules.set key v).run (m.data i).state with ⟨e | _, state⟩
    · obtain ⟨-, valid, hfaithful, hvalid⟩ := hs
      have hkept : state = (m.data i).state := hfaithful.fails hvalid hset
      refine .inr ⟨e, ?_⟩
      rw [set_table, HostData.set_run hset, hkept]
      exact congrArg _ (m.setData_data i)
    · refine .inl ⟨_, ?_, written_table hs hset⟩
      rw [set_table, HostData.set_run hset]

end HostSource

/-! ## Names and variables that belong together -/

/-- Nothing is bound anew but one name, to this variable. -/
structure FrameKind.Rebound (x : Name) (i : Nat) (kind kind' : FrameKind) : Prop where
  outline : kind'.outline = kind.outline
  bound : ∀ p ∈ kind'.bound, p = (x, i) ∨ p ∈ kind.bound

theorem FrameKind.rebound_bind (x : Name) (i : Nat) (kind : FrameKind) :
    kind.Rebound x i (kind.bind x i) :=
  ⟨kind.outline_bind x i, fun _ => mem_bound_bind⟩

theorem FrameKind.rebound_set (x : Name) (i k : Nat) (slots : List (Option (Name × Nat)))
    (next : Option Nat) :
    FrameKind.Rebound x i (.indexed slots next) (.indexed (slots.set k (some (x, i))) next) :=
  ⟨rfl, fun _ => mem_bound_set⟩

namespace Machine

variable {m m' : Machine} {f : Nat}

/-- Names are bound to variables that are there, no two of them to one, in frames that stand on
earlier ones or show data that is there. -/
structure WellBound (m : Machine) : Prop where
  stacked : m.Stacked
  there : ∀ p, m.Binds p → p.2 < m.locals.size
  apart : ∀ p q, m.Binds p → m.Binds q → p.2 = q.2 → p.1 = q.1
  hosts : ∀ f source, m.kind? f = some (.hosted source) → source.There m

/-- The frames bind what they bound, and neither variables nor data of the host are lost. -/
structure KeepsScopes (m m' : Machine) : Prop where
  size : m'.frames.size = m.frames.size
  kind : ∀ f, m'.kind? f = m.kind? f
  locals : m.locals.size ≤ m'.locals.size
  there : ∀ source : HostSource, source.There m → source.There m'

theorem KeepsScopes.wellBound (h : m.KeepsScopes m') (hm : m.WellBound) : m'.WellBound := by
  have hbinds {p : Name × Nat} (hp : m'.Binds p) : m.Binds p := by
    obtain ⟨f, kind, hk, hb⟩ := hp
    exact ⟨f, kind, h.kind f ▸ hk, hb⟩
  constructor
  case stacked =>
    intro f hf g hg
    rw [below?, h.kind] at hg
    exact hm.stacked f (h.size ▸ hf) g hg
  case there =>
    intro p hp
    exact Nat.lt_of_lt_of_le (hm.there p (hbinds hp)) h.locals
  case apart =>
    intro p q hp hq
    exact hm.apart p q (hbinds hp) (hbinds hq)
  case hosts =>
    intro f source hk
    exact h.there source (hm.hosts f source (h.kind f ▸ hk))

theorem KeepsScopes.of_written {source : HostSource} {key : String} {v : Value}
    (h : source.Written key v m m') : m.KeepsScopes m' :=
  ⟨congrArg Array.size h.frames, fun f => by rw [kind?, h.frames, kind?],
    Nat.le_of_eq (congrArg Array.size h.locals.symm), h.there⟩

theorem KeepsScopes.write (m : Machine) (i : Nat) (update : Variable → Variable) :
    m.KeepsScopes { m with locals := m.locals.modify i update } :=
  ⟨rfl, fun _ => rfl, Nat.le_of_eq Array.size_modify.symm, fun source h => by
    cases source <;> exact h⟩

theorem SameButSignals.keepsScopes (h : m.SameButSignals m') : m.KeepsScopes m' := by
  refine ⟨h.size, h.kind, Nat.le_of_eq (congrArg Array.size h.locals.symm), fun source hs => ?_⟩
  cases source with
  | map g => rwa [HostSource.There, h.store]
  | table i => rwa [HostSource.There, h.tables, data, h.tables]

section PushFrame

variable {kind : FrameKind}

theorem Binds.of_pushFrame (hbound : kind.bound = []) {p : Name × Nat}
    (hp : (m.pushFrame kind).2.Binds p) : m.Binds p := by
  obtain ⟨f, kind', hk, hb⟩ := hp
  rw [kind?_pushFrame] at hk
  split at hk
  · obtain rfl := Option.some.inj hk
    exact absurd (hbound ▸ hb) List.not_mem_nil
  · exact ⟨f, kind', hk, hb⟩

theorem hosted_of_pushFrame {source : HostSource}
    (hk : (m.pushFrame kind).2.kind? f = some (.hosted source)) :
    kind = .hosted source ∨ m.kind? f = some (.hosted source) := by
  rw [kind?_pushFrame] at hk
  split at hk
  · exact .inl (Option.some.inj hk)
  · exact .inr hk

/-- A new frame in which nothing is bound yet. -/
theorem WellBound.pushFrame (hm : m.WellBound) (hbound : kind.bound = [])
    (hbelow : ∀ g, kind.below = some g → g < m.frames.size)
    (hsource : ∀ source, kind = .hosted source → source.There m) :
    (m.pushFrame kind).2.WellBound where
  stacked := hm.stacked.pushFrame hbelow
  there p hp := hm.there p (.of_pushFrame hbound hp)
  apart p q hp hq := hm.apart p q (.of_pushFrame hbound hp) (.of_pushFrame hbound hq)
  hosts f source hk := by
    have hthere : source.There m := by
      rcases hosted_of_pushFrame hk with hkind | hold
      · exact hsource source hkind
      · exact hm.hosts f source hold
    cases source <;> exact hthere

end PushFrame

/-- The machine with a new variable, for which a frame is changed. -/
def bindNew (m : Machine) (f : Nat) (x : Variable) (update : Nat → FrameKind → FrameKind) :
    Machine :=
  ({ m with locals := m.locals.push x }).updateKind f (update m.locals.size)

theorem kind?_bindNew (m : Machine) (f : Nat) (x : Variable)
    (update : Nat → FrameKind → FrameKind) (g : Nat) : (m.bindNew f x update).kind? g =
      if f = g then (m.kind? g).map (update m.locals.size) else m.kind? g :=
  kind?_updateKind { m with locals := m.locals.push x } f g (update m.locals.size)

theorem size_locals_bindNew (m : Machine) (f : Nat) (x : Variable)
    (update : Nat → FrameKind → FrameKind) :
    (m.bindNew f x update).locals.size = m.locals.size + 1 := by
  simp [Machine.bindNew, Machine.updateKind]

section BindNew

variable {name : Name} {update : Nat → FrameKind → FrameKind}
  (h : ∀ kind, m.kind? f = some kind → kind.Rebound name m.locals.size (update m.locals.size kind))

include h

theorem kind?_bindNew_cases {x : Variable} {g : Nat} {kind' : FrameKind}
    (hk : (m.bindNew f x update).kind? g = some kind') :
    ∃ kind, m.kind? g = some kind ∧ kind.Rebound name m.locals.size kind' := by
  rw [kind?_bindNew] at hk
  split at hk
  · next heq =>
    subst heq
    obtain ⟨kind, hkind, rfl⟩ := Option.map_eq_some_iff.mp hk
    exact ⟨kind, hkind, h kind hkind⟩
  · exact ⟨kind', hk, rfl, fun _ hp => .inr hp⟩

theorem outline_bindNew (x : Variable) (g : Nat) :
    ((m.bindNew f x update).kind? g).map FrameKind.outline = (m.kind? g).map FrameKind.outline := by
  rw [kind?_bindNew]
  split
  · next heq =>
    subst heq
    cases hk : m.kind? f with
    | none => rfl
    | some kind => exact congrArg some (h kind hk).outline
  · rfl

theorem Binds.of_bindNew {x : Variable} {p : Name × Nat} (hp : (m.bindNew f x update).Binds p) :
    p = (name, m.locals.size) ∨ m.Binds p := by
  obtain ⟨g, kind', hk', hb⟩ := hp
  obtain ⟨kind, hk, hre⟩ := kind?_bindNew_cases h hk'
  exact (hre.bound p hb).imp id fun hb => ⟨g, kind, hk, hb⟩

theorem Stacked.bindNew (hm : m.Stacked) (x : Variable) : (m.bindNew f x update).Stacked := by
  have hframes : (m.bindNew f x update).frames.size = m.frames.size := Array.size_modify
  intro g hg i hi
  obtain ⟨kind', hk', hbelow⟩ := Option.bind_eq_some_iff.mp hi
  obtain ⟨kind, hk, hre⟩ := kind?_bindNew_cases h hk'
  refine hm g (hframes ▸ hg) i ?_
  rw [below?, hk, Option.bind_some, ← FrameKind.below_outline, ← hre.outline,
    FrameKind.below_outline, hbelow]

theorem hosted_of_bindNew {x : Variable} {g : Nat} {source : HostSource}
    (hk' : (m.bindNew f x update).kind? g = some (.hosted source)) :
    m.kind? g = some (.hosted source) := by
  obtain ⟨kind, hk, hre⟩ := kind?_bindNew_cases h hk'
  have hout := hre.outline
  cases kind with
  | hosted => exact hk.trans (congrArg some hout.symm)
  | named | indexed | guarded => cases hout

/-- A new variable is bound to one name alone. -/
theorem WellBound.bindNew (hm : m.WellBound) (x : Variable) : (m.bindNew f x update).WellBound := by
  have hlocals := size_locals_bindNew m f x update
  constructor
  case stacked => exact hm.stacked.bindNew h x
  case there =>
    intro p hp
    rw [hlocals]
    rcases Binds.of_bindNew h hp with rfl | hp
    · exact Nat.lt_succ_self _
    · exact Nat.lt_succ_of_lt (hm.there p hp)
  case apart =>
    intro p q hp hq hpq
    rcases Binds.of_bindNew h hp with rfl | hp <;> rcases Binds.of_bindNew h hq with rfl | hq
    · rfl
    · exact absurd (hm.there q hq) (hpq ▸ Nat.lt_irrefl _)
    · exact absurd (hm.there p hp) (hpq ▸ Nat.lt_irrefl _)
    · exact hm.apart p q hp hq hpq
  case hosts =>
    intro g source hk'
    have hthere : source.There m := hm.hosts g source (hosted_of_bindNew h hk')
    cases source <;> exact hthere

end BindNew

end Machine

end MeteredScript

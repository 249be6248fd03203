import MeteredScript.Proofs.Evaluation.Tracks
import MeteredScript.Proofs.Store.Maps

/-!
# Names and variables in a setting

A name that is looked up from a frame of the setting stands for something that may be held, and
declaring or assigning what may be held is done in steps of the setting.
-/

namespace MeteredScript

variable {S : Setting} {m : Machine}

/-! ## Lookup -/

/-- What a cell of this kind gives access to may be held. -/
structure Cell.Fits (R : Realm) (m : Machine) (cell : Cell) : Prop where
  own : ∀ i : Nat, cell = .own i → ∀ x : Variable, m.locals[i]? = some x → R.admits x.value
  map : ∀ (h : Handle) (key : String), cell = .hosted (.map h) key → R.handle h
  table : ∀ (i : Nat) (key : String), cell = .hosted (.table i) key →
    ∀ v, (m.data i).Stocks v → R.admits v

namespace FrameKind

theorem Holds.own_fits {R : Realm} {kind : FrameKind} (h : kind.Holds R m) {i : Nat}
    (hi : i ∈ kind.indices) : Cell.Fits R m (.own i) := by
  constructor
  case own =>
    intro j hj
    rw [← Cell.own.inj hj]
    exact h.own i hi
  case map => simp
  case table => simp

theorem Holds.find?_fits {R : Realm} {kind : FrameKind} (h : kind.Holds R m) {names : Interner}
    {name : Name} {cell : Cell} (hf : kind.find? m names name = some cell) : cell.Fits R m := by
  cases kind with
  | named bindings next =>
    obtain ⟨i, hi, rfl⟩ := Option.map_eq_some_iff.mp hf
    exact h.own_fits (List.mem_map_of_mem (mem_of_lookup_eq_some hi))
  | indexed slots next =>
    obtain ⟨p, hp, rfl⟩ := Option.map_eq_some_iff.mp hf
    obtain ⟨slot, hslot, hfil⟩ := List.exists_of_findSome?_eq_some hp
    have hsome : slot = some p := (Option.filter_eq_some_iff.mp hfil).1
    exact h.own_fits (List.mem_filterMap.mpr ⟨slot, hslot, by rw [hsome]; rfl⟩)
  | guarded delegate => cases hf
  | hosted source =>
    simp only [find?] at hf
    split at hf
    · rw [← Option.some.inj hf]
      constructor
      case own => simp
      case map =>
        intro k key hk
        exact h.map k (by rw [(Cell.hosted.inj hk).1])
      case table =>
        intro i key hk
        exact h.table i (by rw [(Cell.hosted.inj hk).1])
    · cases hf

end FrameKind

namespace Machine

theorem Held.baseTo (h : m.Held S) (fuel : Nat) {f : Nat} (hf : S.frame f) :
    S.frame (m.baseTo fuel f) := by
  induction fuel generalizing f with
  | zero => exact hf
  | succ fuel ih =>
    unfold Machine.baseTo
    split
    · next delegate hk => exact ih (h.below f _ hf hk delegate rfl)
    · exact hf

theorem Held.base (h : m.Held S) {f : Nat} (hf : S.frame f) : S.frame (m.base f) :=
  h.baseTo (f + 1) hf

theorem Held.lineageTo (h : m.Held S) (fuel : Nat) {f : Nat} (hf : S.frame f) :
    ∀ g ∈ m.lineageTo fuel f, S.frame g := by
  induction fuel generalizing f with
  | zero => exact fun _ hg => absurd hg List.not_mem_nil
  | succ fuel ih =>
    unfold Machine.lineageTo
    split
    · exact fun _ hg => absurd hg List.not_mem_nil
    · next delegate hk => exact ih (h.below f _ hf hk delegate rfl)
    · next kind hnot hk =>
      refine List.forall_mem_cons.mpr ⟨hf, ?_⟩
      cases hn : kind.next? with
      | none => exact fun _ hg => absurd hg List.not_mem_nil
      | some next =>
        refine ih (h.below f kind hf hk next ?_)
        cases kind with
        | named | indexed => exact hn
        | guarded | hosted => cases hn

theorem Held.findIn_fits (h : m.Held S) {names : Interner} {name : Name} {f : Nat} {cell : Cell}
    (hf : S.frame f) (hc : m.findIn names name f = some cell) : cell.Fits S.toRealm m := by
  obtain ⟨kind, hk, hfind⟩ := Option.bind_eq_some_iff.mp hc
  exact (h.holds f kind hf hk).find?_fits hfind

theorem Held.resolve?_fits (h : m.Held S) {names : Interner} {name : Name} {f : Nat} {cell : Cell}
    (hf : S.frame f) (hc : m.resolve? names f name = some cell) : cell.Fits S.toRealm m := by
  obtain ⟨g, hg, hfind⟩ := List.exists_of_findSome?_eq_some hc
  exact h.findIn_fits (h.lineageTo _ hf g hg) hfind

end Machine

namespace Cell

theorem Fits.read (hm : m.Held S) {cell : Cell} (h : cell.Fits S.toRealm m) :
    S.admits (cell.read m) := by
  cases cell with
  | own i =>
    simp only [Cell.read]
    cases hx : m.locals[i]? with
    | none => trivial
    | some x => exact h.own i rfl x hx
  | hosted source key =>
    simp only [Cell.read, HostSource.get?]
    cases source with
    | map k => exact Entries.lookup_getD_mem (hm.store.entries k) _
    | table i =>
      dsimp only
      cases hv : (m.data i).get? key with
      | none => trivial
      | some v => exact h.table i key rfl v (.of_get? hv)

end Cell

/-! ## Writing -/

variable {v : Value} (hv : S.admits v)

include hv

theorem HostSource.set_keeps [S.Lawful] {source : HostSource} (hs : ∀ h, source = .map h → S.handle h)
    (key : String) : Act.Keeps S (source.set key v) fun _ => True := by
  unfold HostSource.set
  cases source with
  | map h =>
    exact .onStore (.bind (Maps.insert_safe (hs h rfl) _ hv) fun _ _ => .pure trivial)
  | table i =>
    -- What the data keeps may have changed although the write fails.
    exact fun m _ => ⟨rfl, .single (.put i key v hv), fun _ _ => trivial, fun _ _ => trivial⟩

theorem Cell.write_keeps [S.Lawful] (hm : m.Held S) {cell : Cell} (hc : cell.Fits S.toRealm m) :
    TracksFrom S (fun _ => True) m (cell.write v) (cell.write v) fun _ => True := by
  cases cell with
  | own i =>
    simp only [Cell.write]
    refine .get ?_
    rcases ht : checkType (m.locals[i]?.bind (·.type)) v with f | _
    · exact .fails rfl trivial _
    · exact .look rfl (.ends rfl (.single (.write i v ht hv)) trivial)
  | hosted source key =>
    exact HostSource.set_keeps hv (fun h hk => hc.map h key (by rw [hk])) key m hm

namespace Scope

theorem newVariable_bound (base : Nat) (update : Nat → FrameKind → FrameKind)
    (type : Option ValueType)
    (hstep : ∀ x : Variable, S.admits x.value →
      Machine.Step S { m with locals := m.locals.push x }
        (Machine.updateKind { m with locals := m.locals.push x } base (update m.locals.size))) :
    TracksFrom S (fun _ => True) m
      (do let i ← newVariable v type; updateKind base (update i); return Cell.own i)
      (do let i ← newVariable v type; updateKind base (update i); return Cell.own i)
      fun _ => True := by
  rcases ht : checkType type v with f | _
  · refine .fails (e := f) ?_ trivial _
    unfold newVariable
    rw [ht]
    rfl
  · have hsteps := (Relation.ReflTransGen.single
      (Machine.Step.newVariable (S := S) (m := m) ⟨v, type⟩ ht hv)).tail (hstep ⟨v, type⟩ hv)
    refine .ends (a := .own m.locals.size) ?_ hsteps trivial
    unfold newVariable
    rw [ht]
    rfl

omit hv in
theorem getElem?_pushed (x : Variable) : (m.locals.push x)[m.locals.size]? = some x := by
  simp

theorem declare_keeps [S.Lawful] {f : Nat} (hf : S.frame f) (names : Interner) (name : Name)
    (type : Option ValueType) : Act.Keeps S (declare names f name v type) fun _ => True := by
  intro m hm
  have hbase := hm.base hf
  unfold declare
  refine .get (.get ?_)
  dsimp only
  split
  · next source hk =>
    refine .bind hm ?_ fun _ (_ : True) => .pure trivial
    exact HostSource.set_keeps hv (fun h hs => (hm.holds _ _ hbase hk).map h (by rw [hs])) _ m hm
  · refine newVariable_bound hv _ (fun i => (·.bind name i)) type fun x hx => ?_
    exact .bind _ name _ x hbase (getElem?_pushed x) hx

theorem declareAt_keeps [S.Lawful] {f : Nat} (hf : S.frame f) (names : Interner) (slot : Nat)
    (name : Name) (type : Option ValueType) :
    Act.Keeps S (declareAt names f slot name v type) fun _ => True := by
  intro m hm
  have hbase := hm.base hf
  unfold declareAt
  refine .get (.get ?_)
  dsimp only
  split
  · next slots next hk =>
    have hbound := newVariable_bound (m := m) hv (m.base f)
      (fun i _ => .indexed (slots.set slot (some (name, i))) next) type fun x hx =>
      .bindSlot _ slot name _ x hbase (getElem?_pushed x) hx slots next hk
    split
    · exact .fails rfl trivial _
    · exact hbound
  · exact declare_keeps hv hf names name type m hm

omit hv in
theorem resolve_run (names : Interner) (f : Nat) (name : Name) :
    (resolve names f name).run m = (match m.resolve? names f name with
      | some cell => .ok cell
      | none => .error (Fault.nameNotFound (names.lookup name)), m) := by
  unfold resolve
  rw [run_bind]
  change (match m.resolve? names f name with
    | some cell => (pure cell : Act Cell)
    | none => throw (Fault.nameNotFound (names.lookup name))).run m = _
  cases m.resolve? names f name <;> rfl

theorem assign_keeps [S.Lawful] {f : Nat} (hf : S.frame f) (names : Interner) (name : Name) :
    Act.Keeps S (assign names f name v) fun _ => True := by
  intro m hm
  unfold assign
  refine .get ?_
  split
  · cases hr : m.resolve? names f name with
    | none =>
      refine .fails (e := .nameNotFound (names.lookup name)) ?_ trivial _
      rw [run_bind, resolve_run, hr]
    | some cell =>
      refine .look (a := cell) ?_ (cell.write_keeps hv hm (hm.resolve?_fits hf hr))
      rw [resolve_run, hr]
  · exact .bind hm (declare_keeps hv hf names name none m hm) fun _ (_ : True) => .pure trivial

omit hv in
theorem enter_keeps {f : Nat} (hf : S.frame f) : Act.Keeps S (enter f) S.frame :=
  fun m hm => .ends rfl (.single (.enter f hf)) (hm.fresh m.frames.size (Nat.le_refl _))

end Scope

end MeteredScript

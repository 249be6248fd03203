import MeteredScript.Proofs.Scope.Binding

/-!
# What declarations and assignments come to

A declaration, a write or an assignment either is refused and changes nothing at all, or does one
thing: it binds a new variable in one frame, replaces the value of one variable, or writes one key
of the data of a host.
-/

namespace MeteredScript

variable {names : Interner} {m m' : Machine} {f : Nat} {x y : Name} {v : Value}
  {type : Option ValueType}

/-! ## What declarations and writes come to -/

namespace Scope

theorem bindNew_eq (base : Nat) (update : Nat → FrameKind → FrameKind) (m : Machine) (v : Value)
    (type : Option ValueType) :
    (do
        let i ← newVariable v type
        updateKind base (update i)
        return Cell.own i : Act Cell).run m =
      match checkType type v with
      | .ok () => (.ok (.own m.locals.size), m.bindNew base ⟨v, type⟩ update)
      | .error e => (.error e, m) := by
  unfold newVariable
  cases checkType type v <;> rfl

/-- What a declaration can come to, and what it does to the machine. -/
inductive Declared (names : Interner) (f : Nat) (x : Name) (v : Value) (type : Option ValueType)
    (m : Machine) : Except Fault Cell × Machine → Prop
  | refused (e : Fault) : Declared names f x v type m (.error e, m)
  | own {kind : FrameKind} (found : m.kind? (m.base f) = some kind)
      (unhosted : kind.standsFor = none) : Declared names f x v type m
        (.ok (.own m.locals.size), m.bindNew (m.base f) ⟨v, type⟩ fun i => (·.bind x i))
  | hosted {source : HostSource} {m' : Machine} (found : m.kind? (m.base f) = some (.hosted source))
      (written : source.Written (names.lookup x) v m m') :
      Declared names f x v type m (.ok (.hosted source (names.lookup x)), m')

theorem declare_declared (hm : m.WellBound) (hf : f < m.frames.size) (names : Interner) (x : Name)
    (v : Value) (type : Option ValueType) :
    Declared names f x v type m ((declare names f x v type).run m) := by
  obtain ⟨kind, hk⟩ := Machine.exists_kind (Machine.base_lt hm.stacked hf)
  have hown (hunhosted : kind.standsFor = none) :
      Declared names f x v type m (match checkType type v with
        | .ok () => (.ok (.own m.locals.size), m.bindNew (m.base f) ⟨v, type⟩ fun i => (·.bind x i))
        | .error e => (.error e, m)) := by
    cases checkType type v with
    | ok => exact .own hk hunhosted
    | error e => exact .refused e
  rw [declare_run, hk]
  cases kind with
  | named | indexed => exact bindNew_eq (m.base f) (fun i => (·.bind x i)) m v type ▸ hown rfl
  | guarded delegate => exact absurd ⟨delegate, hk⟩ (hm.stacked.base_not_guarded hf)
  | hosted source =>
    dsimp only
    rw [run_bind]
    rcases source.set_cases (hm.hosts _ source hk) (names.lookup x) v with
      ⟨m', hrun, hwritten⟩ | ⟨e, hrun⟩
    · rw [hrun]
      exact .hosted hk hwritten
    · rw [hrun]
      exact .refused e

/-- The same for a declaration in a slot. Where there are no slots, it goes by the name alone. -/
inductive DeclaredAt (names : Interner) (f slot : Nat) (x : Name) (v : Value)
    (type : Option ValueType) (m : Machine) : Except Fault Cell × Machine → Prop
  | refused (e : Fault) : DeclaredAt names f slot x v type m (.error e, m)
  | slot {slots : List (Option (Name × Nat))} {next : Option Nat}
      (found : m.kind? (m.base f) = some (.indexed slots next)) (there : slot < slots.length) :
      DeclaredAt names f slot x v type m (.ok (.own m.locals.size),
        m.bindNew (m.base f) ⟨v, type⟩ fun i _ => .indexed (slots.set slot (some (x, i))) next)
  | name {r : Except Fault Cell × Machine}
      (noSlots : ∀ slots next, m.kind? (m.base f) ≠ some (.indexed slots next))
      (declared : Declared names f x v type m r) : DeclaredAt names f slot x v type m r

theorem declareAt_declared (hm : m.WellBound) (hf : f < m.frames.size) (names : Interner)
    (slot : Nat) (x : Name) (v : Value) (type : Option ValueType) :
    DeclaredAt names f slot x v type m ((declareAt names f slot x v type).run m) := by
  rw [declareAt_run]
  split
  · next slots next hk =>
    split
    · exact .refused _
    · next hslot =>
      have hrun := bindNew_eq (m.base f) (fun i _ => .indexed (slots.set slot (some (x, i))) next) m
        v type
      refine hrun ▸ ?_
      cases checkType type v with
      | ok => exact .slot hk (Nat.lt_of_not_le hslot)
      | error e => exact .refused e
  · next hno => exact .name (fun slots next hk => hno slots next hk) (declare_declared hm hf ..)

end Scope

/-- What a write can come to: of a variable, that its value is replaced. -/
inductive Cell.Wrote (v : Value) (m : Machine) : Cell → Except Fault Unit × Machine → Prop
  | refused (cell : Cell) (e : Fault) : Wrote v m cell (.error e, m)
  | own (i : Nat) : Wrote v m (.own i)
      (.ok (), { m with locals := m.locals.modify i fun x => { x with value := v } })
  | hosted {source : HostSource} {key : String} {m' : Machine}
      (written : source.Written key v m m') : Wrote v m (.hosted source key) (.ok (), m')

theorem Cell.write_wrote {cell : Cell}
    (hcell : ∀ source key, cell = .hosted source key → source.There m) (v : Value) :
    cell.Wrote v m ((cell.write v).run m) := by
  cases cell with
  | own i =>
    unfold write
    rw [run_get_bind]
    cases checkType (m.locals[i]?.bind (·.type)) v with
    | ok => exact .own i
    | error e => exact .refused _ e
  | hosted source key =>
    rcases source.set_cases (hcell source key rfl) key v with ⟨m', hrun, hwritten⟩ | ⟨e, hrun⟩
    · exact (congrArg (Cell.Wrote v m (.hosted source key)) hrun).mpr (.hosted hwritten)
    · exact (congrArg (Cell.Wrote v m (.hosted source key)) hrun).mpr (.refused _ e)

/-! ## What they keep -/

theorem Scope.Declared.wellBound (hm : m.WellBound) {r : Except Fault Cell × Machine}
    (h : Declared names f x v type m r) : r.2.WellBound := by
  cases h with
  | refused e => exact hm
  | own found unhosted =>
    exact hm.bindNew (fun kind _ => kind.rebound_bind x m.locals.size) _
  | hosted found written => exact (Machine.KeepsScopes.of_written written).wellBound hm

theorem Scope.DeclaredAt.wellBound (hm : m.WellBound) {slot : Nat}
    {r : Except Fault Cell × Machine} (h : DeclaredAt names f slot x v type m r) :
    r.2.WellBound := by
  cases h with
  | refused e => exact hm
  | @slot slots next found there =>
    let update : Nat → FrameKind → FrameKind :=
      fun i _ => .indexed (slots.set slot (some (x, i))) next
    have hrebound : ∀ kind, m.kind? (m.base f) = some kind →
        kind.Rebound x m.locals.size (update m.locals.size kind) := by
      intro kind hk
      obtain rfl := Option.some.inj (found.symm.trans hk)
      exact FrameKind.rebound_set x m.locals.size slot slots next
    exact hm.bindNew hrebound _
  | name noSlots declared => exact declared.wellBound hm

theorem Cell.Wrote.wellBound (hm : m.WellBound) {cell : Cell} {r : Except Fault Unit × Machine}
    (h : cell.Wrote v m r) : r.2.WellBound := by
  cases h with
  | refused e => exact hm
  | own i => exact (Machine.KeepsScopes.write m i _).wellBound hm
  | hosted written => exact (Machine.KeepsScopes.of_written written).wellBound hm

/-- A name is resolved to a cell of data that is there. -/
theorem Machine.WellBound.cell_there (hm : m.WellBound) {cell : Cell}
    (h : m.resolve? names f x = some cell) :
    ∀ source key, cell = .hosted source key → source.There m := by
  rintro source key rfl
  rcases resolve?_cases h with ⟨i, hi, -⟩ | ⟨source', hc, ⟨g, hg⟩, -⟩
  · cases hi
  · exact (Cell.hosted.inj hc).1 ▸ hm.hosts g source' hg

/-- What an assignment can come to: it writes the cell that the name stands for, or declares the
name if there is none. -/
inductive Scope.Assigned (names : Interner) (f : Nat) (x : Name) (v : Value) (m : Machine) :
    Except Fault Unit × Machine → Prop
  | write {cell : Cell} {r : Except Fault Unit × Machine}
      (found : m.resolve? names f x = some cell) (wrote : cell.Wrote v m r) :
      Assigned names f x v m r
  | declare {r : Except Fault Cell × Machine} (declared : Declared names f x v none m r) :
      Assigned names f x v m (r.1.map fun _ => (), r.2)

theorem Scope.assign_assigned (hm : m.WellBound) (hf : f < m.frames.size) (names : Interner)
    (x : Name) (v : Value) : Assigned names f x v m ((assign names f x v).run m) := by
  unfold assign
  rw [run_get_bind, ← m.isSome_resolve?]
  cases hr : m.resolve? names f x with
  | some cell =>
    have hrun : (do (← resolve names f x).write v : Act Unit).run m = (cell.write v).run m := by
      rw [run_bind, resolve_run, hr]
    exact hrun ▸ .write hr (cell.write_wrote (hm.cell_there hr) v)
  | none =>
    have hdeclared := declare_declared hm hf names x v none
    have hrun : (do let _ ← declare names f x v none : Act Unit).run m =
        (((declare names f x v none).run m).1.map fun _ => (),
          ((declare names f x v none).run m).2) := by
      rw [run_bind]
      rcases (declare names f x v none).run m with ⟨_ | _, _⟩ <;> rfl
    exact hrun ▸ .declare hdeclared

theorem Scope.Assigned.wellBound (hm : m.WellBound) {r : Except Fault Unit × Machine}
    (h : Assigned names f x v m r) : r.2.WellBound := by
  cases h with
  | write found wrote => exact wrote.wellBound hm
  | declare declared => exact declared.wellBound hm

/-- Machines whose frames were new at some time, and have since been filled by declarations and
assignments alone. What else is done leaves the frames, and neither variables nor data of the host
are lost. -/
inductive Machine.Framed : Machine → Prop
  | start {m : Machine} (none : m.frames = #[]) : Framed m
  | named {m : Machine} (before : Framed m) (next : Option Nat)
      (there : ∀ g, next = some g → g < m.frames.size) :
      Framed (m.pushFrame (.named [] next)).2
  | indexed {m : Machine} (before : Framed m) (slots : Nat) (next : Option Nat)
      (there : ∀ g, next = some g → g < m.frames.size) :
      Framed (m.pushFrame (.indexed (List.replicate slots none) next)).2
  | guarded {m : Machine} (before : Framed m) (delegate : Nat)
      (there : delegate < m.frames.size) : Framed (m.pushGuarded delegate).2
  | hosted {m : Machine} (before : Framed m) (source : HostSource)
      (there : source.There m) : Framed (m.pushFrame (.hosted source)).2
  | declare {m : Machine} (before : Framed m) (names : Interner) (f : Nat)
      (there : f < m.frames.size) (x : Name) (v : Value) (type : Option ValueType) :
      Framed ((Scope.declare names f x v type).run m).2
  | declareAt {m : Machine} (before : Framed m) (names : Interner) (f : Nat)
      (there : f < m.frames.size) (slot : Nat) (x : Name) (v : Value) (type : Option ValueType) :
      Framed ((Scope.declareAt names f slot x v type).run m).2
  | assign {m : Machine} (before : Framed m) (names : Interner) (f : Nat)
      (there : f < m.frames.size) (x : Name) (v : Value) :
      Framed ((Scope.assign names f x v).run m).2
  | write {m : Machine} (before : Framed m) (cell : Cell)
      (there : ∀ source key, cell = .hosted source key → source.There m) (v : Value) :
      Framed ((cell.write v).run m).2
  | other {m m' : Machine} (before : Framed m) (kept : m.KeepsScopes m') : Framed m'

theorem Machine.wellBound_of_frames (h : m.frames = #[]) : m.WellBound := by
  have hnone (f : Nat) : m.kind? f = none := by simp [kind?, h]
  have hbinds (p : Name × Nat) : ¬ m.Binds p := by
    rintro ⟨f, kind, hk, -⟩
    cases (hnone f).symm.trans hk
  constructor
  case stacked =>
    intro f hf
    rw [h] at hf
    exact absurd hf (Nat.not_lt_zero f)
  case there => exact fun p hp => absurd hp (hbinds p)
  case apart => exact fun p _ hp => absurd hp (hbinds p)
  case hosts =>
    intro f source hk
    cases (hnone f).symm.trans hk

theorem Machine.Framed.wellBound (h : m.Framed) : m.WellBound := by
  induction h with
  | start none => exact wellBound_of_frames none
  | named _ next there hm => exact hm.pushFrame rfl there (by simp)
  | indexed _ slots next there hm =>
    exact hm.pushFrame List.reduceOption_replicate_none there (by simp)
  | @guarded m _ delegate there hm =>
    have same := m.sameButSignals_lower .tilt delegate
    refine (same.keepsScopes.wellBound hm).pushFrame rfl (fun g hg => ?_) (by simp)
    rwa [← Option.some.inj hg, same.size]
  | hosted _ source there hm =>
    refine hm.pushFrame rfl (fun g hg => ?_) fun other h => ?_
    · cases hg
    · rwa [← FrameKind.hosted.inj h]
  | declare _ names f there x v type hm => exact (Scope.declare_declared hm there ..).wellBound hm
  | declareAt _ names f there slot x v type hm =>
    exact (Scope.declareAt_declared hm there ..).wellBound hm
  | assign _ names f there x v hm => exact (Scope.assign_assigned hm there ..).wellBound hm
  | write _ cell there v hm => exact (cell.write_wrote there v).wellBound hm
  | other _ kept hm => exact kept.wellBound hm

end MeteredScript

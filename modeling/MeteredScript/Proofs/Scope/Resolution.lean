import Mathlib.Data.List.ReduceOption
import MeteredScript.Proofs.Evaluation.Bindings
import MeteredScript.Proofs.Evaluation.Raising
import MeteredScript.Proofs.Store.Writing

/-!
# What names stand for

The frames of a chain are searched in the order of its lineage. What is bound in a frame afterwards
changes no lineage, so a name goes on to stand for its cell as long as every frame of the lineage
has the same cell for it as before.
-/

namespace MeteredScript

/-! ## What a frame binds -/

section Bindings

variable {x y : Name} {i : Nat}

/-- The variable in the first of the slots that holds a name. -/
def holder (name : Name) (slots : List (Option (Name × Nat))) : Option (Name × Nat) :=
  slots.findSome? fun slot => slot.filter (·.1 = name)

theorem holder_append (name : Name) (slots more : List (Option (Name × Nat))) :
    holder name (slots ++ more) = (holder name slots).or (holder name more) :=
  List.findSome?_append

theorem holder_cons (name : Name) (slot : Option (Name × Nat)) (rest : List (Option (Name × Nat))) :
    holder name (slot :: rest) = (slot.filter (·.1 = name)).or (holder name rest) := by
  unfold holder
  rw [List.findSome?_cons]
  cases slot.filter (·.1 = name) <;> rfl

theorem holder_eq_none {slots : List (Option (Name × Nat))} :
    holder x slots = none ↔ ∀ b, some b ∈ slots → b.1 ≠ x := by
  simp only [holder, List.findSome?_eq_none_iff, Option.filter_eq_none_iff, decide_eq_true_eq]
  constructor
  · intro h b hb
    exact h (some b) hb b rfl
  · rintro h slot hs b rfl
    exact h b hs

theorem holder_bindSlot_self (x : Name) (i : Nat) (slots : List (Option (Name × Nat))) :
    holder x (bindSlot x i slots) = some (x, i) := by
  induction slots with
  | nil => simp [bindSlot, holder]
  | cons slot rest ih =>
    unfold bindSlot
    split
    · simp [holder_cons]
    · next hslot =>
      have hfree : slot.filter (·.1 = x) = none := by
        cases slot with
        | none => rfl
        | some b => simpa using hslot
      rw [holder_cons, hfree, Option.none_or, ih]

theorem holder_bindSlot_of_ne (hy : y ≠ x) (slots : List (Option (Name × Nat))) :
    holder y (bindSlot x i slots) = holder y slots := by
  induction slots with
  | nil => simp [bindSlot, holder, Ne.symm hy]
  | cons slot rest ih =>
    unfold bindSlot
    split
    · next hslot =>
      obtain ⟨⟨n, j⟩, rfl, hb⟩ := (Option.any_eq_true _ _).mp hslot
      obtain rfl : n = x := by simpa using hb
      have hother (j : Nat) : (some (n, j)).filter (·.1 = y) = none := by simp [Ne.symm hy]
      rw [holder_cons, holder_cons, hother, hother]
    · rw [holder_cons, holder_cons, ih]

section Set

variable {slots : List (Option (Name × Nat))} {k : Nat} (hk : k < slots.length)

include hk

theorem holder_set (name : Name) (b : Name × Nat) :
    holder name (slots.set k (some b)) = (holder name (slots.take k)).or
      (((some b).filter (·.1 = name)).or (holder name (slots.drop (k + 1)))) := by
  rw [List.set_eq_take_append_cons_drop, if_pos hk, holder_append, holder_cons]

/-- A name that is put in a slot is found there unless an earlier slot holds it. -/
theorem holder_set_self (x : Name) (i : Nat) : holder x (slots.set k (some (x, i))) =
    (holder x (slots.take k)).or (some (x, i)) := by
  have hnew : (some (x, i)).filter (·.1 = x) = some (x, i) := by simp
  rw [holder_set hk, hnew, Option.some_or]

theorem holder_eq (name : Name) : holder name slots = (holder name (slots.take k)).or
    ((slots[k].filter (·.1 = name)).or (holder name (slots.drop (k + 1)))) := by
  conv_lhs => rw [← List.take_append_drop k slots, List.drop_eq_getElem_cons hk, holder_append,
    holder_cons]

theorem holder_set_of_ne (hy : y ≠ x) (hfree : ∀ b, slots[k]? = some (some b) → b.1 ≠ y) :
    holder y (slots.set k (some (x, i))) = holder y slots := by
  have hold : slots[k].filter (·.1 = y) = none := by
    cases hb : slots[k] with
    | none => rfl
    | some b => simp [hfree b (by rw [List.getElem?_eq_getElem hk, hb])]
  have hnew : (some (x, i)).filter (·.1 = y) = none := by simp [Ne.symm hy]
  rw [holder_set hk, holder_eq hk, hold, hnew]

end Set

end Bindings

namespace FrameKind

variable {kind : FrameKind} {m m' : Machine} {names : Interner} {x y : Name} {i j : Nat}

/-- The names bound in a frame, each with its variable. -/
def bound : FrameKind → List (Name × Nat)
  | named bindings _ => bindings
  | indexed slots _ => slots.reduceOption
  | guarded _ | hosted _ => []

theorem mem_bound_of_holder {slots : List (Option (Name × Nat))} {b : Name × Nat}
    (h : holder y slots = some b) : b ∈ slots.reduceOption ∧ b.1 = y := by
  obtain ⟨slot, hslot, hfil⟩ := List.exists_of_findSome?_eq_some h
  obtain ⟨rfl, hb⟩ := Option.filter_eq_some_iff.mp hfil
  exact ⟨List.reduceOption_mem_iff.mpr hslot, by simpa using hb⟩

theorem find?_indexed (slots : List (Option (Name × Nat))) (next : Option Nat) :
    (indexed slots next).find? m names y = (holder y slots).map (.own ·.2) := rfl

theorem find?_hosted (source : HostSource) : (hosted source).find? m names y =
    if source.contains m (names.lookup y) then some (.hosted source (names.lookup y))
    else none := rfl

/-- What is found in a frame is a variable bound there, or belongs to the host. -/
theorem find?_cases {cell : Cell} (h : kind.find? m names y = some cell) :
    (∃ i, cell = .own i ∧ (y, i) ∈ kind.bound) ∨
      ∃ source, cell = .hosted source (names.lookup y) ∧ kind = .hosted source ∧
        source.contains m (names.lookup y) = true := by
  cases kind with
  | named bindings next =>
    obtain ⟨i, hi, rfl⟩ := Option.map_eq_some_iff.mp h
    exact .inl ⟨i, rfl, mem_of_lookup_eq_some hi⟩
  | indexed slots next =>
    obtain ⟨b, hb, rfl⟩ := Option.map_eq_some_iff.mp h
    obtain ⟨hmem, rfl⟩ := mem_bound_of_holder hb
    exact .inl ⟨b.2, rfl, hmem⟩
  | guarded delegate => cases h
  | hosted source =>
    rw [find?_hosted] at h
    split at h
    · next hfound => exact .inr ⟨source, (Option.some.inj h).symm, rfl, hfound⟩
    · cases h

theorem mem_bound_slots {slots slots' : List (Option (Name × Nat))} {p : Name × Nat}
    (h : ∀ b ∈ slots', b = some (x, i) ∨ b ∈ slots) (hp : p ∈ slots'.reduceOption) :
    p = (x, i) ∨ p ∈ slots.reduceOption := by
  rw [List.reduceOption_mem_iff] at hp ⊢
  exact (h _ hp).imp Option.some.inj id

theorem mem_bound_bind {p : Name × Nat} (h : p ∈ (kind.bind x i).bound) :
    p = (x, i) ∨ p ∈ kind.bound := by
  cases kind with
  | named bindings next => exact Entries.mem_put h
  | indexed slots next => exact mem_bound_slots (fun _ => mem_bindSlot) h
  | guarded | hosted => exact .inr h

theorem mem_bound_set {slots : List (Option (Name × Nat))} {next : Option Nat} {k : Nat}
    {p : Name × Nat} (h : p ∈ (indexed (slots.set k (some (x, i))) next).bound) :
    p = (x, i) ∨ p ∈ (indexed slots next).bound :=
  mem_bound_slots (fun _ hb => (List.mem_or_eq_of_mem_set hb).symm) h

theorem find?_bind_self (hown : kind.standsFor = none) :
    (kind.bind x i).find? m names x = some (.own i) := by
  cases kind with
  | named bindings next => simp [bind, find?, Entries.lookup_put_self]
  | indexed slots next => simp [bind, find?_indexed, holder_bindSlot_self]
  | guarded | hosted => cases hown

theorem find?_bind_of_ne (hown : kind.standsFor = none) (hy : y ≠ x) :
    (kind.bind x i).find? m' names y = kind.find? m names y := by
  cases kind with
  | named bindings next => simp [bind, find?, Entries.lookup_put_of_ne hy]
  | indexed slots next => simp [bind, find?_indexed, holder_bindSlot_of_ne hy]
  | guarded | hosted => cases hown

/-- Outside of frames of a host, what is found is a matter of the frame alone. -/
theorem find?_congr (h : ∀ source, kind = .hosted source →
      source.contains m' (names.lookup y) = source.contains m (names.lookup y)) :
    kind.find? m' names y = kind.find? m names y := by
  cases kind with
  | named | indexed | guarded => rfl
  | hosted source => rw [find?_hosted, find?_hosted, h source rfl]

end FrameKind

namespace Machine

variable {m m' : Machine} {names : Interner} {f : Nat} {x y : Name}

/-! ## Lineages -/

theorem lineageTo_succ (m : Machine) (fuel f : Nat) : m.lineageTo (fuel + 1) f =
    match (m.kind? f).map FrameKind.outline with
    | none => []
    | some (.guarded delegate) => m.lineageTo fuel delegate
    | some kind => f :: (kind.next?.map (m.lineageTo fuel)).getD [] := by
  rw [lineageTo]
  rcases m.kind? f with _ | _ | _ | _ | _ <;> rfl

/-- What is bound in frames has no effect on lineages. -/
theorem lineage_congr
    (h : ∀ g, (m'.kind? g).map FrameKind.outline = (m.kind? g).map FrameKind.outline)
    (f : Nat) : m'.lineage f = m.lineage f := by
  unfold lineage
  generalize f + 1 = fuel
  induction fuel generalizing f with
  | zero => rfl
  | succ fuel ih =>
    have hsame : m'.lineageTo fuel = m.lineageTo fuel := funext ih
    rw [lineageTo_succ, lineageTo_succ, h, hsame]

theorem exists_kind (hf : f < m.frames.size) : ∃ kind, m.kind? f = some kind :=
  ⟨_, by rw [kind?, Array.getElem?_eq_getElem hf]; rfl⟩

/-- The search for a name starts in the frame that a frame stands for, which is not guarded. -/
theorem Stacked.lineageTo (h : m.Stacked) {fuel : Nat} (hfuel : f < fuel) (hf : f < m.frames.size) :
    (∃ rest, m.lineageTo fuel f = m.baseTo fuel f :: rest) ∧ ¬ m.Guarded (m.baseTo fuel f) := by
  induction fuel generalizing f with
  | zero => exact absurd hfuel (Nat.not_lt_zero f)
  | succ fuel ih =>
    obtain ⟨kind, hk⟩ := exists_kind hf
    cases kind with
    | guarded delegate =>
      have hlt : delegate < f := h f hf delegate (by rw [Machine.below?, hk]; rfl)
      simp only [Machine.lineageTo, baseTo, hk]
      exact ih (by omega) (Nat.lt_trans hlt hf)
    | named | indexed | hosted =>
      simp only [Machine.lineageTo, baseTo, hk]
      refine ⟨⟨_, rfl⟩, ?_⟩
      rintro ⟨delegate, hg⟩
      cases hk.symm.trans hg

theorem Stacked.base_not_guarded (h : m.Stacked) (hf : f < m.frames.size) :
    ¬ m.Guarded (m.base f) :=
  (h.lineageTo (Nat.lt_succ_self f) hf).2

/-! ## Resolution -/

theorem isSome_resolve? (m : Machine) (names : Interner) (f : Nat) (y : Name) :
    (m.resolve? names f y).isSome = m.isResolvable names f y := by
  unfold resolve? isResolvable
  rw [Bool.eq_iff_iff, List.findSome?_isSome_iff, List.any_eq_true]

/-- A name that is found in the frame that a frame stands for is looked up no further. -/
theorem resolve?_of_base (h : m.Stacked) (hf : f < m.frames.size)
    (hlineage : m'.lineage f = m.lineage f) {cell : Cell}
    (hc : m'.findIn names x (m.base f) = some cell) : m'.resolve? names f x = some cell := by
  obtain ⟨⟨rest, hrest⟩, -⟩ := h.lineageTo (Nat.lt_succ_self f) hf
  rw [resolve?, hlineage, lineage, hrest, List.findSome?_cons, ← base, hc]

theorem resolve?_eq (hlineage : m'.lineage f = m.lineage f)
    (hfind : ∀ g, m'.findIn names y g = m.findIn names y g) :
    m'.resolve? names f y = m.resolve? names f y := by
  rw [resolve?, hlineage, resolve?]
  exact congrArg (List.findSome? · (m.lineage f)) (funext hfind)

/-- The variable is bound to the name in some frame. -/
def Binds (m : Machine) (p : Name × Nat) : Prop := ∃ f kind, m.kind? f = some kind ∧ p ∈ kind.bound

/-- A name stands for a variable that is bound to it, or for something of the host. -/
theorem resolve?_cases {cell : Cell} (h : m.resolve? names f y = some cell) :
    (∃ i, cell = .own i ∧ m.Binds (y, i)) ∨
      ∃ source, cell = .hosted source (names.lookup y) ∧
        (∃ g, m.kind? g = some (.hosted source)) ∧
        source.contains m (names.lookup y) = true := by
  obtain ⟨g, -, hg⟩ := List.exists_of_findSome?_eq_some h
  obtain ⟨kind, hk, hfind⟩ := Option.bind_eq_some_iff.mp hg
  rcases FrameKind.find?_cases hfind with ⟨i, hi, hb⟩ | ⟨source, hc, rfl, hfound⟩
  · exact .inl ⟨i, hi, g, kind, hk, hb⟩
  · exact .inr ⟨source, hc, ⟨g, hk⟩, hfound⟩

/-- What a name stands for: a cell, with the value and the declared type that it has. -/
def meaning? (m : Machine) (names : Interner) (f : Nat) (name : Name) :
    Option (Cell × Value × Option ValueType) :=
  (m.resolve? names f name).map fun cell => (cell, cell.read m, cell.type? m)

/-- The cell has the value and the type that it had. -/
def KeepsCell (m m' : Machine) (cell : Cell) : Prop :=
  cell.read m' = cell.read m ∧ cell.type? m' = cell.type? m

theorem keepsCell_own {i : Nat} (h : m'.locals[i]? = m.locals[i]?) : m.KeepsCell m' (.own i) := by
  simp [KeepsCell, Cell.read, Cell.type?, h]

theorem keepsCell_hosted {source : HostSource} {key : String}
    (h : source.get? m' key = source.get? m key) : m.KeepsCell m' (.hosted source key) :=
  ⟨by rw [Cell.read, Cell.read, h], rfl⟩

theorem meaning?_eq (hlineage : m'.lineage f = m.lineage f)
    (hfind : ∀ g, m'.findIn names y g = m.findIn names y g)
    (hcell : ∀ cell, m.resolve? names f y = some cell → m.KeepsCell m' cell) :
    m'.meaning? names f y = m.meaning? names f y := by
  unfold meaning?
  rw [resolve?_eq hlineage hfind]
  refine Option.map_congr fun cell hc => ?_
  obtain ⟨hread, htype⟩ := hcell cell hc
  rw [hread, htype]

end Machine

end MeteredScript

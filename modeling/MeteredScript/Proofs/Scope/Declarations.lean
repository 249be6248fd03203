import MeteredScript.Proofs.Interner
import MeteredScript.Proofs.Scope.Outcomes

/-!
# Declared names

A name that is declared stands for the cell of its declaration afterwards, and all other names for
what they stood for. Slots are the exception: a slot that is given a name is not where the name is
looked up if an earlier slot of the frame holds the same name, and what the slot held is lost.
-/

namespace MeteredScript

variable {names : Interner} {m m' : Machine} {f : Nat} {x y : Name} {v : Value}
  {type : Option ValueType}

/-- The name comes to stand for a cell that holds the value, and all other names for what they stood
for before. Under a key of a host's data, where the text of a name counts, they have to be names of
the table. -/
structure Machine.Gives (names : Interner) (f : Nat) (x : Name) (cell : Cell) (v : Value)
    (m m' : Machine) : Prop where
  resolves : m'.resolve? names f x = some cell
  reads : cell.read m' = v
  others : ∀ y, y ≠ x →
    (∀ source key, cell = .hosted source key → names.Knows x ∧ names.Knows y) →
    m'.meaning? names f y = m.meaning? names f y

/-- The name is put in a slot of a frame, where it is looked up unless an earlier slot holds it.
Names that were in other slots stand for what they stood for before. -/
structure Machine.GivesSlot (names : Interner) (f : Nat) (slots : List (Option (Name × Nat)))
    (slot : Nat) (x : Name) (cell : Cell) (v : Value) (m m' : Machine) : Prop where
  inSlot : m'.slot? (m.base f) slot = some cell
  reads : cell.read m' = v
  resolves : m'.resolve? names f x = some cell ↔ ∀ b, some b ∈ slots.take slot → b.1 ≠ x
  shadowed : m'.resolve? names f x ≠ some cell → m'.meaning? names f x = m.meaning? names f x
  others : ∀ y, y ≠ x → (∀ b, slots[slot]? = some (some b) → b.1 ≠ y) →
    m'.meaning? names f y = m.meaning? names f y

namespace Machine

/-! ## New variables -/

section BindNew

variable {update : Nat → FrameKind → FrameKind} {base : Nat} {z : Variable}
  (h : ∀ kind, m.kind? base = some kind →
    kind.Rebound x m.locals.size (update m.locals.size kind))

include h

theorem lineage_bindNew (f : Nat) : (m.bindNew base z update).lineage f = m.lineage f :=
  lineage_congr (outline_bindNew h z) f

omit h in
theorem findIn_bindNew {kind : FrameKind} (hk : m.kind? base = some kind) :
    (m.bindNew base z update).findIn names y base =
      (update m.locals.size kind).find? (m.bindNew base z update) names y := by
  rw [findIn, kind?_bindNew, if_pos rfl, hk]
  rfl

omit h in
theorem read_bindNew : (Cell.own m.locals.size).read (m.bindNew base z update) = z.value := by
  simp [Cell.read, bindNew, updateKind]

omit h in
/-- The variables and the data that were there are as they were. -/
theorem keepsCell_bindNew (hm : m.WellBound) {cell : Cell} (hc : m.resolve? names f y = some cell) :
    m.KeepsCell (m.bindNew base z update) cell := by
  rcases resolve?_cases hc with ⟨i, rfl, hi⟩ | ⟨source, rfl, -, -⟩
  · have hlt : i ≠ m.locals.size := Nat.ne_of_lt (hm.there _ hi)
    exact keepsCell_own (by simp [bindNew, updateKind, Array.getElem?_push, hlt])
  · exact keepsCell_hosted (source.sameAt rfl rfl _).get?

/-- A name that the changed frame still has the same cell for means what it meant. -/
theorem meaning?_bindNew (hm : m.WellBound) (hsame : ∀ kind, m.kind? base = some kind →
      (update m.locals.size kind).find? (m.bindNew base z update) names y = kind.find? m names y) :
    (m.bindNew base z update).meaning? names f y = m.meaning? names f y := by
  refine meaning?_eq (lineage_bindNew h f) (fun g => ?_) fun cell hc => keepsCell_bindNew hm hc
  by_cases hg : base = g
  · subst hg
    cases hk : m.kind? base with
    | none => rw [findIn, findIn, kind?_bindNew, if_pos rfl, hk]; rfl
    | some kind => rw [findIn_bindNew hk, hsame kind hk, findIn, hk]; rfl
  · rw [findIn, findIn, kind?_bindNew, if_neg hg]
    refine Option.bind_congr fun kind _ => FrameKind.find?_congr fun source _ => ?_
    exact (source.sameAt rfl rfl _).contains

end BindNew

theorem gives_bind (hm : m.WellBound) (hf : f < m.frames.size) {kind : FrameKind}
    (hk : m.kind? (m.base f) = some kind) (hown : kind.standsFor = none) :
    m.Gives names f x (.own m.locals.size) v
      (m.bindNew (m.base f) ⟨v, type⟩ fun i => (·.bind x i)) := by
  have hrebound : ∀ kind, m.kind? (m.base f) = some kind →
      kind.Rebound x m.locals.size (kind.bind x m.locals.size) :=
    fun kind _ => kind.rebound_bind x m.locals.size
  refine ⟨?_, read_bindNew, fun y hy _ => meaning?_bindNew hrebound hm fun kind' hk' => ?_⟩
  · refine resolve?_of_base hm.stacked hf (lineage_bindNew hrebound f) ?_
    rw [findIn_bindNew hk]
    exact FrameKind.find?_bind_self hown
  · obtain rfl := Option.some.inj (hk.symm.trans hk')
    exact FrameKind.find?_bind_of_ne hown hy

theorem givesSlot_set (hm : m.WellBound) (hf : f < m.frames.size)
    {slots : List (Option (Name × Nat))} {next : Option Nat}
    (hk : m.kind? (m.base f) = some (.indexed slots next)) {slot : Nat}
    (hslot : slot < slots.length) :
    m.GivesSlot names f slots slot x (.own m.locals.size) v
      (m.bindNew (m.base f) ⟨v, type⟩
        fun i _ => .indexed (slots.set slot (some (x, i))) next) := by
  let update : Nat → FrameKind → FrameKind :=
    fun i _ => .indexed (slots.set slot (some (x, i))) next
  have hrebound : ∀ kind, m.kind? (m.base f) = some kind →
      kind.Rebound x m.locals.size (update m.locals.size kind) := by
    intro kind hkind
    obtain rfl := Option.some.inj (hk.symm.trans hkind)
    exact FrameKind.rebound_set x m.locals.size slot slots next
  let after := m.bindNew (m.base f) ⟨v, type⟩ update
  have hfind (y : Name) : after.findIn names y (m.base f) =
      (holder y (slots.set slot (some (x, m.locals.size)))).map (.own ·.2) :=
    findIn_bindNew hk
  -- The name is looked up where it was, or in the slot.
  have hname : (holder x (slots.take slot) = none ∧ after.resolve? names f x =
      some (.own m.locals.size)) ∨ ∃ b, holder x (slots.take slot) = some b ∧
        holder x slots = some b ∧ after.resolve? names f x = some (.own b.2) := by
    have hset := holder_set_self hslot x m.locals.size
    cases hearlier : holder x (slots.take slot) with
    | none =>
      rw [hearlier, Option.none_or] at hset
      refine .inl ⟨rfl, resolve?_of_base hm.stacked hf (lineage_bindNew hrebound f) ?_⟩
      rw [hfind, hset, Option.map_some]
    | some b =>
      rw [hearlier, Option.some_or] at hset
      refine .inr ⟨b, rfl, ?_, resolve?_of_base hm.stacked hf (lineage_bindNew hrebound f) ?_⟩
      · rw [holder_eq hslot, hearlier, Option.some_or]
      · rw [hfind, hset, Option.map_some]
  have hbefore {b : Name × Nat} (hb : holder x slots = some b) : b.2 ≠ m.locals.size := by
    have hmem := (FrameKind.mem_bound_of_holder hb).1
    exact Nat.ne_of_lt (hm.there b ⟨m.base f, _, hk, hmem⟩)
  refine ⟨?_, read_bindNew, ?_, fun hno => ?_, fun y hy hfree => ?_⟩
  · rw [slot?, kind?_bindNew, if_pos rfl, hk]
    simp [List.getElem?_set_self hslot]
  · rw [← holder_eq_none]
    rcases hname with ⟨hnone, hresolve⟩ | ⟨b, hb, hheld, hresolve⟩
    · exact iff_of_true hresolve hnone
    · refine iff_of_false (fun h => hbefore hheld ?_) (hb ▸ Option.some_ne_none b)
      exact Cell.own.inj (Option.some.inj (hresolve.symm.trans h))
  · obtain ⟨b, hb, hheld, -⟩ := hname.resolve_left fun h => hno h.2
    refine meaning?_bindNew hrebound hm fun kind hkind => ?_
    obtain rfl := Option.some.inj (hk.symm.trans hkind)
    rw [FrameKind.find?_indexed, FrameKind.find?_indexed, holder_set_self hslot, hb, hheld,
      Option.some_or]
  · refine meaning?_bindNew hrebound hm fun kind hkind => ?_
    obtain rfl := Option.some.inj (hk.symm.trans hkind)
    rw [FrameKind.find?_indexed, FrameKind.find?_indexed, holder_set_of_ne hslot hy hfree]

/-! ## Data of the host -/

section Written

variable {source : HostSource} {key : String} (h : source.Written key v m m')

include h

theorem kind?_written (g : Nat) : m'.kind? g = m.kind? g := by rw [kind?, h.frames, kind?]

theorem lineage_written (f : Nat) : m'.lineage f = m.lineage f :=
  lineage_congr (fun g => by rw [kind?_written h]) f

/-- Names of other keys mean what they meant. -/
theorem meaning?_written (hy : names.lookup y ≠ key) :
    m'.meaning? names f y = m.meaning? names f y := by
  refine meaning?_eq (lineage_written h f) (fun g => ?_) fun cell hc => ?_
  · rw [findIn, findIn, kind?_written h]
    refine Option.bind_congr fun kind _ => FrameKind.find?_congr fun other _ => ?_
    exact (h.others other _ hy).contains
  · rcases resolve?_cases hc with ⟨i, rfl, -⟩ | ⟨other, rfl, -, -⟩
    · exact keepsCell_own (by rw [h.locals])
    · exact keepsCell_hosted (h.others other _ hy).get?

/-- A name whose key was there is still found where it was found. -/
theorem resolve?_written (hthere : source.contains m (names.lookup x) = true)
    (hkey : key = names.lookup x) : m'.resolve? names f x = m.resolve? names f x := by
  subst hkey
  refine resolve?_eq (lineage_written h f) fun g => ?_
  rw [findIn, findIn, kind?_written h]
  refine Option.bind_congr fun kind _ => FrameKind.find?_congr fun other _ => ?_
  rcases h.shared other with hsame | ⟨hbefore, hafter⟩
  · exact hsame.contains
  · rw [hbefore, hafter, hthere]

theorem read_written : (Cell.hosted source key).read m' = v := by
  rw [Cell.read, h.value]
  rfl

end Written

/-- Other names of the table, which have other texts, mean what they meant. -/
theorem others_written (hn : names.Sound) {source : HostSource}
    (h : source.Written (names.lookup x) v m m') (hy : y ≠ x)
    (hknown : names.Knows x ∧ names.Knows y) :
    m'.meaning? names f y = m.meaning? names f y := by
  refine meaning?_written h fun he => hy ?_
  exact hn.lookup_inj hknown.2 hknown.1 he

theorem gives_hosted (hn : names.Sound) (hm : m.WellBound) (hf : f < m.frames.size)
    {source : HostSource} (hk : m.kind? (m.base f) = some (.hosted source))
    (h : source.Written (names.lookup x) v m m') :
    m.Gives names f x (.hosted source (names.lookup x)) v m' := by
  refine ⟨resolve?_of_base hm.stacked hf (lineage_written h f) ?_, read_written h,
    fun y hy hknown => others_written hn h hy (hknown _ _ rfl)⟩
  rw [findIn, kind?_written h, hk, Option.bind_some, FrameKind.find?_hosted, if_pos h.found]

end Machine

/-! ## Declarations -/

theorem Scope.Declared.gives (hn : names.Sound) (hm : m.WellBound) (hf : f < m.frames.size)
    {cell : Cell} (h : Declared names f x v type m (.ok cell, m')) :
    m.Gives names f x cell v m' := by
  cases h with
  | own found unhosted => exact Machine.gives_bind hm hf found unhosted
  | hosted found written => exact Machine.gives_hosted hn hm hf found written

/-- After a declaration the name stands for the cell declared, with its value, and other names for
what they stood for. In a frame with slots, the slot has the cell, and what the name stands for
depends on the slots before: an earlier one that holds the name goes on to be found. -/
theorem declared_names (hn : names.Sound) (h : m.Framed) (hf : f < m.frames.size) (x : Name)
    (v : Value) (type : Option ValueType) (slot : Nat) (cell : Cell) (m' : Machine) :
    ((Scope.declare names f x v type).run m = (.ok cell, m') → m.Gives names f x cell v m') ∧
      ((Scope.declareAt names f slot x v type).run m = (.ok cell, m') →
        (∀ slots next, m.kind? (m.base f) = some (.indexed slots next) →
          m.GivesSlot names f slots slot x cell v m') ∧
        ((∀ slots next, m.kind? (m.base f) ≠ some (.indexed slots next)) →
          m.Gives names f x cell v m')) := by
  have hm := h.wellBound
  constructor
  · intro hrun
    have hdeclared := Scope.declare_declared hm hf names x v type
    exact (hrun ▸ hdeclared).gives hn hm hf
  · intro hrun
    have hdeclared := Scope.declareAt_declared hm hf names slot x v type
    rw [hrun] at hdeclared
    cases hdeclared with
    | slot found there =>
      constructor
      · intro slots next hk
        obtain ⟨rfl, rfl⟩ := FrameKind.indexed.inj (Option.some.inj (hk.symm.trans found))
        exact Machine.givesSlot_set hm hf hk there
      · intro hno
        exact absurd found (hno _ _)
    | name noSlots declared =>
      constructor
      · intro slots next hk
        exact absurd hk (noSlots slots next)
      · intro _
        exact declared.gives hn hm hf

/-! ### Slots that hold a name already -/

/-- A table with two names besides the empty one. -/
def twoNames : Interner := Interner.internAll ["a", "b"] (.bare Interner.spread)

def nameA : Name := .ofRaw (4 * Name.slotsPerShard)

def nameB : Name := .ofRaw (14 * Name.slotsPerShard)

theorem twoNames_sound : twoNames.Sound := (Interner.sound_bare _).internAll _

/-- A frame with two slots, the first of which holds a name. -/
def oneHeld : Machine :=
  ((Scope.declareAt twoNames 0 0 nameA (.int 1) none).run
    (Machine.bare.pushFrame (.indexed (List.replicate 2 none) none)).2).2

theorem oneHeld_framed : oneHeld.Framed := by
  have hbare : Machine.bare.Framed := .start rfl
  have hslots := hbare.indexed 2 none (by simp)
  exact hslots.declareAt twoNames 0 (by decide) 0 nameA (.int 1) none

/-- Declared by name, the held name gets a new cell; another name is put in the free slot. -/
theorem declared_names_held :
    ∃ m₁ m₂ : Machine, oneHeld.Framed ∧ twoNames.Sound ∧
      twoNames.lookup nameA = "a" ∧ twoNames.lookup nameB = "b" ∧
      (Scope.declare twoNames 0 nameA (.int 2) none).run oneHeld = (.ok (.own 1), m₁) ∧
      oneHeld.Gives twoNames 0 nameA (.own 1) (.int 2) m₁ ∧
      (Scope.declareAt twoNames 0 1 nameB (.int 2) none).run oneHeld = (.ok (.own 1), m₂) ∧
      m₂.slot? 0 1 = some (.own 1) ∧ m₂.resolve? twoNames 0 nameB = some (.own 1) ∧
      m₂.meaning? twoNames 0 nameA = some (.own 0, .int 1, none) := by
  have hf : 0 < oneHeld.frames.size := by decide
  obtain ⟨hdeclare, -⟩ := declared_names twoNames_sound oneHeld_framed hf nameA (.int 2) none 0
    (.own 1) _
  obtain ⟨-, hdeclareAt⟩ := declared_names twoNames_sound oneHeld_framed hf nameB (.int 2) none 1
    (.own 1) _
  obtain ⟨hslots, -⟩ := hdeclareAt rfl
  have hgives := hslots [some (nameA, 0), none] none rfl
  have hbefore : ∀ b, some b ∈ [some (nameA, 0), none].take 1 → b.1 ≠ nameB := by
    intro b hb
    obtain rfl := Option.some.inj (List.mem_singleton.mp hb)
    decide
  have hother := hgives.others nameA (by decide) (by simp)
  exact ⟨_, _, oneHeld_framed, twoNames_sound, by decide +kernel, by decide +kernel, rfl,
    hdeclare rfl, rfl, hgives.inSlot, hgives.resolves.mpr hbefore, hother.trans rfl⟩

/-- A held name that is put in the later slot has the new cell there, but stands for the old one. -/
theorem slot_behind_held :
    ∃ m' : Machine, oneHeld.Framed ∧ twoNames.Knows nameA ∧
      (Scope.declareAt twoNames 0 1 nameA (.int 2) none).run oneHeld = (.ok (.own 1), m') ∧
      m'.slot? 0 1 = some (.own 1) ∧ (Cell.own 1).read m' = .int 2 ∧
      m'.resolve? twoNames 0 nameA = some (.own 0) ∧ (Cell.own 0).read m' = .int 1 ∧
      ¬ oneHeld.Gives twoNames 0 nameA (.own 1) (.int 2) m' := by
  refine ⟨_, oneHeld_framed, by decide +kernel, rfl, rfl, rfl, rfl, rfl, fun h => ?_⟩
  exact absurd h.resolves (by decide)

end MeteredScript

import MeteredScript.Proofs.Evaluation.Reading
import MeteredScript.Proofs.Termination

/-!
# Programs that are read again

A program that declares and assigns nothing and calls no method leaves everything that was there as
it was: variables, frames with their signals, data of the host and containers. So interpreting it
again finds the same, and what it makes is numbered from a later number on. It comes to the same
ending then, with the same value, up to the numbers of the containers that it made itself.
-/

namespace MeteredScript

/-! ## Later numbers -/

/-- Numbers below `n` are kept, and all others are `k` greater. -/
def renumber (n k i : Nat) : Nat := if i < n then i else i + k

theorem renumber_of_lt {n i : Nat} (h : i < n) (k : Nat) : renumber n k i = i := if_pos h

theorem renumber_of_le {n i : Nat} (h : n ≤ i) (k : Nat) : renumber n k i = i + k :=
  if_neg (Nat.not_lt.mpr h)

theorem renumber_renumbers {n n' : Nat} (h : n ≤ n') : Renumbers (renumber n (n' - n)) n n' where
  injective i i' heq := by
    unfold renumber at heq
    split at heq <;> split at heq <;> omega
  le i := by
    unfold renumber
    split <;> omega
  next k := by
    rw [renumber_of_le (Nat.le_add_right n k)]
    omega

/-- What is there has kept its number, and what is not has another one than before. -/
theorem getElem?_renumber {α β : Type} {xs ys : Array α} {f g : α → β} (hsize : xs.size ≤ ys.size)
    (h : ∀ (i : Nat) (x : α), xs[i]? = some x → ∃ y, ys[i]? = some y ∧ g y = f x) (i : Nat) :
    ys[renumber xs.size (ys.size - xs.size) i]?.map g = xs[i]?.map f := by
  rcases Nat.lt_or_ge i xs.size with hi | hi
  · obtain ⟨y, hy, heq⟩ := h i _ (Array.getElem?_eq_getElem hi)
    rw [renumber_of_lt hi, hy, Array.getElem?_eq_getElem hi, Option.map_some, Option.map_some, heq]
  · rw [renumber_of_le hi, Array.getElem?_eq_none hi, Array.getElem?_eq_none (by omega)]
    rfl

/-! ## What keeps its number -/

section Kept

variable {σ : Nat → Nat} {s : Store} (h : ∀ i < s.containers.size, σ i = i)

include h

theorem Handle.move_eq_self {type : ValueType} {a : Handle} (ha : s.Fits type a) :
    a.move σ = a := by
  rw [Handle.move, h _ ha.lt]

theorem Value.move_eq_self {v : Value} (hv : s.Has v) : v.move σ = v := by
  cases v with
  | list a => exact congrArg list (Handle.move_eq_self h (hv a rfl))
  | map a => exact congrArg map (Handle.move_eq_self h (hv a rfl))
  | set a => exact congrArg set (Handle.move_eq_self h (hv a rfl))
  | _ => rfl

theorem map_snd_move_eq_self {κ : Type} {pairs : List (κ × Value)} (hp : ∀ p ∈ pairs, s.Has p.2) :
    pairs.map (fun p => (p.1, p.2.move σ)) = pairs := by
  conv_rhs => rw [← List.map_id pairs]
  exact List.map_congr_left fun p hm => congrArg (p.1, ·) (Value.move_eq_self h (hp p hm))

theorem Contents.move_eq_self {c : Contents} (hc : ∀ v ∈ c.values, s.Has v) : c.move σ = c := by
  cases c with
  | items values =>
    conv_rhs => rw [← List.map_id values]
    exact congrArg items (List.map_congr_left fun v hv => Value.move_eq_self h (hc v hv))
  | entries pairs =>
    exact congrArg entries (map_snd_move_eq_self h fun p hp => hc p.2 (List.mem_map_of_mem hp))
  | elements keys => rfl

end Kept

/-- All that there is in a machine keeps its number. -/
structure Renaming.Fixes (ρ : Renaming) (m : Machine) : Prop where
  containers : ∀ i < m.store.containers.size, ρ.containers i = i
  locals : ∀ i < m.locals.size, ρ.locals i = i
  frames : ∀ f < m.frames.size, ρ.frames f = f

theorem Renaming.Fixes.kind {ρ : Renaming} {m : Machine} (h : ρ.Fixes m) (hm : m.Whole) {f : Nat}
    {kind : FrameKind} (hk : m.kind? f = some kind) : kind.move ρ = kind := by
  have hbelow : ∀ g, kind.below = some g → ρ.frames g = g := fun g hg => by
    have hf : f < m.frames.size := by
      by_contra hle
      cases (Machine.kind?_eq_none (Nat.le_of_not_lt hle)).symm.trans hk
    have hlt := hm.stacked f hf g (by rw [Machine.below?, hk]; exact hg)
    exact h.frames g (Nat.lt_trans hlt hf)
  have hnext (next : Option Nat) (hn : ∀ g, next = some g → kind.below = some g) :
      next.map ρ.frames = next := by
    cases next with
    | none => rfl
    | some g => exact congrArg some (hbelow g (hn g rfl))
  have hbound : ∀ b ∈ kind.bound, (b.1, ρ.locals b.2) = b := fun b hb =>
    congrArg (b.1, ·) (h.locals b.2 (hm.bound b ⟨f, kind, hk, hb⟩))
  cases kind with
  | named bindings next =>
    have hbound : ∀ b ∈ bindings, (b.1, ρ.locals b.2) = b := hbound
    rw [FrameKind.move, hnext next fun _ => id, List.map_congr_left hbound, List.map_id']
  | indexed slots next =>
    have hslot : ∀ slot ∈ slots, slot.map (fun b => (b.1, ρ.locals b.2)) = slot := by
      rintro (_ | b) hs
      · rfl
      · exact congrArg some (hbound b (List.reduceOption_mem_iff.mpr hs))
    rw [FrameKind.move, hnext next fun _ => id, List.map_congr_left hslot, List.map_id']
  | guarded delegate => exact congrArg FrameKind.guarded (hbelow delegate rfl)
  | hosted source =>
    cases source with
    | table i => rfl
    | map a =>
      have hthere : m.store.Fits .map a := hm.maps f a hk
      exact congrArg (FrameKind.hosted ∘ HostSource.map) (Handle.move_eq_self h.containers hthere)

namespace Machine

variable {m m' : Machine}

/-- What there is keeps its number, and what comes to it on the first machine is numbered as what
comes to the second one. -/
def fresh (m m' : Machine) : Renaming where
  containers := renumber m.store.containers.size
    (m'.store.containers.size - m.store.containers.size)
  locals := renumber m.locals.size (m'.locals.size - m.locals.size)
  frames := renumber m.frames.size (m'.frames.size - m.frames.size)

theorem fresh_fixes (m m' : Machine) : (m.fresh m').Fixes m where
  containers _ h := renumber_of_lt h _
  locals _ h := renumber_of_lt h _
  frames _ h := renumber_of_lt h _

/-- Where all is left as it was, the machine from before is mirrored. -/
theorem Leaves.mirrors (h : m.Leaves m.frames.size m') (hm : m.Whole) :
    m.Mirrors (m.fresh m') m' := by
  have hfixes := m.fresh_fixes m'
  have hlocals : m.locals.size ≤ m'.locals.size := by
    apply Nat.le_of_not_lt
    intro hlt
    have hkept := h.locals _ _ (Array.getElem?_eq_getElem hlt)
    rw [Array.getElem?_eq_none (Nat.le_refl _)] at hkept
    cases hkept
  refine ⟨⟨renumber_renumbers h.store.size_le, ?_⟩, renumber_renumbers hlocals, ?_,
    renumber_renumbers h.size, ?_, h.tables, fun i key v hv => ?_⟩
  · refine getElem?_renumber h.store.size_le fun i c hc => ⟨c, h.store i c hc, ?_⟩
    exact (Contents.move_eq_self hfixes.containers (hm.store.values i c hc)).symm
  · intro i
    refine (congrFun Option.map_id _).symm.trans (getElem?_renumber hlocals (fun i x hx => ?_) i)
    refine ⟨x, h.locals i x hx, congrArg (Variable.mk · x.type) (Eq.symm ?_)⟩
    exact Value.move_eq_self hfixes.containers (hm.locals i x hx)
  · intro f
    refine (getElem?_renumber h.size (fun f frame hf => ?_) f).trans (Option.map_map ..).symm
    have hlt := (Array.getElem?_eq_some_iff.mp hf).1
    refine ⟨frame, (h.frames f hlt).trans hf, Eq.symm ?_⟩
    exact hfixes.kind hm (congrArg (Option.map Frame.kind) hf)
  · exact Value.move_eq_self hfixes.containers (hm.data i key v hv)

theorem Leaves.pair (h : m.Leaves m.frames.size m') (hm : m.Whole) (hc : m.context.Unlimited) :
    m.Pair (m.fresh m') m.frames.size m' :=
  ⟨Nat.le_refl _, hm, h.mirrors hm, hc, h.unlimited hc⟩

/-- Nothing that was there is changed: no frame, neither its bindings nor its signals, no variable,
no data of the host, and no container. -/
structure Untouched (m m' : Machine) : Prop where
  frames : ∀ (f : Nat) (frame : Frame), m.frames[f]? = some frame → m'.frames[f]? = some frame
  locals : ∀ (i : Nat) (x : Variable), m.locals[i]? = some x → m'.locals[i]? = some x
  tables : m'.tables = m.tables
  containers : ∀ (i : Nat) (c : Container), m.store.containers[i]? = some c →
    m'.store.containers[i]? = some c

theorem Leaves.untouched (h : m.Leaves m.frames.size m') : m.Untouched m' where
  frames f _ hf := (h.frames f (Array.getElem?_eq_some_iff.mp hf).1).trans hf
  locals := h.locals
  tables := h.tables
  containers := h.store

end Machine

/-- An ending with the containers of its value under other numbers. -/
def Exit.moved (σ : Nat → Nat) : Except Exit Value → Except Exit Value
  | .ok v => .ok (v.move σ)
  | .error e => .error (e.move σ)

theorem Exit.eq_exhausted_of_moved {σ : Nat → Nat} {x : Except Exit Value}
    (h : moved σ x = .error .exhausted) : x = .error .exhausted := by
  rcases x with (_ | _ | _ | _) | _ <;> first | rfl | cases h

section Twin

variable {α β : Type} {ρ : Renaming} {n : Nat} {m : Machine}

theorem Twin.leaves {Q : Machine → α → β → Prop} {r : Except Exit α × Machine}
    {r' : Except Exit β × Machine} (h : Twin ρ n m Q r r') (hr : r.1 ≠ .error .exhausted) :
    m.Leaves n r.2 := by
  cases h with
  | ok leaves => exact leaves
  | exit leaves => exact leaves
  | exhausted => exact absurd rfl hr

theorem Twin.moved {r r' : Except Exit Value × Machine} (h : Twin ρ n m (Moved ρ) r r')
    (hr : r.1 ≠ .error .exhausted) : r'.1 = Exit.moved ρ.containers r.1 ∧
      ((∃ f, r.1 = .error (.fault f)) ∨ r.2.Mirrors ρ r'.2) := by
  cases h with
  | ok _ pair related => exact ⟨congrArg Except.ok related.eq, .inr pair.mirrors⟩
  | exit _ pair =>
    exact ⟨rfl, pair.imp (fun ⟨f, hf⟩ => ⟨f, congrArg Except.error hf⟩) (·.mirrors)⟩
  | exhausted => exact absurd rfl hr

end Twin

namespace Program

variable {p : Program} {e : Environment} {fuel : Nat} {this : Value} {frame : Nat} {m : Machine}

theorem interpretEnding_twin (hp : p.arena.ReadOnly) {m' : Machine}
    (h : m.Leaves m.frames.size m') (hm : m.Whole) (hc : m.context.Unlimited)
    (hframe : frame < m.frames.size) (hthis : m.store.Has this) :
    Twin (m.fresh m') m.frames.size m (Moved (m.fresh m'))
      ((p.interpretEnding e fuel this frame).run m)
      ((p.interpretEnding e fuel this frame).run m') := by
  have hfixes := m.fresh_fixes m'
  have hreads : (p.job e this).Reads (m.fresh m') m frame :=
    ⟨hframe, hthis, (Value.move_eq_self hfixes.containers hthis).symm⟩
  have htwins : Run.Twins (m.fresh m') m.frames.size m (p.interpretEnding e fuel this frame)
      ((p.interpretEnding e fuel this ((m.fresh m').frames frame))) (Moved (m.fresh m')) :=
    Job.evalChain_twins hreads (Job.evalEnding_twins hp fuel) p.first
  rw [hfixes.frames frame hframe] at htwins
  exact htwins m m' (h.pair hm hc) (.refl _ m)

/-- Interpreting a program that only reads changes nothing that was there. If it comes to an end, it
does so once more on the machine that it leaves, in the same way and with the same value, and what
it made the second time mirrors what it made the first time. -/
theorem interpret_again (hp : p.arena.ReadOnly) (hm : m.Whole) (hc : m.context.Unlimited)
    (hframe : frame < m.frames.size) (hthis : m.store.Has this)
    (hends : p.Ends e fuel this frame m) :
    let first := (p.interpret e fuel this frame).run m
    let second := (p.interpret e fuel this frame).run first.2
    let ρ := m.fresh first.2
    m.Untouched first.2 ∧ p.Ends e fuel this frame first.2 ∧
      second.1 = Exit.moved ρ.containers first.1 ∧
      ((∃ f, first.1 = .error (.fault f)) ∨ first.2.Mirrors ρ second.2) := by
  have hleaves := (interpretEnding_twin hp (.refl _ m) hm hc hframe hthis).leaves hends
  obtain ⟨hmoved, hmirrors⟩ := (interpretEnding_twin hp hleaves hm hc hframe hthis).moved hends
  have hends' : p.Ends e fuel this frame ((p.interpretEnding e fuel this frame).run m).2 :=
    fun h => hends (Exit.eq_exhausted_of_moved (hmoved.symm.trans h))
  dsimp only
  rw [hends.run_eq, hends'.run_eq]
  exact ⟨hleaves.untouched, hends', hmoved, hmirrors⟩

/-- A loop over a variable, whose body returns a list of its item and of a text. -/
def listingBuilder : Builder :=
  ((do
    let numbers ← Builder.node (.var .empty)
    let text ← Builder.node (.literal (.str .empty) none)
    let printed ← Builder.node (.binary .add text numbers)
    let item ← Builder.node (.var (.ofRaw 1))
    let both ← Builder.range [item, printed]
    let listed ← Builder.node (.listLit both)
    let returned ← Builder.node (.ret listed)
    let loop ← Builder.node (.forEach (.ofRaw 1) numbers (some returned))
    Builder.pushStatement loop : BuildM Unit).run .empty).2

/-- One variable, which holds a list of numbers. -/
def numbered : Machine :=
  { Machine.bare with
    store := { Machine.bare.store with containers := #[⟨1, 0, 0, .items [.int 1, .int 2]⟩] }
    locals := #[⟨.list ⟨0, .owner⟩, none⟩]
    frames := #[.new (.named [(.empty, 0)] none)] }

theorem numbered_whole : numbered.Whole := by
  have only {α : Type} {a b : α} {i : Nat} (h : #[a][i]? = some b) : b = a := by
    obtain ⟨hi, rfl⟩ := Array.getElem?_eq_some_iff.mp h
    exact Array.getElem_singleton hi
  have honly {f : Nat} {kind : FrameKind} (hk : numbered.kind? f = some kind) :
      kind = .named [(.empty, 0)] none := by
    obtain ⟨frame, hf, rfl⟩ := Option.map_eq_some_iff.mp hk
    rw [only hf]
    rfl
  have hstore : numbered.store.Whole := by
    constructor
    case keys =>
      intro n c hc
      rw [only hc]
      exact .nil
    case values =>
      intro n c hc v hv
      rw [only hc] at hv
      exact (by decide : ∀ v ∈ [Value.int 1, Value.int 2], numbered.store.Has v) v hv
  refine ⟨hstore, by decide, ?_, ?_, ?_, ?_⟩
  · rintro b ⟨f, kind, hk, hb⟩
    rw [honly hk] at hb
    rw [List.mem_singleton.mp hb]
    decide
  · intro f h hk
    cases honly hk
  · intro i x hx
    rw [only hx]
    decide
  · intro i key v hv
    cases hv

theorem interpret_again_listing :
    ∃ p : Program, listingBuilder.finish plainOptions = .ok p ∧ p.arena.ReadOnly ∧
      numbered.Whole ∧ numbered.context.Unlimited ∧ 0 < numbered.frames.size ∧
      numbered.store.Has .null ∧ p.Ends bareEnvironment 6 .null 0 numbered ∧
      ∃ first second : Machine,
        (p.interpret bareEnvironment 6 .null 0).run numbered =
          (.error (.returned (.list ⟨1, .owner⟩)), first) ∧
        (p.interpret bareEnvironment 6 .null 0).run first =
          (.error (.returned (.list ⟨2, .owner⟩)), second) ∧
        first.store.items ⟨0, .owner⟩ = [.int 1, .int 2] ∧
        second.store.items ⟨2, .owner⟩ = [.int 1, .str "[1, 2]"] := by
  obtain ⟨p, hp, hreads, hr, hnumber, hitems⟩ : ∃ p : Program,
      listingBuilder.finish plainOptions = .ok p ∧ p.arena.ReadOnly ∧
      ((p.interpretEnding bareEnvironment 6 .null 0).run numbered).1 =
        .error (.returned (.list ⟨1, .owner⟩)) ∧
      (numbered.fresh ((p.interpret bareEnvironment 6 .null 0).run numbered).2).containers 1 = 2 ∧
      ((p.interpret bareEnvironment 6 .null 0).run numbered).2.store.items ⟨1, .owner⟩ =
        [.int 1, .str "[1, 2]"] :=
    ⟨Program.plain 6 listingBuilder.arena, rfl, by decide, by decide +kernel, by decide +kernel,
      by decide +kernel⟩
  have hends : p.Ends bareEnvironment 6 .null 0 numbered := by
    intro h
    cases hr.symm.trans h
  have hunlimited : numbered.context.Unlimited := ⟨rfl, rfl⟩
  have hthis : numbered.store.Has .null := Store.has_of_plain rfl
  have hframe : 0 < numbered.frames.size := by decide
  obtain ⟨huntouched, -, hmoved, hmirrors⟩ :=
    interpret_again hreads numbered_whole hunlimited hframe hthis hends
  have hfirst := (congrArg Prod.fst hends.run_eq).trans hr
  have hcopy := (hmirrors.resolve_left (by simp [hfirst])).store.items ⟨1, .owner⟩
  rw [hitems, Handle.move, hnumber] at hcopy
  rw [hfirst, Exit.moved, Exit.move, Value.move, Handle.move, hnumber] at hmoved
  refine ⟨p, hp, hreads, numbered_whole, hunlimited, hframe, hthis, hends, _, _,
    Prod.ext hfirst rfl, Prod.ext hmoved rfl, ?_, hcopy⟩
  rw [Store.items, huntouched.containers 0 _ rfl]
  rfl

end Program

end MeteredScript

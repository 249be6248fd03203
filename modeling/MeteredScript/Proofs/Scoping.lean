import MeteredScript.Proofs.Evaluation.Bindings
import MeteredScript.Proofs.Evaluation.Frames
import MeteredScript.Proofs.Termination

/-!
# Lexical scoping

Where all frames of a chain have variables of their own, a name stands for what is bound in these
frames. The evaluation of a node changes the bindings of its own frame alone, by what the node and
its operands declare. Nested chains change no frame that was there before them.
-/

namespace MeteredScript

open Relation (ReflTransGen)

/-! ## Names of a frame -/

namespace FrameKind

def names : FrameKind → List Name
  | named bindings _ => bindings.map (·.1)
  | indexed slots _ => slots.filterMap (·.map (·.1))
  | guarded _ | hosted _ => []

theorem find?_eq_none_iff {kind : FrameKind} (h : kind.standsFor = none) (m : Machine)
    (names : Interner) (name : Name) : kind.find? m names name = none ↔ name ∉ kind.names := by
  cases kind with
  | named bindings next =>
    simp only [find?, Option.map_eq_none_iff, List.lookup_eq_none_iff, FrameKind.names,
      List.mem_map, not_exists, not_and, bne_iff_ne]
    exact forall₂_congr fun p _ => not_congr eq_comm
  | indexed slots next =>
    simp only [find?, Option.map_eq_none_iff, List.findSome?_eq_none_iff, Option.filter_eq_none_iff,
      FrameKind.names, List.mem_filterMap, Option.map_eq_some_iff, not_exists, not_and]
    simp only [decide_eq_true_eq]
  | guarded | hosted => exact absurd h (Option.some_ne_none _)

end FrameKind

theorem Declaration.Binds.mem_names {d : Declaration} {kind kind' : FrameKind}
    (h : d.Binds kind kind') {name : Name} (hname : name ∈ kind'.names) :
    name = d.declared ∨ name ∈ kind.names := by
  have inSlots {n : Name} {i : Nat} {slots slots' : List (Option (Name × Nat))}
      (hslots : ∀ b ∈ slots', b = some (n, i) ∨ b ∈ slots)
      (hin : name ∈ slots'.filterMap (·.map (·.1))) :
      name = n ∨ name ∈ slots.filterMap (·.map (·.1)) := by
    obtain ⟨b, hb, hbn⟩ := List.mem_filterMap.mp hin
    rcases hslots b hb with rfl | hb
    · exact .inl (Option.some.inj hbn).symm
    · exact .inr (List.mem_filterMap.mpr ⟨b, hb, hbn⟩)
  have inBindings {n : Name} {i : Nat} {bindings : List (Name × Nat)}
      (hin : name ∈ (Entries.put n i bindings).map (·.1)) : name = n ∨ name ∈ bindings.map (·.1) := by
    obtain ⟨b, hb, rfl⟩ := List.mem_map.mp hin
    exact (Entries.mem_put hb).imp (congrArg Prod.fst) List.mem_map_of_mem
  cases h with
  | name n i =>
    cases kind with
    | named => exact inBindings hname
    | indexed => exact inSlots (fun _ => FrameKind.mem_bindSlot) hname
    | guarded | hosted => exact .inr hname
  | slot k n i slots next => exact inSlots (fun _ hb => (List.mem_or_eq_of_mem_set hb).symm) hname
  | unslotted => exact inBindings hname

namespace Machine

/-! ## Names in a chain -/

/-- All frames of the chain of a frame are there, with variables of their own. -/
def OwnChain (m : Machine) (f : Nat) : Prop := ∀ g, m.OnChain f g → m.Owns g

theorem OwnChain.below {m : Machine} {f g : Nat} {kind : FrameKind} (h : m.OwnChain f)
    (hk : m.kind? f = some kind) (hg : kind.below = some g) : m.OwnChain g :=
  fun i hi => h i (.down hk hg hi)

/-- From a frame with variables of its own, the search for a name goes on below. -/
theorem findSome?_lineageTo {m : Machine} {f : Nat} {kind : FrameKind}
    (hk : m.kind? f = some kind) (hown : kind.standsFor = none) (names : Interner) (name : Name)
    (fuel : Nat) : (m.lineageTo (fuel + 1) f).findSome? (m.findIn names name) =
      (kind.find? m names name).or
        (kind.below.bind fun g => (m.lineageTo fuel g).findSome? (m.findIn names name)) := by
  have hfind : m.findIn names name f = kind.find? m names name := by rw [findIn, hk]; rfl
  cases kind with
  | guarded | hosted => cases hown
  | named _ next | indexed _ next =>
    simp only [lineageTo, hk, List.findSome?_cons, hfind, FrameKind.next?, FrameKind.below]
    cases next <;> cases FrameKind.find? m names name _ <;> rfl

variable {m m' : Machine} {f : Nat} {D : Nat → Declaration → Prop}

/-- Where the frames of the chain are the same, names stand for the same. -/
theorem resolve?_congr (hown : m.OwnChain f)
    (same : ∀ g kind, m.OnChain f g → m.kind? g = some kind → m'.kind? g = some kind)
    (names : Interner) (name : Name) : m'.resolve? names f name = m.resolve? names f name := by
  unfold resolve? lineage
  generalize f + 1 = fuel
  induction fuel generalizing f with
  | zero => rfl
  | succ fuel ih =>
    obtain ⟨kind, hk, hstands⟩ := hown f (.here f)
    rw [findSome?_lineageTo hk hstands, findSome?_lineageTo (same f kind (.here f) hk) hstands]
    have hfind : kind.find? m' names name = kind.find? m names name := by
      cases kind with
      | named | indexed => rfl
      | guarded | hosted => cases hstands
    rw [hfind]
    congr 1
    cases hg : kind.below with
    | none => rfl
    | some g => exact ih (hown.below hk hg) fun i kind hi => same i kind (.down hk hg hi)

theorem Rebinds.names_subset (h : m.Rebinds D m') {kind kind' : FrameKind} {name : Name}
    (hD : ∀ d, D f d → d.declared ≠ name) (hk : m.kind? f = some kind)
    (hk' : m'.kind? f = some kind') (hname : name ∈ kind'.names) : name ∈ kind.names := by
  obtain ⟨kind'', hk'', hpath⟩ := h f kind hk
  obtain rfl := Option.some.inj (hk'.symm.trans hk'')
  clear hk' hk''
  induction hpath with
  | refl => exact hname
  | tail _ hstep ih =>
    obtain ⟨d, hd, hb⟩ := hstep
    exact ih ((hb.mem_names hname).resolve_left fun he => hD d hd he.symm)

theorem Rebinds.below {kind kind' : FrameKind} (h : m.Rebinds D m') (hk : m.kind? f = some kind)
    (hk' : m'.kind? f = some kind') : kind'.below = kind.below := by
  obtain ⟨kind'', hk'', hpath⟩ := h f kind hk
  obtain rfl := Option.some.inj (hk'.symm.trans hk'')
  clear hk' hk''
  induction hpath with
  | refl => rfl
  | tail _ hstep ih =>
    obtain ⟨d, -, hb⟩ := hstep
    exact hb.below.trans ih

/-- A name that stands for nothing, and is not declared, stands for nothing. -/
theorem Rebinds.resolve?_eq_none (h : m.Rebinds D m') (hown : m.OwnChain f) {name : Name}
    (hD : ∀ g d, D g d → d.declared ≠ name) {names : Interner}
    (hnone : m.resolve? names f name = none) : m'.resolve? names f name = none := by
  unfold resolve? lineage at hnone ⊢
  generalize f + 1 = fuel at hnone ⊢
  induction fuel generalizing f with
  | zero => rfl
  | succ fuel ih =>
    obtain ⟨kind, hk, hstands⟩ := hown f (.here f)
    obtain ⟨kind', hk', hstands'⟩ := h.owns (hown f (.here f))
    rw [findSome?_lineageTo hk hstands, Option.or_eq_none_iff] at hnone
    rw [findSome?_lineageTo hk' hstands', Option.or_eq_none_iff, h.below hk hk']
    constructor
    · rw [FrameKind.find?_eq_none_iff hstands']
      exact fun hname => (FrameKind.find?_eq_none_iff hstands m names name).mp hnone.1
        (h.names_subset (hD f) hk hk' hname)
    · cases hg : kind.below with
      | none => rfl
      | some g =>
        rw [hg] at hnone
        exact ih (hown.below hk hg) hnone.2

/-! ## Frames that are left alone -/

/-- Frames that were there have the bindings that they had, apart from some. -/
def KeepsBut (changed : List Nat) (m m' : Machine) : Prop :=
  ∀ (f : Nat) (kind : FrameKind), f ∉ changed → m.kind? f = some kind → m'.kind? f = some kind

theorem Rebinds.keepsBut (h : m.Rebinds D m') {changed : List Nat}
    (hD : ∀ f d, D f d → f ∈ changed) : m.KeepsBut changed m' :=
  fun f _ hf hk => h.kind? hk fun d hd => hf (hD f d hd)

/-- What was done in some frames leaves the others, and the meaning of all names from a frame. -/
structure Nests (names : Interner) (inside : List Nat) (frame : Nat) (m m' : Machine) : Prop where
  frames : m.KeepsBut inside m'
  resolve? : ∀ name, m'.resolve? names frame name = m.resolve? names frame name

theorem KeepsBut.nests {inside : List Nat} (h : m.KeepsBut inside m') (hown : m.OwnChain f)
    (hout : ∀ g ∈ inside, ¬ m.OnChain f g) (names : Interner) : m.Nests names inside f m' :=
  ⟨h, resolve?_congr hown (fun g kind hg hk => h g kind (fun hin => hout g hin hg) hk) names⟩

/-- Without guarded frames and frames of a host, every chain has variables of its own. -/
theorem Stacked.ownChain (h : m.Stacked) (hplain : ∀ f < m.frames.size, m.standsFor f = none)
    (hf : f < m.frames.size) : m.OwnChain f := by
  intro g hg
  induction hg with
  | here f =>
    obtain ⟨frame, hframe⟩ : ∃ frame, m.frames[f]? = some frame :=
      ⟨_, Array.getElem?_eq_getElem hf⟩
    have hk : m.kind? f = some frame.kind := congrArg (Option.map Frame.kind) hframe
    have hstands := hplain f hf
    rw [Machine.standsFor, hk] at hstands
    exact ⟨frame.kind, hk, hstands⟩
  | @down f g _ kind hk hg _ ih =>
    have hbelow : m.below? f = some g := by rw [Machine.below?, hk]; exact hg
    exact ih (Nat.lt_trans (h f hf g hbelow) hf)

end Machine

/-! ## Evaluations -/

section Evaluation

variable {j : Job} (hn : j.environment.KeepsBindings) {m : Machine} {s : Nat}

include hn

/-- Scoping is lexical: the evaluation of a node, however it ends, changes the bindings of no frame
but its own, and these by what the node and its operands declare, so that no other names come to
stand for something. A nested chain changes no bindings at all. Neither do the statements of a loop's
body and the declaration of its item, apart from those of the inner frame. -/
theorem bindings_of_eval (hown : m.OwnChain s) (fuel : Nat) (id : NodeId) :
    (m.KeepsBut [s] ((j.eval fuel id s).run m).2 ∧
      (∃ before after, m.kind? s = some before ∧
        ((j.eval fuel id s).run m).2.kind? s = some after ∧
        ReflTransGen (Rebinding (j.arena.Declares id)) before after) ∧
      ∀ name, (∀ d, j.arena.Declares id d → d.declared ≠ name) →
        m.resolve? j.names s name = none →
        ((j.eval fuel id s).run m).2.resolve? j.names s name = none) ∧
    (∀ head, m.Nests j.names [] s ((j.evalBlock (j.eval fuel) head s).run m).2) ∧
    ∀ inner, m.Owns inner → ¬ m.OnChain s inner →
      (∀ head, m.Nests j.names [inner] s ((j.evalChain (j.eval fuel) head inner).run m).2) ∧
      ∀ item v, m.Nests j.names [inner] s
        ((Scope.declare j.names inner item v none).run m).2 := by
  have hev := j.eval_scoped hn fuel
  refine ⟨?_, fun head => ?_, fun inner hinner hout => ?_⟩
  · have hrebinds := hev id s m (List.forall_mem_singleton.mpr (hown s (.here s)))
    refine ⟨hrebinds.keepsBut fun f d hd => List.mem_singleton.mpr hd.1, ?_, fun name hname => ?_⟩
    · obtain ⟨before, hbefore, -⟩ := hown s (.here s)
      obtain ⟨after, hafter, hpath⟩ := hrebinds s before hbefore
      have here : ∀ k k', Rebinding (inFrame s (j.arena.Declares id) s) k k' →
          Rebinding (j.arena.Declares id) k k' := fun _ _ ⟨d, hd, hb⟩ => ⟨d, hd.2, hb⟩
      exact ⟨before, after, hbefore, hafter, ReflTransGen.mono here _ _ hpath⟩
    · exact hrebinds.resolve?_eq_none hown fun f d hd => hname d hd.2
  · have hblock := Job.evalBlock_scoped hev head s m fun _ hf => absurd hf List.not_mem_nil
    have hkept : m.KeepsBut [] _ := hblock.keepsBut fun _ _ => False.elim
    exact hkept.nests hown (fun _ hg => absurd hg List.not_mem_nil) j.names
  · have hthere : ∀ f ∈ [inner], m.Owns f := List.forall_mem_singleton.mpr hinner
    have hclear : ∀ g ∈ [inner], ¬ m.OnChain s g := List.forall_mem_singleton.mpr hout
    have hinside {t : Machine} (h : m.Rebinds (fun f _ => f = inner) t) :
        m.Nests j.names [inner] s t :=
      (h.keepsBut fun f _ hf => List.mem_singleton.mpr hf).nests hown hclear j.names
    constructor
    · exact fun head => hinside (Job.evalChain_scoped hev head inner m hthere)
    · exact fun item v =>
        hinside (Scoped.declare (List.mem_singleton_self inner) j.names v none rfl m hthere)

end Evaluation

/-! ### A block -/

/-- A frame with slots on top of one without. -/
def twoFrames : Machine :=
  ⟨default, #[], #[.new (.named [] none), .new (.indexed [none] (some 0))], #[], default⟩

/-- An assignment to a name, and a block around it. -/
def blockBuilder : Builder :=
  ((do
    let seven ← Builder.node (.literal (.int 7) none)
    let assigned ← Builder.node (.assign .empty seven)
    let block ← Builder.node (.block (some assigned))
    Builder.pushStatement block : BuildM Unit).run .empty).2

/-- The assignment declares its name where it is evaluated, but in the block it leaves no trace. -/
theorem bindings_of_eval_block :
    ∃ (j : Job) (assigned block : Machine), j.environment.KeepsBindings ∧ twoFrames.OwnChain 1 ∧
      twoFrames.resolve? j.names 1 .empty = none ∧
      ((j.eval 3 1 1).run twoFrames).2 = assigned ∧ twoFrames.KeepsBut [1] assigned ∧
      assigned.kind? 1 = some (.indexed [none, some (.empty, 0)] (some 0)) ∧
      assigned.resolve? j.names 1 .empty = some (.own 0) ∧
      ((j.evalBlock (j.eval 3) (some 1) 1).run twoFrames).2 = block ∧
      twoFrames.Nests j.names [] 1 block ∧ block.resolve? j.names 1 .empty = none ∧
      block.kind? 2 = some (.named [(.empty, 0)] (some 1)) := by
  let j : Job := ⟨Program.bareEnvironment, blockBuilder.arena, .null⟩
  have hn : j.environment.KeepsBindings := fun n hn => absurd hn List.not_mem_nil
  have hstacked : twoFrames.Stacked := by decide
  have hown : twoFrames.OwnChain 1 := hstacked.ownChain (by decide) (by decide)
  obtain ⟨⟨hassigned, -⟩, hblock, -⟩ := bindings_of_eval hn hown 3 1
  have hnone : twoFrames.resolve? j.names 1 .empty = none := by decide +kernel
  have hafter := (hblock (some 1)).resolve? .empty
  exact ⟨j, _, _, hn, hown, hnone, rfl, hassigned, by decide +kernel, by decide +kernel, rfl,
    hblock (some 1), hafter.trans hnone, by decide +kernel⟩

end MeteredScript

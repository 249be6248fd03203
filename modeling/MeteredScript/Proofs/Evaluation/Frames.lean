import MeteredScript.Proofs.Evaluation.Chain
import MeteredScript.Proofs.Evaluation.Hosted
import MeteredScript.Proofs.Evaluation.Programs

/-!
# Frames that are there before an evaluation

An evaluation binds names in the frames that are there and puts new frames on top of them. Apart from
what is bound in them these frames stay as they are, their signals included.
-/

namespace MeteredScript

/-! ## Outlines -/

/-- A frame of the same kind on top of the same frame, with nothing bound in it. -/
def FrameKind.outline : FrameKind → FrameKind
  | named _ next => named [] next
  | indexed _ next => indexed [] next
  | guarded delegate => guarded delegate
  | hosted source => hosted source

namespace FrameKind

@[simp] theorem below_outline (kind : FrameKind) : kind.outline.below = kind.below := by
  cases kind <;> rfl

@[simp] theorem standsFor_outline (kind : FrameKind) :
    kind.outline.standsFor = kind.standsFor := by
  cases kind <;> rfl

theorem outline_bind (name : Name) (i : Nat) (kind : FrameKind) :
    (kind.bind name i).outline = kind.outline := by
  cases kind <;> rfl

end FrameKind

/-- A frame without what is bound in it. -/
def Frame.outline (f : Frame) : Frame := { f with kind := f.kind.outline }

@[simp] theorem Frame.signal_outline (f : Frame) (s : Signal) : f.outline.signal s = f.signal s := by
  cases s <;> rfl

namespace Machine

variable {m m' m'' : Machine}

def outline (m : Machine) (f : Nat) : Option Frame := m.frames[f]?.map Frame.outline

/-- The frame that a frame of the machine is put on top of. -/
def below? (m : Machine) (f : Nat) : Option Nat := (m.kind? f).bind FrameKind.below

/-- Frames stand on earlier ones, as far as the first `n` frames go. -/
def StackedTo (m : Machine) (n : Nat) : Prop := ∀ f < n, ∀ g, m.below? f = some g → g < f

instance (m : Machine) (n : Nat) : Decidable (m.StackedTo n) :=
  decidable_of_iff (∀ f < n, (m.below? f).all (· < f) = true) <| by
    simp only [StackedTo, Option.all_eq_true, decide_eq_true_eq]

/-- Every frame stands on an earlier one, if it stands on any. -/
abbrev Stacked (m : Machine) : Prop := m.StackedTo m.frames.size

/-- The frames that are there stay, and apart from what is bound in them nothing happens to them. -/
structure KeepsFrames (m m' : Machine) : Prop where
  size : m.frames.size ≤ m'.frames.size
  outline : ∀ f < m.frames.size, m'.outline f = m.outline f

theorem below?_eq (m : Machine) (f : Nat) : m.below? f = (m.outline f).bind (·.kind.below) := by
  unfold below? kind? outline
  cases m.frames[f]? <;> simp [Frame.outline]

theorem standsFor_eq (m : Machine) (f : Nat) :
    m.standsFor f = (m.outline f).bind (·.kind.standsFor) := by
  unfold standsFor kind? outline
  cases m.frames[f]? <;> simp [Frame.outline]

/-- The frame that a guarded frame stands for is the one below it. -/
theorem below?_of_standsFor {f delegate : Nat} (h : m.standsFor f = some (.inl delegate)) :
    m.below? f = some delegate := by
  unfold standsFor at h
  unfold below?
  rcases hk : m.kind? f with _ | _ | _ | _ | _ <;> rw [hk] at h
  case some.guarded => exact congrArg some (Sum.inl.inj (Option.some.inj h))
  all_goals cases h

namespace KeepsFrames

theorem refl (m : Machine) : m.KeepsFrames m := ⟨Nat.le_refl _, fun _ _ => rfl⟩

theorem trans (h : m.KeepsFrames m') (k : m'.KeepsFrames m'') : m.KeepsFrames m'' :=
  ⟨Nat.le_trans h.size k.size, fun f hf =>
    (k.outline f (Nat.lt_of_lt_of_le hf h.size)).trans (h.outline f hf)⟩

theorem of_frames (h : m'.frames = m.frames) : m.KeepsFrames m' :=
  ⟨Nat.le_of_eq (congrArg Array.size h.symm), fun f _ => by rw [Machine.outline, h, Machine.outline]⟩

theorem pushFrame (m : Machine) (kind : FrameKind) : m.KeepsFrames (m.pushFrame kind).2 := by
  refine ⟨by simp [Machine.pushFrame], fun f hf => ?_⟩
  simp only [Machine.outline, Machine.pushFrame, Array.getElem?_push, Nat.ne_of_lt hf, if_false]

theorem updateKind {f : Nat} {update : FrameKind → FrameKind}
    (h : ∀ kind, m.kind? f = some kind → (update kind).outline = kind.outline) :
    m.KeepsFrames (m.updateKind f update) := by
  refine ⟨Nat.le_of_eq Array.size_modify.symm, fun g _ => ?_⟩
  unfold Machine.outline Machine.updateKind
  rw [Array.getElem?_modify]
  split
  · next heq =>
    subst heq
    cases hframe : m.frames[f]? with
    | none => rfl
    | some frame =>
      have hkind := h frame.kind (congrArg (Option.map Frame.kind) hframe)
      simp only [Option.map_some, Frame.outline, hkind]
  · rfl

/-! ### What is kept -/

section Kept

variable (h : m.KeepsFrames m') {f : Nat}

include h

theorem below? (hf : f < m.frames.size) : m'.below? f = m.below? f := by
  rw [below?_eq, below?_eq, h.outline f hf]

theorem standsFor (hf : f < m.frames.size) : m'.standsFor f = m.standsFor f := by
  rw [standsFor_eq, standsFor_eq, h.outline f hf]

theorem stackedTo (hm : m.Stacked) : m'.StackedTo m.frames.size :=
  fun f hf g hg => hm f hf g (h.below? hf ▸ hg)

theorem base (hm : m.Stacked) (hf : f < m.frames.size) : m'.base f = m.base f := by
  unfold Machine.base
  generalize f + 1 = fuel
  induction fuel generalizing f with
  | zero => rfl
  | succ fuel ih =>
    rw [baseTo_succ, baseTo_succ, h.standsFor hf]
    rcases hs : m.standsFor f with _ | delegate | _
    · rfl
    · exact ih (Nat.lt_trans (hm f hf delegate (below?_of_standsFor hs)) hf)
    · rfl

end Kept

end KeepsFrames

/-! ## Chains -/

/-- Where the frames below are the same, so are chains. -/
theorem OnChain.congr {n f g : Nat} (h : m.OnChain f g) (hm : m.StackedTo n)
    (same : ∀ f < n, m'.below? f = m.below? f) (hf : f < n) : m'.OnChain f g := by
  induction h with
  | here f => exact .here f
  | @down f g _ kind found next _ ih =>
    have hbelow : m.below? f = some g := by rw [Machine.below?, found]; exact next
    have hbelow' : m'.below? f = some g := (same f hf).trans hbelow
    obtain ⟨kind', hk', hnext'⟩ := Option.bind_eq_some_iff.mp hbelow'
    exact .down hk' hnext' (ih (Nat.lt_trans (hm f hf g hbelow) hf))

theorem KeepsFrames.onChain_iff (h : m.KeepsFrames m') (hm : m.Stacked) {f g : Nat}
    (hf : f < m.frames.size) : m'.OnChain f g ↔ m.OnChain f g := by
  constructor
  · intro hg
    exact hg.congr (h.stackedTo hm) (fun _ hf => (h.below? hf).symm) hf
  · intro hg
    exact hg.congr hm (fun _ hf => h.below? hf) hf

/-! ## Steps -/

theorem Step.keepsFrames {S : Setting} (hstep : Step S m m') (hsignals : ¬ S.signals)
    (heffect : ∀ m', S.effect m m' → m.KeepsFrames m') : m.KeepsFrames m' := by
  cases hstep with
  | store | newVariable | write | put | tick => exact .of_frames rfl
  | bind f name i => exact .updateKind fun kind _ => kind.outline_bind name i
  | bindSlot f slot name i x _ _ _ slots next hk =>
    refine .updateKind fun kind hkind => ?_
    rw [hk] at hkind
    exact Option.some.inj hkind ▸ rfl
  | enter f => exact .pushFrame m _
  | signals m' allowed => exact absurd allowed hsignals
  | native m' effect => exact heffect m' effect

end Machine

/-! ## Evaluations -/

/-- Everything may be held, and the frames of the machine at the start stay as they are. -/
def Setting.sameFrames (m₀ : Machine) : Setting where
  toRealm := .everything
  frame _ := True
  effect := Machine.KeepsFrames
  law := m₀.KeepsFrames
  signals := False

instance (m₀ : Machine) : (Setting.sameFrames m₀).Lawful :=
  ⟨fun hstep hm => hm.law.trans (hstep.keepsFrames id fun _ h => h)⟩

/-- Native functions, which are given no frame, leave the frames that are there as they are. -/
def Environment.KeepsFrames (e : Environment) : Prop :=
  ∀ n ∈ e.configuration.natives, ∀ f ∈ n.methods, ∀ (args : List Value) (m : Machine),
    m.KeepsFrames ((f.2 args).run m).2

theorem Job.interpret_keepsFrames {j : Job} (hn : j.environment.KeepsFrames) (fuel : Nat)
    (head : Option NodeId) (frame : Nat) (m : Machine) :
    m.KeepsFrames ((j.interpret fuel head frame).run m).2 := by
  have hm : m.Held (.sameFrames m) := .of_everything rfl (fun _ => trivial) (.refl m)
  have hj : j.Suits (.sameFrames m) j.environment.configuration :=
    j.suits_of_everything rfl (fun _ => trivial) fun n hc f hf args t ht =>
      ⟨hn n hc f hf args t, ht.trans (hn n hc f hf args t)⟩
  have hframe : (Setting.sameFrames m).frame frame := trivial
  obtain ⟨-, hsteps, -, -⟩ := interpretWatched_tracks (fun _ _ _ _ _ _ => trivial) hj (throw .broke)
    fuel head hframe m hm
  exact (hsteps.held hm).law

/-- What a program does by its strategy leaves the frames that are there as they are. -/
theorem Program.execute_keepsFrames (p : Program) {e : Environment} (hn : e.KeepsFrames) (fuel : Nat)
    (this : Value) (frame : Nat) (m : Machine) :
    m.KeepsFrames ((p.execute e fuel this frame).run m).2 := by
  have hinterpret : m.KeepsFrames ((p.interpret e fuel this frame).run m).2 :=
    Job.interpret_keepsFrames hn fuel p.first frame m
  unfold execute
  rcases p.strategy with _ | _ | exit | v
  · exact hinterpret
  · exact hinterpret
  · exact .refl m
  · exact .refl m

end MeteredScript

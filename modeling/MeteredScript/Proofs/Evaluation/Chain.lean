import MeteredScript.Proofs.Evaluation.Setting

/-!
# The chain of a frame

What a script finds under a name is on the chain of the frame that it runs in. A machine holds what
it may from that frame on if its containers and the frames of the chain do.
-/

namespace MeteredScript

namespace Machine

/-- The frames on the chain of a frame. -/
inductive OnChain (m : Machine) : Nat → Nat → Prop
  | here (f : Nat) : OnChain m f f
  | down {f g h : Nat} {kind : FrameKind} (found : m.kind? f = some kind)
      (next : kind.below = some g) (rest : OnChain m g h) : OnChain m f h

/-- The values of the variables of a frame, or those that data of the host can hand out. -/
inductive Offers (m : Machine) (f : Nat) : Value → Prop
  | own {kind : FrameKind} {i : Nat} {x : Variable} (found : m.kind? f = some kind)
      (bound : i ∈ kind.indices) (variable_ : m.locals[i]? = some x) : Offers m f x.value
  | hosted {i : Nat} {v : Value} (found : m.kind? f = some (.hosted (.table i)))
      (stocked : (m.data i).Stocks v) : Offers m f v

theorem OnChain.trans {m : Machine} {f g h : Nat} (k : m.OnChain f g)
    (l : m.OnChain g h) : m.OnChain f h := by
  induction k with
  | here => exact l
  | down found next _ ih => exact .down found next (ih l)

section Held

variable {S : Setting} {m : Machine} {frame : Nat}

theorem Held.of_chain (hframe : S.frame = fun f => m.OnChain frame f ∨ m.frames.size ≤ f)
    (hstore : m.store.Held S.toRealm)
    (hoffers : ∀ f, m.OnChain frame f → ∀ v, m.Offers f v → S.admits v)
    (hhosts : ∀ f, m.OnChain frame f → ∀ h : Handle, m.kind? f = some (.hosted (.map h)) →
      S.handle h)
    (hlaw : S.law m) : m.Held S := by
  -- Of the frames looked up, those that are there are on the chain.
  have hchain {f : Nat} {kind : FrameKind} (hf : S.frame f) (hk : m.kind? f = some kind) :
      m.OnChain frame f := by
    rw [hframe] at hf
    rcases hf with hf | hf
    · exact hf
    · rw [kind?, Array.getElem?_eq_none hf] at hk
      cases hk
  constructor
  case store => exact hstore
  case fresh =>
    intro f hf
    exact hframe ▸ .inr hf
  case below =>
    intro f kind hf hk g hg
    exact hframe ▸ .inl ((hchain hf hk).trans (.down hk hg (.here g)))
  case holds =>
    intro f kind hf hk
    have hon := hchain hf hk
    constructor
    case own =>
      intro i hi x hx
      exact hoffers f hon _ (.own hk hi hx)
    case map =>
      rintro h rfl
      exact hhosts f hon h hk
    case table =>
      rintro i rfl v hv
      exact hoffers f hon v (.hosted hk hv)
  case law => exact hlaw

variable {m' : Machine} (h : m'.Held S)

include h

theorem Held.onChain {f g : Nat} (hf : S.frame f) (hc : m'.OnChain f g) : S.frame g := by
  induction hc with
  | here => exact hf
  | down found next _ ih => exact ih (h.below _ _ hf found _ next)

theorem Held.offers {f : Nat} (hf : S.frame f) {v : Value} (hv : m'.Offers f v) : S.admits v := by
  cases hv with
  | own found bound hx => exact (h.holds f _ hf found).own _ bound _ hx
  | hosted found hv => exact (h.holds f _ hf found).table _ rfl _ hv

end Held

end Machine

end MeteredScript

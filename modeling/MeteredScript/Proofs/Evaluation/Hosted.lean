import MeteredScript.Proofs.Evaluation.Scopes

/-!
# Frames of a host

What is declared in a frame of a host, or in a guarded frame around one, is written to the data of
the host whatever its declared type. In other frames it becomes a variable, and the declared type
has to accept the value. No step makes a frame one of a host, or lets it cease to be one.
-/

namespace MeteredScript

/-! ## Frames without variables of their own -/

/-- What a frame without variables of its own stands for: the frame it guards, or data of a host. -/
def FrameKind.standsFor : FrameKind → Option (Nat ⊕ HostSource)
  | guarded delegate => some (.inl delegate)
  | hosted source => some (.inr source)
  | named .. | indexed .. => none

namespace Machine

variable {m m' m'' : Machine}

def standsFor (m : Machine) (f : Nat) : Option (Nat ⊕ HostSource) :=
  (m.kind? f).bind FrameKind.standsFor

/-- Names are declared in data of a host. -/
def Hosted (m : Machine) (f : Nat) : Prop := ∃ source, m.kind? (m.base f) = some (.hosted source)

/-- No frames are lost, and the same ones are frames of a host. -/
structure KeepsHosted (m m' : Machine) : Prop where
  size : m.frames.size ≤ m'.frames.size
  hosted : ∀ f, m'.Hosted f ↔ m.Hosted f

theorem KeepsHosted.refl (m : Machine) : m.KeepsHosted m := ⟨Nat.le_refl _, fun _ => Iff.rfl⟩

theorem KeepsHosted.trans (h : m.KeepsHosted m') (k : m'.KeepsHosted m'') : m.KeepsHosted m'' :=
  ⟨Nat.le_trans h.size k.size, fun f => (k.hosted f).trans (h.hosted f)⟩

theorem baseTo_succ (m : Machine) (fuel f : Nat) :
    m.baseTo (fuel + 1) f = match m.standsFor f with
      | some (.inl delegate) => m.baseTo fuel delegate
      | _ => f := by
  unfold standsFor
  rw [baseTo]
  rcases m.kind? f with _ | _ | _ | _ | _ <;> rfl

theorem baseTo_congr (h : m'.standsFor = m.standsFor) (fuel f : Nat) :
    m'.baseTo fuel f = m.baseTo fuel f := by
  induction fuel generalizing f with
  | zero => rfl
  | succ fuel ih =>
    rw [baseTo_succ, baseTo_succ, h]
    rcases m.standsFor f with _ | delegate | _
    · rfl
    · exact ih delegate
    · rfl

theorem hosted_iff (f : Nat) :
    m.Hosted f ↔ ∃ source, m.standsFor (m.base f) = some (.inr source) := by
  unfold Hosted standsFor
  refine exists_congr fun source => ?_
  rcases m.kind? (m.base f) with _ | _ | _ | _ | _ <;> simp [FrameKind.standsFor]

theorem KeepsHosted.of_standsFor (hsize : m.frames.size ≤ m'.frames.size)
    (h : m'.standsFor = m.standsFor) : m.KeepsHosted m' := by
  refine ⟨hsize, fun f => ?_⟩
  have hbase : m'.base f = m.base f := baseTo_congr h (f + 1) f
  rw [hosted_iff, hosted_iff, h, hbase]

/-- A frame that is not there is not one of a host. -/
theorem not_hosted_of_size_le {f : Nat} (h : m.frames.size ≤ f) : ¬ m.Hosted f := by
  have hnone : m.kind? f = none := by rw [kind?, Array.getElem?_eq_none h]; rfl
  have hbase : m.base f = f := by
    unfold base
    rw [baseTo_succ, standsFor, hnone]
    rfl
  rintro ⟨source, hk⟩
  rw [hbase, hnone] at hk
  cases hk

/-! ## Steps -/

theorem standsFor_updateKind {f : Nat} {update : FrameKind → FrameKind}
    (h : ∀ kind, m.kind? f = some kind → (update kind).standsFor = kind.standsFor) :
    (m.updateKind f update).standsFor = m.standsFor := by
  funext g
  unfold standsFor
  rw [kind?_updateKind]
  split
  · next heq =>
    subst heq
    cases hk : m.kind? f with
    | none => rfl
    | some kind => exact h kind hk
  · rfl

theorem standsFor_pushFrame {kind : FrameKind} (h : kind.standsFor = none) (m : Machine) :
    (m.pushFrame kind).2.standsFor = m.standsFor := by
  funext g
  unfold standsFor
  rw [kind?_pushFrame]
  split
  · next heq =>
    subst heq
    rw [kind?, Array.getElem?_eq_none (Nat.le_refl _)]
    exact h
  · rfl

theorem Step.keepsHosted {S : Setting} (hstep : Step S m m')
    (heffect : ∀ m', S.effect m m' → m.KeepsHosted m') : m.KeepsHosted m' := by
  cases hstep with
  | store | newVariable | write | put | tick => exact .of_standsFor (Nat.le_refl _) rfl
  | bind f name i =>
    refine .of_standsFor (Nat.le_of_eq Array.size_modify.symm)
      (standsFor_updateKind fun kind _ => ?_)
    cases kind <;> rfl
  | bindSlot f slot name i x _ _ _ slots next hk =>
    refine .of_standsFor (Nat.le_of_eq Array.size_modify.symm)
      (standsFor_updateKind fun kind hkind => ?_)
    rw [hk] at hkind
    exact Option.some.inj hkind ▸ rfl
  | enter f =>
    refine .of_standsFor ?_ (standsFor_pushFrame rfl m)
    simp [pushFrame]
  | signals m' _ same =>
    refine .of_standsFor (Nat.le_of_eq same.size.symm) ?_
    funext f
    rw [standsFor, same.kind]
    rfl
  | native m' effect => exact heffect m' effect

end Machine

/-! ## Declarations -/

namespace Scope

variable {m : Machine} {names : Interner} {name : Name} {v : Value} {type : Option ValueType}
  {f slot : Nat} {cell : Cell} {expected actual : String}

/-- Nothing can fail in the declaration of a variable but the check of its type. -/
theorem bindNew_run (base : Nat) (update : Nat → FrameKind → FrameKind) (m : Machine) (v : Value)
    (type : Option ValueType) :
    ((do let i ← newVariable v type; updateKind base (update i); return Cell.own i).run m).1 =
      (checkType type v).map fun _ => .own m.locals.size := by
  unfold newVariable
  cases checkType type v <;> rfl

/-- A declaration checks the type just where the frame is no frame of a host. -/
theorem declare_run (names : Interner) (f : Nat) (name : Name) (v : Value)
    (type : Option ValueType) (m : Machine) :
    (declare names f name v type).run m = (match m.kind? (m.base f) with
      | some (.hosted source) => do
        source.set (names.lookup name) v
        return Cell.hosted source (names.lookup name)
      | _ => do
        let i ← newVariable v type
        updateKind (m.base f) (·.bind name i)
        return Cell.own i : Act Cell).run m := by
  unfold declare
  refine (run_get_bind _ m).trans ((run_get_bind _ m).trans ?_)
  cases m.kind? (m.base f) with
  | none => rfl
  | some kind => cases kind <;> rfl

theorem declareAt_run (names : Interner) (f slot : Nat) (name : Name) (v : Value)
    (type : Option ValueType) (m : Machine) :
    (declareAt names f slot name v type).run m = (match m.kind? (m.base f) with
      | some (.indexed slots next) => do
        if slots.length ≤ slot then throw (.indexOutOfRange slot slots.length)
        let i ← newVariable v type
        updateKind (m.base f) fun _ => .indexed (slots.set slot (some (name, i))) next
        return Cell.own i
      | _ => declare names f name v type : Act Cell).run m := by
  unfold declareAt
  refine (run_get_bind _ m).trans ((run_get_bind _ m).trans ?_)
  cases m.kind? (m.base f) with
  | none => rfl
  | some kind => cases kind <;> rfl

theorem checkType_of_map {α : Type} {x : Except Fault Unit} {a b : α}
    (h : x.map (fun _ => a) = .ok b) : x = .ok () := by
  cases x with
  | ok => rfl
  | error => cases h

/-- Of a declaration that succeeds in another frame, the type accepts the value. -/
theorem checkType_of_declare (hf : ¬ m.Hosted f)
    (h : ((declare names f name v type).run m).1 = .ok cell) : checkType type v = .ok () := by
  rw [declare_run] at h
  split at h
  · next source hk => exact absurd ⟨source, hk⟩ hf
  · exact checkType_of_map (bindNew_run .. ▸ h)

theorem checkType_of_declareAt (hf : ¬ m.Hosted f)
    (h : ((declareAt names f slot name v type).run m).1 = .ok cell) :
    checkType type v = .ok () := by
  rw [declareAt_run] at h
  split at h
  · next slots next hk =>
    split at h
    · cases h
    · have hrun := bindNew_run (m.base f)
        (fun i _ => .indexed (slots.set slot (some (name, i))) next) m v type
      exact checkType_of_map (hrun.symm.trans h)
  · exact checkType_of_declare hf h

/-- If the type accepts the value wherever it is checked, a mismatch is one that data of the host's
own has raised itself. -/
theorem declare_mismatch (h : ¬ m.Hosted f → checkType type v = .ok ())
    (he : ((declare names f name v type).run m).1 = .error (.typeMismatch expected actual)) :
    ∃ i, m.kind? (m.base f) = some (.hosted (.table i)) ∧
      ((HostData.set (names.lookup name) v).run (m.data i)).1 =
        .error (.typeMismatch expected actual) := by
  rw [declare_run] at he
  split at he
  · next source hk =>
    rw [run_bind] at he
    rcases hs : (source.set (names.lookup name) v).run m with ⟨fault | _, t⟩ <;> rw [hs] at he
    · have hset : ((source.set (names.lookup name) v).run m).1 =
          .error (.typeMismatch expected actual) := by rw [hs, Except.error.inj he]
      obtain ⟨i, rfl, hraised⟩ := HostSource.set_mismatch hset
      exact ⟨i, hk, hraised⟩
    · cases he
  · next hno =>
    have hown : ¬ m.Hosted f := fun ⟨source, hk⟩ => hno source hk
    rw [bindNew_run, h hown] at he
    cases he

theorem declareAt_mismatch (h : ¬ m.Hosted f → checkType type v = .ok ())
    (he : ((declareAt names f slot name v type).run m).1 =
      .error (.typeMismatch expected actual)) :
    ∃ i, m.kind? (m.base f) = some (.hosted (.table i)) ∧
      ((HostData.set (names.lookup name) v).run (m.data i)).1 =
        .error (.typeMismatch expected actual) := by
  rw [declareAt_run] at he
  split at he
  · next slots next hk =>
    split at he
    · cases he
    · have hrun := bindNew_run (m.base f)
        (fun i _ => .indexed (slots.set slot (some (name, i))) next) m v type
      have hown : ¬ m.Hosted f := by
        rintro ⟨source, hs⟩
        cases hk.symm.trans hs
      rw [h hown] at hrun
      cases hrun.symm.trans he
  · exact declare_mismatch h he

end Scope

end MeteredScript

import MeteredScript.Program.Evaluate
import MeteredScript.Proofs.Evaluation.Nodes

/-!
# Programs in a setting

What is true of the evaluation of nodes passes to programs: a program is interpreted or an answer is
replayed, and what comes out is delivered to the host, which changes nothing but signals.
-/

namespace MeteredScript

/-! ## Signals -/

namespace Machine.SameButSignals

variable {m m' m'' : Machine}

theorem refl (m : Machine) : SameButSignals m m := ⟨rfl, rfl, rfl, rfl, rfl, fun _ => rfl⟩

theorem trans (h : SameButSignals m m') (k : SameButSignals m' m'') : SameButSignals m m'' :=
  ⟨k.store.trans h.store, k.locals.trans h.locals, k.tables.trans h.tables,
    k.context.trans h.context, k.size.trans h.size, fun f => (k.kind f).trans (h.kind f)⟩

theorem setOwn (m : Machine) (s : Signal) (on : Bool) (f : Nat) :
    SameButSignals m (m.setOwn s on f) := by
  refine ⟨rfl, rfl, rfl, rfl, Array.size_modify, fun g => ?_⟩
  unfold kind? Machine.setOwn
  rw [Array.getElem?_modify]
  split
  · rw [Option.map_map]
    congr 1
    funext frame
    cases s <;> rfl
  · rfl

theorem raiseTo (s : Signal) (fuel f : Nat) (m : Machine) :
    SameButSignals m (m.raiseTo s fuel f) := by
  induction fuel generalizing f m with
  | zero => exact refl m
  | succ fuel ih =>
    unfold Machine.raiseTo
    split
    · exact refl m
    · split
      · exact refl m
      · exact ih _ _
    · split
      · exact (setOwn m s true f).trans (ih _ _)
      · exact setOwn m s true f

end Machine.SameButSignals

/-! ## Programs -/

namespace Program

/-- What a program does by its strategy, with a watch on the nodes that are interpreted. -/
noncomputable def executeWatched (p : Program) (e : Environment) (watch : Watch)
    (alarm : Run Value) (fuel : Nat) (this : Value) (frame : Nat) : Run Value :=
  match p.strategy with
  | some (.replay (.ok v)) => return v
  | some (.replay (.error exit)) => throw exit
  | _ => (p.job e this).interpretWatched watch alarm fuel p.first frame

noncomputable def evaluateWatched (p : Program) (e : Environment) (watch : Watch)
    (alarm : Run Value) (fuel : Nat) (this : Value) (frame : Nat) : Run Value :=
  deliver frame (p.executeWatched e watch alarm fuel this frame)

/-- What is replayed instead of an interpretation may be held. -/
def ReplaysHeld (R : Realm) (p : Program) : Prop :=
  ∀ ending, p.strategy = some (.replay ending) →
    ∀ v, ending = .ok v ∨ ending = .error (.returned v) → R.admits v

theorem deliver_run (frame : Nat) (x : Run Value) (m : Machine) :
    (deliver frame x).run m = match x.run m with
      | (.error (.returned v), m) => (.ok v, m.raise .tilt frame)
      | (.error .broke, m) => (.ok .null, m.raise .brk frame)
      | (result, m) => (result, m) := rfl

theorem deliver_congr {frame : Nat} {x' x : Run Value} {m : Machine} (h : x'.run m = x.run m) :
    (deliver frame x').run m = (deliver frame x).run m := by
  rw [deliver_run, deliver_run, h]

theorem deliver_signals (frame : Nat) (x : Run Value) (m : Machine) :
    (x.run m).2.SameButSignals ((deliver frame x).run m).2 := by
  rw [deliver_run]
  rcases x.run m with ⟨(f | v | _ | _) | v, t⟩
  · exact .refl t
  · exact .raiseTo .tilt _ frame t
  · exact .raiseTo .brk _ frame t
  · exact .refl t
  · exact .refl t

/-- What is neither a return nor a break is delivered as it is. -/
theorem deliver_of_other {frame : Nat} {x : Run Value} {m : Machine} {result : Except Exit Value}
    (h : (x.run m).1 = result) (hr : ∀ v, result ≠ .error (.returned v))
    (hb : result ≠ .error .broke) : ((deliver frame x).run m).1 = result := by
  subst h
  rw [deliver_run]
  generalize x.run m = ending at hr hb ⊢
  rcases ending with ⟨(f | v | _ | _) | v, t⟩
  · rfl
  · exact absurd rfl (hr v)
  · exact absurd rfl hb
  · rfl
  · rfl

/-- A value that is delivered is the result or was returned, or else it is null. -/
theorem deliver_ok {frame : Nat} {x : Run Value} {m : Machine} {v : Value}
    (h : ((deliver frame x).run m).1 = .ok v) :
    (x.run m).1 = .ok v ∨ (x.run m).1 = .error (.returned v) ∨ v = .null := by
  rw [deliver_run] at h
  rcases hx : x.run m with ⟨(f | w | _ | _) | w, t⟩ <;> rw [hx] at h
  · cases h
  · exact .inr (.inl (congrArg _ (congrArg _ (Except.ok.inj h))))
  · exact .inr (.inr (Except.ok.inj h).symm)
  · cases h
  · exact .inl h

theorem deliver_error {frame : Nat} {x : Run Value} {m : Machine} {exit : Exit}
    (h : ((deliver frame x).run m).1 = .error exit) : (x.run m).1 = .error exit := by
  rw [deliver_run] at h
  rcases hx : x.run m with ⟨(f | w | _ | _) | w, t⟩ <;> rw [hx] at h
  · exact h
  · cases h
  · cases h
  · exact h
  · cases h

variable {S : Setting} [S.Lawful] {p : Program} {e : Environment} {c : Configuration} {this : Value}
  {watch : Watch}
  (hw : ∀ (frame : Nat) (ending : Except Exit Value) (m : Machine), S.frame frame → m.Held S →
    (∀ v, ending = .ok v ∨ ending = .error (.returned v) → S.admits v) → watch frame ending m)

include hw

theorem executeWatched_tracks (hj : (p.job e this).Suits S c) (hp : p.ReplaysHeld S.toRealm)
    (alarm : Run Value) (fuel : Nat) {frame : Nat} (hf : S.frame frame) :
    Run.Tracks S (p.executeWatched (e.reconfigured c) watch alarm fuel this frame)
      (p.execute e fuel this frame) S.admits := by
  have hint := Job.interpretWatched_tracks hw hj alarm fuel p.first hf
  unfold executeWatched execute
  rcases hs : p.strategy with _ | _ | exit | v
  · exact hint
  · exact hint
  · refine .throw ?_ _
    cases exit with
    | returned v => exact hp _ hs v (.inr rfl)
    | fault | broke | exhausted => trivial
  · exact .pure (hp _ hs v (.inl rfl))

/-- Evaluating a program under watch is evaluating it, which is done in steps of the setting. -/
theorem evaluateWatched_tracks (hj : (p.job e this).Suits S c) (hp : p.ReplaysHeld S.toRealm)
    (hsignals : S.signals) (alarm : Run Value) (fuel : Nat) {frame : Nat} (hf : S.frame frame) :
    Run.Tracks S (p.evaluateWatched (e.reconfigured c) watch alarm fuel this frame)
      (p.evaluate e fuel this frame) S.admits := by
  intro m hm
  obtain ⟨hsame, hsteps, hresult, hexit⟩ := executeWatched_tracks hw hj hp alarm fuel hf m hm
  refine ⟨deliver_congr hsame, hsteps.tail (.signals _ hsignals (deliver_signals frame _ m)),
    fun v hv => ?_, fun exit he => ?_⟩
  · rcases deliver_ok hv with hv | hv | rfl
    · exact hresult v hv
    · exact hexit _ hv
    · trivial
  · exact hexit exit (deliver_error he)

end Program

end MeteredScript

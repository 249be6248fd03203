import MeteredScript.Proofs.Evaluation.Raising
import MeteredScript.Proofs.Termination

/-!
# What signals say of programs

The signals of the frames that a host made say how an evaluation on one of them came out. Only what is
delivered raises them, on the chain that the evaluation was on; what happens inside of the evaluation
leaves them as they are.
-/

namespace MeteredScript

/-! ## Frames that are there before -/

namespace Machine

variable {m t : Machine} {s : Signal} {frame : Nat}

/-- The frames that were there have the signals that they had. -/
def SameSignals (m m' : Machine) : Prop :=
  ∀ f < m.frames.size, ∀ s, m'.signal s f = m.signal s f

/-- The signal is up on the whole chain of a frame, and shows in guarded frames that stand for one of
the chain. Other frames that were there have it as they had it, and all of them have the other signal
as they had it. -/
structure RaisedOn (s : Signal) (frame : Nat) (m m' : Machine) : Prop where
  chain : ∀ f, m.OnChain frame f → m'.signal s f = true
  shown : ∀ f < m.frames.size, m.OnChain frame (m.base f) → m'.signal s f = true
  apart : ∀ f < m.frames.size, ¬ m.OnChain frame (m.base f) → m'.signal s f = m.signal s f
  other : ∀ s', s' ≠ s → ∀ f < m.frames.size, m'.signal s' f = m.signal s' f

/-- How signals tell what an evaluation on a frame ended with. -/
def Tells (frame : Nat) (m m' : Machine) : Except Exit Value → Prop
  | .error (.returned _) => m.RaisedOn .tilt frame m'
  | .error .broke => m.RaisedOn .brk frame m'
  | .ok _ | .error (.fault _) | .error .exhausted => m.SameSignals m'

theorem signal_raise_of_ne (m : Machine) {s s' : Signal} (hs : s' ≠ s) (f g : Nat) :
    (m.raise s f).signal s' g = m.signal s' g := by
  rw [signal_eq_own, (m.sameButSignals_raise s f).base, own_raise_of_ne m f hs, signal_eq_own]

theorem OnChain.lt {n f g : Nat} (hc : m.OnChain f g) (hm : m.StackedTo n) (hf : f < n) : g < n := by
  induction hc with
  | here => exact hf
  | @down f g _ kind found next _ ih =>
    exact ih (Nat.lt_trans (hm f hf g (by rw [below?, found]; exact next)) hf)

namespace KeepsFrames

variable (h : m.KeepsFrames t) (hm : m.Stacked)

include h

theorem own {f : Nat} (hf : f < m.frames.size) (s : Signal) : t.own s f = m.own s f := by
  rw [own_eq, own_eq, h.outline f hf]

theorem guarded_iff {f : Nat} (hf : f < m.frames.size) : t.Guarded f ↔ m.Guarded f := by
  rw [Machine.guarded_iff, Machine.guarded_iff, h.standsFor hf]

include hm

theorem sameSignals : m.SameSignals t := by
  intro f hf s
  rw [signal_eq_own, h.base hm hf, h.own (base_lt hm hf), signal_eq_own]

/-- What is raised on a frame that was there before is raised on its chain of that time. -/
theorem raisedOn (hf : frame < m.frames.size) (hu : m.Unguarded frame) (s : Signal) :
    m.RaisedOn s frame (t.raise s frame) := by
  have hbase {f : Nat} (hf : f < m.frames.size) : (t.raise s frame).base f = m.base f := by
    rw [(t.sameButSignals_raise s frame).base, h.base hm hf]
  have hchain {f : Nat} : t.OnChain frame f ↔ m.OnChain frame f := h.onChain_iff hm hf
  have hinside {f : Nat} (hc : m.OnChain frame f) : f < m.frames.size := hc.lt hm hf
  have hplain : t.Unguarded frame := fun f hc =>
    (h.guarded_iff (hinside (hchain.mp hc))).not.mpr (hu f (hchain.mp hc))
  have hshown {f : Nat} (hlt : f < m.frames.size) (hc : m.OnChain frame (m.base f)) :
      (t.raise s frame).signal s f = true := by
    rw [signal_eq_own, hbase hlt]
    exact own_raiseTo_onChain (h.stackedTo hm) h.size hf s (Nat.lt_succ_self frame) hplain
      (hchain.mpr hc)
  constructor
  · exact fun f hc => hshown (hinside hc) (by rwa [base_of_not_guarded (hu f hc)])
  · exact fun f hlt hc => hshown hlt hc
  · intro f hlt hnot
    rw [signal_eq_own, hbase hlt, own_raise_of_not_onChain t s (hchain.not.mpr hnot),
      h.own (base_lt hm hlt), signal_eq_own]
  · intro s' hs f hlt
    rw [signal_raise_of_ne t hs, h.sameSignals hm f hlt]

/-- What is raised on a guarded frame shows in the frame that it guards. -/
theorem signal_raise_guarded {guarded : Nat} (hlt : guarded < m.frames.size)
    (hs : m.standsFor guarded = some (.inl frame)) (s : Signal) :
    (t.raise s guarded).signal s frame = true := by
  have same := t.sameButSignals_raise s guarded
  have hstacked := h.stackedTo hm
  have hguards : (t.raise s guarded).standsFor guarded = some (.inl frame) := by
    rw [same.standsFor, h.standsFor hlt, hs]
  rw [← signal_of_guarded (same.stackedTo hstacked) hlt hguards]
  exact signal_raiseTo hstacked h.size hlt s (Nat.lt_succ_self guarded)

end KeepsFrames

end Machine

namespace Program

variable {e : Environment} {m : Machine} {frame : Nat}

/-! ## Evaluations -/

/-- In every state in which frames stand on earlier ones, whatever signals are up, an evaluation on a
frame without guarded frames on its chain says by signals how it ended. After a return the whole chain
has the tilt signal, after a break that no loop took it has the break signal, and nothing else changes
in what the frames that were there show; after any other ending, and so whenever the evaluation fails,
nothing does. Interpretation changes nothing at all. Native functions are not given frames, and leave
those that are there as they are. -/
theorem evaluate_signals (p : Program) (hn : e.KeepsFrames) (hm : m.Stacked)
    (hf : frame < m.frames.size) (hu : m.Unguarded frame) (fuel : Nat) (this : Value) :
    m.Tells frame ((p.evaluate e fuel this frame).run m).2
        ((p.execute e fuel this frame).run m).1 ∧
      (∀ exit, ((p.evaluate e fuel this frame).run m).1 = .error exit →
        m.SameSignals ((p.evaluate e fuel this frame).run m).2) ∧
      m.SameSignals ((p.interpret e fuel this frame).run m).2 := by
  have hkept : m.KeepsFrames ((p.execute e fuel this frame).run m).2 :=
    p.execute_keepsFrames hn fuel this frame m
  have hinterpret : m.KeepsFrames ((p.interpret e fuel this frame).run m).2 :=
    Job.interpret_keepsFrames hn fuel p.first frame m
  have hinside := hinterpret.sameSignals hm
  unfold evaluate
  rw [deliver_run]
  generalize (p.execute e fuel this frame).run m = run at hkept ⊢
  rcases run with ⟨(f | v | _ | _) | v, t⟩
  case error.fault =>
    have hsame := hkept.sameSignals hm
    exact ⟨hsame, fun _ _ => hsame, hinside⟩
  case error.returned =>
    have htells := hkept.raisedOn hm hf hu .tilt
    exact ⟨htells, by simp, hinside⟩
  case error.broke =>
    have htells := hkept.raisedOn hm hf hu .brk
    exact ⟨htells, by simp, hinside⟩
  case error.exhausted =>
    have hsame := hkept.sameSignals hm
    exact ⟨hsame, fun _ _ => hsame, hinside⟩
  case ok =>
    have hsame := hkept.sameSignals hm
    exact ⟨hsame, by simp, hinside⟩

def returningBuilder : Builder :=
  ((do
    let one ← Builder.node (.literal (.int 1) none)
    let returned ← Builder.node (.ret one)
    Builder.pushStatement returned : BuildM Unit).run .empty).2

/-- Two frames on a frame with slots, which is put on a frame of a host. The first of them is
guarded. -/
def sharedTail : Machine :=
  { Machine.bare with
    tables := #[default]
    frames := #[.new (.hosted (.table 0)), .new (.indexed [none] (some 0)),
      .new (.named [] (some 1)), .new (.named [] (some 1)), .new (.guarded 2)] }

theorem sharedTail_unguarded : sharedTail.Unguarded 2 := by
  intro f hc
  have hlt : f < 3 := hc.lt (by decide) (by decide)
  exact (by decide : ∀ f < 3, ¬ sharedTail.Guarded f) f hlt

theorem bareEnvironment_keepsFrames : bareEnvironment.KeepsFrames :=
  fun _ hn => absurd hn List.not_mem_nil

theorem evaluate_signals_shared :
    ∃ p : Program, returningBuilder.finish plainOptions = .ok p ∧ sharedTail.Stacked ∧
      sharedTail.Unguarded 2 ∧
      ((p.evaluate bareEnvironment 4 .null 2).run sharedTail).1 = .ok (.int 1) ∧
      ((p.evaluate bareEnvironment 4 .null 2).run sharedTail).2.signal .tilt 0 = true ∧
      ((p.evaluate bareEnvironment 4 .null 2).run sharedTail).2.signal .tilt 3 = false ∧
      ((p.evaluate bareEnvironment 4 .null 2).run sharedTail).2.signal .brk 2 = false := by
  obtain ⟨p, hp, hvalue, v, hending⟩ : ∃ p : Program, returningBuilder.finish plainOptions = .ok p ∧
      ((p.evaluate bareEnvironment 4 .null 2).run sharedTail).1 = .ok (.int 1) ∧
      ∃ v, ((p.execute bareEnvironment 4 .null 2).run sharedTail).1 = .error (.returned v) :=
    ⟨_, rfl, rfl, _, rfl⟩
  have hstacked : sharedTail.Stacked := by decide
  have htells := (evaluate_signals p bareEnvironment_keepsFrames hstacked (by decide)
    sharedTail_unguarded 4 .null).1
  rw [hending] at htells
  have htail : sharedTail.OnChain 2 0 := .down rfl rfl (.down rfl rfl (.here 0))
  have hapart : ¬ sharedTail.OnChain 2 (sharedTail.base 3) := fun hc =>
    absurd (hc.lt (n := 3) (by decide) (by decide)) (by decide)
  exact ⟨p, hp, hstacked, sharedTail_unguarded, hvalue, htells.chain 0 htail,
    htells.apart 3 (by decide) hapart, htells.other .brk (by decide) 2 (by decide)⟩

/-! ## Nested evaluations -/

/-- A new guarded frame stands on the frame that it guards, whose tilt signal has been lowered unless
that frame is guarded itself. -/
theorem pushGuarded_stacked (hm : m.Stacked) (hf : frame < m.frames.size) :
    (m.pushGuarded frame).2.Stacked ∧
      (m.pushGuarded frame).1 < (m.pushGuarded frame).2.frames.size ∧
      (m.pushGuarded frame).2.standsFor (m.pushGuarded frame).1 = some (.inl frame) ∧
      ∀ s, (m.pushGuarded frame).2.signal s frame = true ↔
        m.signal s frame = true ∧ (s = .tilt → m.Guarded frame) := by
  have same := m.sameButSignals_lower .tilt frame
  have hf' : frame < (m.lower .tilt frame).frames.size := same.size ▸ hf
  have hm' : (m.lower .tilt frame).Stacked := same.stackedTo (same.size ▸ hm)
  have hkept := Machine.KeepsFrames.pushFrame (m.lower .tilt frame) (.guarded frame)
  unfold Machine.pushGuarded
  refine ⟨hm'.pushFrame fun _ hg => Option.some.inj hg ▸ hf', ?_, ?_, fun s => ?_⟩
  · simp [Machine.pushFrame]
  · rw [Machine.standsFor, Machine.kind?_pushFrame]
    exact if_pos rfl ▸ rfl
  · rw [hkept.sameSignals hm' frame hf', Machine.signal_lower m .tilt s hf]

/-- An evaluation on a guarded frame adds to the signals that the frame below shows. -/
theorem evaluate_guarded_signals (p : Program) (hn : e.KeepsFrames) (hm : m.Stacked) {guarded : Nat}
    (hlt : guarded < m.frames.size) (hs : m.standsFor guarded = some (.inl frame)) (fuel : Nat)
    (this : Value) (s : Signal) :
    ((p.evaluate e fuel this guarded).run m).2.signal s frame = true ↔
      m.signal s frame = true ∨ match ((p.execute e fuel this guarded).run m).1 with
        | .error (.returned _) => s = .tilt
        | .error .broke => s = .brk
        | _ => False := by
  have hkept : m.KeepsFrames ((p.execute e fuel this guarded).run m).2 :=
    p.execute_keepsFrames hn fuel this guarded m
  have hbelow : frame < m.frames.size :=
    Nat.lt_trans (hm guarded hlt frame (Machine.below?_of_standsFor hs)) hlt
  unfold evaluate
  rw [deliver_run]
  generalize (p.execute e fuel this guarded).run m = run at hkept ⊢
  have hsame := hkept.sameSignals hm frame hbelow s
  have hraised (s' : Signal) : (run.2.raise s' guarded).signal s frame = true ↔
      m.signal s frame = true ∨ s = s' := by
    by_cases hs' : s = s'
    · subst hs'
      exact iff_of_true (hkept.signal_raise_guarded hm hlt hs s) (.inr rfl)
    · rw [Machine.signal_raise_of_ne _ hs', hsame, or_iff_left hs']
  rcases run with ⟨(f | v | _ | _) | v, t⟩
  · exact (Bool.eq_iff_iff.mp hsame).trans (or_iff_left id).symm
  · exact hraised .tilt
  · exact hraised .brk
  · exact (Bool.eq_iff_iff.mp hsame).trans (or_iff_left id).symm
  · exact (Bool.eq_iff_iff.mp hsame).trans (or_iff_left id).symm

/-- In every state in which frames stand on earlier ones, whatever signals are up, and on frames of
every kind: after a nested evaluation the frame shows the tilt signal just if the program returned, or
if the frame is guarded itself and showed the signal before. It shows the break signal just if it did
so before, or if the program broke out of no loop. -/
theorem evaluateNested_signals (p : Program) (hn : e.KeepsFrames) (hm : m.Stacked)
    (hf : frame < m.frames.size) (fuel : Nat) (this : Value) :
    let guarded := m.pushGuarded frame
    let ending := ((p.execute e fuel this guarded.1).run guarded.2).1
    let after := ((p.evaluateNested e fuel this frame).run m).2
    (after.signal .tilt frame = true ↔
        (∃ v, ending = .error (.returned v)) ∨ m.Guarded frame ∧ m.signal .tilt frame = true) ∧
      (after.signal .brk frame = true ↔
        m.signal .brk frame = true ∨ ending = .error .broke) := by
  obtain ⟨hstacked, hlt, hguards, hstart⟩ := pushGuarded_stacked hm hf
  have hadds := evaluate_guarded_signals p hn hstacked hlt hguards fuel this
  have hrun : (p.evaluateNested e fuel this frame).run m =
      (p.evaluate e fuel this (m.pushGuarded frame).1).run (m.pushGuarded frame).2 := rfl
  simp only [hrun, hadds, hstart]
  generalize ((p.execute e fuel this (m.pushGuarded frame).1).run (m.pushGuarded frame).2).1 = ending
  rcases ending with (f | v | _ | _) | v <;> simp [and_comm]

def literalBuilder : Builder :=
  ((do
    let two ← Builder.node (.literal (.int 2) none)
    Builder.pushStatement two : BuildM Unit).run .empty).2

/-- A signal that was left over on a frame is gone after a nested evaluation without a return. -/
theorem evaluateNested_signals_cleared :
    ∃ p : Program, literalBuilder.finish plainOptions = .ok p ∧
      (sharedTail.raise .tilt 2).Stacked ∧ (sharedTail.raise .tilt 2).signal .tilt 2 = true ∧
      ((p.evaluateNested bareEnvironment 4 .null 2).run (sharedTail.raise .tilt 2)).1 =
        .ok (.int 2) ∧
      ((p.evaluateNested bareEnvironment 4 .null 2).run (sharedTail.raise .tilt 2)).2.signal
        .tilt 2 = false := by
  have hstacked : (sharedTail.raise .tilt 2).Stacked := by decide
  refine ⟨_, rfl, hstacked, by decide, rfl, Bool.eq_false_iff.mpr fun hup => ?_⟩
  have htilt := (evaluateNested_signals _ bareEnvironment_keepsFrames hstacked (by decide) 4
    .null).1.mp hup
  rcases htilt with ⟨v, hv⟩ | ⟨hguarded, -⟩
  · cases hv
  · exact absurd hguarded (by decide)

/-- A nested evaluation on a guarded frame that returned leaves its tilt signal to the next one, which
does not return and yet ends with the signal up. -/
theorem tilt_left_over :
    ∃ p q : Program, returningBuilder.finish plainOptions = .ok p ∧
      literalBuilder.finish plainOptions = .ok q ∧
      ∃ m : Machine, ((p.evaluateNested bareEnvironment 4 .null 4).run sharedTail).2 = m ∧
        ((q.execute bareEnvironment 4 .null (m.pushGuarded 4).1).run (m.pushGuarded 4).2).1 =
          .ok (.int 2) ∧
        ((q.evaluateNested bareEnvironment 4 .null 4).run m).1 = .ok (.int 2) ∧
        ((q.evaluateNested bareEnvironment 4 .null 4).run m).2.signal .tilt 4 = true :=
  ⟨_, _, rfl, rfl, _, rfl, rfl, rfl, by decide⟩

end Program

end MeteredScript

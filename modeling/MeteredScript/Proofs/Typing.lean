import MeteredScript.Proofs.Evaluation.Typing
import MeteredScript.Proofs.Termination

/-!
# What inferred types promise

Outside of frames of a host, a node that has a value has one of the type inferred for it. Strong
typing turns this into declarations that never meet a value of another type. The value of a program
of one statement is of the type that the program shows, unless it was returned from inside an
operand: then it is of the type of that return, which the nodes around it know nothing of.
-/

namespace MeteredScript

open Relation (ReflTransGen)

namespace Program

variable {b : Builder} {options : BuildOptions} {p : Program} {e : Environment}

/-! ## Values of nodes -/

/-- The type of a node accepts every value of the node. -/
theorem eval_egress (h : b.Reached) (hp : b.finish options = .ok p) (hn : e.KeepsHosted)
    {frame : Nat} {m m' : Machine} (hf : ¬ m.Hosted frame) {id : NodeId} {fuel : Nat}
    {this v : Value} (hrun : ((p.job e this).eval fuel id frame).run m = (.ok v, m')) :
    (p.arena.egress id).accepts v.type = true := by
  have hi := inferred_of_finish h hp
  have htyped := Job.eval_typed (j := p.job e this) hi hn m fuel id frame hf m m.sameHosts_held
  exact htyped.result v (congrArg Prod.fst hrun)

/-- An int is declared as a float, and two is added to it. -/
def widenedBuilder : Builder :=
  ((do
    let one ← Builder.node (.literal (.int 1) none)
    let declared ← Builder.node (.declare .empty (some .float) one)
    let two ← Builder.node (.literal (.int 2) none)
    let sum ← Builder.node (.binary .add declared two)
    Builder.pushStatement sum : BuildM Unit).run .empty).2

theorem widenedBuilder_reached : widenedBuilder.Reached :=
  ((((Builder.Reached.empty.node (.literal (.int 1) none)).node
    (.declare .empty (some .float) 0)).node (.literal (.int 2) none)).node
      (.binary .add 1 2)).pushStatement 3

theorem bareEnvironment_keepsHosted : bareEnvironment.KeepsHosted :=
  fun _ hn => absurd hn List.not_mem_nil

theorem foldMachine_not_hosted : ¬ foldMachine.Hosted 0 := by
  rintro ⟨source, hk⟩
  cases hk

theorem eval_egress_widened :
    ∃ (p : Program) (m' : Machine), widenedBuilder.finish plainOptions = .ok p ∧
      ((p.job bareEnvironment .null).eval 3 3 0).run foldMachine = (.ok (.int 3), m') ∧
      p.arena.egress 3 = .float ∧ (p.arena.egress 3).accepts (Value.int 3).type = true := by
  obtain ⟨p, hp, harena⟩ : ∃ p : Program, widenedBuilder.finish plainOptions = .ok p ∧
      p.arena = widenedBuilder.arena := ⟨_, rfl, rfl⟩
  have hrun : ∃ m', ((p.job bareEnvironment .null).eval 3 3 0).run foldMachine =
      (.ok (.int 3), m') := by
    rw [job, harena]
    exact ⟨_, Prod.ext (by decide +kernel) rfl⟩
  obtain ⟨m', hrun⟩ := hrun
  exact ⟨p, m', hp, hrun, harena ▸ rfl, eval_egress widenedBuilder_reached hp
    bareEnvironment_keepsHosted foldMachine_not_hosted hrun⟩

/-! ## Strong typing -/

/-- An operation that is followed by nothing which can fail has failed if the whole has. -/
theorem act_fault {α : Type} {x : Act α} {v : Value} {m : Machine} {f : Fault}
    (h : ((do let _ ← Run.act x; return v : Run Value).run m).1 = .error (.fault f)) :
    (x.run m).1 = .error f := by
  rw [run_bind, Run.run_act] at h
  rcases hx : x.run m with ⟨g | a, t⟩ <;> rw [hx] at h
  · exact congrArg _ (Exit.fault.inj (Except.error.inj h))
  · cases h

/-- Under strong typing a constant never fails, and a declared type that is known to fit the type of
what is declared never refuses a value of it, in whatever frame. If a mismatch ends the declaration
all the same, the frame is one of a host, whose own data was given the value and has raised it. -/
theorem eval_strongly_typed (h : b.Reached) (hp : b.finish options = .ok p)
    (hs : options.strongTyping = true) (hn : e.KeepsHosted) (this : Value) (frame : Nat)
    (m : Machine) :
    (∀ id value type, p.arena.kind? id = some (.literal value type) → ∀ fuel,
      ((p.job e this).eval (fuel + 1) id frame).run m = (.ok ((p.job e this).literal value), m)) ∧
    ∀ id name t init, (p.arena.kind? id = some (.declare name (some t) init) ∨
        ∃ slot, p.arena.kind? id = some (.declareAt slot name (some t) init)) →
      p.arena.egress init ≠ .any → ∀ fuel v m',
      ((p.job e this).eval fuel init frame).run m = (.ok v, m') → ∀ expected actual,
      (((p.job e this).eval (fuel + 1) id frame).run m).1 =
        .error (.fault (.typeMismatch expected actual)) →
      ∃ i, m'.kind? (m'.base frame) = some (.hosted (.table i)) ∧
        ((HostData.set (e.names.lookup name) v).run (m'.data i)).1 =
          .error (.typeMismatch expected actual) := by
  have hi := inferred_of_finish h hp
  constructor
  · intro id value type hk fuel
    have hfault := typeFault?_of_finish hp hs hk
    have hk : (p.job e this).arena.kind? id = some (.literal value type) := hk
    simp only [Job.eval, hk]
    cases type with
    | none => rfl
    | some t =>
      have ht : t.accepts value.type = true := by
        simpa [Builder.typeFault?] using hfault
      simp only [Job.evalNode, ht, if_true]
      rfl
  · intro id name t init hk hany fuel v m' hinit expected actual hfail
    have hfits : t.accepts (p.arena.egress init) = true := by
      rcases hk with hk | ⟨slot, hk⟩
      all_goals
        have hfault := typeFault?_of_finish hp hs hk
        simpa [Builder.typeFault?, hany] using hfault
    -- A frame of a host ignores the type; elsewhere the value has the type of the initializer.
    have htype : ¬ m'.Hosted frame → checkType (some t) v = .ok () := by
      intro hf
      have hkeeps := Job.eval_keepsHosted (j := p.job e this) hn fuel init frame m
      rw [hinit] at hkeeps
      have htyped := Job.eval_typed (j := p.job e this) hi hn m fuel init frame
        (mt (hkeeps.hosted frame).mpr hf) m m.sameHosts_held
      have hv := htyped.result v (congrArg Prod.fst hinit)
      exact checkType_ok_iff.mpr (ValueType.accepts_trans hfits hv)
    rcases hk with hk | ⟨slot, hk⟩
    · have hk : (p.job e this).arena.kind? id = some (.declare name (some t) init) := hk
      simp only [Job.eval, hk, Job.evalNode] at hfail
      rw [run_bind, hinit] at hfail
      exact Scope.declare_mismatch htype (act_fault hfail)
    · have hk : (p.job e this).arena.kind? id = some (.declareAt slot name (some t) init) := hk
      simp only [Job.eval, hk, Job.evalNode] at hfail
      rw [run_bind, hinit] at hfail
      exact Scope.declareAt_mismatch htype (act_fault hfail)

/-- An int is declared as a float. -/
def floatBuilder : Builder :=
  ((do
    let one ← Builder.node (.literal (.int 1) none)
    let declared ← Builder.node (.declare .empty (some .float) one)
    Builder.pushStatement declared : BuildM Unit).run .empty).2

theorem floatBuilder_reached : floatBuilder.Reached :=
  ((Builder.Reached.empty.node (.literal (.int 1) none)).node
    (.declare .empty (some .float) 0)).pushStatement 1

def strongOptions : BuildOptions := { plainOptions with strongTyping := true }

theorem eval_strongly_typed_float :
    ∃ p : Program, floatBuilder.finish strongOptions = .ok p ∧ p.arena.egress 0 = .int ∧
      ((p.job bareEnvironment .null).eval 1 0 0).run foldMachine = (.ok (.int 1), foldMachine) ∧
      ∀ expected actual, (((p.job bareEnvironment .null).eval 2 1 0).run foldMachine).1 ≠
        .error (.fault (.typeMismatch expected actual)) := by
  obtain ⟨p, hp, harena⟩ : ∃ p : Program, floatBuilder.finish strongOptions = .ok p ∧
      p.arena = floatBuilder.arena := ⟨_, rfl, rfl⟩
  obtain ⟨hliteral, hdeclare⟩ := eval_strongly_typed floatBuilder_reached hp rfl
    bareEnvironment_keepsHosted .null 0 foldMachine
  have hone := hliteral 0 (.int 1) none (harena ▸ rfl) 0
  have hegress : p.arena.egress 0 = .int := harena ▸ rfl
  refine ⟨p, hp, hegress, hone, fun expected actual hmismatch => ?_⟩
  obtain ⟨i, hk, -⟩ := hdeclare 1 .empty .float 0 (.inl (harena ▸ rfl)) (by rw [hegress]; decide) 1
    _ _ hone expected actual hmismatch
  exact foldMachine_not_hosted ⟨.table i, hk⟩

/-! ## Values of programs -/

/-- Where the value of an evaluation comes from: it was folded, or an ending, of an interpretation
or as the accelerator answers it, left it behind. -/
theorem evaluate_ok (hs : p.strategy = none) {e₀ : Environment} {fuel₀ fuel : Nat} {this v : Value}
    {frame : Nat} {m : Machine}
    (hv : (((p.select e₀ fuel₀).evaluate e fuel this frame).run m).1 = .ok v) :
    p.fold? e₀ fuel₀ = some v ∨
      ∃ ending, (((p.interpret e fuel this frame).run m).1 = ending ∨
          p.accelerator = .recorder (some ending)) ∧
        (ending = .ok v ∨ ending = .error (.returned v) ∨ v = .null) := by
  rcases hchosen : (p.select e₀ fuel₀).strategy with _ | _ | ending
  · rw [strategy_select hs] at hchosen
    cases hchosen
  · rw [evaluate_of_interpret hchosen, interpret_select] at hv
    exact .inr ⟨_, .inl rfl, deliver_ok hv⟩
  · have hrun : ((p.select e₀ fuel₀).execute e fuel this frame).run m = (ending, m) := by
      rw [execute, hchosen]
      cases ending <;> rfl
    rcases replay_cases hs hchosen with ⟨w, hw, rfl⟩ | hacc
    · rw [evaluate, deliver_run, hrun] at hv
      exact .inl (Except.ok.inj hv ▸ hw)
    · have hdelivered := deliver_ok hv
      rw [hrun] at hdelivered
      exact .inr ⟨ending, .inr hacc, hdelivered⟩

section Single

variable (h : b.Reached) (hp : b.finish options = .ok p) {id : NodeId} (hs : p.single? = some id)

include h hp hs

/-- What interpreting a program of one statement ends with has the type of the program, or that of
a return. -/
theorem interpret_egress (hn : e.KeepsHosted) (fuel : Nat) (this : Value) {frame : Nat}
    {m : Machine} (hf : ¬ m.Hosted frame) :
    (∀ v, ((p.interpret e fuel this frame).run m).1 = .ok v → p.egress.accepts v.type = true) ∧
      ∀ exit, ((p.interpret e fuel this frame).run m).1 = .error exit →
        exit.ReturnedFrom p.arena id := by
  obtain ⟨hfirst, hlast⟩ := Option.filter_eq_some_iff.mp hs
  have hi := inferred_of_finish h hp
  have htyped := Job.interpret_typed (j := p.job e this) hi hn m fuel
    (Option.isNone_iff_eq_none.mp hlast) hf m m.sameHosts_held
  rw [egress_of_finish hp hs, interpret, hfirst]
  exact ⟨htyped.result, htyped.exit⟩

section Evaluate

variable {e₀ : Environment} (hn₀ : e₀.KeepsHosted) (hn : e.KeepsHosted) {fuel₀ fuel : Nat}
  {this v : Value} {frame : Nat} {m : Machine} (hf : ¬ m.Hosted frame)
  (ha : ∀ ending, options.accelerator = .recorder (some ending) →
    ((p.interpret e fuel this frame).run m).1 = ending)
  (hv : (((p.select e₀ fuel₀).evaluate e fuel this frame).run m).1 = .ok v)

include hn₀ hn hf ha hv

theorem evaluate_shown_or_returned : p.egress.accepts v.type = true ∨
    ((p.interpret e fuel this frame).run m).1 = .error (.returned v) ∧
      (Exit.returned v).ReturnedFrom p.arena id := by
  obtain ⟨-, -, hacc, hstrategy, -⟩ := finish_ok hp
  rcases evaluate_ok hstrategy hv with hfold | ⟨ending, hending, hvalue⟩
  · have hfolded := interpret_egress h hp hs hn₀ fuel₀ .null foldMachine_not_hosted
    exact .inl (hfolded.1 v (fold?_ok hfold).2.2)
  · have hinterpret := interpret_egress h hp hs hn fuel this hf
    have hending : ((p.interpret e fuel this frame).run m).1 = ending := by
      rcases hending with hending | hrecorded
      · exact hending
      · exact ha ending (hacc ▸ hrecorded)
    rcases hvalue with rfl | rfl | rfl
    · exact .inl (hinterpret.1 v hending)
    · exact .inr ⟨hending, hinterpret.2 _ hending⟩
    · exact .inl (ValueType.accepts_null _)

/-- The value of a program of one statement has the type that the program shows, unless it was
returned. Then it has the type of a return that the statement can come to. If the shown type accepts
the types of all those returns, it accepts the value, which can be stored where the program is
convertible to. What an accelerator of the host answers has to be what interpretation ends with. -/
theorem evaluate_egress :
    (p.egress.accepts v.type = true ∨
      ((p.interpret e fuel this frame).run m).1 = .error (.returned v) ∧
        (Exit.returned v).ReturnedFrom p.arena id) ∧
      ((∀ r w, ReflTransGen p.arena.Needs id r → p.arena.kind? r = some (.ret w) →
          p.egress.accepts (p.arena.egress r) = true) →
        p.egress.accepts v.type = true ∧
          ∀ t, ({ p with ingress := some t } : Program).isConvertible = true →
            t.accepts v.type = true) := by
  have hkind := evaluate_shown_or_returned h hp hs hn₀ hn hf ha hv
  refine ⟨hkind, fun hreturns => ?_⟩
  have hshown : p.egress.accepts v.type = true := by
    rcases hkind with hshown | ⟨-, r, w, hpath, hr, htype⟩
    · exact hshown
    · exact ValueType.accepts_trans (hreturns r w hpath hr) htype
  refine ⟨hshown, fun t ht => ?_⟩
  exact ValueType.accepts_trans (by simpa [isConvertible] using ht) hshown

end Evaluate

end Single

/-- A variable is declared to be what is returned before it comes into being. -/
def earlyBuilder : Builder :=
  ((do
    let one ← Builder.node (.literal (.int 1) none)
    let returned ← Builder.node (.ret one)
    let declared ← Builder.node (.declare .empty none returned)
    Builder.pushStatement declared : BuildM Unit).run .empty).2

theorem earlyBuilder_reached : earlyBuilder.Reached :=
  (((Builder.Reached.empty.node (.literal (.int 1) none)).node (.ret 0)).node
    (.declare .empty none 1)).pushStatement 2

theorem evaluate_egress_early :
    ∃ p : Program, earlyBuilder.finish plainOptions = .ok p ∧ p.single? = some 2 ∧
      ¬ foldMachine.Hosted 0 ∧
      (((p.select bareEnvironment 4).evaluate bareEnvironment 4 .null 0).run foldMachine).1 =
        .ok (.int 1) ∧
      ((p.interpret bareEnvironment 4 .null 0).run foldMachine).1 = .error (.returned (.int 1)) ∧
      p.egress = .int ∧ p.egress.accepts (Value.int 1).type = true ∧
      ∀ t, ({ p with ingress := some t } : Program).isConvertible = true →
        t.accepts (Value.int 1).type = true := by
  obtain ⟨p, hp, hs, harena, htype, hrun, hv⟩ : ∃ p : Program,
      earlyBuilder.finish plainOptions = .ok p ∧ p.single? = some 2 ∧
        p.arena = earlyBuilder.arena ∧ p.egress = .int ∧
        ((p.interpret bareEnvironment 4 .null 0).run foldMachine).1 =
          .error (.returned (.int 1)) ∧
        (((p.select bareEnvironment 4).evaluate bareEnvironment 4 .null 0).run foldMachine).1 =
          .ok (.int 1) := ⟨_, rfl, rfl, rfl, rfl, by decide +kernel, by decide +kernel⟩
  have hreturns : ∀ r w, ReflTransGen p.arena.Needs 2 r → p.arena.kind? r = some (.ret w) →
      p.egress.accepts (p.arena.egress r) = true := by
    intro r w _ hr
    have hnodes : ∀ r < 3, p.egress.accepts (p.arena.egress r) = true := by
      rw [htype, harena]
      decide
    exact hnodes r (Arena.kind?_lt (harena ▸ hr))
  have hall := evaluate_egress earlyBuilder_reached hp hs bareEnvironment_keepsHosted
    bareEnvironment_keepsHosted foldMachine_not_hosted (by simp [plainOptions]) hv
  obtain ⟨hshown, hstored⟩ := hall.2 hreturns
  exact ⟨p, hp, hs, foldMachine_not_hosted, hv, hrun, htype, hshown, hstored⟩

/-- What is returned is an int, but the node around the return is known to have a truth value. -/
def negatedBuilder : Builder :=
  ((do
    let one ← Builder.node (.literal (.int 1) none)
    let returned ← Builder.node (.ret one)
    let negated ← Builder.node (.not returned)
    Builder.pushStatement negated : BuildM Unit).run .empty).2

/-- The type that a program shows need not be that of a value returned from inside an operand, and
such a value does not fit where the program is said to be convertible to. -/
theorem negated_return_escapes :
    ∃ p : Program, negatedBuilder.Reached ∧ negatedBuilder.finish plainOptions = .ok p ∧
      p.single? = some 2 ∧ p.egress = p.arena.egress 2 ∧ ¬ foldMachine.Hosted 0 ∧
      (((p.select bareEnvironment 4).evaluate bareEnvironment 4 .null 0).run foldMachine).1 =
        .ok (.int 1) ∧
      p.egress.accepts (Value.int 1).type = false ∧
      ({ p with ingress := some .bool } : Program).isConvertible = true ∧
      ValueType.bool.accepts (Value.int 1).type = false :=
  ⟨_, (((Builder.Reached.empty.node (.literal (.int 1) none)).node (.ret 0)).node
    (.not 1)).pushStatement 2, rfl, rfl, rfl, foldMachine_not_hosted, by decide +kernel, rfl, rfl,
    rfl⟩

end Program

end MeteredScript

import MeteredScript.Proofs.Evaluation.Hosted
import MeteredScript.Proofs.Evaluation.Programs
import MeteredScript.Proofs.Evaluation.Typing
import MeteredScript.Proofs.Termination

/-!
# Variables and their types

However declarations, writes and evaluations follow each other, a variable holds what its declared
type accepts, and the type it was declared with. What is refused because types mismatch changes
nothing.
-/

namespace MeteredScript

/-- The declared type, if any, accepts the value. -/
def Variable.WellTyped (x : Variable) : Prop :=
  ∀ t, x.type = some t → t.accepts x.value.type = true

theorem Variable.wellTyped_iff {x : Variable} :
    x.WellTyped ↔ checkType x.type x.value = .ok () := by
  unfold WellTyped
  cases x.type with
  | none => exact iff_of_true (by simp) rfl
  | some t => simpa using checkType_ok_iff.symm

namespace Machine

variable {m m' m'' : Machine}

def WellTyped (m : Machine) : Prop :=
  ∀ (i : Nat) (x : Variable), m.locals[i]? = some x → x.WellTyped

/-- The variables are still there, declared as they were. -/
def KeepsTypes (m m' : Machine) : Prop :=
  ∀ (i : Nat) (x : Variable), m.locals[i]? = some x →
    ∃ y : Variable, m'.locals[i]? = some y ∧ y.type = x.type

theorem KeepsTypes.refl (m : Machine) : m.KeepsTypes m := fun _ x hx => ⟨x, hx, rfl⟩

theorem KeepsTypes.trans (h : m.KeepsTypes m') (k : m'.KeepsTypes m'') : m.KeepsTypes m'' := by
  intro i x hx
  obtain ⟨y, hy, hxy⟩ := h i x hx
  obtain ⟨z, hz, hyz⟩ := k i y hy
  exact ⟨z, hz, hyz.trans hxy⟩

/-- What is done between two machines keeps variables to their types. -/
structure KeepsTyping (m m' : Machine) : Prop where
  wellTyped : m.WellTyped → m'.WellTyped
  types : m.KeepsTypes m'

theorem KeepsTyping.refl (m : Machine) : m.KeepsTyping m := ⟨id, .refl m⟩

theorem KeepsTyping.trans (h : m.KeepsTyping m') (k : m'.KeepsTyping m'') : m.KeepsTyping m'' where
  wellTyped hm := k.wellTyped (h.wellTyped hm)
  types := h.types.trans k.types

theorem KeepsTyping.of_locals (h : m'.locals = m.locals) : m.KeepsTyping m' := by
  constructor
  case wellTyped =>
    intro hm i x hx
    rw [h] at hx
    exact hm i x hx
  case types =>
    intro i x hx
    rw [← h] at hx
    exact ⟨x, hx, rfl⟩

theorem wellTyped_of_fresh (h : m.locals = #[]) : m.WellTyped := by
  intro i x hx
  rw [h] at hx
  cases hx

/-! ## Steps -/

theorem KeepsTyping.push {x : Variable} (hx : x.WellTyped) (m : Machine) :
    m.KeepsTyping { m with locals := m.locals.push x } := by
  constructor
  case wellTyped =>
    intro hm i y hy
    rw [Array.getElem?_push] at hy
    split at hy
    · rwa [← Option.some.inj hy]
    · exact hm i y hy
  case types =>
    intro i y hy
    have hlt : i < m.locals.size := (Array.getElem?_eq_some_iff.mp hy).1
    refine ⟨y, ?_, rfl⟩
    rw [Array.getElem?_push, if_neg (Nat.ne_of_lt hlt), hy]

/-- A write puts in a value that the type accepts, and leaves the type. -/
theorem KeepsTyping.write {i : Nat} {v : Value}
    (typed : checkType (m.locals[i]?.bind (·.type)) v = .ok ()) :
    m.KeepsTyping { m with locals := m.locals.modify i fun x => { x with value := v } } := by
  constructor
  case wellTyped =>
    intro hm j y hy
    rw [Array.getElem?_modify] at hy
    split at hy
    · next heq =>
      subst heq
      obtain ⟨x, hx, rfl⟩ := Option.map_eq_some_iff.mp hy
      rw [hx] at typed
      exact Variable.wellTyped_iff.mpr typed
    · exact hm j y hy
  case types =>
    intro j y hy
    by_cases heq : i = j
    · refine ⟨{ y with value := v }, ?_, rfl⟩
      rw [Array.getElem?_modify, if_pos heq, hy]
      rfl
    · refine ⟨y, ?_, rfl⟩
      rw [Array.getElem?_modify, if_neg heq, hy]

theorem Step.keepsTyping {S : Setting} (hstep : Step S m m')
    (heffect : ∀ m', S.effect m m' → m.KeepsTyping m') : m.KeepsTyping m' := by
  cases hstep with
  | store | put | bind | bindSlot | enter | tick => exact .of_locals rfl
  | newVariable x typed => exact .push (Variable.wellTyped_iff.mpr typed) m
  | write i v typed => exact .write typed
  | signals m' _ same => exact .of_locals same.locals
  | native m' effect => exact heffect m' effect

end Machine

/-! ## Operations and programs -/

/-- Since the start, variables have been kept to their types. -/
def Setting.typing (start : Machine) : Setting where
  toRealm := .everything
  frame _ := True
  effect := Machine.KeepsTyping
  law m := start.KeepsTyping m

instance (start : Machine) : (Setting.typing start).Lawful where
  step hstep hm := hm.law.trans (hstep.keepsTyping fun _ h => h)

theorem Machine.typing_held (m : Machine) : m.Held (.typing m) :=
  .of_everything rfl (fun _ => trivial) (.refl m)

/-- Native functions keep variables to their types. -/
def Environment.KeepsTyping (e : Environment) : Prop :=
  ∀ n ∈ e.configuration.natives, ∀ f ∈ n.methods, ∀ (args : List Value) (m : Machine),
    m.KeepsTyping ((f.2 args).run m).2

section Typing

variable {m : Machine}

theorem TracksFrom.keepsTyping {ε α : Type} {E : ε → Prop} {x' x : ExceptT ε (StateM Machine) α}
    {Q : α → Prop} (h : TracksFrom (.typing m) E m x' x Q) : m.KeepsTyping (x.run m).2 :=
  (h.steps.held m.typing_held).law

theorem Setting.typing_admits (m : Machine) (v : Value) : (Setting.typing m).admits v :=
  Realm.everything_admits v

theorem Cell.fits_everything (m : Machine) (cell : Cell) : cell.Fits .everything m := by
  have hadmits := Realm.everything_admits
  constructor
  case own => exact fun _ _ x _ => hadmits x.value
  case map => exact fun _ _ _ => trivial
  case table => exact fun _ _ _ v _ => hadmits v

theorem Cell.write_keepsTyping (cell : Cell) (v : Value) (m : Machine) :
    m.KeepsTyping ((cell.write v).run m).2 :=
  (cell.write_keeps (Setting.typing_admits m v) m.typing_held (cell.fits_everything m)).keepsTyping

theorem Scope.declare_keepsTyping (names : Interner) (f : Nat) (name : Name) (v : Value)
    (type : Option ValueType) (m : Machine) :
    m.KeepsTyping ((declare names f name v type).run m).2 :=
  (declare_keeps (Setting.typing_admits m v) trivial names name type m m.typing_held).keepsTyping

theorem Scope.declareAt_keepsTyping (names : Interner) (f slot : Nat) (name : Name) (v : Value)
    (type : Option ValueType) (m : Machine) :
    m.KeepsTyping ((declareAt names f slot name v type).run m).2 :=
  (declareAt_keeps (Setting.typing_admits m v) trivial names slot name type m
    m.typing_held).keepsTyping

theorem Program.setValue_keepsTyping (p : Program) (e : Environment) (frame : Nat) (v : Value)
    (m : Machine) : m.KeepsTyping ((p.setValue e frame v).run m).2 := by
  -- A program that is not a single name writes nothing.
  have htracks : TracksFrom (.typing m) (fun _ => True) m (p.setValue e frame v)
      (p.setValue e frame v) fun _ => True := by
    unfold setValue
    split
    · next name _ =>
      have hassign := Scope.assign_keeps (Setting.typing_admits m v) (f := frame) trivial e.names
        name m m.typing_held
      exact hassign.bind m.typing_held fun _ (_ : True) => .pure trivial
    · exact .pure trivial
  exact htracks.keepsTyping

theorem Program.suits_typing (p : Program) {e : Environment} (this : Value) (he : e.KeepsTyping)
    (m : Machine) : (p.job e this).Suits (.typing m) e.configuration :=
  Job.suits_of_everything (p.job e this) rfl (fun _ => trivial) fun n hn f hf args t ht =>
    ⟨he n hn f hf args t, Machine.KeepsTyping.trans ht (he n hn f hf args t)⟩

/-- After each node of an evaluation the variables have been kept to their types. -/
theorem Program.evaluateWatched_keepsTyping (p : Program) {e : Environment} (he : e.KeepsTyping)
    {watch : Watch} (hw : ∀ frame ending t, m.KeepsTyping t → watch frame ending t)
    (raised : Run Value) (fuel : Nat) (this : Value) (frame : Nat) :
    (p.evaluateWatched e watch raised fuel this frame).run m =
        (p.evaluate e fuel this frame).run m ∧
      m.KeepsTyping ((p.evaluate e fuel this frame).run m).2 := by
  have hreplay : p.ReplaysHeld (Setting.typing m).toRealm := fun _ _ v _ =>
    Realm.everything_admits v
  have hframe : (Setting.typing m).frame frame := trivial
  have htracks := Program.evaluateWatched_tracks (fun frame ending t _ hheld _ => hw frame ending t
    hheld.law) (p.suits_typing this he m) hreplay trivial raised fuel hframe m m.typing_held
  exact ⟨htracks.same, htracks.keepsTyping⟩

theorem Program.evaluate_keepsTyping (p : Program) {e : Environment} (he : e.KeepsTyping)
    (fuel : Nat) (this : Value) (frame : Nat) (m : Machine) :
    m.KeepsTyping ((p.evaluate e fuel this frame).run m).2 :=
  (p.evaluateWatched_keepsTyping he (fun _ _ _ h => h) (throw .broke) fuel this frame).2

end Typing

/-! ## Refusals -/

/-- If the operation fails because types mismatch, it has changed nothing. -/
def Act.RefusesWhole {α : Type} (x : Act α) (m : Machine) : Prop :=
  ∀ expected actual, (x.run m).1 = .error (.typeMismatch expected actual) → (x.run m).2 = m

namespace Act.RefusesWhole

variable {α β : Type} {m : Machine}

theorem of_matches {x : Act α}
    (h : ∀ expected actual, (x.run m).1 ≠ .error (.typeMismatch expected actual)) :
    x.RefusesWhole m :=
  fun expected actual he => absurd he (h expected actual)

theorem map {x : Act α} (h : x.RefusesWhole m) (f : α → β) :
    RefusesWhole (do let a ← x; return f a) m := by
  intro expected actual he
  rw [run_bind] at he ⊢
  rcases hx : x.run m with ⟨fault | a, t⟩ <;> rw [hx] at he
  · have hfault : fault = .typeMismatch expected actual := Except.error.inj he
    have hrefused := h expected actual (by rw [hx, hfault])
    rwa [hx] at hrefused
  · cases he

end Act.RefusesWhole

section Refusals

variable {m : Machine}

theorem Scope.bindNew_refusesWhole (base : Nat) (update : Nat → FrameKind → FrameKind) (v : Value)
    (type : Option ValueType) (m : Machine) :
    Act.RefusesWhole (do
      let i ← newVariable v type
      updateKind base (update i)
      return Cell.own i) m := by
  intro expected actual
  unfold newVariable
  cases checkType type v with
  | error => exact fun _ => rfl
  | ok =>
    intro he
    cases he

section Laws

variable (hlaw : m.DataObeys DataContext.RefusesWhole)

include hlaw

theorem Cell.write_refusesWhole (cell : Cell) (v : Value) : (cell.write v).RefusesWhole m := by
  cases cell with
  | own i =>
    intro expected actual
    unfold write
    rw [run_get_bind]
    cases checkType (m.locals[i]?.bind (·.type)) v with
    | error => exact fun _ => rfl
    | ok =>
    intro he
    cases he
  | hosted source key => exact fun _ _ => HostSource.set_refused hlaw

namespace Scope

theorem declare_refusesWhole (names : Interner) (f : Nat) (name : Name) (v : Value)
    (type : Option ValueType) : (declare names f name v type).RefusesWhole m := by
  unfold Act.RefusesWhole
  rw [declare_run]
  split
  · next source _ =>
    have hset : (source.set (names.lookup name) v).RefusesWhole m :=
      fun _ _ => HostSource.set_refused hlaw
    exact hset.map _
  · exact bindNew_refusesWhole _ (fun i => (·.bind name i)) v type m

theorem declareAt_refusesWhole (names : Interner) (f slot : Nat) (name : Name) (v : Value)
    (type : Option ValueType) : (declareAt names f slot name v type).RefusesWhole m := by
  unfold Act.RefusesWhole
  rw [declareAt_run]
  split
  · next slots next _ =>
    split
    · exact fun _ _ _ => rfl
    · exact bindNew_refusesWhole _ (fun i _ => .indexed (slots.set slot (some (name, i))) next) v
        type m
  · exact declare_refusesWhole hlaw names f name v type

theorem assign_refusesWhole (names : Interner) (f : Nat) (name : Name) (v : Value) :
    (assign names f name v).RefusesWhole m := by
  unfold Act.RefusesWhole assign
  rw [run_get_bind]
  split
  · rw [run_bind, resolve_run]
    cases m.resolve? names f name with
    | none => exact fun _ _ he => rfl
    | some cell => exact cell.write_refusesWhole hlaw v
  · exact (declare_refusesWhole hlaw names f name v none).map _

end Scope

theorem Program.setValue_refusesWhole (p : Program) (e : Environment) (frame : Nat) (v : Value) :
    (p.setValue e frame v).RefusesWhole m := by
  unfold setValue
  split
  · next name _ => exact (Scope.assign_refusesWhole hlaw e.names frame name v).map _
  · apply Act.RefusesWhole.of_matches
    intro expected actual he
    cases he

end Laws

/-- The node of which a declaration or an assignment writes the value. -/
def NodeKind.written? : NodeKind → Option NodeId
  | .declare _ _ init | .declareAt _ _ _ init => some init
  | .assign _ value => some value
  | _ => none

theorem Run.write_refusesWhole {α : Type} {x : Run Value} {write : Value → Act α}
    {v : Value} {t : Machine} (h : (write v).RefusesWhole t) (hv : x.run m = (.ok v, t))
    {expected actual : String}
    (he : ((do let v ← x; let _ ← Run.act (write v); return v : Run Value).run m).1 =
      .error (.fault (.typeMismatch expected actual))) :
    ((do let v ← x; let _ ← Run.act (write v); return v : Run Value).run m).2 = t := by
  rw [run_bind, hv] at he ⊢
  dsimp only at he ⊢
  rw [run_bind, Run.run_act] at he ⊢
  rcases hw : (write v).run t with ⟨fault | a, t'⟩ <;> rw [hw] at he
  · have hfault := Exit.fault.inj (Except.error.inj he)
    have hrefused := h expected actual (by rw [hw, hfault])
    rwa [hw] at hrefused
  · cases he

/-- A declaration or an assignment in a program, once it has a value to write, either writes it or
leaves the machine as the value left it, if types mismatch. -/
theorem Job.evalNode_refusesWhole {j : Job} {ev : Job.Evaluator} {frame : Nat} {kind : NodeKind}
    {operand : NodeId} (hk : kind.written? = some operand) {v : Value} {t : Machine}
    (hlaw : t.DataObeys DataContext.RefusesWhole) (hv : (ev operand frame).run m = (.ok v, t))
    (fuel : Nat) {expected actual : String}
    (he : ((j.evalNode ev fuel frame kind).run m).1 =
      .error (.fault (.typeMismatch expected actual))) :
    ((j.evalNode ev fuel frame kind).run m).2 = t := by
  cases kind with
  | declare name type init =>
    obtain rfl := Option.some.inj hk
    have hwrite := Scope.declare_refusesWhole hlaw j.names frame name v type
    exact Run.write_refusesWhole hwrite hv he
  | declareAt slot name type init =>
    obtain rfl := Option.some.inj hk
    have hwrite := Scope.declareAt_refusesWhole hlaw j.names frame slot name v type
    exact Run.write_refusesWhole hwrite hv he
  | assign name value =>
    obtain rfl := Option.some.inj hk
    exact Run.write_refusesWhole (Scope.assign_refusesWhole hlaw j.names frame name v) hv he
  | _ => cases hk

/-- What fails on this machine because types mismatch, of all that declares or writes a variable,
changes nothing. -/
structure Machine.RefusesMismatches (m : Machine) : Prop where
  declare : ∀ (names : Interner) (f : Nat) (name : Name) (v : Value) (type : Option ValueType),
    (Scope.declare names f name v type).RefusesWhole m
  declareAt : ∀ (names : Interner) (f slot : Nat) (name : Name) (v : Value)
    (type : Option ValueType), (Scope.declareAt names f slot name v type).RefusesWhole m
  assign : ∀ (names : Interner) (f : Nat) (name : Name) (v : Value),
    (Scope.assign names f name v).RefusesWhole m
  write : ∀ (cell : Cell) (v : Value), (cell.write v).RefusesWhole m
  setValue : ∀ (p : Program) (e : Environment) (frame : Nat) (v : Value),
    (p.setValue e frame v).RefusesWhole m
  /-- In a program, this is the machine that the value to write has left. -/
  node : ∀ (j : Job) (ev : Job.Evaluator) (fuel frame : Nat) (kind : NodeKind) (operand : NodeId)
    (v : Value) (start : Machine) (expected actual : String), kind.written? = some operand →
      (ev operand frame).run start = (.ok v, m) →
      ((j.evalNode ev fuel frame kind).run start).1 =
        .error (.fault (.typeMismatch expected actual)) →
      ((j.evalNode ev fuel frame kind).run start).2 = m

theorem Machine.refusesMismatches (hlaw : m.DataObeys DataContext.RefusesWhole) :
    m.RefusesMismatches where
  declare names f name v type := Scope.declare_refusesWhole hlaw names f name v type
  declareAt names f slot name v type := Scope.declareAt_refusesWhole hlaw names f slot name v type
  assign names f name v := Scope.assign_refusesWhole hlaw names f name v
  write cell v := cell.write_refusesWhole hlaw v
  setValue p e frame v := p.setValue_refusesWhole hlaw e frame v
  node _ _ fuel _ _ _ _ _ _ _ hk hv he := Job.evalNode_refusesWhole hk hlaw hv fuel he

end Refusals

/-! ## Runs of a host -/

/-- What can become of a machine: variables are declared and written by the host and by programs,
and are left alone by all else that a host does. Native functions do what a host can do. -/
inductive Proceeds : Machine → Machine → Prop
  | refl (m : Machine) : Proceeds m m
  | trans {m m' m'' : Machine} (first : Proceeds m m') (next : Proceeds m' m'') : Proceeds m m''
  | declare (names : Interner) (f : Nat) (name : Name) (v : Value) (type : Option ValueType)
      (m : Machine) : Proceeds m ((Scope.declare names f name v type).run m).2
  | declareAt (names : Interner) (f slot : Nat) (name : Name) (v : Value)
      (type : Option ValueType) (m : Machine) :
      Proceeds m ((Scope.declareAt names f slot name v type).run m).2
  | write (cell : Cell) (v : Value) (m : Machine) : Proceeds m ((cell.write v).run m).2
  | setValue (p : Program) (e : Environment) (frame : Nat) (v : Value) (m : Machine) :
      Proceeds m ((p.setValue e frame v).run m).2
  | evaluate (p : Program) (e : Environment) (fuel : Nat) (this : Value) (frame : Nat) (m : Machine)
      (natives : ∀ n ∈ e.configuration.natives, ∀ f ∈ n.methods,
        ∀ (args : List Value) (m : Machine), Proceeds m ((f.2 args).run m).2) :
      Proceeds m ((p.evaluate e fuel this frame).run m).2
  | evaluateNested (p : Program) (e : Environment) (fuel : Nat) (this : Value) (frame : Nat)
      (m : Machine)
      (natives : ∀ n ∈ e.configuration.natives, ∀ f ∈ n.methods,
        ∀ (args : List Value) (m : Machine), Proceeds m ((f.2 args).run m).2) :
      Proceeds m ((p.evaluateNested e fuel this frame).run m).2
  | host {m m' : Machine} (locals : m'.locals = m.locals) : Proceeds m m'

theorem Proceeds.keepsTyping {m m' : Machine} (h : Proceeds m m') : m.KeepsTyping m' := by
  induction h with
  | refl m => exact .refl m
  | trans _ _ first next => exact first.trans next
  | declare names f name v type m => exact Scope.declare_keepsTyping names f name v type m
  | declareAt names f slot name v type m =>
    exact Scope.declareAt_keepsTyping names f slot name v type m
  | write cell v m => exact cell.write_keepsTyping v m
  | setValue p e frame v m => exact p.setValue_keepsTyping e frame v m
  | evaluate p e fuel this frame m _ natives =>
    exact p.evaluate_keepsTyping natives fuel this frame m
  | evaluateNested p e fuel this frame m _ natives =>
    have hguarded : m.KeepsTyping (m.pushGuarded frame).2 := by
      refine .of_locals ?_
      simp only [Machine.pushGuarded, Machine.pushFrame, Machine.lower]
      split <;> rfl
    exact hguarded.trans (p.evaluate_keepsTyping natives fuel this (m.pushGuarded frame).1 _)
  | host locals => exact .of_locals locals

/-- In every state that is reached from one without variables, and after each node of an evaluation
there, variables hold what their declared types accept, and go on to be declared as they were. A
declaration or a write that fails because types mismatch, by a host or in a program, leaves
everything as it was, as long as data of the host that refuses a value for its type does so too. -/
theorem variables_of_run {start m : Machine} (hstart : start.locals = #[]) (h : Proceeds start m) :
    m.WellTyped ∧ (∀ m', Proceeds m m' → m.KeepsTypes m') ∧
      (∀ (p : Program) (e : Environment), (∀ n ∈ e.configuration.natives, ∀ f ∈ n.methods,
          ∀ (args : List Value) (m : Machine), Proceeds m ((f.2 args).run m).2) →
        ∀ (raised : Run Value) (fuel : Nat) (this : Value) (frame : Nat),
          (p.evaluateWatched e (fun _ _ m' => m'.WellTyped ∧ m.KeepsTypes m') raised fuel this
            frame).run m = (p.evaluate e fuel this frame).run m) ∧
      (m.DataObeys DataContext.RefusesWhole → m.RefusesMismatches) := by
  have hm := h.keepsTyping.wellTyped (Machine.wellTyped_of_fresh hstart)
  refine ⟨hm, fun m' h' => h'.keepsTyping.types, fun p e hn raised fuel this frame => ?_,
    Machine.refusesMismatches⟩
  have he : e.KeepsTyping := fun n hc f hf args m => (hn n hc f hf args m).keepsTyping
  have hwatch : ∀ (_ : Nat) (_ : Except Exit Value) (t : Machine), m.KeepsTyping t →
      t.WellTyped ∧ m.KeepsTypes t := fun _ _ t ht => ⟨ht.wellTyped hm, ht.types⟩
  exact (p.evaluateWatched_keepsTyping he hwatch raised fuel this frame).1

/-- A declaration of an int, and an assignment of a bool to it. -/
def mismatchBuilder : Builder :=
  ((do
    let one ← Builder.node (.literal (.int 1) none)
    let declared ← Builder.node (.declare .empty (some .int) one)
    let yes ← Builder.node (.literal (.bool true) none)
    let assigned ← Builder.node (.assign .empty yes)
    Builder.pushStatement declared
    Builder.pushStatement assigned : BuildM Unit).run .empty).2

/-- The assignment fails, and so does a write by the host after it; the int is still there. -/
theorem variables_of_run_mismatch :
    ∃ (p : Program) (start m : Machine), mismatchBuilder.finish Program.plainOptions = .ok p ∧
      start.locals = #[] ∧ Proceeds start m ∧
      (p.evaluate Program.bareEnvironment 3 .null 0).run start =
        (.error (.fault (.typeMismatch "int" "bool")), m) ∧
      m.WellTyped ∧ m.locals = #[⟨.int 1, some .int⟩] ∧
      (((Cell.own 0).write (.bool false)).run m).1 = .error (.typeMismatch "int" "bool") ∧
      (((Cell.own 0).write (.bool false)).run m).2 = m := by
  let p := Program.plain 1 mismatchBuilder.arena
  let start := (Machine.bare.pushFrame (.named [] none)).2
  have hrun := Proceeds.evaluate p Program.bareEnvironment 3 .null 0 start
    fun n hn => absurd hn List.not_mem_nil
  obtain ⟨htyped, -, -, hrefuses⟩ := variables_of_run rfl hrun
  have hwrite : (((Cell.own 0).write (.bool false)).run
      ((p.evaluate Program.bareEnvironment 3 .null 0).run start).2).1 =
        .error (.typeMismatch "int" "bool") := by decide +kernel
  have hlaw : ((p.evaluate Program.bareEnvironment 3 .null 0).run start).2.DataObeys
      DataContext.RefusesWhole := .of_no_data DataContext.void_refusesWhole rfl
  exact ⟨p, start, _, rfl, rfl, hrun, rfl, htyped, by decide +kernel, hwrite,
    (hrefuses hlaw).write (.own 0) (.bool false) _ _ hwrite⟩

end MeteredScript

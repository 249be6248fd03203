import MeteredScript.Proofs.Evaluation.Fuel
import MeteredScript.Proofs.Evaluation.Honesty
import MeteredScript.Proofs.Scope.Hosts

/-!
# Runs and liveness checks

Only a liveness check changes the context of an evaluation or stops it. Under a limit on such checks
a run therefore counts all of them, goes on while the count is within the limit, and ends with the
check that goes over it.
-/

namespace MeteredScript

/-! ## Operations without liveness checks -/

/-- From this machine, the operation leaves the context and the rules of the data of the host alone
and raises no fault by which an evaluation is stopped. -/
structure Act.QuietFrom {α : Type} (m : Machine) (x : Act α) : Prop where
  context : (x.run m).2.context = m.context
  data : (x.run m).2.DataObeys DataContext.Quiet
  ordinary : Ordinary (x.run m).1

/-- The operation does so as long as no data of the host stops an evaluation itself. -/
def Act.Quiet {α : Type} (x : Act α) : Prop :=
  ∀ m : Machine, m.DataObeys DataContext.Quiet → x.QuietFrom m

def Native.Quiet (f : Native) : Prop := ∀ args, Act.Quiet (f args)

/-! ### Containers -/

section Store

variable (s : Store) (account : Nat)

theorem Lists.create_ordinary (values : List Value) :
    Ordinary ((Lists.create account values).run s).1 := by
  have h : StoreM.Sure True (fun _ => True) s (Lists.create account values) :=
    Lists.create_sure account values
  obtain ⟨l, hl⟩ := h.result
  exact hl ▸ .ok l

theorem Maps.create_ordinary (pairs : List (Key × Value)) :
    Ordinary ((Maps.create account pairs).run s).1 := by
  have h : StoreM.Sure True (fun _ => True) s (Maps.create account pairs) :=
    Maps.create_sure account pairs
  obtain ⟨m, hm⟩ := h.result
  exact hm ▸ .ok m

theorem Sets.create_ordinary (values : List Value) :
    Ordinary ((Sets.create account values).run s).1 := by
  have h : StoreM.Told True (fun _ => True) s (Sets.create account values) :=
    Sets.create_told account values
  exact h.ordinary

theorem Environment.callBuiltIn_ordinary (receiver : Value) (name : String) (args : List Value) :
    Ordinary ((callBuiltIn account receiver name args).run s).1 := by
  have hcall : StoreM.Honest (s.Suits receiver) (fun _ => True) s
      (callBuiltIn account receiver name args) :=
    callBuiltIn_honest account receiver name args fun _ _ _ => trivial
  exact fun f hf => (hcall.clean f hf).2

end Store

/-! ### Sequences -/

namespace Act.Quiet

variable {α β : Type}

theorem pure (a : α) : Act.Quiet (pure a : Act α) := fun _ hm => ⟨rfl, hm, .ok a⟩

theorem throw {f : Fault} (h : f.isLiveness = false) : Act.Quiet (throw f : Act α) :=
  fun _ hm => ⟨rfl, hm, Ordinary.error.mpr h⟩

theorem get : Act.Quiet (get : Act Machine) := fun m hm => ⟨rfl, hm, .ok m⟩

theorem modifyGet {f : Machine → α × Machine} (hcontext : ∀ m, (f m).2.context = m.context)
    (htables : ∀ m, (f m).2.tables = m.tables) : Act.Quiet (modifyGet f : Act α) :=
  fun m hm => ⟨hcontext m, hm.of_tables (htables m), .ok _⟩

theorem modify {f : Machine → Machine} (hcontext : ∀ m, (f m).context = m.context)
    (htables : ∀ m, (f m).tables = m.tables) : Act.Quiet (modify f : Act PUnit) :=
  modifyGet hcontext htables

theorem lift {x : Except Fault α} (h : Ordinary x) : Act.Quiet (liftM x : Act α) := by
  cases x with
  | error f => exact throw (Ordinary.error.mp h)
  | ok a => exact pure a

theorem bind {x : Act α} {f : α → Act β} (hx : Act.Quiet x) (hf : ∀ a, Act.Quiet (f a)) :
    Act.Quiet (x >>= f) := by
  intro m hm
  obtain ⟨hcontext, hdata, hordinary⟩ := hx m hm
  rcases hr : x.run m with ⟨g | a, t⟩
  · have hrun : (x >>= f).run m = (.error g, t) := by rw [run_bind, hr]
    rw [hr] at hcontext hdata hordinary
    constructor
    · rwa [hrun]
    · rwa [hrun]
    · rw [hrun]
      exact Ordinary.error.mpr (Ordinary.error.mp hordinary)
  · have hrun : (x >>= f).run m = (f a).run t := by rw [run_bind, hr]
    rw [hr] at hcontext hdata
    have hthen := hf a t hdata
    constructor
    · rw [hrun]
      exact hthen.context.trans hcontext
    · rw [hrun]
      exact hthen.data
    · rw [hrun]
      exact hthen.ordinary

theorem onStore {x : StoreM α} (h : ∀ s, Ordinary (x.run s).1) : Act.Quiet (Act.onStore x) :=
  fun m hm => ⟨rfl, hm.of_tables rfl, h m.store⟩

end Act.Quiet

/-! ### Names and variables -/

open Act (Quiet)

theorem HostSource.set_quiet (source : HostSource) (key : String) (v : Value) :
    Quiet (source.set key v) := by
  cases source with
  | map h => exact .onStore fun s => DataContext.ofMap_quiet h key v s
  | table i =>
    intro m hm
    constructor
    case context => rfl
    case data => exact hm.setData rfl
    case ordinary => exact hm i key v (m.data i).state

theorem Cell.write_quiet (cell : Cell) (v : Value) : Quiet (cell.write v) := by
  cases cell with
  | own i =>
    exact Quiet.get.bind fun m => (Quiet.lift (checkType_ordinary _ v)).bind fun _ =>
      .modify (fun _ => rfl) fun _ => rfl
  | hosted source key => exact source.set_quiet key v

namespace Scope

variable (names : Interner) (f : Nat) (name : Name) (v : Value) (type : Option ValueType)

theorem newVariable_quiet : Quiet (newVariable v type) :=
  (Quiet.lift (checkType_ordinary type v)).bind fun _ =>
    .modifyGet (fun _ => rfl) fun _ => rfl

theorem updateKind_quiet (update : FrameKind → FrameKind) : Quiet (updateKind f update) :=
  .modify (fun _ => rfl) fun _ => rfl

theorem declare_quiet : Quiet (declare names f name v type) := by
  unfold declare
  refine Quiet.get.bind fun m => Quiet.get.bind fun m => ?_
  dsimp only
  split
  · next source _ => exact (source.set_quiet _ v).bind fun _ => .pure _
  · exact (newVariable_quiet v type).bind fun i => (updateKind_quiet _ _).bind fun _ => .pure _

theorem declareAt_quiet (slot : Nat) : Quiet (declareAt names f slot name v type) := by
  unfold declareAt
  refine Quiet.get.bind fun m => Quiet.get.bind fun m => ?_
  dsimp only
  have hbound (base : Nat) (update : Nat → FrameKind → FrameKind) : Quiet (do
      let i ← newVariable v type
      updateKind base (update i)
      return Cell.own i) :=
    (newVariable_quiet v type).bind fun i => (updateKind_quiet _ _).bind fun _ => .pure _
  split
  · split
    · exact (Quiet.throw rfl).bind fun _ => hbound _ _
    · exact hbound _ _
  · exact declare_quiet names f name v type

theorem resolve_quiet : Quiet (resolve names f name) := by
  unfold resolve
  refine Quiet.get.bind fun m => ?_
  cases m.resolve? names f name with
  | none => exact .throw rfl
  | some cell => exact .pure cell

theorem assign_quiet : Quiet (assign names f name v) := by
  unfold assign
  refine Quiet.get.bind fun m => ?_
  split
  · exact (resolve_quiet names f name).bind fun cell => cell.write_quiet v
  · exact (declare_quiet names f name v none).bind fun _ => .pure ()

theorem enter_quiet : Quiet (enter f) := .modifyGet (fun _ => rfl) fun _ => rfl

end Scope

/-! ### Calls -/

namespace Environment

/-- No registered function touches the context or the rules of data or stops an evaluation, where no
data does so. -/
def Quiet (e : Environment) : Prop := ∀ n ∈ e.configuration.natives, ∀ f ∈ n.methods, f.2.Quiet

theorem callNative_quiet {e : Environment} (h : e.Quiet) (t : NativeType) (method : Name)
    (args : List Value) : Act.Quiet (e.callNative t method args) :=
  callNative_cases (.throw rfl) fun n hn f hf => h n hn f hf args

theorem call_quiet {e : Environment} (h : e.Quiet) (receiver : Value) (method : Name)
    (args : List Value) : Act.Quiet (e.call receiver method args) := by
  refine call_cases (fun f => .throw (SandboxFault.toFault_ordinary f)) (fun t => ?_) ?_
  · exact callNative_quiet h t method args
  · exact Act.Quiet.get.bind fun m => .onStore fun s => callBuiltIn_ordinary s _ _ _ args

end Environment

/-! ## Runs under a limit -/

/-- The endings by which a run is stopped. -/
def Exit.stops : Exit → Bool
  | .fault f => f.isLiveness
  | _ => false

/-- The checks that refused to let a run go on: a run that is stopped ends with one. -/
def refusals {α : Type} : Except Exit α → Nat
  | .error exit => exit.stops.toNat
  | .ok _ => 0

/-- The context has a limit of liveness checks and is never cancelled, and no data of the host stops
an evaluation itself. -/
structure Machine.Limited (m : Machine) (limit : Nat) : Prop where
  limit : m.context.limits.iterations = some limit
  running : m.context.cancelled = .never
  data : m.DataObeys DataContext.Quiet

/-- The machine after one more check has been counted. -/
def Machine.checked (m : Machine) : Machine :=
  { m with context := { m.context with iterations := m.context.iterations + 1 } }

theorem Machine.Limited.checked {m : Machine} {limit : Nat} (h : m.Limited limit) :
    m.checked.Limited limit :=
  ⟨h.limit, h.running, h.data.of_tables rfl⟩

namespace Context

variable {c : Context} {limit : Nat}

/-- The deadline and the memory are looked at first. -/
theorem exceeded_cases (c : Context) (usage : Option Int64) (count : Nat) :
    c.exceeded usage count = some .deadlineExceeded ∨
      (∃ used limit, c.exceeded usage count = some (.memoryLimitExceeded used limit)) ∨
      c.exceeded usage count = exceeded.overCount c count := by
  unfold exceeded
  split
  · exact .inl rfl
  · split
    · split
      · exact .inr (.inl ⟨_, _, rfl⟩)
      · exact .inr (.inr rfl)
    · exact .inr (.inr rfl)

theorem le_of_exceeded_none (hlimit : c.limits.iterations = some limit) {usage : Option Int64}
    {count : Nat} (h : c.exceeded usage count = none) : count ≤ limit := by
  rcases exceeded_cases c usage count with hd | ⟨used, most, hm⟩ | hc
  · cases hd.symm.trans h
  · cases hm.symm.trans h
  · rw [hc, exceeded.overCount, hlimit] at h
    simpa using h

theorem of_exceeded_some (hlimit : c.limits.iterations = some limit) {usage : Option Int64}
    {count : Nat} {f : Fault} (h : c.exceeded usage count = some f) :
    f.isLiveness = true ∧ ∀ n, f = .iterationLimitExceeded n → limit < count := by
  rcases exceeded_cases c usage count with hd | ⟨used, most, hm⟩ | hc
  · obtain rfl := Option.some.inj (hd.symm.trans h)
    exact ⟨rfl, by simp⟩
  · obtain rfl := Option.some.inj (hm.symm.trans h)
    exact ⟨rfl, by simp⟩
  · rw [hc, exceeded.overCount, hlimit] at h
    dsimp only at h
    split at h
    · next hlt =>
      obtain rfl := Option.some.inj h
      exact ⟨rfl, fun n _ => hlt⟩
    · cases h

end Context

namespace Run

variable {α β : Type} {limit : Nat}

/-- What a run does to the count of a context with a limit. The checks that it passes stay within
the limit, and one more check is counted if the run is stopped. -/
structure Meters (limit : Nat) (x : Run α) (m : Machine) : Prop where
  limited : (x.run m).2.Limited limit
  counted : m.context.iterations + refusals (x.run m).1 ≤ (x.run m).2.context.iterations
  within : (x.run m).2.context.iterations ≤
    max limit m.context.iterations + refusals (x.run m).1
  overrun : ∀ n, (x.run m).1 = .error (.fault (.iterationLimitExceeded n)) →
    (x.run m).2.context.iterations = max limit m.context.iterations + 1

def Metered (limit : Nat) (x : Run α) : Prop := ∀ m : Machine, m.Limited limit → x.Meters limit m

/-- The checks that a run gets past: those that it counts without the one that stops it. No other
operation counts any, and a run after another one adds its own. -/
def passed (x : Run α) (m : Machine) : Nat :=
  (x.run m).2.context.iterations - m.context.iterations - refusals (x.run m).1

namespace Meters

variable {x : Run α} {y : Run β} {m : Machine}

/-- Two runs that end in the same state and are stopped by the same faults. -/
theorem same (h : x.Meters limit m) (hstate : (y.run m).2 = (x.run m).2)
    (hrefusals : refusals (y.run m).1 = refusals (x.run m).1)
    (hfault : ∀ f, (y.run m).1 = .error (.fault f) → (x.run m).1 = .error (.fault f)) :
    y.Meters limit m := by
  constructor
  · exact hstate ▸ h.limited
  · rw [hstate, hrefusals]
    exact h.counted
  · rw [hstate, hrefusals]
    exact h.within
  · intro n hn
    rw [hstate]
    exact h.overrun n (hfault _ hn)

/-- A run that neither touches the context nor is stopped. -/
theorem of_still (hm : m.Limited limit)
    (hcontext : (x.run m).2.context = m.context) (hdata : (x.run m).2.DataObeys DataContext.Quiet)
    (hgoes : ∀ e, (x.run m).1 = .error e → e.stops = false) : x.Meters limit m := by
  have hrefusals : refusals (x.run m).1 = 0 := by
    cases hr : (x.run m).1 with
    | ok a => rfl
    | error e => simp [refusals, hgoes e hr]
  constructor
  case limited => exact ⟨hcontext ▸ hm.limit, hcontext ▸ hm.running, hdata⟩
  case counted =>
    rw [hcontext, hrefusals]
    exact Nat.le_refl _
  case within =>
    rw [hcontext, hrefusals]
    exact Nat.le_max_right _ _
  case overrun =>
    intro n hn
    exact absurd (hgoes _ hn) (by simp [Exit.stops, Fault.isLiveness])

end Meters

namespace Metered

theorem pure (a : α) : Metered limit (pure a : Run α) := by
  intro m hm
  refine .of_still hm rfl hm.data fun e h => ?_
  cases h

theorem throw {e : Exit} (hgoes : e.stops = false) : Metered limit (throw e : Run α) := by
  intro m hm
  refine .of_still hm rfl hm.data fun e' h => ?_
  rwa [← Except.error.inj h]

theorem get : Metered limit (get : Run Machine) := by
  intro m hm
  refine .of_still hm rfl hm.data fun e h => ?_
  cases h

theorem context_act {x : Act α} {m : Machine} (h : x.QuietFrom m) :
    ((Run.act x).run m).2.context = m.context := by
  rw [run_act, ← h.context]
  rcases x.run m with ⟨_ | _, _⟩ <;> rfl

theorem act {x : Act α} (h : Act.Quiet x) : Metered limit (Run.act x) := by
  intro m hm
  have hquiet := h m hm.data
  refine .of_still hm (context_act hquiet) ?_ fun e he => ?_
  · rw [run_act]
    have hdata := hquiet.data
    rcases hr : x.run m with ⟨_ | _, _⟩ <;> rwa [hr] at hdata
  · rw [run_act] at he
    rcases hr : x.run m with ⟨f | _, _⟩
    · rw [hr] at he
      obtain rfl := Except.error.inj he
      exact hquiet.ordinary f (by rw [hr])
    · rw [hr] at he
      cases he

theorem bind {x : Run α} {f : α → Run β} (hx : Metered limit x) (hf : ∀ a, Metered limit (f a)) :
    Metered limit (x >>= f) := by
  intro m hm
  have hhere := hx m hm
  rcases hr : x.run m with ⟨e | a, t⟩
  · have hrun : (x >>= f).run m = (.error e, t) := by rw [run_bind, hr]
    refine hhere.same (by rw [hrun, hr]) (by rw [hrun, hr]; rfl) fun g hg => ?_
    rw [hrun] at hg
    rw [hr, Except.error.inj hg]
  · have hrun : (x >>= f).run m = (f a).run t := by rw [run_bind, hr]
    obtain ⟨hlimited, hcounted, hwithin, -⟩ := hhere
    rw [hr] at hlimited hcounted hwithin
    simp only [refusals, Nat.add_zero] at hcounted hwithin
    obtain ⟨hlimited', hcounted', hwithin', hover'⟩ := hf a t hlimited
    -- What has been passed so far does not raise what may be passed in all.
    have hmax : max limit t.context.iterations = max limit m.context.iterations := by omega
    constructor
    · rwa [hrun]
    · rw [hrun]
      omega
    · rw [hrun]
      omega
    · rw [hrun, ← hmax]
      exact hover'

theorem passed_act {x : Act α} {m : Machine} (h : x.QuietFrom m) : (Run.act x).passed m = 0 := by
  unfold passed
  rw [context_act h, Nat.sub_self, Nat.zero_sub]

/-- The checks passed by one run after another add up. -/
theorem passed_bind {x : Run α} {f : α → Run β} (hx : Metered limit x)
    (hf : ∀ a, Metered limit (f a)) {m : Machine} (hm : m.Limited limit) :
    (x >>= f).passed m = x.passed m + match x.run m with
      | (.ok a, t) => (f a).passed t
      | (.error _, _) => 0 := by
  obtain ⟨hlimited, hcounted, -, -⟩ := hx m hm
  rcases hr : x.run m with ⟨e | a, t⟩
  · have hrun : (x >>= f).run m = (.error e, t) := by rw [run_bind, hr]
    unfold passed
    rw [hrun, hr]
    rfl
  · have hrun : (x >>= f).run m = (f a).run t := by rw [run_bind, hr]
    rw [hr] at hlimited hcounted
    have hcounted' := (hf a t hlimited).counted
    change m.context.iterations ≤ t.context.iterations at hcounted
    unfold passed
    rw [hrun, hr]
    change _ = t.context.iterations - m.context.iterations + (_ - _ - _)
    omega

theorem body {x : Run Value} (hx : Metered limit x) : Metered limit (Run.body x) := by
  intro m hm
  have hrun := run_body x m
  refine (hx m hm).same ?_ ?_ fun f hf => ?_
  · rw [hrun]
    rcases x.run m with ⟨(_ | _ | _ | _) | _, _⟩ <;> rfl
  · rw [hrun]
    rcases x.run m with ⟨(_ | _ | _ | _) | _, _⟩ <;> rfl
  · rw [hrun] at hf
    rcases hr : x.run m with ⟨(_ | _ | _ | _) | _, _⟩ <;> rw [hr] at hf <;> simp_all

end Metered

section Check

variable {m : Machine} (hm : m.Limited limit)

include hm

theorem run_checkLiveness_ok (h : m.context.exceeded m.usage? (m.context.iterations + 1) = none) :
    (Run.act Act.checkLiveness).run m = (.ok (), m.checked) := by
  have hcheck : m.context.check m.usage? = (.ok (), m.checked.context) := by
    simp [Context.check, hm.running, Moment.isOver, h, Machine.checked]
  rw [run_act, show Act.checkLiveness.run m = ((m.context.check m.usage?).1,
    { m with context := (m.context.check m.usage?).2 }) from rfl, hcheck]
  rfl

theorem run_checkLiveness_error {f : Fault}
    (h : m.context.exceeded m.usage? (m.context.iterations + 1) = some f) :
    (Run.act Act.checkLiveness).run m = (.error (.fault f), m.checked) := by
  have hcheck : m.context.check m.usage? = (.error f, m.checked.context) := by
    simp [Context.check, hm.running, Moment.isOver, h, Machine.checked]
  rw [run_act, show Act.checkLiveness.run m = ((m.context.check m.usage?).1,
    { m with context := (m.context.check m.usage?).2 }) from rfl, hcheck]
  rfl

theorem checkLiveness_meters : (Run.act Act.checkLiveness).Meters limit m := by
  cases hx : m.context.exceeded m.usage? (m.context.iterations + 1) with
  | none =>
    have hle := Context.le_of_exceeded_none hm.limit hx
    have hrun := run_checkLiveness_ok hm hx
    constructor
    · rw [hrun]
      exact hm.checked
    · rw [hrun]
      exact Nat.le_succ _
    · rw [hrun]
      exact Nat.le_trans hle (Nat.le_max_left _ _)
    · rw [hrun]
      simp
  | some f =>
    obtain ⟨hlive, hover⟩ := Context.of_exceeded_some hm.limit hx
    have hrun := run_checkLiveness_error hm hx
    have hrefusals : refusals (.error (.fault f) : Except Exit Unit) = 1 := by
      simp [refusals, Exit.stops, hlive]
    constructor
    · rw [hrun]
      exact hm.checked
    · rw [hrun, hrefusals]
      exact Nat.le_refl _
    · rw [hrun, hrefusals]
      exact Nat.succ_le_succ (Nat.le_max_right _ _)
    · rw [hrun]
      intro n hn
      have hlt := hover n (Exit.fault.inj (Except.error.inj hn))
      rw [Nat.max_eq_right (Nat.le_of_lt_succ hlt)]
      rfl

/-- A check that is passed counts as one, and one that stops the run as none. -/
theorem checkLiveness_passed : (Run.act Act.checkLiveness).passed m =
    1 - refusals ((Run.act Act.checkLiveness).run m).1 := by
  have hstate : ((Run.act Act.checkLiveness).run m).2 = m.checked := by
    cases hx : m.context.exceeded m.usage? (m.context.iterations + 1) with
    | none => rw [run_checkLiveness_ok hm hx]
    | some f => rw [run_checkLiveness_error hm hx]
  unfold passed
  rw [hstate]
  simp only [Machine.checked]
  omega

/-- A turn that begins with a check has used one up if it comes to an end. -/
theorem turn_advances {x : Run Bool} (hx : Metered limit x) {t : Machine} {more : Bool}
    (h : (do Run.act Act.checkLiveness; x : Run Bool).run m = (.ok more, t)) :
    m.context.iterations < t.context.iterations ∧ t.context.iterations ≤ limit := by
  rw [run_bind] at h
  cases hover : m.context.exceeded m.usage? (m.context.iterations + 1) with
  | some f =>
    rw [run_checkLiveness_error hm hover] at h
    cases h
  | none =>
    have hle := Context.le_of_exceeded_none hm.limit hover
    rw [run_checkLiveness_ok hm hover] at h
    obtain ⟨-, hcounted, hwithin, -⟩ := hx m.checked hm.checked
    dsimp only at h
    rw [h] at hcounted hwithin
    simp only [refusals, Nat.add_zero, Machine.checked] at hcounted hwithin
    omega

end Check

end Run

end MeteredScript

import MeteredScript.Natives
import MeteredScript.Proofs.Evaluation.Chain
import MeteredScript.Proofs.Evaluation.Folding
import MeteredScript.Proofs.Sandbox.History

/-!
# Native types that a script gets hold of

A script gets hold of a native type only where it names one, and there the sandbox decides. As long
as native functions hand on nothing but what they were given, an evaluation that starts from open
types never holds another one, so each native function that it calls belongs to an open type.
-/

namespace MeteredScript

/-! ## What a machine holds -/

/-- What is found in a value: itself, and what is found in the contents of its container. -/
inductive Store.Reaches (s : Store) : Value → Value → Prop
  | here (v : Value) : Reaches s v v
  | inside {v w u : Value} {h : Handle} {c : Container} (handle : v.handle? = some h)
      (container : s.containers[h.target]? = some c) (element : w ∈ c.contents.values)
      (rest : Reaches s w u) : Reaches s v u

/-- A value that is a native type only if it is one of these. -/
def Value.Only (types : NativeType → Prop) (v : Value) : Prop := ∀ t, v = .native t → types t

/-- The containers, and the variables on the chain of a frame, hold no other native types. -/
structure Machine.Only (types : NativeType → Prop) (frame : Nat) (m : Machine) : Prop where
  containers : ∀ (n : Nat) (c : Container), m.store.containers[n]? = some c →
    ∀ v ∈ c.contents.values, v.Only types
  chain : ∀ f, m.OnChain frame f → ∀ v, m.Offers f v → v.Only types

/-- A native function hands on native types that are found in its arguments, and no others: neither
as its answer, nor in a container, a variable or data of the host that did not hold it before. It is
given no frame. -/
structure Native.HandsOn (f : Native) : Prop where
  answer : ∀ (args : List Value) (m : Machine) (t : NativeType),
    ((f args).run m).1 = .ok (.native t) → ∃ a ∈ args, m.store.Reaches a (.native t)
  containers : ∀ (args : List Value) (m : Machine) (n : Nat) (c : Container),
    ((f args).run m).2.store.containers[n]? = some c →
    ∀ t, .native t ∈ c.contents.values →
      (∃ a ∈ args, m.store.Reaches a (.native t)) ∨
        ∃ (k : Nat) (d : Container), m.store.containers[k]? = some d ∧ .native t ∈ d.contents.values
  locals : ∀ (args : List Value) (m : Machine) (i : Nat) (x : Variable),
    ((f args).run m).2.locals[i]? = some x → ∀ t, x.value = .native t →
      (∃ a ∈ args, m.store.Reaches a (.native t)) ∨
        ∃ y : Variable, m.locals[i]? = some y ∧ y.value = .native t
  data : ∀ (args : List Value) (m : Machine) (i : Nat) (t : NativeType),
    (((f args).run m).2.data i).Stocks (.native t) →
      (∃ a ∈ args, m.store.Reaches a (.native t)) ∨ (m.data i).Stocks (.native t)
  frames : ∀ (args : List Value) (m : Machine),
    ((f args).run m).2.frames.size = m.frames.size ∧
      ∀ g, ((f args).run m).2.kind? g = m.kind? g

/-! ## Guards -/

open Classical in
/-- A native function that is called only on arguments that pass a check; an alarm runs on others. -/
noncomputable def Native.guarded (check : List Value → Prop) (alarm f : Native) : Native :=
  fun args => if check args then f args else alarm args

noncomputable def NativeClass.guarded (check : NativeType → Name → List Value → Prop)
    (alarm : Native) (c : NativeClass) : NativeClass :=
  { c with methods := c.methods.map fun (method, f) =>
      (method, Native.guarded (check c.type method) alarm f) }

noncomputable def Configuration.guarded (check : NativeType → Name → List Value → Prop)
    (alarm : Native) (c : Configuration) : Configuration :=
  { c with natives := c.natives.map (NativeClass.guarded check alarm) }

namespace Environment

/-- The sandbox allows the path of the type. -/
def OpenType (e : Environment) (t : NativeType) : Prop := e.sandbox.allows t.path = true

/-- What is asked of each call of a native function: an open type of which no closed word is the
simple name, no closed word as the name of the member, and open types alone in the arguments. -/
structure Permits (e : Environment) (t : NativeType) (method : Name) (args : List Value) : Prop where
  path : e.OpenType t
  simpleName : ∀ n, t.path.simpleName = some n → e.names.lookup n ∉ Sandbox.closedTypeWords
  member : e.names.lookup method ∉ Sandbox.closedMemberWords.map Prod.fst
  args : ∀ v ∈ args, v.Only e.OpenType

/-- The environment in which an alarm runs wherever a call is not permitted. -/
noncomputable def guarded (e : Environment) (alarm : Native) : Environment :=
  e.reconfigured (e.configuration.guarded e.Permits alarm)

/-- After each node, what it ended with and what the machine holds has to be open. -/
def openWatch (e : Environment) : Watch := fun frame ending m =>
  m.Only e.OpenType frame ∧
    ∀ v, ending = .ok v ∨ ending = .error (.returned v) → v.Only e.OpenType

end Environment

/-! ## The setting of open types -/

/-- Every container may be held, and these native types, in the frames on a chain and in new ones. -/
def Setting.open (types : NativeType → Prop) (m : Machine) (frame : Nat) : Setting where
  handle _ := True
  native := types
  view _ _ _ := trivial
  frame f := m.OnChain frame f ∨ m.frames.size ≤ f
  effect _ _ := True
  law _ := True

instance (types : NativeType → Prop) (m : Machine) (frame : Nat) :
    (Setting.open types m frame).Lawful := ⟨fun _ _ => trivial⟩

section Open

variable {types : NativeType → Prop} {m₀ m : Machine} {frame₀ frame : Nat}

theorem open_admits {v : Value} : (Setting.open types m₀ frame₀).admits v ↔ v.Only types := by
  cases v with
  | native t =>
    constructor
    · rintro h t' ht
      rwa [← Value.native.inj ht]
    · exact fun h => h t rfl
  | list | map | set | null | bool | int | float | str =>
    apply iff_of_true trivial
    rintro t ht
    cases ht

theorem Machine.Only.held (h : m.Only types frame) : m.Held (Setting.open types m frame) := by
  have hstore : m.store.Held (Setting.open types m frame).toRealm := by
    constructor
    case fresh => exact fun _ _ => trivial
    case contents =>
      intro n c hc v hv
      exact open_admits.mpr (h.containers n c hc v hv)
  refine .of_chain rfl hstore ?_ (fun _ _ _ _ => trivial) trivial
  intro f hf v hv
  exact open_admits.mpr (h.chain f hf v hv)

theorem Machine.Held.only (h : m.Held (Setting.open types m₀ frame₀))
    (hf : (Setting.open types m₀ frame₀).frame frame) : m.Only types frame := by
  constructor
  case containers =>
    intro n c hc v hv
    exact open_admits.mp (h.store.contents n c hc v hv)
  case chain =>
    intro g hg v hv
    exact open_admits.mp (h.offers (h.onChain hf hg) hv)

/-- What is found in an open value is open. -/
theorem Machine.Held.reaches (h : m.Held (Setting.open types m₀ frame₀)) {v w : Value}
    (hv : v.Only types) (hr : m.store.Reaches v w) : w.Only types := by
  induction hr with
  | here => exact hv
  | inside _ hc he _ ih => exact ih (open_admits.mp (h.store.contents _ _ hc _ he))

theorem Native.HandsOn.keeps {f : Native} (hf : f.HandsOn) {args : List Value}
    (ha : ∀ v ∈ args, v.Only types) :
    Act.Keeps (Setting.open types m₀ frame₀) (f args) (Setting.open types m₀ frame₀).admits := by
  intro m hm
  have given : ∀ t, (∃ a ∈ args, m.store.Reaches a (.native t)) → types t := by
    rintro t ⟨a, hmem, hr⟩
    exact hm.reaches (ha a hmem) hr t rfl
  have held : ((f args).run m).2.Held (Setting.open types m₀ frame₀) := by
    obtain ⟨hsize, hkind⟩ := hf.frames args m
    have hstore : ((f args).run m).2.store.Held (Setting.open types m₀ frame₀).toRealm := by
      constructor
      case fresh => exact fun _ _ => trivial
      case contents =>
        intro n c hc v hv
        apply open_admits.mpr
        rintro t rfl
        rcases hf.containers args m n c hc t hv with hr | ⟨k, d, hd, hmem⟩
        · exact given t hr
        · exact hm.store.contents k d hd _ hmem
    refine hm.of_kept trivial hstore hsize hkind ?_ ?_
    · intro i hold x hx
      apply open_admits.mpr
      intro t ht
      rcases hf.locals args m i x hx t ht with hr | ⟨y, hy, hyt⟩
      · exact given t hr
      · exact open_admits.mp (hold y hy) t hyt
    · intro i hold v hv
      apply open_admits.mpr
      rintro t rfl
      rcases hf.data args m i t hv with hr | hstock
      · exact given t hr
      · exact open_admits.mp (hold _ hstock) t rfl
  exact ⟨rfl, .single (.native _ trivial held),
    fun v hv => open_admits.mpr fun t ht => given t (hf.answer args m t (ht ▸ hv)),
    fun _ _ => trivial⟩

end Open

/-! ## Type references and calls -/

namespace Environment

theorem checkClass_open {e : Environment} {text : String} {path : ClassPath}
    (h : e.sandbox.checkClass e.names text = .ok (some path)) : e.sandbox.allows path = true := by
  unfold Sandbox.checkClass at h
  split at h
  · cases h
  · next segments hq =>
    split at h
    · next hd =>
      split at h
      · next hall =>
        obtain rfl := Option.some.inj (Except.ok.inj h)
        have hseg : (segments.filterMap id).map some = segments := by
          clear hq hd h
          induction segments with
          | nil => rfl
          | cons o rest ih =>
            cases o with
            | none => simp at hall
            | some n => simpa using ih (by simpa using hall)
        rw [Sandbox.allows, hseg]
        exact hd
      · cases h
    · cases h

theorem typePath_open {e : Environment} {name : Name} {path : ClassPath}
    (h : e.typePath name = .ok path) : e.sandbox.allows path = true := by
  unfold typePath at h
  split at h
  · split at h
    · next hopen => exact Except.ok.inj h ▸ hopen
    · cases h
  · dsimp only at h
    split at h
    · next hc => exact Except.ok.inj h ▸ checkClass_open hc
    · cases h
    · cases h

theorem native?_path {c : Configuration} {path : ClassPath} {n : NativeClass}
    (h : c.native? path = some n) : n.type.path = path := by
  simpa using List.find?_some h

theorem resolveType_open {e : Environment} {name : Name} {v : Value}
    (h : e.resolveType name = .ok v) : v.Only e.OpenType := by
  unfold resolveType at h
  split at h
  · cases h
  · next path hp =>
    split at h
    · next n hn =>
      intro t ht
      rw [← Except.ok.inj h] at ht
      rw [← Value.native.inj ht, OpenType, native?_path hn]
      exact typePath_open hp
    · cases h

theorem native?_guarded (check : NativeType → Name → List Value → Prop) (alarm : Native)
    (c : Configuration) (path : ClassPath) :
    (c.guarded check alarm).native? path =
      (c.native? path).map (NativeClass.guarded check alarm) := by
  unfold Configuration.native? Configuration.guarded
  rw [List.find?_map]
  rfl

theorem lookup_guarded (check : NativeType → Name → List Value → Prop) (alarm : Native)
    (n : NativeClass) (method : Name) :
    (n.guarded check alarm).methods.lookup method =
      (n.methods.lookup method).map (Native.guarded (check n.type method) alarm) := by
  unfold NativeClass.guarded
  induction n.methods with
  | nil => rfl
  | cons p rest ih =>
    obtain ⟨q, f⟩ := p
    rw [List.map_cons, List.lookup_cons, List.lookup_cons]
    by_cases hq : method = q
    · rw [hq, beq_self_eq_true]; rfl
    · rw [beq_false_of_ne hq]; exact ih

theorem resolveType_guarded (e : Environment) (alarm : Native) (name : Name) :
    (e.guarded alarm).resolveType name = e.resolveType name := by
  have hpath : (e.guarded alarm).typePath name = e.typePath name := rfl
  have hnative : ∀ path, (e.guarded alarm).configuration.native? path =
      (e.configuration.native? path).map (NativeClass.guarded e.Permits alarm) :=
    native?_guarded e.Permits alarm e.configuration
  unfold resolveType
  rw [hpath]
  cases e.typePath name with
  | error => rfl
  | ok path =>
    dsimp only
    rw [hnative]
    cases e.configuration.native? path <;> rfl

theorem callNative_guarded {e : Environment} {t : NativeType} {method : Name} {args : List Value}
    (alarm : Native)
    (h : ∀ n, e.configuration.native? t.path = some n → e.Permits n.type method args) :
    (e.guarded alarm).callNative t method args = e.callNative t method args := by
  have hnative : (e.guarded alarm).configuration.native? t.path =
      (e.configuration.native? t.path).map (NativeClass.guarded e.Permits alarm) :=
    native?_guarded e.Permits alarm e.configuration t.path
  have hnames : (e.guarded alarm).names = e.names := rfl
  unfold callNative
  rw [hnative, hnames]
  cases hn : e.configuration.native? t.path with
  | none => rfl
  | some n =>
    rw [Option.map_some, Option.bind_some, Option.bind_some, lookup_guarded]
    cases n.methods.lookup method with
    | none => rfl
    | some f => exact if_pos (h n hn)

/-- A call that the sandbox lets through, of an open type on open arguments, is permitted. -/
theorem permits_of_checkMember {e : Environment} (ht : e.names.Sound)
    (hc : Sandbox.ClosedOn e.names e.sandbox) {t : NativeType} (hopen : e.OpenType t)
    {method : Name} (hcheck : e.sandbox.checkMember e.names (some t.path) (e.names.lookup method) =
      .ok ()) {args : List Value} (ha : ∀ v ∈ args, v.Only e.OpenType) :
    e.Permits t method args := by
  refine ⟨hopen, fun n hn => hc.lookup_simpleName ht hopen hn, ?_, ha⟩
  unfold Sandbox.checkMember at hcheck
  split at hcheck
  · next hallow => exact hc.member_open ht hallow
  · cases hcheck

/-- Jobs on open values suit the setting of open types, with guards on the native functions. -/
theorem suits_open {e : Environment} (ht : e.names.Sound)
    (hc : Sandbox.ClosedOn e.names e.sandbox)
    (hn : ∀ n ∈ e.configuration.natives, ∀ f ∈ n.methods, f.2.HandsOn) (alarm : Native)
    {this : Value} (hthis : this.Only e.OpenType) (p : Program) (m : Machine) (frame : Nat) :
    (p.job e this).Suits (.open e.OpenType m frame) (e.configuration.guarded e.Permits alarm) := by
  refine ⟨open_admits.mpr hthis, resolveType_guarded e alarm,
    fun name v hv => open_admits.mpr (resolveType_open hv), fun t method args hopen hcheck ha => ?_⟩
  have ha' : ∀ v ∈ args, v.Only e.OpenType := fun v hv => open_admits.mp (ha v hv)
  have hsame : (e.guarded alarm).callNative t method args = e.callNative t method args := by
    refine callNative_guarded alarm fun n hfound => ?_
    have hpermits := permits_of_checkMember ht hc hopen hcheck ha'
    have hpath := native?_path hfound
    obtain ⟨h₁, h₂, h₃, h₄⟩ := hpermits
    unfold OpenType at h₁
    rw [← hpath] at h₁ h₂
    exact ⟨h₁, h₂, h₃, h₄⟩
  change Tracks _ _ ((e.guarded alarm).callNative t method args) (e.callNative t method args) _
  rw [hsame]
  exact Job.callNative_keeps (fun n hreg f hf => (hn n hreg f hf).keeps ha') t method

end Environment

/-! ## Evaluation -/

/-- The accelerator answers with no other native types. The built-in ones answer with none. -/
def Accelerator.Only (types : NativeType → Prop) : Accelerator → Prop
  | .recorder (some ending) => ∀ v, ending = .ok v ∨ ending = .error (.returned v) → v.Only types
  | .recorder none | .literalFold | .interpretOnly => True

namespace Program

theorem only_of_isScalar {types : NativeType → Prop} {v : Value} (h : v.isScalar = true) :
    v.Only types := by
  rintro t rfl
  cases h

theorem bare_only (types : NativeType → Prop) :
    (Machine.bare.pushFrame (.named [] none)).2.Only types
      (Machine.bare.pushFrame (.named [] none)).1 := by
  constructor
  case containers =>
    intro n c hc
    have hnone : (#[] : Array Container)[n]? = some c := hc
    simp at hnone
  case chain =>
    intro f _ v hv
    have hkind : ∀ kind, (Machine.bare.pushFrame (.named [] none)).2.kind? f = some kind →
        kind = .named [] none := by
      intro kind hk
      rw [Machine.kind?_pushFrame] at hk
      split at hk
      · exact (Option.some.inj hk).symm
      · simp [Machine.bare, Machine.kind?] at hk
    cases hv with
    | own found bound _ =>
      rw [hkind _ found] at bound
      exact absurd bound List.not_mem_nil
    | hosted found _ => cases hkind _ found

/-- The guards change nothing where constants are folded either. -/
theorem fold?_guarded {e : Environment} (ht : e.names.Sound)
    (hc : Sandbox.ClosedOn e.names e.sandbox)
    (hn : ∀ n ∈ e.configuration.natives, ∀ f ∈ n.methods, f.2.HandsOn) (alarm : Native)
    (p : Program) (fuel : Nat) : p.fold? (e.guarded alarm) fuel = p.fold? e fuel := by
  have hnull : Value.null.Only e.OpenType := only_of_isScalar rfl
  have hm := bare_only e.OpenType
  generalize hpush : Machine.bare.pushFrame (.named [] none) = pushed at hm
  obtain ⟨frame, m⟩ := pushed
  have hsuits := Environment.suits_open ht hc hn alarm hnull p m frame
  have hrun := (Job.interpretWatched_tracks (fun _ _ _ _ _ _ => trivial)
    hsuits (throw .broke) fuel p.first (.inl (.here frame)) m hm.held).same
  rw [Job.interpretWatched, Job.evalWatched_true] at hrun
  have hrun : (p.interpret (e.guarded alarm) fuel .null frame).run m =
      (p.interpret e fuel .null frame).run m := hrun
  unfold fold?
  simp only [hpush, hrun]

/-- An evaluation that starts from open types holds no others at any node and calls native functions
of open types only: guards on all of them, and a watch on all nodes, change nothing. -/
theorem evaluate_only_open {hash : String → Fin 16} {earlier : List String}
    {drafting using_ : List Sandbox.Event} {e : Environment}
    (hlive : (Sandbox.live drafting using_).run (Interner.internAll earlier (.withWellKnown hash)) =
      (some e.sandbox, e.names))
    (hn : ∀ n ∈ e.configuration.natives, ∀ f ∈ n.methods, f.2.HandsOn)
    {b : Builder} {options : BuildOptions} {p : Program} (hp : b.finish options = .ok p)
    (ha : p.accelerator.Only e.OpenType) (e₀ : Environment) (fuel₀ fuel : Nat)
    {this : Value} (hthis : this.Only e.OpenType) {frame : Nat} {m : Machine}
    (hm : m.Only e.OpenType frame) :
    (∀ (alarm : Native) (raised : Run Value),
      ((p.select e₀ fuel₀).evaluateWatched (e.guarded alarm) e.openWatch raised fuel this frame).run m
        = ((p.select e₀ fuel₀).evaluate e fuel this frame).run m) ∧
      (∀ alarm : Native, p.select (e.guarded alarm) fuel₀ = p.select e fuel₀) ∧
      (((p.select e₀ fuel₀).evaluate e fuel this frame).run m).2.Only e.OpenType frame ∧
      ∀ v, (((p.select e₀ fuel₀).evaluate e fuel this frame).run m).1 = .ok v →
        v.Only e.OpenType := by
  have ht := (Interner.sound_withWellKnown hash).internAll earlier
  obtain ⟨hk, hc⟩ := Sandbox.run_live ht hlive
  have hstrategy := (finish_ok hp).2.2.2.1
  have hrep : (p.select e₀ fuel₀).ReplaysHeld (Setting.open e.OpenType m frame).toRealm := by
    refine select_replaysHeld hstrategy (fun ending hacc v hv => ?_) e₀ fuel₀
    rw [hacc] at ha
    exact open_admits.mpr (ha v hv)
  have hsuits (alarm : Native) := Environment.suits_open hk.sound hc hn alarm hthis
    (p.select e₀ fuel₀) m frame
  have hframe : (Setting.open e.OpenType m frame).frame frame := .inl (.here frame)
  have hwatch : ∀ (f : Nat) (ending : Except Exit Value) (m' : Machine),
      (Setting.open e.OpenType m frame).frame f → m'.Held (Setting.open e.OpenType m frame) →
      (∀ v, ending = .ok v ∨ ending = .error (.returned v) →
        (Setting.open e.OpenType m frame).admits v) → e.openWatch f ending m' :=
    fun f ending m' hf hheld hv => ⟨hheld.only hf, fun v h => open_admits.mp (hv v h)⟩
  have heq (alarm : Native) (raised : Run Value) :=
    evaluateWatched_tracks hwatch (hsuits alarm) hrep trivial raised fuel hframe m hm.held
  refine ⟨?_, ?_, ?_, ?_⟩
  · intro alarm raised
    exact (heq alarm raised).same
  · intro alarm
    unfold select accelerate
    rw [fold?_guarded hk.sound hc hn alarm]
  · exact ((heq Native.fail (throw .broke)).steps.held hm.held).only hframe
  · intro v hv
    exact open_admits.mp ((heq Native.fail (throw .broke)).result v hv)

end Program

/-! ## A call that is permitted -/

theorem Native.first_handsOn : Native.first.HandsOn where
  answer args m t h := by
    cases args with
    | nil => cases h
    | cons a rest =>
      refine ⟨a, List.mem_cons_self, ?_⟩
      rw [Except.ok.inj (show Except.ok a = .ok (Value.native t) from h)]
      exact .here _
  containers _ _ n c hc t ht := .inr ⟨n, c, hc, ht⟩
  locals _ _ i x hx t ht := .inr ⟨x, hx, ht⟩
  data _ _ _ _ hstock := .inr hstock
  frames _ _ := ⟨rfl, fun _ => rfl⟩

namespace Program

/-- A sandbox that allows one type, in use. -/
def rateSandbox : Option Sandbox × Interner :=
  (Sandbox.live [.rule .allowClass "net.Rate"] [.text "of"]).run
    (Interner.internAll [] (.withWellKnown Interner.spread))

def rateName (text : String) : Name := (rateSandbox.2.get? text).getD .empty

def rateEnvironment : Environment where
  names := rateSandbox.2
  sandbox := rateSandbox.1.getD default
  configuration :=
    let path : ClassPath := ⟨[rateName "net", rateName "Rate"]⟩
    { sandbox := 0
      imports := [(rateName "Rate", path)]
      natives := [⟨⟨path, "net.Rate"⟩, [(rateName "of", Native.first)]⟩]
      strongTyping := false }

def rateBuilder : Builder :=
  ((do
    let type ← Builder.node (.typeRef (rateName "Rate"))
    let seven ← Builder.node (.literal (.int 7) none)
    let args ← Builder.range [seven]
    let call ← Builder.node (.call type (rateName "of") args)
    Builder.pushStatement call : BuildM Unit).run .empty).2

def rateOptions : BuildOptions := ⟨none, none, .interpretOnly, 0, false⟩

theorem evaluate_only_open_rate :
    ∃ (p : Program) (m : Machine), rateBuilder.finish rateOptions = .ok p ∧
      m.Only (fun _ => False) 0 ∧
      (((p.select rateEnvironment 4).evaluate rateEnvironment 4 .null 0).run m).1 = .ok (.int 7) ∧
      ∀ (alarm : Native) (raised : Run Value),
        ((p.select rateEnvironment 4).evaluateWatched (rateEnvironment.guarded alarm)
            rateEnvironment.openWatch raised 4 .null 0).run m =
          ((p.select rateEnvironment 4).evaluate rateEnvironment 4 .null 0).run m := by
  refine ⟨_, (Machine.bare.pushFrame (.named [] none)).2, rfl, bare_only _, ?_, ?_⟩
  · decide +kernel
  · have hsome : rateSandbox.1.isSome = true := by decide +kernel
    have hlive : rateSandbox = (some rateEnvironment.sandbox, rateEnvironment.names) := by
      refine Prod.ext ?_ rfl
      obtain ⟨s, hs⟩ := Option.isSome_iff_exists.mp hsome
      change rateSandbox.1 = some (rateSandbox.1.getD default)
      rw [hs, Option.getD_some]
    have hp : rateBuilder.finish rateOptions = .ok _ := rfl
    refine (evaluate_only_open hlive ?_ hp trivial rateEnvironment 4 4 (only_of_isScalar rfl)
      (bare_only _)).1
    intro n hn f hf
    obtain rfl := List.mem_singleton.mp hn
    obtain rfl := List.mem_singleton.mp hf
    exact Native.first_handsOn

end Program

end MeteredScript

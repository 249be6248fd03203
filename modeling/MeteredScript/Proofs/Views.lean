import MeteredScript.Natives
import MeteredScript.Proofs.Evaluation.Chain
import MeteredScript.Proofs.Evaluation.Folding
import MeteredScript.Proofs.Evaluation.Typing
import MeteredScript.Proofs.Termination

/-!
# Read-only views

A container is changed through an owner of it only, and an owner is never made of a view. So if a
script can reach nothing but views of a container, neither its evaluation nor what it leaves behind
changes the container or gets hold of an owner.
-/

namespace MeteredScript

/-! ## Owners -/

/-- A handle by which this container can be changed. -/
def Handle.Owns (c : Nat) (h : Handle) : Prop := h.target = c ∧ h.view = .owner

def Value.Owns (c : Nat) (v : Value) : Prop := ∃ h, v.handle? = some h ∧ h.Owns c

/-- The container is there as it is given, and nothing in a container owns it. -/
structure Store.Guards (c : Nat) (k : Container) (s : Store) : Prop where
  found : s.containers[c]? = some k
  contents : ∀ (n : Nat) (d : Container), s.containers[n]? = some d →
    ∀ v ∈ d.contents.values, ¬ v.Owns c

/-- Nothing owns the container: no value in containers, in the variables on the chain of a frame or
that data of the host can hand out there, and no handle by which the host keeps the variables of a
frame. -/
structure Machine.Guards (c : Nat) (k : Container) (frame : Nat) (m : Machine) : Prop where
  store : m.store.Guards c k
  chain : ∀ f, m.OnChain frame f → ∀ v, m.Offers f v → ¬ v.Owns c
  hosts : ∀ f, m.OnChain frame f → ∀ h : Handle, m.kind? f = some (.hosted (.map h)) → ¬ h.Owns c

/-- The container stays as it is, and no owner of it comes to a container, a variable or data of the
host that held none before. -/
structure Machine.KeepsGuards (c : Nat) (k : Container) (m m' : Machine) : Prop where
  store : m'.store.Guards c k
  locals : ∀ (i : Nat) (x : Variable), m'.locals[i]? = some x → x.value.Owns c →
    ∃ y : Variable, m.locals[i]? = some y ∧ y.value.Owns c
  data : ∀ (i : Nat) (v : Value), (m'.data i).Stocks v → v.Owns c →
    ∃ w, (m.data i).Stocks w ∧ w.Owns c
  size : m'.frames.size = m.frames.size
  kind : ∀ f, m'.kind? f = m.kind? f

/-- A native function that is given no owner of the container, and finds none in containers, leaves
it as it is, answers with no owner and puts none anywhere. It is given no frame. -/
def Native.Respects (c : Nat) (k : Container) (f : Native) : Prop :=
  ∀ (args : List Value) (m : Machine), (∀ v ∈ args, ¬ v.Owns c) → m.store.Guards c k →
    m.KeepsGuards c k ((f args).run m).2 ∧ ∀ v, ((f args).run m).1 = .ok v → ¬ v.Owns c

/-! ## The setting of views -/

/-- All handles but owners of the container may be held, in the frames on a chain and in new ones,
and the container stays as it is. -/
def Setting.guarding (c : Nat) (k : Container) (m : Machine) (frame : Nat) : Setting where
  handle h := ¬ h.Owns c
  native _ := True
  view _ _ _ := by
    rintro ⟨-, hview⟩
    cases hview
  frame f := m.OnChain frame f ∨ m.frames.size ≤ f
  effect _ _ := True
  law m := m.store.containers[c]? = some k

variable {c : Nat} {k : Container} {m₀ m : Machine} {frame₀ frame : Nat}

theorem guarding_admits {v : Value} :
    (Setting.guarding c k m₀ frame₀).admits v ↔ ¬ v.Owns c := by
  cases v with
  | list h | map h | set h =>
    constructor
    · rintro hh ⟨h', he, ho⟩
      rw [← Option.some.inj he] at ho
      exact hh ho
    · intro hh ho
      exact hh ⟨h, rfl, ho⟩
  | null | bool | int | float | str | native =>
    apply iff_of_true trivial
    rintro ⟨h, he, -⟩
    cases he

namespace Store

variable {R : Realm} {s t : Store}

/-- A step that is taken with no owner of a container leaves the container as it is. -/
theorem Step.containers_eq (h : Step R s t) (hc : ¬ R.handle ⟨c, .owner⟩)
    (hfound : s.containers[c]? = some k) : t.containers[c]? = some k := by
  cases h with
  | commit h contents changes held owner =>
    have hne : h.target ≠ c := by
      rintro rfl
      exact hc (owner ▸ held)
    rw [getElem?_commit_of_ne hne, hfound]
  | allocate account contents _ =>
    have hlt := (Array.getElem?_eq_some_iff.mp hfound).1
    simp only [Store.allocate, Array.getElem?_push, Nat.ne_of_lt hlt, if_false, hfound]
  | readOnly h _ => rw [readOnly_containers, hfound]

theorem Steps.containers_eq (h : Steps R s t) (hc : ¬ R.handle ⟨c, .owner⟩)
    (hfound : s.containers[c]? = some k) : t.containers[c]? = some k := by
  induction h with
  | refl => exact hfound
  | tail _ hstep ih => exact hstep.containers_eq hc ih

end Store

instance : (Setting.guarding c k m₀ frame₀).Lawful where
  step hstep hm := by
    cases hstep with
    | store s steps => exact steps.containers_eq (fun h => h ⟨rfl, rfl⟩) hm.law
    | signals m' _ same =>
      exact (congrArg (fun s : Store => s.containers[c]?) same.store).trans hm.law
    | native m' _ held => exact held.law
    | newVariable | write | put | bind | bindSlot | enter | tick => exact hm.law

/-! ## What is held and what is guarded -/

theorem Store.Guards.held {s : Store} (h : s.Guards c k) :
    s.Held (Setting.guarding c k m₀ frame₀).toRealm := by
  have hlt := (Array.getElem?_eq_some_iff.mp h.found).1
  constructor
  case fresh =>
    rintro n hn ⟨rfl, -⟩
    exact Nat.lt_irrefl n (Nat.lt_of_lt_of_le hlt hn)
  case contents =>
    intro n d hd v hv
    exact guarding_admits.mpr (h.contents n d hd v hv)

theorem Machine.Guards.held (h : m.Guards c k frame) : m.Held (.guarding c k m frame) :=
  .of_chain rfl h.store.held (fun f hf v hv => guarding_admits.mpr (h.chain f hf v hv)) h.hosts
    h.store.found

section Held

variable (h : m.Held (.guarding c k m₀ frame₀))

include h

theorem Machine.Held.storeGuards : m.store.Guards c k :=
  ⟨h.law, fun n d hd v hv => guarding_admits.mp (h.store.contents n d hd v hv)⟩

theorem Machine.Held.guards (hf : (Setting.guarding c k m₀ frame₀).frame frame) :
    m.Guards c k frame := by
  refine ⟨h.storeGuards, fun f hc v hv => ?_, fun f hc target hk => ?_⟩
  · exact guarding_admits.mp (h.offers (h.onChain hf hc) hv)
  · exact (h.holds f _ (h.onChain hf hc) hk).map target rfl

end Held

theorem Native.Respects.keeps {f : Native} (hf : f.Respects c k) {args : List Value}
    (ha : ∀ v ∈ args, (Setting.guarding c k m₀ frame₀).admits v) :
    Act.Keeps (.guarding c k m₀ frame₀) (f args) (Setting.guarding c k m₀ frame₀).admits := by
  intro m hm
  obtain ⟨hkeeps, hanswer⟩ := hf args m (fun v hv => guarding_admits.mp (ha v hv)) hm.storeGuards
  have held : ((f args).run m).2.Held (.guarding c k m₀ frame₀) := by
    refine hm.of_kept hkeeps.store.found hkeeps.store.held hkeeps.size hkeeps.kind
      (fun i hold x hx => ?_) fun i hold v hv => ?_
    · refine guarding_admits.mpr fun ho => ?_
      obtain ⟨y, hy, hyo⟩ := hkeeps.locals i x hx ho
      exact guarding_admits.mp (hold y hy) hyo
    · refine guarding_admits.mpr fun ho => ?_
      obtain ⟨w, hw, hwo⟩ := hkeeps.data i v hv ho
      exact guarding_admits.mp (hold w hw) hwo
  exact ⟨rfl, .single (.native _ trivial held), fun v hv => guarding_admits.mpr (hanswer v hv),
    fun _ _ => trivial⟩

/-! ## Evaluation -/

namespace Program

variable {p : Program} {e : Environment} {this : Value}

theorem suits_guarding (p : Program)
    (hn : ∀ n ∈ e.configuration.natives, ∀ f ∈ n.methods, f.2.Respects c k)
    (hthis : ¬ this.Owns c) (m : Machine) (frame : Nat) :
    (p.job e this).Suits (.guarding c k m frame) e.configuration := by
  refine ⟨guarding_admits.mpr hthis, fun _ => rfl, fun name v hv => guarding_admits.mpr ?_,
    fun t method args _ _ ha => ?_⟩
  · rintro ⟨h, hh, -⟩
    have htype := Environment.resolveType_type hv
    cases v with
    | native => cases hh
    | _ => cases htype
  · exact Job.callNative_keeps (fun n hreg f hf => (hn n hreg f hf).keeps ha) t method

/-- If nothing that a script can reach owns a container, an evaluation, whether it succeeds or
fails, leaves the container as it is, its order and its memory included; and nothing owns it
afterwards, the result neither. Native functions have to respect the container, and an accelerator
of the host must not answer with an owner of it. -/
theorem evaluate_guards {b : Builder} {options : BuildOptions} (hp : b.finish options = .ok p)
    (hn : ∀ n ∈ e.configuration.natives, ∀ f ∈ n.methods, f.2.Respects c k)
    (ha : ∀ ending, p.accelerator = .recorder (some ending) →
      ∀ v, ending = .ok v ∨ ending = .error (.returned v) → ¬ v.Owns c)
    (hthis : ¬ this.Owns c) (hm : m.Guards c k frame) (e₀ : Environment) (fuel₀ fuel : Nat) :
    (((p.select e₀ fuel₀).evaluate e fuel this frame).run m).2.Guards c k frame ∧
      ∀ v, (((p.select e₀ fuel₀).evaluate e fuel this frame).run m).1 = .ok v → ¬ v.Owns c := by
  have hreplays : (p.select e₀ fuel₀).ReplaysHeld (Setting.guarding c k m frame).toRealm :=
    select_replaysHeld (finish_ok hp).2.2.2.1
      (fun ending hacc v hv => guarding_admits.mpr (ha ending hacc v hv)) e₀ fuel₀
  have hframe : (Setting.guarding c k m frame).frame frame := .inl (.here frame)
  obtain ⟨-, hsteps, hresult, -⟩ := evaluateWatched_tracks (fun _ _ _ _ _ _ => trivial)
    (suits_guarding (p.select e₀ fuel₀) hn hthis m frame) hreplays trivial (throw .broke) fuel
    hframe m hm.held
  exact ⟨(hsteps.held hm.held).guards hframe, fun v hv => guarding_admits.mp (hresult v hv)⟩

end Program

/-! ## A call that is refused -/

theorem Native.first_respects (c : Nat) (k : Container) : Native.first.Respects c k := by
  intro args m ha hm
  constructor
  · constructor
    case store => exact hm
    case locals => exact fun i x hx ho => ⟨x, hx, ho⟩
    case data => exact fun i v hv ho => ⟨v, hv, ho⟩
    case size => rfl
    case kind => exact fun _ => rfl
  · intro v hv
    cases args with
    | nil =>
      obtain rfl : Value.null = v := Except.ok.inj hv
      rintro ⟨h, hh, -⟩
      cases hh
    | cons a rest =>
      obtain rfl : a = v := Except.ok.inj hv
      exact ha a List.mem_cons_self

namespace Program

def viewNames : Interner :=
  Interner.internAll ["xs", "push", "net", "Same", "as"] (.bare Interner.spread)

def viewName (text : String) : Name := (viewNames.get? text).getD .empty

/-- An environment with a native function that hands back what it is given. -/
def viewEnvironment : Environment :=
  let path : ClassPath := ⟨[viewName "net", viewName "Same"]⟩
  { names := viewNames
    sandbox := { (default : Sandbox) with allowedClasses := [path] }
    configuration :=
      { sandbox := 0
        imports := [(viewName "Same", path)]
        natives := [⟨⟨path, "net.Same"⟩, [(viewName "as", Native.first)]⟩]
        strongTyping := false } }

/-- Something is pushed to what comes back. -/
def viewBuilder : Builder :=
  ((do
    let type ← Builder.node (.typeRef (viewName "Same"))
    let xs ← Builder.node (.var (viewName "xs"))
    let same ← Builder.node (.call type (viewName "as") (← Builder.range [xs]))
    let two ← Builder.node (.literal (.int 2) none)
    let pushed ← Builder.node (.call same (viewName "push") (← Builder.range [two]))
    Builder.pushStatement pushed : BuildM Unit).run .empty).2

/-- A list of which the script has a view, and an owner in a frame off its chain. -/
def viewMachine : Machine :=
  { Machine.bare with
    store := ((Lists.create 0 [.int 1]).run ⟨#[.opened .itemised true], #[]⟩).2
    locals := #[⟨.list ⟨0, .owner⟩, none⟩, ⟨.list ⟨0, .readOnly 2⟩, none⟩]
    frames := #[.new (.named [(viewName "xs", 1)] none), .new (.named [(viewName "xs", 0)] none)] }

def viewedList : Container := ⟨1, 0, 9, .items [.int 1]⟩

theorem viewMachine_guards : viewMachine.Guards 0 viewedList 0 := by
  have hstore : viewMachine.store.containers = #[viewedList] := by decide +kernel
  have hkind : viewMachine.kind? 0 = some (FrameKind.named [(viewName "xs", 1)] none) := rfl
  have hchain : ∀ f, viewMachine.OnChain 0 f → f = 0 := by
    intro f hf
    cases hf with
    | here => rfl
    | down found next _ =>
      obtain rfl := Option.some.inj (hkind.symm.trans found)
      cases next
  have hguards : viewMachine.store.Guards 0 viewedList := by
    constructor
    case found =>
      rw [hstore]
      rfl
    case contents =>
      intro n d hd v hv
      rw [hstore] at hd
      obtain rfl := List.mem_singleton.mp (Array.mem_toList_iff.mpr (Array.mem_of_getElem? hd))
      obtain rfl := List.mem_singleton.mp hv
      rintro ⟨h, hh, -⟩
      cases hh
  constructor
  case store => exact hguards
  case chain =>
    intro f hf v hv
    obtain rfl := hchain f hf
    cases hv with
    | own found bound hx =>
      obtain rfl := Option.some.inj (hkind.symm.trans found)
      obtain rfl := List.mem_singleton.mp bound
      have hview : viewMachine.locals[1]? = some ⟨.list ⟨0, .readOnly 2⟩, none⟩ := rfl
      obtain rfl := Option.some.inj (hview.symm.trans hx)
      rintro ⟨h, hh, -, hview⟩
      rw [← Option.some.inj hh] at hview
      cases hview
    | hosted found _ => cases hkind.symm.trans found
  case hosts =>
    intro f hf h hk
    obtain rfl := hchain f hf
    cases hkind.symm.trans hk

theorem evaluate_guards_view :
    ∃ p : Program, viewBuilder.finish plainOptions = .ok p ∧ viewMachine.Guards 0 viewedList 0 ∧
      (((p.select viewEnvironment 4).evaluate viewEnvironment 4 .null 0).run viewMachine).1 =
        .error (.fault (.unsupported "push")) ∧
      (((p.select viewEnvironment 4).evaluate viewEnvironment 4 .null 0).run
        viewMachine).2.store.containers[0]? = some viewedList := by
  have hp : viewBuilder.finish plainOptions = .ok _ := rfl
  have hnatives : ∀ n ∈ viewEnvironment.configuration.natives, ∀ f ∈ n.methods,
      f.2.Respects 0 viewedList := by
    intro n hn f hf
    obtain rfl := List.mem_singleton.mp hn
    obtain rfl := List.mem_singleton.mp hf
    exact Native.first_respects 0 viewedList
  have hthis : ¬ Value.null.Owns 0 := by
    rintro ⟨h, hh, -⟩
    cases hh
  obtain ⟨hguards, -⟩ :=
    evaluate_guards hp hnatives (by simp [plainOptions]) hthis viewMachine_guards viewEnvironment 4 4
  exact ⟨_, hp, viewMachine_guards, by decide +kernel, hguards.store.found⟩

end Program

end MeteredScript

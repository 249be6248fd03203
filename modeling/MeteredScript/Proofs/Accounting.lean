import MeteredScript.Proofs.Evaluation.Programs
import MeteredScript.Proofs.Store.Balance
import MeteredScript.Proofs.Store.Operation

/-!
# What containers are charged

However operations on containers and evaluations of programs follow each other, each container has
the memory that its account was asked for, and a metered account shows the memory of all of them.
-/

namespace MeteredScript

/-- Accounts as they are opened, and no containers yet. -/
structure Store.Fresh (s : Store) : Prop where
  accounts : ∀ a ∈ s.accounts, ∃ tariff metered, a = .opened tariff metered
  containers : s.containers = #[]

/-- Each container has the memory of its reports, and each metered account that of its containers. -/
structure Store.Accounted (s : Store) : Prop where
  memory : ∀ (n : Nat) (c : Container) (a : Account), s.containers[n]? = some c →
    s.accounts[c.account]? = some a → c.memory = a.sumOf .added c.id - a.sumOf .removed c.id
  usage : ∀ (i : Nat) (a : Account), s.accounts[i]? = some a → a.metered = true →
    s.usage? i = some (s.memories i)

/-- A run of a host: operations on containers and evaluations of programs, in any order. Native
functions do nothing to containers either but what such a run does. -/
inductive Runs : Machine → Machine → Prop
  | refl (m : Machine) : Runs m m
  | trans {m m' m'' : Machine} (first : Runs m m') (next : Runs m' m'') : Runs m m''
  | operate {α : Type} {x : StoreM α} (operation : Operation x) (m : Machine) :
      Runs m ((Act.onStore x).run m).2
  | evaluate (p : Program) (e : Environment) (fuel : Nat) (this : Value) (frame : Nat) (m : Machine)
      (natives : ∀ n ∈ e.configuration.natives, ∀ f ∈ n.methods,
        ∀ (args : List Value) (m : Machine), Runs m ((f.2 args).run m).2) :
      Runs m ((p.evaluate e fuel this frame).run m).2
  | host {m m' : Machine} (store : m'.store = m.store) : Runs m m'

/-! ## Balance -/

theorem Store.Fresh.balanced {s : Store} (h : s.Fresh) : s.Balanced := by
  have hnone : ∀ (n : Nat) (c : Container), s.containers[n]? ≠ some c := by
    intro n c hc
    rw [h.containers] at hc
    simp at hc
  constructor
  case memory =>
    intro n c a hc
    exact absurd hc (hnone n c)
  case total =>
    intro i a ha
    obtain ⟨tariff, metered, rfl⟩ := h.accounts a (Array.mem_of_getElem? ha)
    rw [memories, h.containers]
    rfl
  case issued =>
    intro n c a hc
    exact absurd hc (hnone n c)
  case distinct =>
    intro n k c d a hc
    exact absurd hc (hnone n c)
  case reported =>
    intro i a r delta ha hr
    obtain ⟨tariff, metered, rfl⟩ := h.accounts a (Array.mem_of_getElem? ha)
    exact absurd hr (Array.not_mem_empty _)

theorem Store.Balanced.accounted {s : Store} (h : s.Balanced) : s.Accounted := by
  refine ⟨h.memory, ?_⟩
  intro i a ha hm
  rw [usage?, ha, Option.bind_some, Account.usage?, if_pos hm, h.total i a ha]

def Setting.balanced : Setting where
  toRealm := .everything
  frame _ := True
  effect _ _ := True
  law m := m.store.Balanced

theorem Machine.balanced_held {m : Machine} (h : m.store.Balanced) : m.Held .balanced :=
  .of_everything rfl (fun _ => trivial) h

instance : Setting.balanced.Lawful where
  step hstep hm := by
    cases hstep with
    | store s steps => exact steps.balanced hm.law
    | signals m' _ same => exact (congrArg Store.Balanced same.store).mpr hm.law
    | native m' _ held => exact held.law
    | newVariable | write | put | bind | bindSlot | enter | tick => exact hm.law

theorem Program.suits_balanced (p : Program) {e : Environment} (this : Value)
    (h : ∀ n ∈ e.configuration.natives, ∀ f ∈ n.methods, ∀ (args : List Value) (m : Machine),
      m.store.Balanced → ((f.2 args).run m).2.store.Balanced) :
    (p.job e this).Suits .balanced e.configuration := by
  refine Job.suits_of_everything (p.job e this) rfl (fun _ => trivial) fun n hn f hf args m hm => ?_
  exact ⟨trivial, h n hn f hf args m hm⟩

theorem Program.evaluate_balanced (p : Program) {e : Environment}
    (h : ∀ n ∈ e.configuration.natives, ∀ f ∈ n.methods, ∀ (args : List Value) (m : Machine),
      m.store.Balanced → ((f.2 args).run m).2.store.Balanced)
    (raised : Run Value) (fuel : Nat) (this : Value) (frame : Nat) {m : Machine}
    (hm : m.store.Balanced) :
    (p.evaluateWatched e (fun _ _ m => m.store.Accounted) raised fuel this frame).run m =
        (p.evaluate e fuel this frame).run m ∧
      ((p.evaluate e fuel this frame).run m).2.store.Balanced := by
  have hreplay : p.ReplaysHeld Setting.balanced.toRealm := fun _ _ v _ =>
    Realm.everything_admits v
  have hframe : Setting.balanced.frame frame := trivial
  obtain ⟨hsame, hsteps, -, -⟩ := Program.evaluateWatched_tracks
    (fun _ _ _ _ hheld _ => Store.Balanced.accounted hheld.law) (p.suits_balanced this h) hreplay
    trivial raised fuel hframe m (Machine.balanced_held hm)
  exact ⟨hsame, (hsteps.held (Machine.balanced_held hm)).law⟩

theorem Runs.balanced {m m' : Machine} (h : Runs m m') : m.store.Balanced → m'.store.Balanced := by
  induction h with
  | refl => exact id
  | trans _ _ ih ih' => exact fun hm => ih' (ih hm)
  | operate operation m =>
    exact fun hm => (operation.safe m.store m.store.everything_held).1.balanced hm
  | evaluate p e fuel this frame m _ ih =>
    exact fun hm => (p.evaluate_balanced ih (throw .broke) fuel this frame hm).2
  | host store => exact fun hm => (congrArg Store.Balanced store).mpr hm

/-- After any run, and after each node of an evaluation that follows it, containers and accounts
agree on what is charged. -/
theorem runs_accounted {start m : Machine} (hstart : start.store.Fresh) (h : Runs start m) :
    m.store.Accounted ∧
      ∀ (p : Program) (e : Environment), (∀ n ∈ e.configuration.natives, ∀ f ∈ n.methods,
          ∀ (args : List Value) (m : Machine), Runs m ((f.2 args).run m).2) →
        ∀ (raised : Run Value) (fuel : Nat) (this : Value) (frame : Nat),
          (p.evaluateWatched e (fun _ _ m => m.store.Accounted) raised fuel this frame).run m =
            (p.evaluate e fuel this frame).run m := by
  have hm := h.balanced hstart.balanced
  refine ⟨hm.accounted, fun p e hn raised fuel this frame => ?_⟩
  exact (p.evaluate_balanced (fun n hc f hf args m => (hn n hc f hf args m).balanced) raised fuel
    this frame hm).1

/-- A list of two items on a metered account that charges one more than each of their sizes. -/
theorem runs_accounted_pair :
    ∃ start m : Machine, start.store.Fresh ∧ Runs start m ∧ m.store.Accounted ∧
      m.store.usage? 0 = some 12 ∧ m.store.memories 0 = 12 := by
  let start : Machine := { Machine.bare with
    store := ⟨#[.opened .itemised true], #[]⟩ }
  have hstart : start.store.Fresh :=
    ⟨fun a ha => ⟨.itemised, true, by simpa [start] using ha⟩, rfl⟩
  have hrun := Runs.operate (.listCreate 0 [.int 5, .str "ab"]) start
  exact ⟨start, _, hstart, hrun, (runs_accounted hstart hrun).1, by decide +kernel,
    by decide +kernel⟩

end MeteredScript

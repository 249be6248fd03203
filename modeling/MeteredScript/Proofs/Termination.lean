import MeteredScript.Proofs.Evaluation.Endings
import MeteredScript.Proofs.Evaluation.Folding
import MeteredScript.Proofs.Program.Building

/-!
# Programs come to an end

A node that is built needs nodes that are there before it, so only a link can close a circle: one
that lengthens the body of a node by statements that need this very node. Without circles, a program
whose loops do not repeat comes to an end, and one whose loops do comes to an end under a limit on
liveness checks.
-/

namespace MeteredScript

open Relation (TransGen)

namespace Program

variable {links : List Link} {b : Builder} {options : BuildOptions} {p : Program}

/-- What is true of the builder is true of the program. -/
theorem sound_of_finish (h : b.Sound links) (hp : b.finish options = .ok p) :
    p.arena.Closed ∧ (∀ id, p.first = some id → id < p.arena.size) ∧
      (Grounded p.arena.Needs ↔ ∀ l ∈ links, l.Open) := by
  obtain ⟨harena, hfirst, -⟩ := finish_ok hp
  rw [harena, hfirst]
  exact ⟨h.closed, h.first, h.grounded⟩

theorem interpret_ends (h : b.Sound links) (hp : b.finish options = .ok p)
    (hgrounded : Grounded p.arena.Needs) {limit : Option Nat} {e : Environment}
    (hquiet : ∀ l, limit = some l → e.Quiet)
    (hloops : limit = none → ∀ id kind, p.arena.kind? id = some kind → kind.repeats = false)
    (this : Value) (frame : Nat) : Run.Ends limit fun n => p.interpret e n this frame := by
  obtain ⟨hclosed, hfirst, -⟩ := sound_of_finish h hp
  have hjob : (p.job e this).arena.Closed := hclosed
  exact Job.interpret_ends hjob hgrounded hquiet hloops hfirst frame

/-! ## Circles -/

/-- The nodes of a program need each other without circles just if every link of its building was
open, and then it comes to an end unless it has loops that repeat. -/
theorem no_circle_iff_open (h : Builder.Building links b) (hp : b.finish options = .ok p) :
    ((∀ n, ¬ TransGen p.arena.Needs n n) ↔ ∀ l ∈ links, l.Open) ∧
      ((∀ l ∈ links, l.Open) →
        (∀ id kind, p.arena.kind? id = some kind → kind.repeats = false) →
        ∀ (e : Environment) (this : Value) (frame : Nat) (m : Machine), ∃ n, ∀ fuel, n ≤ fuel →
          ((p.interpret e fuel this frame).run m).1 ≠ .error .exhausted ∧
          (p.interpret e fuel this frame).run m = (p.interpret e n this frame).run m) := by
  obtain ⟨hclosed, -, hopen⟩ := sound_of_finish h.sound hp
  refine ⟨hclosed.grounded_iff.symm.trans hopen, fun hlinks hloops e this frame m => ?_⟩
  have hno (l : Nat) : none ≠ some l := Option.some_ne_none l |>.symm
  have hends := interpret_ends h.sound hp (hopen.mpr hlinks) (e := e)
    (fun l hl => absurd hl (hno l)) (fun _ => hloops) this frame
  obtain ⟨n, hn⟩ := hends.ends m fun l hl => absurd hl (hno l)
  refine ⟨n, fun fuel hle => ?_⟩
  have hrun := hends.run_eq hle hn
  exact ⟨by rwa [hrun], hrun⟩

def plainOptions : BuildOptions := ⟨none, none, .interpretOnly, 0, false⟩

/-- What is built with these options of an arena that is not constant and has no type. -/
def plain (first : NodeId) (arena : Arena) : Program where
  arena := arena
  first := some first
  source := none
  egress := .any
  ingress := none
  literalOnly := false
  strongTyping := false
  configuration := 0
  accelerator := .interpretOnly
  strategy := none
  calls := ⟨0, 0, 0⟩

def twoStatements : Arena :=
  ⟨#[⟨.literal (.int 1) none, .int, none, false⟩, ⟨.literal (.int 2) none, .int, none, false⟩], #[]⟩

/-- Two statements are linked and then become the body of a block. -/
def nestedBuilder : Builder :=
  ((do
    let first ← Builder.node (.literal (.int 1) none)
    let second ← Builder.node (.literal (.int 2) none)
    let head ← Builder.sequence [first, second]
    let block ← Builder.node (.block head)
    Builder.pushStatement block : BuildM Unit).run .empty).2

theorem nestedBuilder_building : Builder.Building [⟨twoStatements, 0, 1⟩] nestedBuilder :=
  ((((Builder.Building.empty.plainNode (.literal (.int 1) none) rfl).plainNode
    (.literal (.int 2) none) rfl).sequence [0, 1]).plainNode (.block (some 0)) rfl).pushStatement 2

theorem no_circle_nested :
    ∃ p : Program, nestedBuilder.finish plainOptions = .ok p ∧ p.arena.Needs 2 1 ∧
      (∀ n, ¬ TransGen p.arena.Needs n n) ∧
      ∀ (e : Environment) (m : Machine), ∃ n, ∀ fuel, n ≤ fuel →
        ((p.interpret e fuel .null 0).run m).1 ≠ .error .exhausted := by
  have hopen : ∀ l ∈ [(⟨twoStatements, 0, 1⟩ : Link)], l.Open := by
    intro l hl
    obtain rfl := List.mem_singleton.mp hl
    refine Link.open_of_not_runs fun n => ?_
    rintro ⟨kind, hk, head, hh, -⟩
    have hnone : ∀ kind ∈ twoStatements.nodes.toList.map (·.kind), kind.heads = [] := by decide
    rw [hnone kind (Arena.mem_kinds hk)] at hh
    exact List.not_mem_nil hh
  have hp : nestedBuilder.finish plainOptions = .ok _ := rfl
  obtain ⟨hcircle, hends⟩ := no_circle_iff_open nestedBuilder_building hp
  refine ⟨_, hp, ⟨.block (some 0), rfl, ?_⟩, hcircle.mpr hopen, fun e m => ?_⟩
  · exact .statement (List.mem_singleton_self 0) (by decide)
  have hloops : ∀ kind ∈ nestedBuilder.arena.nodes.toList.map (·.kind), kind.repeats = false := by
    decide
  obtain ⟨n, hn⟩ := hends hopen (fun id kind hk => hloops kind (Arena.mem_kinds hk)) e .null 0 m
  exact ⟨n, fun fuel hle => (hn fuel hle).1⟩

/-- A statement becomes the body of a block, and then this block is linked to it. -/
def circleBuilder : Builder :=
  ((do
    let value ← Builder.node (.literal (.int 1) none)
    let block ← Builder.node (.block (some value))
    let _ ← Builder.sequence [value, block]
    Builder.pushStatement value : BuildM Unit).run .empty).2

def blockOfOne : Arena :=
  ⟨#[⟨.literal (.int 1) none, .int, none, false⟩, ⟨.block (some 0), .any, none, false⟩], #[]⟩

theorem circleBuilder_building : Builder.Building [⟨blockOfOne, 0, 1⟩] circleBuilder :=
  (((Builder.Building.empty.plainNode (.literal (.int 1) none) rfl).plainNode (.block (some 0))
    rfl).sequence [0, 1]).pushStatement 0

def circle : Program := .plain 0
  ⟨#[⟨.literal (.int 1) none, .int, some 1, false⟩, ⟨.block (some 0), .any, none, true⟩], #[]⟩

section Circle

variable (e : Environment) (this : Value) (fuel : Nat)

theorem circle_chain_exhausts
    (h : ∀ frame m, (((circle.job e this).eval fuel 1 frame).run m).1 = .error .exhausted)
    (frame : Nat) (m : Machine) :
    ((circle.interpret e fuel this frame).run m).1 = .error .exhausted := by
  have hchain : circle.interpret e fuel this frame = ((circle.job e this).eval fuel 0 frame >>=
      fun _ => (circle.job e this).eval fuel 1 frame >>= pure) := rfl
  rw [hchain, run_bind]
  cases fuel with
  | zero => rfl
  | succ fuel =>
    have hvalue : ((circle.job e this).eval (fuel + 1) 0 frame).run m = (.ok (.int 1), m) := rfl
    have hblock := h frame m
    rw [hvalue]
    dsimp only
    rw [run_bind]
    rcases hr : ((circle.job e this).eval (fuel + 1) 1 frame).run m with ⟨_ | _, _⟩
    · rwa [hr] at hblock
    · rw [hr] at hblock
      cases hblock

/-- The block runs itself again before it comes to its end. -/
theorem circle_block_exhausts (frame : Nat) (m : Machine) :
    (((circle.job e this).eval fuel 1 frame).run m).1 = .error .exhausted := by
  induction fuel generalizing frame m with
  | zero => rfl
  | succ fuel ih =>
    have hblock : (circle.job e this).eval (fuel + 1) 1 frame =
        (Run.act (Scope.enter frame) >>= fun inner => circle.interpret e fuel this inner) := rfl
    rw [hblock, run_bind]
    exact circle_chain_exhausts e this fuel ih _ _

end Circle

/-- The builder takes the link, the block needs itself, and no fuel is enough for the program. -/
theorem circle_built :
    Builder.Building [⟨blockOfOne, 0, 1⟩] circleBuilder ∧
      circleBuilder.finish plainOptions = .ok circle ∧ TransGen circle.arena.Needs 1 1 ∧
      (∀ id kind, circle.arena.kind? id = some kind → kind.repeats = false) ∧
      ∀ (e : Environment) (fuel : Nat) (this : Value) (frame : Nat) (m : Machine),
        ((circle.interpret e fuel this frame).run m).1 = .error .exhausted := by
  refine ⟨circleBuilder_building, rfl, .single ⟨.block (some 0), rfl, ?_⟩, ?_, ?_⟩
  · exact .statement (List.mem_singleton_self 0) (by decide)
  · have hloops : ∀ kind ∈ circle.arena.nodes.toList.map (·.kind), kind.repeats = false := by decide
    exact fun id kind hk => hloops kind (Arena.mem_kinds hk)
  · intro e fuel this frame m
    exact circle_chain_exhausts e this fuel (circle_block_exhausts e this fuel) frame m

/-! ## Limits -/

def loop : Program := .plain 1
  ⟨#[⟨.literal (.bool true) none, .bool, none, false⟩, ⟨.whileDo 0 none, .any, none, false⟩], #[]⟩

def bareEnvironment : Environment := ⟨.bare Interner.spread, default, default⟩

end Program

end MeteredScript

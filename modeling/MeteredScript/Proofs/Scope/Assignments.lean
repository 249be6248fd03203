import MeteredScript.Proofs.Evaluation.Folding
import MeteredScript.Proofs.Scope.Declarations

/-!
# Assignments and what is read afterwards

The frames of a chain are a store of values under names: what is assigned to a name is what the name
reads then, and nothing else that can be read changes. This holds for each way to assign, and for
frames of every kind, in a host's data for a null as well.
-/

namespace MeteredScript

variable {names : Interner} {m m' : Machine} {f : Nat} {x y : Name} {v : Value}

/-! ## Writes -/

namespace Machine

theorem gives_write (hm : m.WellBound) {i : Nat} (hr : m.resolve? names f x = some (.own i)) :
    m.Gives names f x (.own i) v
      { m with locals := m.locals.modify i fun z => { z with value := v } } := by
  obtain ⟨i', hi', hbinds⟩ : ∃ i', Cell.own i = .own i' ∧ m.Binds (x, i') :=
    (resolve?_cases hr).resolve_right (by simp)
  obtain rfl := Cell.own.inj hi'
  let after : Machine := { m with locals := m.locals.modify i fun z => { z with value := v } }
  have hkind (g : Nat) : after.kind? g = m.kind? g := rfl
  have hlineage : after.lineage f = m.lineage f := lineage_congr (fun g => by rw [hkind]) f
  have hfind (y : Name) (g : Nat) : after.findIn names y g = m.findIn names y g := by
    refine Option.bind_congr fun kind _ => FrameKind.find?_congr fun source _ => ?_
    exact (source.sameAt rfl rfl _).contains
  refine ⟨(resolve?_eq hlineage (hfind x)).trans hr, ?_, fun y hy _ => ?_⟩
  · have hi : i < m.locals.size := hm.there _ hbinds
    rw [Cell.read, Array.getElem?_modify, if_pos rfl, Array.getElem?_eq_getElem hi]
    rfl
  · refine meaning?_eq hlineage (hfind y) fun cell hc => ?_
    rcases resolve?_cases hc with ⟨j, rfl, hj⟩ | ⟨source, rfl, -, -⟩
    · have hne : i ≠ j := fun he => hy (hm.apart _ _ hj hbinds he.symm)
      exact keepsCell_own (by rw [Array.getElem?_modify, if_neg hne])
    · exact keepsCell_hosted (source.sameAt rfl rfl _).get?

theorem gives_written (hn : names.Sound) {source : HostSource} {key : String}
    (hr : m.resolve? names f x = some (.hosted source key)) (h : source.Written key v m m') :
    m.Gives names f x (.hosted source key) v m' := by
  obtain ⟨other, hc, -, hfound⟩ := (resolve?_cases hr).resolve_left (by simp)
  obtain ⟨rfl, rfl⟩ := Cell.hosted.inj hc
  constructor
  case resolves => exact (resolve?_written h hfound rfl).trans hr
  case reads => exact read_written h
  case others => exact fun y hy hknown => others_written hn h hy (hknown _ _ rfl)

/-- An operation, whatever it answers, gives a value to the name, or fails and leaves the machine as
it was. -/
structure Stores {ε α : Type} (names : Interner) (f : Nat) (x : Name) (v : Value) (m : Machine)
    (r : Except ε α × Machine) : Prop where
  gives : ∀ a, r.1 = .ok a → ∃ cell, m.Gives names f x cell v r.2
  fails : ∀ e, r.1 = .error e → r.2 = m

end Machine

theorem Machine.Stores.refused {ε α : Type} (e : ε) :
    m.Stores names f x v ((.error e, m) : Except ε α × Machine) := by
  constructor
  · intro a ha
    cases ha
  · exact fun _ _ => rfl

theorem Machine.Stores.given {ε α : Type} {cell : Cell} (h : m.Gives names f x cell v m') (a : α) :
    m.Stores names f x v ((.ok a, m') : Except ε α × Machine) := by
  constructor
  · exact fun _ _ => ⟨cell, h⟩
  · intro e he
    cases he

theorem Scope.Assigned.stores (hn : names.Sound) (hm : m.WellBound) (hf : f < m.frames.size)
    {r : Except Fault Unit × Machine} (h : Assigned names f x v m r) :
    m.Stores names f x v r := by
  cases h with
  | @write cell _ found wrote =>
    cases wrote with
    | refused _ e => exact .refused e
    | own i => exact .given (Machine.gives_write hm found) ()
    | hosted written => exact .given (Machine.gives_written hn found written) ()
  | @declare r declared =>
    obtain ⟨e | cell, t⟩ := r
    · cases declared
      exact .refused e
    · exact .given (declared.gives hn hm hf) ()

/-- An answer of another kind is of no account. -/
theorem Machine.Stores.map {ε ε' α β : Type} {r : Except ε α × Machine}
    (h : m.Stores names f x v r) (answer : α → β) (fault : ε → ε') :
    m.Stores names f x v ((r.1.map answer).mapError fault, r.2) := by
  obtain ⟨e | a, t⟩ := r
  · obtain rfl : t = m := h.fails e rfl
    exact .refused (fault e)
  · obtain ⟨cell, hgives⟩ := h.gives a rfl
    exact .given hgives (answer a)

/-! ## Programs of one name -/

namespace Program

variable {p : Program} {e : Environment}

/-- The program reads one name and does nothing else. -/
def Reads (p : Program) (x : Name) : Prop := p.single?.bind p.arena.kind? = some (.var x)

theorem setValue_run (hp : p.Reads x) (e : Environment) (f : Nat) (v : Value) (m : Machine) :
    (p.setValue e f v).run m =
      ((((Scope.assign e.names f x v).run m).1.map fun _ => v).mapError id,
        ((Scope.assign e.names f x v).run m).2) := by
  unfold setValue
  rw [hp]
  dsimp only
  rw [run_bind]
  rcases (Scope.assign e.names f x v).run m with ⟨_ | _, _⟩ <;> rfl

theorem interpret_run (hp : p.Reads x) (fuel : Nat) (this : Value) {cell : Cell}
    (hc : m.resolve? e.names f x = some cell) :
    (p.interpret e (fuel + 1) this f).run m = (.ok (cell.read m), m) := by
  obtain ⟨id, hid, hk⟩ := Option.bind_eq_some_iff.mp hp
  obtain ⟨hfirst, hlast⟩ := Option.filter_eq_some_iff.mp hid
  have hchain : p.arena.chain p.first = [id] := by
    have hwalk : p.arena.Walk p.first [id] := by
      rw [hfirst]
      exact .step (Option.isNone_iff_eq_none.mp hlast ▸ .done)
    exact hwalk.chain_eq (Nat.succ_le_of_lt (Nat.zero_lt_of_lt (Arena.kind?_lt hk)))
  have hnode : ((p.job e this).eval (fuel + 1) id f).run m = (.ok (cell.read m), m) := by
    unfold Job.eval
    rw [show (p.job e this).arena.kind? id = some (.var x) from hk]
    unfold Job.evalNode
    dsimp only
    rw [run_bind, Run.run_act, Scope.resolve_run, show (p.job e this).names = e.names from rfl, hc]
    rfl
  unfold interpret Job.interpret Job.evalChain
  rw [show (p.job e this).arena = p.arena from rfl, hchain, List.foldlM_cons, run_bind, hnode]
  rfl

/-- A program of one name is not constant, so it is interpreted unless an accelerator has an answer
for every program. -/
theorem evaluate_run {b : Builder} {options : BuildOptions} (hb : b.finish options = .ok p)
    (hp : p.Reads x) (hplain : ∀ ending, p.accelerator ≠ .recorder (some ending)) (e₀ : Environment)
    (n fuel : Nat) (this : Value) {cell : Cell} (hc : m.resolve? e.names f x = some cell) :
    ((p.select e₀ n).evaluate e (fuel + 1) this f).run m = (.ok (cell.read m), m) := by
  obtain ⟨id, -, hk⟩ := Option.bind_eq_some_iff.mp hp
  obtain ⟨-, -, -, hstrategy, -⟩ := finish_ok hb
  have hselected := strategy_select hstrategy e₀ n
  have hinterpret : (p.select e₀ n).strategy = some .interpret := by
    cases hs : p.accelerate e₀ n with
    | interpret => rw [hselected, hs]
    | replay ending =>
      rcases replay_cases hstrategy (hselected.trans (congrArg some hs)) with ⟨w, hw, -⟩ | hanswer
      · cases isLiteralOnly_of_finish hb (fold?_ok hw).1 hk
      · exact absurd hanswer (hplain ending)
  rw [evaluate_of_interpret hinterpret, interpret_select, deliver_run,
    interpret_run hp fuel this hc]

end Program

/-! ## Assignments -/

/-- A node that assigns stores what its operand came to. -/
theorem Job.evalNode_assign {j : Job} {ev : Job.Evaluator} {w : NodeId} {start : Machine}
    (hv : (ev w f).run start = (.ok v, m)) (fuel : Nat) (x : Name) :
    (j.evalNode ev fuel f (.assign x w)).run start =
      ((((Scope.assign j.names f x v).run m).1.map fun _ => v).mapError Exit.fault,
        ((Scope.assign j.names f x v).run m).2) := by
  unfold evalNode
  dsimp only
  rw [run_bind, hv]
  dsimp only
  rw [run_bind, Run.run_act]
  rcases (Scope.assign j.names f x v).run m with ⟨_ | _, _⟩ <;> rfl

/-- A name resolves exactly if it is said to be resolvable. An assignment, by a node or through a
program of one name, either fails and changes nothing, or makes the name read the value and keeps
the meaning of all others; and a program of that name then comes to the value. -/
theorem assignments_store {e : Environment} (hn : e.names.Sound) (h : m.Framed)
    (hf : f < m.frames.size) (x : Name) (v : Value) :
    (∀ y, (∃ cell, (Scope.resolve e.names f y).run m = (.ok cell, m)) ↔
      m.isResolvable e.names f y = true) ∧
    (∀ (j : Job) (ev : Job.Evaluator) (fuel : Nat) (w : NodeId) (start : Machine),
      j.environment = e → (ev w f).run start = (.ok v, m) →
        m.Stores e.names f x v ((j.evalNode ev fuel f (.assign x w)).run start)) ∧
    ∀ p : Program, p.Reads x → m.Stores e.names f x v ((p.setValue e f v).run m) ∧
      ∀ w m', (p.setValue e f v).run m = (.ok w, m') → w = v ∧
        ∀ q : Program, q.Reads x → ∀ (fuel : Nat) (this : Value),
          (q.interpret e (fuel + 1) this f).run m' = (.ok v, m') ∧
          ∀ (b : Builder) (options : BuildOptions), b.finish options = .ok q →
            (∀ ending, q.accelerator ≠ .recorder (some ending)) → ∀ (e₀ : Environment) (n : Nat),
              ((q.select e₀ n).evaluate e (fuel + 1) this f).run m' = (.ok v, m') := by
  have hm := h.wellBound
  have hstores := (Scope.assign_assigned hm hf e.names x v).stores hn hm hf
  refine ⟨?_, ?_, ?_⟩
  · intro y
    rw [Scope.resolve_run, ← m.isSome_resolve?]
    cases m.resolve? e.names f y with
    | none =>
      apply iff_of_false
      · rintro ⟨cell, hno⟩
        cases congrArg Prod.fst hno
      · simp
    | some cell => exact iff_of_true ⟨cell, rfl⟩ rfl
  · intro j ev fuel w start he hv
    subst he
    rw [Job.evalNode_assign hv]
    exact hstores.map _ _
  intro p hp
  have hset := hstores.map (fun _ => v) id
  rw [← Program.setValue_run hp] at hset
  refine ⟨hset, ?_⟩
  intro w m' hrun
  rw [hrun] at hset
  obtain ⟨cell, hgives⟩ := hset.gives w rfl
  have hw : w = v := by
    rw [Program.setValue_run hp] at hrun
    rcases hassign : (Scope.assign e.names f x v).run m with ⟨_ | _, t⟩ <;> rw [hassign] at hrun
    · cases congrArg Prod.fst hrun
    · exact (Except.ok.inj (congrArg Prod.fst hrun)).symm
  refine ⟨hw, ?_⟩
  intro q hq fuel this
  constructor
  · exact hgives.reads ▸ Program.interpret_run hq fuel this hgives.resolves
  · intro b options hb hplain e₀ n
    exact hgives.reads ▸ Program.evaluate_run hb hq hplain e₀ n fuel this hgives.resolves

/-! ### Null in the data of a host -/

/-- A map of the host that has one name, under a frame of variables that is guarded. -/
def hostedName : Machine :=
  let (_, store) := (Maps.create 0 [(.str "a", .int 1)]).run Machine.bare.store
  let (host, m) := { Machine.bare with store }.pushFrame (.hosted (.map ⟨0, .owner⟩))
  let (inner, m) := m.pushFrame (.named [] (some host))
  (m.pushGuarded inner).2

theorem hostedName_framed : hostedName.Framed :=
  .guarded (.named (.hosted (.start rfl) _ (by decide)) _ fun _ h => Option.some.inj h ▸ by decide)
    1 (by decide)

def twoNamed : Environment := ⟨twoNames, default, default⟩

def nameBuilder : Builder :=
  ((do Builder.pushStatement (← Builder.node (.var nameA)) : BuildM Unit).run .empty).2

/-- A null that is stored is found, and the name is not lost. -/
theorem assignments_store_null :
    ∃ (p : Program) (m' : Machine), nameBuilder.finish Program.plainOptions = .ok p ∧
      p.Reads nameA ∧ hostedName.Framed ∧
      (p.setValue twoNamed 2 .null).run hostedName = (.ok .null, m') ∧
      m'.isResolvable twoNames 2 nameA = true ∧
      (∀ this, ((p.select twoNamed 0).evaluate twoNamed 1 this 2).run m' = (.ok .null, m')) ∧
      (hostedName.resolve? twoNames 2 nameA).map (·.read hostedName) = some (.int 1) ∧
      hostedName.Stores twoNames 2 nameA .null ((p.setValue twoNamed 2 .null).run hostedName) := by
  obtain ⟨-, -, hprogram⟩ := assignments_store (e := twoNamed) twoNames_sound hostedName_framed
    (f := 2) (by decide) nameA .null
  obtain ⟨p, hp, hreads⟩ : ∃ p, nameBuilder.finish Program.plainOptions = .ok p ∧ p.Reads nameA :=
    ⟨_, rfl, rfl⟩
  obtain ⟨hstores, hread⟩ := hprogram p hreads
  obtain ⟨m', hset, hresolvable⟩ : ∃ m', (p.setValue twoNamed 2 .null).run hostedName =
      (.ok .null, m') ∧ m'.isResolvable twoNames 2 nameA = true := by
    cases hp
    exact ⟨_, rfl, by decide +kernel⟩
  obtain ⟨-, hnull⟩ := hread .null m' hset
  have haccelerator (ending : Except Exit Value) : p.accelerator ≠ .recorder (some ending) := by
    cases hp
    exact nofun
  exact ⟨p, m', hp, hreads, hostedName_framed, hset, hresolvable,
    fun this => (hnull p hreads 0 this).2 _ _ hp haccelerator twoNamed 0, by decide +kernel,
    hstores⟩

end MeteredScript

import MeteredScript.Program.Builder
import MeteredScript.Proofs.Evaluation.Constants
import MeteredScript.Proofs.Evaluation.Fuel
import MeteredScript.Proofs.Evaluation.Programs
import MeteredScript.Proofs.Interner

/-!
# Folding

A constant program whose value is a scalar is folded when it is first evaluated: it is interpreted
on a bare machine, and its value is replayed from then on. Whatever a folded program answers, the
same program answers when it is interpreted where it is evaluated, then and ever after, as long as
its constant texts stay what they were: a fold keeps the texts behind the names, and a name that was
made up before its text was interned has another text afterwards.
-/

namespace MeteredScript

def NodeKind.text? : NodeKind → Option Name
  | .literal (.str name) _ => some name
  | _ => none

/-- The texts of all constants are the same in both tables. -/
def Arena.SameTexts (a : Arena) (t u : Interner) : Prop :=
  ∀ node ∈ a.nodes.toList, ∀ name ∈ node.kind.text?, u.lookup name = t.lookup name

theorem Arena.SameTexts.refl (a : Arena) (t : Interner) : a.SameTexts t t := fun _ _ _ _ => rfl

theorem Arena.SameTexts.lookup {a : Arena} {t u : Interner} (h : a.SameTexts t u) {id : NodeId}
    {name : Name} {type : Option ValueType}
    (hk : a.kind? id = some (.literal (.str name) type)) : u.lookup name = t.lookup name := by
  obtain ⟨node, hn, he⟩ := Option.map_eq_some_iff.mp hk
  refine h node (Array.mem_toList_iff.mpr (Array.mem_of_getElem? hn)) name ?_
  rw [he]
  rfl

/-- The texts of all constants have their names in the table, from which names are taken. -/
def Arena.Named (a : Arena) (t : Interner) : Prop :=
  ∀ node ∈ a.nodes.toList, ∀ name ∈ node.kind.text?, t.Knows name

instance (a : Arena) (t : Interner) : Decidable (a.Named t) :=
  inferInstanceAs (Decidable (∀ node ∈ a.nodes.toList, ∀ name ∈ node.kind.text?, t.Knows name))

/-- Texts that are in a table stay behind their names. -/
theorem Arena.Named.sameTexts {a : Arena} {t u : Interner} (h : a.Named t) (hg : t.Grows u) :
    a.SameTexts t u := fun node hnode name hname => hg.lookup (h node hnode name hname)

namespace Program

variable {b : Builder} {options : BuildOptions} {p : Program} {e : Environment} {fuel : Nat}

/-! ## What is built -/

/-- A program that was built has the nodes and the accelerator it was built with, and no strategy
yet. -/
theorem finish_ok (h : b.finish options = .ok p) :
    p.arena = b.arena ∧ p.first = b.first ∧ p.accelerator = options.accelerator ∧
      p.strategy = none ∧
      p.literalOnly = (b.arena.nodes.toList.map (·.kind)).all NodeKind.isLiteralOnly := by
  unfold Builder.finish at h
  dsimp only at h
  split at h
  · cases h
  · exact Except.ok.inj h ▸ ⟨rfl, rfl, rfl, rfl, rfl⟩

theorem isLiteralOnly_of_finish (h : b.finish options = .ok p) (hl : p.literalOnly = true)
    {id : NodeId} {kind : NodeKind} (hk : p.arena.kind? id = some kind) :
    kind.isLiteralOnly = true := by
  obtain ⟨ha, _, _, _, hall⟩ := finish_ok h
  rw [hall, List.all_eq_true] at hl
  rw [ha] at hk
  obtain ⟨node, hn, rfl⟩ := Option.map_eq_some_iff.mp hk
  exact hl _ (List.mem_map_of_mem (Array.mem_toList_iff.mpr (Array.mem_of_getElem? hn)))

/-! ## What is folded -/

/-- The machine on which programs are folded. -/
def foldMachine : Machine := (Machine.bare.pushFrame (.named [] none)).2

theorem fold?_ok {v : Value} (h : p.fold? e fuel = some v) :
    p.literalOnly = true ∧ v.isScalar = true ∧
      ((p.interpret e fuel .null 0).run foldMachine).1 = .ok v := by
  unfold fold? at h
  split at h
  · cases h
  · next hl =>
    dsimp only at h
    split at h
    · next hr =>
      split at h
      · next hs =>
        obtain rfl := Option.some.inj h
        exact ⟨by simp_all, hs, hr⟩
      · cases h
    · cases h

/-- A strategy is chosen once. -/
theorem select_select (p : Program) (e e' : Environment) (fuel fuel' : Nat) :
    (p.select e fuel).select e' fuel' = p.select e fuel := by
  have hs : (p.select e fuel).strategy.isSome = true := by
    unfold select
    split
    · assumption
    · rfl
  exact if_pos hs

theorem interpret_select (p : Program) (e e' : Environment) (fuel fuel' : Nat) (this : Value)
    (frame : Nat) :
    (p.select e' fuel').interpret e fuel this frame = p.interpret e fuel this frame := by
  unfold select
  split <;> rfl

theorem strategy_select (h : p.strategy = none) (e : Environment) (fuel : Nat) :
    (p.select e fuel).strategy = some (p.accelerate e fuel) := by
  rw [select, h]
  rfl

/-- What is replayed has been folded, or is what the accelerator answers for every program. -/
theorem replay_cases (hs : p.strategy = none) {ending : Except Exit Value}
    (h : (p.select e fuel).strategy = some (.replay ending)) :
    (∃ v, p.fold? e fuel = some v ∧ ending = .ok v) ∨ p.accelerator = .recorder (some ending) := by
  rw [strategy_select hs, accelerate] at h
  cases ha : p.accelerator with
  | literalFold =>
    rw [ha] at h
    cases hf : p.fold? e fuel with
    | none => simp [hf] at h
    | some v => exact .inl ⟨v, rfl, by simpa [hf, eq_comm] using h⟩
  | interpretOnly => simp [ha] at h
  | recorder answer =>
    rw [ha] at h
    cases answer with
    | none => simp at h
    | some ending' => exact .inr (by simpa using h)

/-- What is folded is a scalar, so only what an accelerator answers has to be asked about. -/
theorem select_replaysHeld {R : Realm} (hs : p.strategy = none)
    (ha : ∀ ending, p.accelerator = .recorder (some ending) →
      ∀ v, ending = .ok v ∨ ending = .error (.returned v) → R.admits v)
    (e : Environment) (fuel : Nat) : (p.select e fuel).ReplaysHeld R := by
  intro ending hreplay v hv
  rcases replay_cases hs hreplay with ⟨w, hf, rfl⟩ | hacc
  · rcases hv with hv | hv
    · exact Except.ok.inj hv ▸ Realm.admits_of_isScalar (fold?_ok hf).2.1
    · cases hv
  · exact ha ending hacc v hv

theorem evaluate_of_interpret (h : p.strategy = some .interpret) (e : Environment) (fuel : Nat)
    (this : Value) (frame : Nat) :
    p.evaluate e fuel this frame = deliver frame (p.interpret e fuel this frame) := by
  rw [evaluate, execute, h]

/-- Programs that were built from the same nodes are interpreted alike. -/
theorem interpret_of_finish {options' : BuildOptions} {q : Program} (hp : b.finish options = .ok p)
    (hq : b.finish options' = .ok q) (e : Environment) (fuel : Nat) (this : Value) (frame : Nat) :
    q.interpret e fuel this frame = p.interpret e fuel this frame := by
  unfold interpret job
  rw [(finish_ok hp).1, (finish_ok hq).1, (finish_ok hp).2.1, (finish_ok hq).2.1]

/-- What is folded is what interpreting the program yields, wherever that is done. -/
theorem interpret_of_fold? (hp : b.finish options = .ok p) {e₀ e : Environment}
    (ht : b.arena.SameTexts e₀.names e.names) {fuel₀ : Nat} {v : Value}
    (hf : p.fold? e₀ fuel₀ = some v) (fuel : Nat) (this : Value) (frame : Nat) (m : Machine) :
    ((p.interpret e fuel this frame).run m).1 = .ok v ∨
      ((p.interpret e fuel this frame).run m).1 = .error .exhausted ∧ fuel < fuel₀ := by
  obtain ⟨hl, hs, hv⟩ := fold?_ok hf
  have hj : (p.job e₀ .null).Agree (p.job e this) := by
    refine ⟨rfl, fun id kind hk => isLiteralOnly_of_finish hp hl hk, fun id name type hk => ?_⟩
    have hk : b.arena.kind? id = some (.literal (.str name) type) := (finish_ok hp).1 ▸ hk
    exact ht.lookup hk
  have hsame : ((p.interpret e fuel₀ this frame).run m).1 = .ok v := by
    rcases Job.interpret_eq hj fuel₀ p.first 0 frame (m := foldMachine) rfl m with
      ⟨x, hx, _⟩ | ⟨w, hw, hw'⟩
    · cases hv.symm.trans hx
    · obtain rfl := Except.ok.inj (hv.symm.trans hw)
      rwa [Value.shift_of_isScalar hs] at hw'
  rcases Nat.lt_or_ge fuel fuel₀ with hlt | hge
  · rcases Job.interpret_refines (p.job e this) (Nat.le_of_lt hlt) p.first frame m with h | h
    · exact .inr ⟨h, hlt⟩
    · exact .inl ((congrArg Prod.fst h).trans hsame)
  · rcases Job.interpret_refines (p.job e this) hge p.first frame m with h | h
    · cases hsame.symm.trans h
    · exact .inl ((congrArg Prod.fst h).symm.trans hsame)

/-- The same result, and the same machine too unless the result is a scalar. -/
def SameAnswer (x y : Except Exit Value × Machine) : Prop :=
  x.1 = y.1 ∧ (x.2 = y.2 ∨ ∃ v, x.1 = .ok v ∧ v.isScalar = true)

/-- A program that folds constants and one that never does, both built from the same nodes, answer
the same when they are first evaluated and whenever they are evaluated after that, by any context,
`this` and scope, where the constant texts are what they were at first; and an answer that is
replayed is the one that interpretation yields there. The constant texts are what they were when the
program is first evaluated, and ever after if their names were taken from the table by then. Only an
interpretation with less fuel than the fold had may end without an answer. -/
theorem evaluate_folded {q : Program}
    (hp : b.finish { options with accelerator := .literalFold } = .ok p)
    (hq : b.finish { options with accelerator := .interpretOnly } = .ok q) :
    (∀ t u : Interner, t = u ∨ b.arena.Named t ∧ t.Grows u → b.arena.SameTexts t u) ∧
    ∀ e₀ e : Environment, b.arena.SameTexts e₀.names e.names →
      ∀ (fuel₀ fuel : Nat) (this : Value) (frame : Nat) (m : Machine),
      let x := (((p.select e₀ fuel₀).select e fuel).evaluate e fuel this frame).run m
      let y := (((q.select e₀ fuel₀).select e fuel).evaluate e fuel this frame).run m
      (SameAnswer x y ∧
        ∀ ending, (p.select e₀ fuel₀).strategy = some (.replay ending) → y.1 = ending) ∨
      (y.1 = .error .exhausted ∧ fuel < fuel₀) := by
  constructor
  · rintro t u (rfl | ⟨hnamed, hgrows⟩)
    · exact .refl b.arena t
    · exact hnamed.sameTexts hgrows
  intro e₀ e htexts fuel₀ fuel this frame m
  obtain ⟨_, _, hpa, hps, _⟩ := finish_ok hp
  obtain ⟨_, _, hqa, hqs, _⟩ := finish_ok hq
  have hstrategy : (p.select e₀ fuel₀).strategy =
      some (((p.fold? e₀ fuel₀).map fun v => .replay (.ok v)).getD .interpret) := by
    rw [strategy_select hps, accelerate, hpa]
  have hplain : ((q.select e₀ fuel₀).select e fuel).evaluate e fuel this frame =
      deliver frame (p.interpret e fuel this frame) := by
    have hs : (q.select e₀ fuel₀).strategy = some .interpret := by
      rw [strategy_select hqs, accelerate, hqa]
    rw [select_select, evaluate_of_interpret hs, interpret_select, interpret_of_finish hp hq]
  dsimp only
  rw [hplain, select_select, hstrategy]
  cases hf : p.fold? e₀ fuel₀ with
  | none =>
    -- Nothing is folded, and both are interpreted.
    rw [hf] at hstrategy
    rw [evaluate_of_interpret hstrategy, interpret_select]
    left
    constructor
    · exact ⟨rfl, .inl rfl⟩
    · intro ending hreplay
      simp at hreplay
  | some v =>
    rw [hf] at hstrategy
    have hx : ((p.select e₀ fuel₀).evaluate e fuel this frame).run m = (.ok v, m) := by
      rw [evaluate, execute, hstrategy]
      rfl
    rw [hx]
    rcases interpret_of_fold? hp htexts hf fuel this frame m with hv | ⟨hv, hlt⟩
    · have hy : ((deliver frame (p.interpret e fuel this frame)).run m).1 = .ok v :=
        deliver_of_other hv (by simp) (by simp)
      left
      constructor
      · exact ⟨hy.symm, .inr ⟨v, rfl, (fold?_ok hf).2.1⟩⟩
      · intro ending hreplay
        obtain rfl : Except.ok v = ending := by simpa using hreplay
        exact hy
    · have hy : ((deliver frame (p.interpret e fuel this frame)).run m).1 = .error .exhausted :=
        deliver_of_other hv (by simp) (by simp)
      exact .inr ⟨hy, hlt⟩

/-! ## A text joined with a list -/

/-- A table with one text, and the same table when it has grown. -/
def sumEnvironment (later : List String) : Environment :=
  ⟨Interner.internAll later (Interner.intern "sum " (.bare Interner.spread)).2, default, default⟩

def sumBuilder : Builder :=
  ((do
    let name := (Interner.intern "sum " (.bare Interner.spread)).1
    let label ← Builder.node (.literal (.str name) none)
    let two ← Builder.node (.literal (.int 2) none)
    let inner ← Builder.node (.listLit (← Builder.range [two]))
    let outer ← Builder.node (.listLit (← Builder.range [two, inner]))
    let joined ← Builder.node (.binary .add label outer)
    Builder.pushStatement joined : BuildM Unit).run .empty).2

def sumOptions : BuildOptions := ⟨none, none, .literalFold, 0, false⟩

/-- A machine that has a container before the program is evaluated on it. -/
def sumMachine : Machine :=
  ((Act.onStore (Lists.create 0 [.int 9])).run foldMachine).2

/-- What a program comes to that was first evaluated before the table grew. -/
def sumAnswer (p : Program) : Except Exit Value × Machine :=
  (((p.select (sumEnvironment []) 4).select (sumEnvironment ["rate"]) 4).evaluate
    (sumEnvironment ["rate"]) 4 (.int 1) 0).run sumMachine

theorem evaluate_folded_sum :
    ∃ p q : Program, sumBuilder.finish { sumOptions with accelerator := .literalFold } = .ok p ∧
      sumBuilder.finish { sumOptions with accelerator := .interpretOnly } = .ok q ∧
      (sumAnswer p).1 = .ok (.str "sum [2, [2]]") ∧ SameAnswer (sumAnswer p) (sumAnswer q) := by
  refine ⟨_, _, rfl, rfl, ?_, ?_⟩
  · decide +kernel
  · have hp : sumBuilder.finish { sumOptions with accelerator := .literalFold } = .ok _ := rfl
    have hq : sumBuilder.finish { sumOptions with accelerator := .interpretOnly } = .ok _ := rfl
    have hg : (sumEnvironment []).names.Grows (sumEnvironment ["rate"]).names :=
      Interner.grows_internAll ["rate"] _
    have hn : sumBuilder.arena.Named (sumEnvironment []).names := by decide +kernel
    obtain ⟨htexts, hfolded⟩ := evaluate_folded hp hq
    have hsame := htexts _ _ (.inr ⟨hn, hg⟩)
    rcases hfolded (sumEnvironment []) (sumEnvironment ["rate"]) hsame 4 4 (.int 1) 0 sumMachine
      with h | h
    · exact h.1
    · exact absurd h.2 (Nat.lt_irrefl 4)

/-! ## A text that is interned late -/

/-- A constant whose name will be that of "rate", once this text is interned. -/
def lateBuilder : Builder :=
  ((do
    let name := (Interner.intern "rate" (sumEnvironment []).names).1
    let rate ← Builder.node (.literal (.str name) none)
    Builder.pushStatement rate : BuildM Unit).run .empty).2

/-- Folded before the text is interned, the constant stays empty, which interpretation denies. -/
theorem folded_before_text :
    ∃ p q : Program, lateBuilder.finish { sumOptions with accelerator := .literalFold } = .ok p ∧
      lateBuilder.finish { sumOptions with accelerator := .interpretOnly } = .ok q ∧
      (sumEnvironment []).names.Grows (sumEnvironment ["rate"]).names ∧
      (sumAnswer p).1 = .ok (.str "") ∧ (sumAnswer q).1 = .ok (.str "rate") := by
  refine ⟨_, _, rfl, rfl, Interner.grows_internAll ["rate"] _, ?_, ?_⟩
  · decide +kernel
  · decide +kernel

end Program

end MeteredScript

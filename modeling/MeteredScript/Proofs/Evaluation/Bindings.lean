import MeteredScript.Evaluation
import MeteredScript.Proofs.Evaluation.Hosted
import MeteredScript.Proofs.Program.Needs

/-!
# What is bound in which frame

The evaluation of a node binds names in the frame that it is evaluated in, if this frame has
variables of its own, and in frames that are new. The names are those that the node and its operands
declare, for the chains nested in a node have frames of their own.
-/

namespace MeteredScript

open Relation (ReflTransGen)

/-! ## Declarations -/

/-- A name that a node binds, in a slot if the frame has slots. -/
inductive Declaration where
  | name (name : Name)
  | slot (slot : Nat) (name : Name)
deriving DecidableEq, Repr

namespace Declaration

def declared : Declaration → Name
  | name n | slot _ n => n

/-- What a declaration does to a frame with variables of its own. -/
inductive Binds : Declaration → FrameKind → FrameKind → Prop
  | name (n : Name) (i : Nat) (kind : FrameKind) : Binds (name n) kind (kind.bind n i)
  | slot (k : Nat) (n : Name) (i : Nat) (slots : List (Option (Name × Nat))) (next : Option Nat) :
      Binds (slot k n) (.indexed slots next) (.indexed (slots.set k (some (n, i))) next)
  | unslotted (k : Nat) (n : Name) (i : Nat) (bindings : List (Name × Nat)) (next : Option Nat) :
      Binds (slot k n) (.named bindings next) (.named (Entries.put n i bindings) next)

theorem Binds.standsFor {d : Declaration} {kind kind' : FrameKind} (h : d.Binds kind kind') :
    kind'.standsFor = kind.standsFor := by
  cases h with
  | name n i => cases kind <;> rfl
  | slot | unslotted => rfl

theorem Binds.below {d : Declaration} {kind kind' : FrameKind} (h : d.Binds kind kind') :
    kind'.below = kind.below := by
  cases h with
  | name n i => exact kind.below_bind n i
  | slot | unslotted => rfl

end Declaration

/-- One of such declarations is made in a frame. -/
def Rebinding (D : Declaration → Prop) (kind kind' : FrameKind) : Prop :=
  ∃ d, D d ∧ d.Binds kind kind'

namespace NodeKind

/-- What a node of this kind declares itself. An assignment declares its name if there is none. -/
def declaration? : NodeKind → Option Declaration
  | declare name _ _ | assign name _ => some (.name name)
  | declareAt slot name _ _ => some (.slot slot name)
  | _ => none

/-- The operands, those in a range among them, but no statements of nested chains. -/
def Direct (a : Arena) (kind : NodeKind) (m : NodeId) : Prop :=
  m ∈ kind.direct ∨ ∃ r, kind.range? = some r ∧ m ∈ a.operands r

end NodeKind

namespace Arena

def Direct (a : Arena) (n m : NodeId) : Prop := ∃ kind, a.kind? n = some kind ∧ kind.Direct a m

/-- What is declared by a node, by its operands, by theirs, and so on. -/
def Declares (a : Arena) (n : NodeId) (d : Declaration) : Prop :=
  ∃ m kind, ReflTransGen a.Direct n m ∧ a.kind? m = some kind ∧ kind.declaration? = some d

end Arena

/-- What is declared by a node of this kind and by its operands. -/
def NodeKind.Declares (a : Arena) (kind : NodeKind) (d : Declaration) : Prop :=
  kind.declaration? = some d ∨ ∃ m, kind.Direct a m ∧ a.Declares m d

theorem NodeKind.Declares.of_kind? {a : Arena} {id : NodeId} {kind : NodeKind}
    (hk : a.kind? id = some kind) {d : Declaration} (h : kind.Declares a d) : a.Declares id d := by
  rcases h with hown | ⟨m, hm, n, kind', hpath, hn, hd⟩
  · exact ⟨id, kind, .refl, hk, hown⟩
  · exact ⟨n, kind', .head ⟨kind, hk, hm⟩ hpath, hn, hd⟩

/-! ## Machines -/

namespace Machine

variable {D D' : Nat → Declaration → Prop} {m m' m'' : Machine} {f : Nat}

/-- Frames that were there stay, and names are bound in them by such declarations alone. -/
def Rebinds (D : Nat → Declaration → Prop) (m m' : Machine) : Prop :=
  ∀ (f : Nat) (kind : FrameKind), m.kind? f = some kind →
    ∃ kind', m'.kind? f = some kind' ∧ ReflTransGen (Rebinding (D f)) kind kind'

/-- The frame is there, and has variables of its own. -/
def Owns (m : Machine) (f : Nat) : Prop := ∃ kind, m.kind? f = some kind ∧ kind.standsFor = none

theorem kind?_eq_none {f : Nat} (h : m.frames.size ≤ f) : m.kind? f = none := by
  rw [kind?, Array.getElem?_eq_none h]
  rfl

theorem Owns.base (h : m.Owns f) : m.base f = f := by
  obtain ⟨kind, hk, hown⟩ := h
  rw [Machine.base, baseTo_succ, Machine.standsFor, hk, Option.bind_some, hown]

theorem Owns.lt (h : m.Owns f) : f < m.frames.size := by
  obtain ⟨kind, hk, -⟩ := h
  apply Nat.lt_of_not_le
  intro hle
  rw [kind?_eq_none hle] at hk
  cases hk

theorem Owns.pushFrame (h : m.Owns f) (kind : FrameKind) : (m.pushFrame kind).2.Owns f := by
  obtain ⟨old, hk, hown⟩ := h
  refine ⟨old, ?_, hown⟩
  rw [kind?_pushFrame, if_neg, hk]
  rintro rfl
  cases (kind?_eq_none (Nat.le_refl _)).symm.trans hk

namespace Rebinds

theorem of_kept (h : ∀ (f : Nat) (kind : FrameKind), m.kind? f = some kind →
    m'.kind? f = some kind) : m.Rebinds D m' :=
  fun f kind hk => ⟨kind, h f kind hk, .refl⟩

theorem refl (m : Machine) : m.Rebinds D m := of_kept fun _ _ h => h

theorem trans (h : m.Rebinds D m') (k : m'.Rebinds D m'') : m.Rebinds D m'' := by
  intro f kind hk
  obtain ⟨kind', hk', hpath⟩ := h f kind hk
  obtain ⟨kind'', hk'', hpath'⟩ := k f kind' hk'
  exact ⟨kind'', hk'', hpath.trans hpath'⟩

theorem mono (h : m.Rebinds D m') (hD : ∀ f d, D f d → D' f d) : m.Rebinds D' m' := by
  intro f kind hk
  obtain ⟨kind', hk', hpath⟩ := h f kind hk
  have more : ∀ k k', Rebinding (D f) k k' → Rebinding (D' f) k k' :=
    fun _ _ ⟨d, hd, hb⟩ => ⟨d, hD f d hd, hb⟩
  exact ⟨kind', hk', ReflTransGen.mono more _ _ hpath⟩

theorem updateKind {update : FrameKind → FrameKind}
    (h : ∀ kind, m.kind? f = some kind → Rebinding (D f) kind (update kind)) :
    m.Rebinds D (m.updateKind f update) := by
  intro g kind hk
  rw [kind?_updateKind, hk]
  split
  · next heq =>
    subst heq
    exact ⟨update kind, rfl, .single (h kind hk)⟩
  · exact ⟨kind, rfl, .refl⟩

theorem owns (h : m.Rebinds D m') (hf : m.Owns f) : m'.Owns f := by
  obtain ⟨kind, hk, hown⟩ := hf
  obtain ⟨kind', hk', hpath⟩ := h f kind hk
  refine ⟨kind', hk', hown ▸ ?_⟩
  clear hk hk' hown
  induction hpath with
  | refl => rfl
  | tail _ hb ih =>
    obtain ⟨d, -, hb⟩ := hb
    exact hb.standsFor.trans ih

/-- Where nothing is declared, nothing changes. -/
theorem kind? (h : m.Rebinds D m') {kind : FrameKind} (hk : m.kind? f = some kind)
    (hD : ∀ d, ¬ D f d) : m'.kind? f = some kind := by
  obtain ⟨kind', hk', hpath⟩ := h f kind hk
  rcases hpath.cases_head with rfl | ⟨_, ⟨d, hd, -⟩, -⟩
  · exact hk'
  · exact absurd hd (hD d)

end Rebinds

end Machine

/-! ## Operations -/

/-- From every machine in which the frames are there, with variables of their own, the operation
binds names by such declarations alone. -/
def Scoped {ε α : Type} (frames : List Nat) (D : Nat → Declaration → Prop)
    (x : ExceptT ε (StateM Machine) α) : Prop :=
  ∀ m : Machine, (∀ f ∈ frames, m.Owns f) → m.Rebinds D (x.run m).2

namespace Scoped

variable {ε α β : Type} {frames frames' : List Nat} {D D' : Nat → Declaration → Prop}

theorem weaken {x : ExceptT ε (StateM Machine) α} (h : Scoped frames' D' x)
    (hframes : frames' ⊆ frames) (hD : ∀ f d, D' f d → D f d) : Scoped frames D x :=
  fun m hm => (h m fun f hf => hm f (hframes hf)).mono hD

theorem pure (a : α) : Scoped frames D (pure a : ExceptT ε (StateM Machine) α) :=
  fun m _ => .refl m

theorem throw (e : ε) : Scoped frames D (throw e : ExceptT ε (StateM Machine) α) :=
  fun m _ => .refl m

theorem get : Scoped frames D (get : ExceptT ε (StateM Machine) Machine) := fun m _ => .refl m

theorem bind {x : ExceptT ε (StateM Machine) α} {f : α → ExceptT ε (StateM Machine) β}
    (hx : Scoped frames D x) (hf : ∀ a, Scoped frames D (f a)) : Scoped frames D (x >>= f) := by
  intro m hm
  have hfirst := hx m hm
  rw [run_bind]
  rcases hr : x.run m with ⟨_ | a, t⟩
  · rwa [hr] at hfirst
  · rw [hr] at hfirst
    exact hfirst.trans (hf a t fun f hown => hfirst.owns (hm f hown))

theorem foldlM {items : List α} {f : β → α → ExceptT ε (StateM Machine) β}
    (hf : ∀ b, ∀ a ∈ items, Scoped frames D (f b a)) (start : β) :
    Scoped frames D (items.foldlM f start) := by
  induction items generalizing start with
  | nil => exact .pure start
  | cons a rest ih =>
    rw [List.foldlM_cons]
    refine .bind (hf start a List.mem_cons_self) fun b => ?_
    exact ih (fun b a ha => hf b a (List.mem_cons_of_mem _ ha)) b

theorem mapM {items : List α} {f : α → ExceptT ε (StateM Machine) β}
    (hf : ∀ a ∈ items, Scoped frames D (f a)) : Scoped frames D (items.mapM f) := by
  induction items with
  | nil => exact .pure []
  | cons a rest ih =>
    obtain ⟨ha, hr⟩ := List.forall_mem_cons.mp hf
    rw [List.mapM_cons]
    exact .bind ha fun b => .bind (ih hr) fun bs => .pure (b :: bs)

/-! ### Parts of a run -/

theorem act {x : Act α} (hx : Scoped frames D x) : Scoped frames D (Run.act x) := by
  intro m hm
  have hrun := hx m hm
  rw [Run.run_act]
  rcases hr : x.run m with ⟨_ | a, t⟩ <;> rwa [hr] at hrun

theorem pureAct (x : Except Fault α) : Scoped frames D (Run.pureAct x) := by
  cases x with
  | ok a => exact .pure a
  | error f => exact .throw (Exit.fault f)

theorem body {x : Run Value} (hx : Scoped frames D x) : Scoped frames D (Run.body x) := by
  intro m hm
  have hrun := hx m hm
  rw [Run.run_body]
  rcases hr : x.run m with ⟨(_ | _ | _ | _) | a, t⟩ <;> rwa [hr] at hrun

theorem turn {x : Run Bool} (hx : Scoped frames D x) {y : Run Value} (hy : Scoped frames D y) :
    Scoped frames D (do if ← x then y else return .null) := by
  refine .bind hx fun more => ?_
  cases more with
  | true => exact hy
  | false => exact .pure Value.null

theorem repeatWhile {x : Run Bool} (hx : Scoped frames D x) (fuel : Nat) :
    Scoped frames D (Run.repeatWhile x fuel) := by
  induction fuel with
  | zero => exact .throw Exit.exhausted
  | succ fuel ih =>
    rw [Run.repeatWhile_succ]
    exact turn hx ih

theorem forItems {x : α → Run Bool} (hx : ∀ a, Scoped frames D (x a)) (items : List α) :
    Scoped frames D (Run.forItems x items) := by
  induction items with
  | nil => exact .pure Value.null
  | cons a rest ih =>
    rw [Run.forItems_cons]
    exact turn (hx a) ih

/-- In a frame that has been entered anything may be declared, for it was not there before. -/
theorem enter {frame : Nat} {g : Nat → Run β}
    (hg : ∀ inner, Scoped (inner :: frames) (fun f d => f = inner ∨ D f d) (g inner)) :
    Scoped frames D (Run.act (Scope.enter frame) >>= g) := by
  intro m hm
  let entered := (m.pushFrame (.named [] (some frame))).2
  have hrun : (Run.act (Scope.enter frame)).run m = (.ok m.frames.size, entered) := rfl
  rw [run_bind, hrun]
  have hown : ∀ f ∈ m.frames.size :: frames, entered.Owns f := by
    refine List.forall_mem_cons.mpr ⟨⟨.named [] (some frame), ?_, rfl⟩, fun f hf => ?_⟩
    · rw [Machine.kind?_pushFrame, if_pos rfl]
    · exact (hm f hf).pushFrame _
  intro f kind hk
  have hold : f ≠ m.frames.size := by
    rintro rfl
    cases (Machine.kind?_eq_none (Nat.le_refl _)).symm.trans hk
  have hk' : entered.kind? f = some kind := by rwa [Machine.kind?_pushFrame, if_neg hold]
  obtain ⟨kind', hafter, hpath⟩ := hg m.frames.size entered hown f kind hk'
  have less : ∀ k k', Rebinding (fun d => f = m.frames.size ∨ D f d) k k' →
      Rebinding (D f) k k' := fun _ _ ⟨d, hd, hb⟩ => ⟨d, hd.resolve_left hold, hb⟩
  exact ⟨kind', hafter, ReflTransGen.mono less _ _ hpath⟩

/-! ### Operations that bind nothing -/

theorem of_kept {x : ExceptT ε (StateM Machine) α}
    (h : ∀ (m : Machine) (f : Nat) (kind : FrameKind), m.kind? f = some kind →
      (x.run m).2.kind? f = some kind) : Scoped frames D x :=
  fun m _ => .of_kept (h m)

theorem onStore (x : StoreM α) : Scoped frames D (Act.onStore x) := .of_kept fun _ _ _ h => h

theorem checkLiveness : Scoped frames D Act.checkLiveness := .of_kept fun _ _ _ h => h

theorem write (v : Value) (cell : Cell) : Scoped frames D (cell.write v) := by
  have modify (update : Machine → Machine) (h : ∀ m, (update m).frames = m.frames) :
      Scoped frames D (modify update : Act PUnit) :=
    .of_kept fun m f kind hk => (congrArg (·[f]?.map Frame.kind) (h m)).trans hk
  cases cell with
  | own i =>
    refine .bind .get fun m => ?_
    exact .bind (.of_kept fun _ _ _ h => h) fun _ => modify _ fun _ => rfl
  | hosted source key =>
    cases source with
    | map h => exact .onStore _
    | table i => exact .of_kept fun _ _ _ hk => hk

theorem resolve (names : Interner) (f : Nat) (name : Name) :
    Scoped frames D (Scope.resolve names f name) := by
  intro m _
  rw [Scope.resolve_run]
  exact .refl m

/-! ### Declarations -/

/-- Whatever the declared type is, a new variable is bound, or nothing is done. -/
theorem bindNew {m : Machine} {f : Nat} {update : Nat → FrameKind → FrameKind} (v : Value)
    (type : Option ValueType)
    (h : ∀ kind i, m.kind? f = some kind → Rebinding (D f) kind (update i kind)) :
    m.Rebinds D ((do
      let i ← Scope.newVariable v type
      Scope.updateKind f (update i)
      return Cell.own i : Act Cell).run m).2 := by
  unfold Scope.newVariable
  cases checkType type v with
  | error fault => exact .refl m
  | ok =>
    let pushed : Machine := { m with locals := m.locals.push ⟨v, type⟩ }
    exact Machine.Rebinds.updateKind (m := pushed) fun kind hk => h kind m.locals.size hk

theorem declare_own {m : Machine} {f : Nat} (hf : m.Owns f) (names : Interner) {name : Name}
    (v : Value) (type : Option ValueType)
    (h : ∀ kind i, m.kind? f = some kind → Rebinding (D f) kind (kind.bind name i)) :
    m.Rebinds D ((Scope.declare names f name v type).run m).2 := by
  obtain ⟨kind, hk, hown⟩ := hf
  rw [Scope.declare_run, Machine.Owns.base ⟨kind, hk, hown⟩, hk]
  cases kind with
  | named | indexed => exact bindNew v type h
  | guarded | hosted => cases hown

theorem declare {f : Nat} (hf : f ∈ frames) (names : Interner) {name : Name} (v : Value)
    (type : Option ValueType) (hD : D f (.name name)) :
    Scoped frames D (Scope.declare names f name v type) :=
  fun _ hm => declare_own (hm f hf) names v type fun kind i _ =>
    ⟨.name name, hD, .name name i kind⟩

theorem declareAt {f : Nat} (hf : f ∈ frames) (names : Interner) {slot : Nat} {name : Name}
    (v : Value) (type : Option ValueType) (hD : D f (.slot slot name)) :
    Scoped frames D (Scope.declareAt names f slot name v type) := by
  intro m hm
  obtain ⟨kind, hk, hown⟩ := hm f hf
  rw [Scope.declareAt_run, (hm f hf).base, hk]
  cases kind with
  | named bindings next =>
    refine declare_own (hm f hf) names v type fun kind i hkind => ?_
    obtain rfl := Option.some.inj (hk.symm.trans hkind)
    exact ⟨.slot slot name, hD, .unslotted slot name i bindings next⟩
  | indexed slots next =>
    dsimp only
    split
    · exact .refl m
    · refine bindNew v type fun kind i hkind => ?_
      obtain rfl := Option.some.inj (hk.symm.trans hkind)
      exact ⟨.slot slot name, hD, .slot slot name i slots next⟩
  | guarded | hosted => cases hown

theorem assign {f : Nat} (hf : f ∈ frames) (names : Interner) {name : Name} (v : Value)
    (hD : D f (.name name)) : Scoped frames D (Scope.assign names f name v) := by
  refine .bind .get fun m => ?_
  split
  · exact .bind (.resolve names f name) fun cell => .write v cell
  · exact .bind (.declare hf names v none hD) fun _ => .pure _

end Scoped

/-! ## Nodes -/

/-- Native functions, which are given no frame, leave what is bound in frames. -/
def Environment.KeepsBindings (e : Environment) : Prop :=
  ∀ n ∈ e.configuration.natives, ∀ f ∈ n.methods, ∀ (args : List Value) (m : Machine) (g : Nat)
    (kind : FrameKind), m.kind? g = some kind → ((f.2 args).run m).2.kind? g = some kind

/-- Such declarations, in one frame. -/
def inFrame (frame : Nat) (B : Declaration → Prop) (f : Nat) (d : Declaration) : Prop :=
  f = frame ∧ B d

namespace Job

variable {j : Job} {ev : Evaluator} {frames : List Nat} {D : Nat → Declaration → Prop}

theorem call_scoped (hn : j.environment.KeepsBindings) (receiver : Value) (method : Name)
    (args : List Value) : Scoped frames D (j.environment.call receiver method args) := by
  refine Environment.call_cases (P := Scoped frames D) (fun _ => .throw _) (fun t => ?_) ?_
  · exact Environment.callNative_cases (P := Scoped frames D) (.throw _)
      fun n hclass f hf => .of_kept (hn n hclass f hf args)
  · exact .bind .get fun m => .onStore _

theorem evalPairs_scoped {frame : Nat} {ids : List NodeId}
    (hev : ∀ id ∈ ids, Scoped frames D (ev id frame)) :
    Scoped frames D (evalPairs ev frame ids) := by
  induction ids using evalPairs.induct with
  | case1 => exact .pure _
  | case2 k => exact .bind (hev k List.mem_cons_self) fun _ => .bind (.pureAct _) fun _ => .pure _
  | case3 k v rest ih =>
    obtain ⟨hk, hrest⟩ := List.forall_mem_cons.mp hev
    obtain ⟨hv, hrest⟩ := List.forall_mem_cons.mp hrest
    refine .bind hk fun _ => .bind hv fun _ => .bind (.pureAct _) fun _ => ?_
    exact .bind (ih hrest) fun _ => .pure _

section Node

variable (hev : ∀ id frame, Scoped [frame] (inFrame frame (j.arena.Declares id)) (ev id frame))

include hev

/-- Statements of a chain declare something in the frame of the chain alone. -/
theorem evalChain_scoped (head : Option NodeId) (inner : Nat) :
    Scoped [inner] (fun f _ => f = inner) (j.evalChain ev head inner) := by
  refine .foldlM (fun _ id _ => ?_) Value.null
  exact (hev id inner).weaken (List.Subset.refl _) fun _ _ hd => hd.1

/-- A nested chain has a frame of its own. -/
theorem evalBlock_scoped (head : Option NodeId) (frame : Nat) :
    Scoped [] (fun _ _ => False) (j.evalBlock ev head frame) := by
  cases head with
  | none => exact .pure Value.null
  | some id =>
    refine .enter fun inner => ?_
    exact (evalChain_scoped hev _ inner).weaken (List.Subset.refl _) fun _ _ hf => .inl hf

/-- Operands are evaluated in the frame of the node, and nested chains in new frames. -/
theorem evalNode_scoped (hn : j.environment.KeepsBindings) (fuel frame : Nat) (kind : NodeKind) :
    Scoped [frame] (inFrame frame (kind.Declares j.arena)) (j.evalNode ev fuel frame kind) := by
  have hhere : frame ∈ [frame] := List.mem_singleton_self frame
  have hown {d : Declaration} (hd : kind.declaration? = some d) :
      inFrame frame (kind.Declares j.arena) frame d := ⟨rfl, .inl hd⟩
  have hop {id : NodeId} (hid : kind.Direct j.arena id) :
      Scoped [frame] (inFrame frame (kind.Declares j.arena)) (ev id frame) :=
    (hev id frame).weaken (List.Subset.refl _) fun _ d ⟨hf, hd⟩ => ⟨hf, .inr ⟨id, hid, hd⟩⟩
  have htest {test : NodeId} (hid : kind.Direct j.arena test) :
      Scoped [frame] (inFrame frame (kind.Declares j.arena)) (evalTest ev test frame) :=
    .bind (hop hid) fun _ => .pureAct _
  have hall {r : NodeRange} (hr : kind.range? = some r) :
      Scoped [frame] (inFrame frame (kind.Declares j.arena))
        (evalAll ev (j.arena.operands r) frame) :=
    .mapM fun id hid => hop (.inr ⟨r, hr, hid⟩)
  have hblock (head : Option NodeId) :
      Scoped [frame] (inFrame frame (kind.Declares j.arena)) (j.evalBlock ev head frame) :=
    (evalBlock_scoped hev head frame).weaken (List.nil_subset _) fun _ _ => False.elim
  -- While a loop goes on, both its inner frame and the frame of the node are there.
  have hbody (inner : Nat) (head : Option NodeId) :
      Scoped [inner, frame] (fun f d => f = inner ∨ inFrame frame (kind.Declares j.arena) f d)
        (j.evalChain ev head inner) :=
    (evalChain_scoped hev head inner).weaken (List.cons_subset_cons _ (List.nil_subset _))
      fun _ _ hf => .inl hf
  have hbeside (inner : Nat) {test : NodeId} (hid : kind.Direct j.arena test) :
      Scoped [inner, frame] (fun f d => f = inner ∨ inFrame frame (kind.Declares j.arena) f d)
        (evalTest ev test frame) :=
    (htest hid).weaken (List.subset_cons_self _ _) fun _ _ hd => .inr hd
  cases kind with
  | literal value declared =>
    cases declared with
    | none => exact .pure _
    | some t =>
      unfold evalNode
      dsimp only
      split
      · exact .pure _
      · exact .throw _
  | this => exact .pure _
  | var name => exact .bind (.act (.resolve _ _ name)) fun _ => .bind .get fun _ => .pure _
  | declare name type init =>
    refine .bind (hop (.inl List.mem_cons_self)) fun v => ?_
    exact .bind (.act (.declare hhere _ v type (hown rfl))) fun _ => .pure v
  | declareAt slot name type init =>
    refine .bind (hop (.inl List.mem_cons_self)) fun v => ?_
    exact .bind (.act (.declareAt hhere _ v type (hown rfl))) fun _ => .pure v
  | assign name value =>
    refine .bind (hop (.inl List.mem_cons_self)) fun v => ?_
    exact .bind (.act (.assign hhere _ v (hown rfl))) fun _ => .pure v
  | binary op left right =>
    have hleft : NodeKind.Direct j.arena (.binary op left right) left := .inl List.mem_cons_self
    have hright : NodeKind.Direct j.arena (.binary op left right) right :=
      .inl (List.mem_cons_of_mem _ List.mem_cons_self)
    cases op with
    | and =>
      refine .bind (htest hleft) fun b => ?_
      cases b with
      | true => exact .bind (htest hright) fun _ => .pure _
      | false => exact .pure _
    | or =>
      refine .bind (htest hleft) fun b => ?_
      cases b with
      | true => exact .pure _
      | false => exact .bind (htest hright) fun _ => .pure _
    | _ =>
      refine .bind (hop hleft) fun l => .bind (hop hright) fun r => ?_
      exact .bind .get fun m => .pureAct _
  | not operand => exact .bind (htest (.inl List.mem_cons_self)) fun _ => .pure _
  | cond test onTrue onFalse =>
    exact .bind (htest (.inl List.mem_cons_self)) fun _ => hblock _
  | block body => exact hblock body
  | doWhile body test =>
    refine .enter fun inner => .repeatWhile (.bind (.act .checkLiveness) fun _ => ?_) fuel
    refine .bind (.body (hbody inner body)) fun more => ?_
    cases more with
    | true => exact hbeside inner (.inl List.mem_cons_self)
    | false => exact .pure _
  | whileDo test body =>
    refine .enter fun inner => .repeatWhile (.bind (.act .checkLiveness) fun _ => ?_) fuel
    refine .bind (hbeside inner (.inl List.mem_cons_self)) fun more => ?_
    cases more with
    | true => exact .body (hbody inner body)
    | false => exact .pure _
  | forEach item iterable body =>
    refine .bind (hop (.inl List.mem_cons_self)) fun v => .bind .get fun m => ?_
    refine .bind (.pureAct _) fun items => .enter fun inner => .forItems (fun w => ?_) items
    refine .bind (.act .checkLiveness) fun _ => ?_
    refine .bind (.act (.declare List.mem_cons_self _ w none (.inl rfl))) fun _ => ?_
    exact .body (hbody inner body)
  | ret value =>
    exact .bind (hop (.inl List.mem_cons_self)) fun v => .throw _
  | brk => exact .throw _
  | listLit range =>
    refine .bind (hall rfl) fun values => .bind .get fun m => ?_
    exact .bind (.act (.onStore _)) fun _ => .pure _
  | mapLit range =>
    refine .bind (evalPairs_scoped fun id hid => hop (.inr ⟨range, rfl, hid⟩))
      fun pairs => ?_
    exact .bind .get fun m => .bind (.act (.onStore _)) fun _ => .pure _
  | setLit range =>
    refine .bind (hall rfl) fun values => .bind .get fun m => ?_
    exact .bind (.act (.onStore _)) fun _ => .pure _
  | typeRef name => exact .pureAct _
  | call receiver method args =>
    refine .bind (hop (.inl List.mem_cons_self)) fun v => ?_
    exact .bind (hall rfl) fun values => .act (call_scoped hn v method values)

end Node

/-- The evaluation of a node makes the declarations of the node in its frame, and none in any other
frame that is there. -/
theorem eval_scoped (hn : j.environment.KeepsBindings) (fuel : Nat) :
    ∀ id frame, Scoped [frame] (inFrame frame (j.arena.Declares id)) (j.eval fuel id frame) := by
  induction fuel with
  | zero => exact fun _ _ => .throw Exit.exhausted
  | succ fuel ih =>
    intro id frame
    unfold eval
    cases hk : j.arena.kind? id with
    | none => exact .throw Exit.exhausted
    | some kind =>
      exact (evalNode_scoped ih hn fuel frame kind).weaken (List.Subset.refl _)
        fun _ d ⟨hf, hd⟩ => ⟨hf, hd.of_kind? hk⟩

end Job

end MeteredScript

import MeteredScript.Proofs.Evaluation.Operators
import MeteredScript.Proofs.Evaluation.Twins

/-!
# Programs that only read

A program that declares and assigns nothing and calls no method still enters frames, binds the items
of its loops and makes containers. All of this is new, and numbered as it comes; so from machines
that mirror each other such a program runs in the same way.
-/

namespace MeteredScript

/-- Nodes that neither bind or write variables of a program nor call anything. -/
def NodeKind.isReadOnly : NodeKind → Bool
  | declare .. | declareAt .. | assign .. | call .. => false
  | _ => true

def Arena.ReadOnly (a : Arena) : Prop := ∀ node ∈ a.nodes.toList, node.kind.isReadOnly = true

instance (a : Arena) : Decidable a.ReadOnly := List.decidableBAll ..

theorem Arena.ReadOnly.kind {a : Arena} (h : a.ReadOnly) {id : NodeId} {kind : NodeKind}
    (hk : a.kind? id = some kind) : kind.isReadOnly = true := by
  obtain ⟨node, hnode, rfl⟩ := Option.map_eq_some_iff.mp hk
  exact h node (Array.mem_toList_iff.mpr (Array.mem_of_getElem? hnode))

namespace Job

variable {j : Job} {ρ : Renaming} {n frame : Nat} {w s : Machine}

/-- The frame and `this` are there, and `this` has the same number in both machines. -/
structure Reads (j : Job) (ρ : Renaming) (w : Machine) (frame : Nat) : Prop where
  frame : frame < w.frames.size
  this : Moved ρ w j.this j.this

theorem Reads.mono (h : j.Reads ρ w frame) (hs : w.Leaves n s) : j.Reads ρ s frame :=
  ⟨Nat.lt_of_lt_of_le h.frame hs.size, hs.store.has h.this.has, h.this.eq⟩

theorem Reads.inner (h : j.Reads ρ w frame) {inner : Nat} (hi : w.Owns inner) :
    j.Reads ρ w inner := ⟨hi.lt, h.this⟩

theorem literal_plain (l : Literal) : (j.literal l).handle? = none := by cases l <;> rfl

theorem iterated_move {σ : Nat → Nat} {s t : Store} (h : Store.Mirrors σ s t) (v : Value) :
    iterated t (v.move σ) = (iterated s v).map (List.map (Value.move σ)) := by
  cases v with
  | list l => exact congrArg Except.ok (h.items l)
  | set l =>
    change Except.ok ((t.elements (l.move σ)).map Key.toValue) =
      Except.ok (((s.elements l).map _).map _)
    rw [h.elements, List.map_map]
    exact congrArg _ (List.map_congr_left fun k _ => (Key.toValue_move σ k).symm)
  | map m =>
    change Except.ok ((t.entries (m.move σ)).map _) = Except.ok (((s.entries m).map _).map _)
    rw [h.entries, Entries.move, List.map_map, List.map_map]
    exact congrArg _ (List.map_congr_left fun p _ => (Key.toValue_move σ p.1).symm)
  | _ => rfl

theorem has_iterated {s : Store} (hs : s.Whole) {v : Value} {items : List Value}
    (h : iterated s v = .ok items) : ∀ w ∈ items, s.Has w := by
  have hkey (k : Key) : s.Has k.toValue := Store.has_of_plain (by cases k <;> rfl)
  intro w hw
  cases v with
  | list l =>
    obtain rfl := Except.ok.inj h
    exact hs.has_item hw
  | set l =>
    obtain rfl := Except.ok.inj h
    obtain ⟨k, -, rfl⟩ := List.mem_map.mp hw
    exact hkey k
  | map m =>
    obtain rfl := Except.ok.inj h
    obtain ⟨p, -, rfl⟩ := List.mem_map.mp hw
    exact hkey p.1
  | _ => cases h

theorem resolveType_native {e : Environment} {name : Name} {v : Value}
    (h : e.resolveType name = .ok v) : ∃ t, v = .native t := by
  unfold Environment.resolveType at h
  split at h
  · cases h
  · split at h
    · exact ⟨_, (Except.ok.inj h).symm⟩
    · cases h

/-! ## Operations on values -/

section Values

variable {m t : Machine} {l r l' r' : Value}

theorem iterated_twins (hp : m.Pair ρ n t) (v : Value) (w : Machine) (hw : m.Leaves n w) :
    Run.Twins ρ n w (Run.pureAct (iterated m.store v))
      (Run.pureAct (iterated t.store (v.move ρ.containers))) fun s items items' =>
        (∀ v ∈ items, s.store.Has v) ∧ items' = items.map (Value.move ρ.containers) :=
  .pureAct (iterated_move hp.mirrors.store v) fun _ _ hs hitems =>
    ⟨fun v hv => (hw.trans hs).store.has (has_iterated hp.whole.store hitems v hv), rfl⟩

theorem operator_twins (hp : m.Pair ρ n t) (hl : Moved ρ m l l') (hr : Moved ρ m r r')
    {op : BinaryOp} (hprinted : op = .add → ∀ v ∈ Operators.printed? l r,
      m.store.nests m.store.containers.size v = true) (w : Machine) :
    Run.Twins ρ n w (Run.pureAct (Operators.evaluate m.store l r op))
      (Run.pureAct (Operators.evaluate t.store l' r' op)) (Moved ρ) := by
  obtain ⟨hl, rfl⟩ := hl
  obtain ⟨hr, rfl⟩ := hr
  rw [hp.mirrors.store.evaluate hp.whole.store hl hr op hprinted]
  refine .pureAct (g := id) (Except.map_id ▸ rfl) fun s v _ hv => .of_plain ?_
  have hscalar := Operators.evaluate_isScalar hv
  cases v <;> first | rfl | cases hscalar

/-- An addition is given up on one machine or on none. -/
theorem addition_twins (hl : Moved ρ w l l') (hr : Moved ρ w r r') :
    Run.Twins ρ n w (do
        let s := (← get).store
        if (Operators.printed? l r).all (s.nests s.containers.size) then
          Run.pureAct (Operators.evaluate s l r .add)
        else throw .exhausted)
      (do
        let s := (← get).store
        if (Operators.printed? l' r').all (s.nests s.containers.size) then
          Run.pureAct (Operators.evaluate s l' r' .add)
        else throw .exhausted) (Moved ρ) := by
  refine Run.Twins.get.bind fun s m t hs ⟨he, hp⟩ => ?_
  subst he
  by_cases hends : (Operators.printed? l r).all (m.store.nests m.store.containers.size) = true
  · have hprinted := (Option.all_eq_true _ _).mp hends
    have hends' :
        (Operators.printed? l' r').all (t.store.nests t.store.containers.size) = true := by
      rw [hl.eq, hr.eq, Operators.printed?_move, Option.all_map]
      refine (Option.all_eq_true _ _).mpr fun v hv => ?_
      have hnests := hp.mirrors.store.nests t.store.containers.size v
      exact hnests.trans (Store.nests_mono (hprinted v hv) hp.mirrors.store.numbers.size_le)
    dsimp only
    rw [if_pos hends, if_pos hends']
    exact operator_twins hp (hl.mono hs) (hr.mono hs) (fun _ => hprinted) m
  · dsimp only
    rw [if_neg hends]
    exact .giveUp _ _

/-- A new container is the value. -/
theorem creation_twins {type : ValueType} (make : Handle → Value)
    (hmake : ∀ h, (make h).handle? = some h ∧ (make h).type = type ∧
      (make h).move ρ.containers = make (h.move ρ.containers)) {x y : Nat → StoreM Handle}
    (hxy : ∀ account account' s t, s.Whole → Store.Mirrors ρ.containers s t → w.store.Keeps s →
      Store.Twin ρ.containers s (Store.Leads ρ.containers type) ((x account).run s)
        ((y account').run t)) :
    Run.Twins ρ n w (do
        let account := (← get).context.account
        return make (← Run.act (Act.onStore (x account))))
      (do
        let account := (← get).context.account
        return make (← Run.act (Act.onStore (y account)))) (Moved ρ) := by
  refine Run.Twins.get.bind fun s m t hs _ => ?_
  refine (Run.Twins.onStore fun a b ha hab hkeeps => hxy m.context.account t.context.account a b ha
    hab (hs.store.trans hkeeps)).bind fun u h _ _ ⟨hfits, he⟩ => he ▸ .pure fun u' hu' => ⟨?_, ?_⟩
  · intro g hg
    obtain rfl := Option.some.inj ((hmake h).1.symm.trans hg)
    exact (hmake h).2.1 ▸ hu'.store.fits hfits
  · exact (hmake h).2.2.symm

end Values

/-! ## Parts of nodes -/

section Parts

variable {ev : Evaluator} (hr : j.Reads ρ w frame)
  (hev : ∀ (id frame : Nat) (w : Machine), j.Reads ρ w frame →
    Run.Twins ρ n w (ev id frame) (ev id (ρ.frames frame)) (Moved ρ))

include hr hev

theorem foldlM_twins (ids : List NodeId) {v v' : Value} (hv : Moved ρ w v v') :
    Run.Twins ρ n w (ids.foldlM (fun _ id => ev id frame) v)
      (ids.foldlM (fun _ id => ev id (ρ.frames frame)) v') (Moved ρ) := by
  induction ids generalizing w v v' with
  | nil => exact .pure fun s hs => hv.mono hs
  | cons id rest ih =>
    rw [List.foldlM_cons, List.foldlM_cons]
    exact (hev id frame w hr).bind fun s _ _ hs hu => ih (hr.mono hs) hu

theorem evalChain_twins (head : Option NodeId) :
    Run.Twins ρ n w (j.evalChain ev head frame) (j.evalChain ev head (ρ.frames frame)) (Moved ρ) :=
  foldlM_twins hr hev _ .null

theorem evalBlock_twins (head : Option NodeId) :
    Run.Twins ρ n w (j.evalBlock ev head frame) (j.evalBlock ev head (ρ.frames frame))
      (Moved ρ) := by
  cases head with
  | none => exact .pure fun _ _ => .null
  | some id =>
    refine (Run.Twins.enter hr.frame).bind fun s inner _ hs ⟨he, _, hown⟩ => he ▸ ?_
    exact evalChain_twins ((hr.mono hs).inner hown) hev (some id)

theorem evalTest_twins (test : NodeId) :
    Run.Twins ρ n w (evalTest ev test frame) (evalTest ev test (ρ.frames frame))
      fun _ b b' => b' = b := by
  refine (hev test frame w hr).bind fun s v _ hs ⟨_, he⟩ => he ▸ ?_
  refine .pureAct (g := id) ?_ fun _ _ _ _ => rfl
  rw [Value.requireBool_move]
  cases v.requireBool <;> rfl

theorem evalAll_twins (ids : List NodeId) :
    Run.Twins ρ n w (evalAll ev ids frame) (evalAll ev ids (ρ.frames frame))
      fun s values values' => (∀ v ∈ values, s.store.Has v) ∧
        values' = values.map (Value.move ρ.containers) := by
  unfold evalAll
  induction ids generalizing w with
  | nil => exact .pure fun _ _ => ⟨fun _ hv => absurd hv List.not_mem_nil, rfl⟩
  | cons id rest ih =>
    rw [List.mapM_cons, List.mapM_cons]
    refine (hev id frame w hr).bind fun s v _ hs ⟨hv, he⟩ => he ▸ ?_
    refine (ih (hr.mono hs)).bind fun s' values _ hs' ⟨hvs, hes⟩ => hes ▸ .pure fun s'' hs'' => ?_
    refine ⟨List.forall_mem_cons.mpr ⟨?_, fun u hu => hs''.store.has (hvs u hu)⟩, rfl⟩
    exact (hs'.trans hs'').store.has hv

theorem evalPairs_twins (ids : List NodeId) :
    Run.Twins ρ n w (evalPairs ev frame ids) (evalPairs ev (ρ.frames frame) ids)
      fun s pairs pairs' => (∀ p ∈ pairs, s.store.Has p.2) ∧
        pairs' = Entries.move ρ.containers pairs := by
  have hkey (w : Machine) (v : Value) : Run.Twins ρ n w (Run.pureAct (Key.ofValue v))
      (Run.pureAct (Key.ofValue (v.move ρ.containers))) fun _ k k' => k' = k := by
    refine .pureAct (g := id) ?_ fun _ _ _ _ => rfl
    rw [Key.ofValue_move]
    cases Key.ofValue v <;> rfl
  induction ids using evalPairs.induct generalizing w with
  | case1 => exact .pure fun _ _ => ⟨fun _ hp => absurd hp List.not_mem_nil, rfl⟩
  | case2 k =>
    refine (hev k frame w hr).bind fun s v v' hs hv => hv.eq ▸ ?_
    refine (hkey s v).bind fun s' key _ hs' he => he ▸ .pure fun _ _ => ⟨?_, rfl⟩
    exact List.forall_mem_singleton.mpr (Store.has_of_plain rfl)
  | case3 k v rest ih =>
    refine (hev k frame w hr).bind fun s key key' hs hk => hk.eq ▸ ?_
    refine (hev v frame s (hr.mono hs)).bind fun s' value value' hs' hv => hv.eq ▸ ?_
    refine (hkey s' key).bind fun s'' k _ hs'' he => he ▸ ?_
    have hr' := hr.mono ((hs.trans hs').trans hs'')
    refine (ih hr').bind fun u pairs pairs' hu hp => hp.2 ▸ .pure fun u' hu' => ⟨?_, rfl⟩
    refine List.forall_mem_cons.mpr ⟨?_, fun p hm => hu'.store.has (hp.1 p hm)⟩
    exact ((hs''.trans hu).trans hu').store.has hv.has

/-! ## Nodes -/

/-- Two values are made of operands that have been evaluated. -/
theorem operation_twins {left right : NodeId} {f f' : Value → Value → Run Value}
    (hf : ∀ s l r l' r', w.Leaves n s → Moved ρ s l l' → Moved ρ s r r' →
      Run.Twins ρ n s (f l r) (f' l' r') (Moved ρ)) :
    Run.Twins ρ n w (do f (← ev left frame) (← ev right frame))
      (do f' (← ev left (ρ.frames frame)) (← ev right (ρ.frames frame))) (Moved ρ) := by
  refine (hev left frame w hr).bind fun s l l' hs hl => ?_
  refine (hev right frame s (hr.mono hs)).bind fun s' r r' hs' hr' => ?_
  exact hf s' l r l' r' (hs.trans hs') (hl.mono hs') hr'

theorem evalAnswer_twins (answer : Bool → Bool) (test : NodeId) :
    Run.Twins ρ n w (do return .bool (answer (← evalTest ev test frame)))
      (do return .bool (answer (← evalTest ev test (ρ.frames frame)))) (Moved ρ) :=
  (evalTest_twins hr hev test).bind fun _ _ _ _ he => he ▸ .pure fun _ _ => .of_plain rfl

theorem doWhile_twins (fuel : Nat) (body : Option NodeId) (test : NodeId) :
    Run.Twins ρ n w (j.endNode ev fuel frame (.doWhile body test))
      (j.endNode ev fuel (ρ.frames frame) (.doWhile body test)) (Moved ρ) := by
  refine (Run.Twins.enter hr.frame).bind fun s inner _ hs ⟨he, _, hown⟩ => he ▸ ?_
  have hr := hr.mono hs
  refine .repeatWhile (Run.Twins.checkLiveness.bind fun s' _ _ hs' _ => ?_) fuel
  have hbody := (evalChain_twins ((hr.inner hown).mono hs') hev body).body
  exact hbody.branch (fun _ hs'' => evalTest_twins ((hr.mono hs').mono hs'') hev test)
    fun _ _ => .pure fun _ _ => rfl

theorem whileDo_twins (fuel : Nat) (test : NodeId) (body : Option NodeId) :
    Run.Twins ρ n w (j.endNode ev fuel frame (.whileDo test body))
      (j.endNode ev fuel (ρ.frames frame) (.whileDo test body)) (Moved ρ) := by
  refine (Run.Twins.enter hr.frame).bind fun s inner _ hs ⟨he, _, hown⟩ => he ▸ ?_
  have hr := hr.mono hs
  refine .repeatWhile (Run.Twins.checkLiveness.bind fun s' _ _ hs' _ => ?_) fuel
  refine (evalTest_twins (hr.mono hs') hev test).branch (fun s'' hs'' => ?_)
    fun _ _ => .pure fun _ _ => rfl
  exact (evalChain_twins (((hr.inner hown).mono hs').mono hs'') hev body).body

/-- The items stay those of the value, whatever the loop makes in its turns. -/
theorem forEach_twins (fuel : Nat) (item : Name) (iterable : NodeId) (body : Option NodeId) :
    Run.Twins ρ n w (j.endNode ev fuel frame (.forEach item iterable body))
      (j.endNode ev fuel (ρ.frames frame) (.forEach item iterable body)) (Moved ρ) := by
  refine (hev iterable frame w hr).bind fun s v _ hs ⟨_, he⟩ => he ▸ ?_
  refine Run.Twins.get.bind fun s' m m' hs' ⟨he, hp⟩ => ?_
  subst he
  refine (iterated_twins hp v m (.refl n m)).bind fun u items _ hu ⟨hitems, he⟩ => he ▸ ?_
  have hr := ((hr.mono hs).mono hs').mono hu
  refine (Run.Twins.enter hr.frame).bind fun u' inner _ hu' ⟨he, hn, hown⟩ => he ▸ ?_
  refine .forItems fun v hv => Run.Twins.checkLiveness.bind fun a _ _ ha _ => ?_
  have hv : Moved ρ a v (v.move ρ.containers) := ⟨(hu'.trans ha).store.has (hitems v hv), rfl⟩
  refine (Run.Twins.declare (ha.owns _ hown) hn _ item hv).bind fun b _ _ hb _ => ?_
  have hr := (hr.mono hu').inner hown
  exact (evalChain_twins ((hr.mono ha).mono hb) hev body).body

theorem evalNode_twins (fuel : Nat) {kind : NodeKind} (hkind : kind.isReadOnly = true) :
    Run.Twins ρ n w (j.endNode ev fuel frame kind) (j.endNode ev fuel (ρ.frames frame) kind)
      (Moved ρ) := by
  have plain {v : Value} (hv : v.handle? = none) (w : Machine) :
      Run.Twins ρ n w (pure v) (pure v) (Moved ρ) := .pure fun _ _ => .of_plain hv
  cases kind with
  | literal value declared =>
    cases declared with
    | none => exact plain (literal_plain value) w
    | some t =>
      change Run.Twins ρ n w (if _ then _ else _) (if _ then _ else _) _
      split
      · exact plain (literal_plain value) w
      · exact .throw (.fault _) _
  | this => exact .pure fun _ hs => hr.this.mono hs
  | var name =>
    refine (Run.Twins.resolve hr.frame _ name).bind fun s cell _ _ he => he ▸ ?_
    refine Run.Twins.get.bind fun s' m m' _ ⟨he, hp⟩ => .pure fun u hu => ?_
    exact ⟨hu.store.has (he ▸ hp.whole.has_read cell), hp.mirrors.read cell⟩
  | declare | declareAt | assign | call => cases hkind
  | binary op left right =>
    have htest (test : NodeId) (s : Machine) (hs : w.Leaves n s) :=
      evalAnswer_twins (hr.mono hs) hev id test
    cases op with
    | and => exact (evalTest_twins hr hev left).branch (htest right) fun s _ => plain rfl s
    | or => exact (evalTest_twins hr hev left).branch (fun s _ => plain rfl s) (htest right)
    | add => exact operation_twins hr hev fun s _ _ _ _ _ hl hr => addition_twins hl hr
    | _ =>
      refine operation_twins hr hev fun s l r l' r' _ hl hr => ?_
      refine Run.Twins.get.bind fun s' m m' hs' ⟨he, hp⟩ => ?_
      subst he
      refine operator_twins hp (hl.mono hs') (hr.mono hs') ?_ m
      simp
  | not operand => exact evalAnswer_twins hr hev (!·) operand
  | cond test onTrue onFalse =>
    refine (evalTest_twins hr hev test).bind fun s taken _ hs he => he ▸ ?_
    exact evalBlock_twins (hr.mono hs) hev _
  | block body => exact evalBlock_twins hr hev body
  | doWhile body test => exact doWhile_twins hr hev fuel body test
  | whileDo test body => exact whileDo_twins hr hev fuel test body
  | forEach item iterable body => exact forEach_twins hr hev fuel item iterable body
  | ret value =>
    refine (hev value frame w hr).bind fun s v _ _ ⟨_, he⟩ => he ▸ ?_
    exact .throw (.returned v) _
  | brk => exact .throw .broke _
  | listLit range =>
    refine (evalAll_twins hr hev _).bind fun s values values' _ ⟨hv, he⟩ => ?_
    subst he
    refine creation_twins .list (fun _ => ⟨rfl, rfl, rfl⟩) (x := (Lists.create · values))
      (y := (Lists.create · (values.map _))) fun account account' a b ha hab hk => ?_
    exact Lists.create_twin ha hab account account' fun v hvm => hk.has (hv v hvm)
  | mapLit range =>
    refine (evalPairs_twins hr hev _).bind fun s pairs pairs' _ ⟨hp, he⟩ => ?_
    subst he
    refine creation_twins .map (fun _ => ⟨rfl, rfl, rfl⟩) (x := (Maps.create · pairs))
      (y := (Maps.create · (Entries.move _ pairs))) fun account account' a b ha hab hk => ?_
    exact Maps.create_twin ha hab account account' fun p hpm => hk.has (hp p hpm)
  | setLit range =>
    refine (evalAll_twins hr hev _).bind fun s values values' _ ⟨_, he⟩ => ?_
    subst he
    refine creation_twins .set (fun _ => ⟨rfl, rfl, rfl⟩) (x := (Sets.create · values))
      (y := (Sets.create · (values.map _))) fun account account' a b ha hab _ => ?_
    exact Sets.create_twin ha hab account account' values
  | typeRef name =>
    refine .pureAct (g := id) (Except.map_id ▸ rfl) fun s v _ hv => .of_plain ?_
    obtain ⟨t, rfl⟩ := resolveType_native hv
    rfl

end Parts

/-- Evaluations that only read are twins, in frames that mirror each other. -/
theorem evalEnding_twins (hj : j.arena.ReadOnly) (fuel : Nat) (id frame : Nat) (w : Machine)
    (hr : j.Reads ρ w frame) :
    Run.Twins ρ n w (j.evalEnding fuel id frame) (j.evalEnding fuel id (ρ.frames frame))
      (Moved ρ) := by
  induction fuel generalizing id frame w with
  | zero => exact .giveUp _ _
  | succ fuel ih =>
    rw [evalEnding]
    dsimp only
    cases hk : j.arena.kind? id with
    | none => exact .giveUp _ _
    | some kind => exact evalNode_twins hr ih fuel (hj.kind hk)

end Job

end MeteredScript

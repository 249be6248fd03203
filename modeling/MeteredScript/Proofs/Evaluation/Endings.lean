import MeteredScript.Proofs.Evaluation.Metering
import MeteredScript.Proofs.Program.Needs

/-!
# Evaluations that come to an end

A run with fuel comes to an end if some amount of fuel is not used up, and then more of it changes
nothing. Without loops that repeat, an evaluation ends as long as nodes need each other without
circles. A limit on liveness checks makes loops end too: each turn uses up one check.
-/

namespace MeteredScript

/-- With enough fuel the run comes to an end. If there is a limit, this holds under the limit, and
the run is metered by it. -/
structure Run.Ends {α : Type} (limit : Option Nat) (x : Nat → Run α) : Prop where
  grows : ∀ {n n' : Nat}, n ≤ n' → Run.Refines (x n) (x n')
  metered : ∀ l, limit = some l → ∀ n, (x n).Metered l
  ends : ∀ m : Machine, (∀ l, limit = some l → m.Limited l) →
    ∃ n, ((x n).run m).1 ≠ .error .exhausted

namespace Run.Ends

variable {α β : Type} {limit : Option Nat}

/-- A run that ended is the same with more fuel. -/
theorem run_eq {x : Nat → Run α} (h : Run.Ends limit x) {m : Machine} {n n' : Nat} (hle : n ≤ n')
    (hn : ((x n).run m).1 ≠ .error .exhausted) : (x n').run m = (x n).run m :=
  ((h.grows hle m).resolve_left hn).symm

/-- A run without fuel. -/
theorem const {x : Run α} (hends : ∀ m, (x.run m).1 ≠ .error .exhausted)
    (hmetered : ∀ l, limit = some l → x.Metered l) : Run.Ends limit fun _ => x where
  grows _ := .refl x
  metered l hl _ := hmetered l hl
  ends m _ := ⟨0, hends m⟩

theorem pure (a : α) : Run.Ends limit fun _ => (pure a : Run α) := by
  apply const
  · intro m h
    cases h
  · exact fun _ _ => .pure a

theorem throw {e : Exit} (hends : e ≠ .exhausted) (hgoes : e.stops = false) :
    Run.Ends limit fun _ => (throw e : Run α) :=
  .const (fun _ h => hends (Except.error.inj h)) fun _ _ => .throw hgoes

theorem get : Run.Ends limit fun _ => (get : Run Machine) := by
  apply const
  · intro m h
    cases h
  · exact fun _ _ => .get

theorem pureAct {x : Except Fault α} (h : Ordinary x) : Run.Ends limit fun _ => Run.pureAct x := by
  cases x with
  | ok a => exact .pure a
  | error f => exact .throw (by simp) (Ordinary.error.mp h)

theorem act {x : Act α} (h : ∀ l, limit = some l → x.Quiet) :
    Run.Ends limit fun _ => Run.act x := by
  refine .const (fun m hm => ?_) fun l hl => .act (h l hl)
  rw [run_act] at hm
  rcases hr : x.run m with ⟨_ | _, _⟩ <;> simp [hr] at hm

theorem checkLiveness : Run.Ends limit fun _ => Run.act Act.checkLiveness := by
  refine .const (fun m hm => ?_) fun l _ m hm => checkLiveness_meters hm
  rw [run_act] at hm
  rcases hr : Act.checkLiveness.run m with ⟨_ | _, _⟩ <;> simp [hr] at hm

theorem bind {x : Nat → Run α} {f : Nat → α → Run β} (hx : Run.Ends limit x)
    (hf : ∀ a, Run.Ends limit fun n => f n a) : Run.Ends limit fun n => x n >>= f n := by
  constructor
  · exact fun hle => (hx.grows hle).bind fun a => (hf a).grows hle
  · exact fun l hl n => (hx.metered l hl n).bind fun a => (hf a).metered l hl n
  · intro m hm
    obtain ⟨n, hn⟩ := hx.ends m hm
    rcases hr : (x n).run m with ⟨e | a, t⟩
    · refine ⟨n, fun h => hn ?_⟩
      rw [run_bind, hr] at h
      rw [hr, Except.error.inj h]
    · have ht : ∀ l, limit = some l → t.Limited l := by
        intro l hl
        have := (hx.metered l hl n m (hm l hl)).limited
        rwa [hr] at this
      obtain ⟨n', hn'⟩ := (hf a).ends t ht
      have hx' : (x (max n n')).run m = (.ok a, t) := (hx.run_eq (Nat.le_max_left n n') hn).trans hr
      refine ⟨max n n', ?_⟩
      rw [run_bind, hx']
      dsimp only
      rwa [(hf a).run_eq (Nat.le_max_right n n') hn']

theorem map {x : Nat → Run α} (f : α → β) (hx : Run.Ends limit x) :
    Run.Ends limit fun n => do return f (← x n) := hx.bind fun a => .pure (f a)

theorem foldlM {items : List α} {f : Nat → β → α → Run β}
    (h : ∀ a ∈ items, ∀ b, Run.Ends limit fun n => f n b a) (b : β) :
    Run.Ends limit fun n => items.foldlM (f n) b := by
  induction items generalizing b with
  | nil => exact .pure b
  | cons a rest ih =>
    simp only [List.foldlM_cons]
    exact (h a List.mem_cons_self b).bind (ih fun a ha => h a (List.mem_cons_of_mem _ ha))

theorem mapM {items : List α} {f : Nat → α → Run β}
    (h : ∀ a ∈ items, Run.Ends limit fun n => f n a) :
    Run.Ends limit fun n => items.mapM (f n) := by
  induction items with
  | nil => exact .pure []
  | cons a rest ih =>
    simp only [List.mapM_cons]
    refine (h a List.mem_cons_self).bind fun b => ?_
    exact (ih fun a ha => h a (List.mem_cons_of_mem _ ha)).bind fun bs => .pure _

theorem body {x : Nat → Run Value} (hx : Run.Ends limit x) :
    Run.Ends limit fun n => Run.body (x n) := by
  constructor
  case grows => exact fun hle => (hx.grows hle).body
  case metered => exact fun l hl n => (hx.metered l hl n).body
  intro m hm
  obtain ⟨n, hn⟩ := hx.ends m hm
  refine ⟨n, ?_⟩
  rw [run_body]
  rcases hr : (x n).run m with ⟨(_ | _ | _ | _) | _, _⟩ <;> simp_all

theorem ite {x y : Nat → Run α} (b : Bool) (hx : Run.Ends limit x) (hy : Run.Ends limit y) :
    Run.Ends limit fun n => if b then x n else y n := by
  cases b with
  | true => exact hx
  | false => exact hy

theorem forItems {turn : Nat → α → Run Bool} (h : ∀ a, Run.Ends limit fun n => turn n a)
    (items : List α) : Run.Ends limit fun n => Run.forItems (turn n) items := by
  induction items with
  | nil => exact .pure Value.null
  | cons a rest ih =>
    simp only [forItems_cons]
    exact (h a).bind fun more => ite more ih (.pure Value.null)

/-- The first bit of fuel is used up before anything is done. -/
theorem step {x : Nat → Run α} (hzero : ∀ m, (x 0).run m = (.error .exhausted, m))
    (h : Run.Ends limit fun n => x (n + 1)) : Run.Ends limit x := by
  constructor
  case grows =>
    intro n n' hle
    cases n with
    | zero => exact fun m => .inl (by rw [hzero])
    | succ n =>
      obtain ⟨k, rfl⟩ := Nat.exists_eq_add_of_le hle
      rw [Nat.add_right_comm]
      exact h.grows (Nat.le_add_right n k)
  case metered =>
    intro l hl n
    cases n with
    | zero =>
      intro m hm
      have hrun : (x 0).run m = (MonadExcept.throw Exit.exhausted : Run α).run m := hzero m
      refine .of_still hm (by rw [hrun]; rfl) (by rw [hrun]; exact hm.data) fun e h => ?_
      rw [hrun] at h
      exact Except.error.inj h ▸ rfl
    | succ n => exact h.metered l hl n
  case ends =>
    intro m hm
    obtain ⟨n, hn⟩ := h.ends m hm
    exact ⟨n + 1, hn⟩

/-! ## Loops that repeat -/

section Repeat

variable {l : Nat} {turn : Nat → Run Bool}

/-- A turn of a loop after its liveness check. -/
private abbrev checked (turn : Nat → Run Bool) (n : Nat) : Run Bool := do
  Run.act Act.checkLiveness
  turn n

variable (h : Run.Ends (some l) turn)

include h

theorem checked_ends : Run.Ends (some l) (checked turn) := checkLiveness.bind fun _ => h

theorem repeatWhile_metered (n fuel : Nat) : (Run.repeatWhile (checked turn n) fuel).Metered l := by
  induction fuel with
  | zero => exact .throw rfl
  | succ fuel ih =>
    rw [repeatWhile_succ]
    refine ((checked_ends h).metered l rfl n).bind fun more => ?_
    cases more with
    | true => exact ih
    | false => exact .pure Value.null

theorem repeatWhile : Run.Ends (some l) fun n => Run.repeatWhile (checked turn n) n := by
  have hturn := checked_ends h
  constructor
  case grows => exact fun hle => (hturn.grows hle).repeatWhile hle
  case metered =>
    intro l' hl n
    obtain rfl := Option.some.inj hl
    exact repeatWhile_metered h n n
  case ends =>
    intro m hm
    replace hm := hm l rfl
    -- Each turn uses up one of the checks that are left.
    induction hleft : l - m.context.iterations using Nat.strong_induction_on generalizing m with
    | _ left ih =>
      obtain ⟨n, hn⟩ := hturn.ends m fun l' hl => Option.some.inj hl ▸ hm
      rcases hr : (checked turn n).run m with ⟨e | more, t⟩
      · refine ⟨n + 1, fun h => hn ?_⟩
        rw [repeatWhile_succ, run_bind, hturn.run_eq (Nat.le_succ n) hn, hr] at h
        rw [hr, Except.error.inj h]
      · cases more with
        | false =>
          refine ⟨n + 1, ?_⟩
          rw [repeatWhile_succ, run_bind, hturn.run_eq (Nat.le_succ n) hn, hr]
          intro h
          cases h
        | true =>
          have ht : t.Limited l := by
            have := (hturn.metered l rfl n m hm).limited
            rwa [hr] at this
          obtain ⟨hlt, hle⟩ := turn_advances hm (h.metered l rfl n) hr
          obtain ⟨n', hn'⟩ := ih (l - t.context.iterations) (by omega) t ht rfl
          have hmax := Nat.le_max_right n n'
          have hrest : Run.Refines (Run.repeatWhile (checked turn n') n')
              (Run.repeatWhile (checked turn (max n n' + 1)) (max n n')) :=
            (hturn.grows (Nat.le_succ_of_le hmax)).repeatWhile hmax
          refine ⟨max n n' + 1, ?_⟩
          rw [repeatWhile_succ, run_bind,
            hturn.run_eq (Nat.le_succ_of_le (Nat.le_max_left n n')) hn, hr]
          dsimp only
          rw [if_pos rfl, ← (hrest t).resolve_left hn']
          exact hn'

end Repeat

end Run.Ends

/-! ## Nodes -/

/-- Loops that repeat as long as a test holds. -/
def NodeKind.repeats : NodeKind → Bool
  | doWhile .. | whileDo .. => true
  | _ => false

namespace Job

variable {j : Job} {limit : Option Nat} {ev : Nat → Evaluator}

/-- The evaluation of a node comes to an end, in every frame. -/
def NodeEnds (limit : Option Nat) (ev : Nat → Evaluator) (id : NodeId) : Prop :=
  ∀ frame, Run.Ends limit fun n => ev n id frame

theorem evalTest_ends {test : NodeId} (h : NodeEnds limit ev test) (frame : Nat) :
    Run.Ends limit fun n => evalTest (ev n) test frame :=
  (h frame).bind fun v => .pureAct v.requireBool_ordinary

theorem evalChain_ends {head : Option NodeId}
    (h : ∀ id ∈ j.arena.chain head, NodeEnds limit ev id) (frame : Nat) :
    Run.Ends limit fun n => j.evalChain (ev n) head frame :=
  .foldlM (fun id hid _ => h id hid frame) _

theorem enter_ends (frame : Nat) : Run.Ends limit fun _ => Run.act (Scope.enter frame) :=
  .act fun _ _ => Scope.enter_quiet frame

theorem evalBlock_ends {head : Option NodeId}
    (h : ∀ id ∈ j.arena.chain head, NodeEnds limit ev id) (frame : Nat) :
    Run.Ends limit fun n => j.evalBlock (ev n) head frame := by
  cases head with
  | none => exact .pure _
  | some id => exact (enter_ends frame).bind fun inner => evalChain_ends h inner

theorem evalAll_ends {ids : List NodeId} (h : ∀ id ∈ ids, NodeEnds limit ev id) (frame : Nat) :
    Run.Ends limit fun n => evalAll (ev n) ids frame :=
  .mapM fun id hid => h id hid frame

theorem evalPairs_ends {ids : List NodeId} (h : ∀ id ∈ ids, NodeEnds limit ev id) (frame : Nat) :
    Run.Ends limit fun n => evalPairs (ev n) frame ids := by
  induction ids using evalPairs.induct with
  | case1 => exact .pure []
  | case2 k =>
    refine (h k List.mem_cons_self frame).bind fun v => ?_
    exact (Run.Ends.pureAct (Key.ofValue_ordinary v)).bind fun key => .pure _
  | case3 k v rest ih =>
    refine (h k List.mem_cons_self frame).bind fun key => ?_
    refine (h v (List.mem_cons_of_mem _ List.mem_cons_self) frame).bind fun value => ?_
    refine (Run.Ends.pureAct (Key.ofValue_ordinary key)).bind fun key => ?_
    have hrest := ih fun id hid => h id (List.mem_cons_of_mem _ (List.mem_cons_of_mem _ hid))
    exact hrest.bind fun _ => .pure _

/-- A node comes to an end if the nodes that it needs do. -/
theorem evalNode_ends {kind : NodeKind} (hquiet : ∀ l, limit = some l → j.environment.Quiet)
    (hloops : limit = none → kind.repeats = false)
    (h : ∀ m, kind.Needs j.arena m → NodeEnds limit ev m) (frame : Nat) :
    Run.Ends limit fun n => j.evalNode (ev n) n frame kind := by
  have act {α : Type} {x : Act α} (hx : Act.Quiet x) : Run.Ends limit fun _ => Run.act x :=
    .act fun _ _ => hx
  have chain {head : Option NodeId} (hhead : head.toList ⊆ kind.heads) :
      ∀ id ∈ j.arena.chain head, NodeEnds limit ev id :=
    fun id hid => h id (.of_chain hhead hid)
  have range {r : NodeRange} (hr : kind.range? = some r) :
      ∀ id ∈ j.arena.operands r, NodeEnds limit ev id := fun id hid => h id (.element hr hid)
  cases kind with
  | literal value declared =>
    cases declared with
    | none => exact .pure _
    | some t =>
      by_cases ht : t.accepts value.type = true
      · simp only [evalNode, ht, if_true]
        exact .pure _
      · simp only [evalNode, ht]
        exact .throw (by simp) rfl
  | this => exact .pure _
  | var name =>
    exact (act (Scope.resolve_quiet _ _ _)).bind fun cell => Run.Ends.get.bind fun m => .pure _
  | declare name type init =>
    have hinit := h init (.operand List.mem_cons_self)
    refine (hinit frame).bind fun v => ?_
    exact (act (Scope.declare_quiet _ _ _ _ _)).bind fun _ => .pure v
  | declareAt slot name type init =>
    have hinit := h init (.operand List.mem_cons_self)
    refine (hinit frame).bind fun v => ?_
    exact (act (Scope.declareAt_quiet _ _ _ _ _ _)).bind fun _ => .pure v
  | assign name value =>
    have hvalue := h value (.operand List.mem_cons_self)
    exact (hvalue frame).bind fun v => (act (Scope.assign_quiet _ _ _ _)).bind fun _ => .pure v
  | binary op left right =>
    have hleft := h left (.operand List.mem_cons_self)
    have hright := h right (.operand (List.mem_cons_of_mem _ List.mem_cons_self))
    cases op with
    | and =>
      refine (evalTest_ends hleft frame).bind fun b => ?_
      exact .ite b ((evalTest_ends hright frame).map _) (.pure _)
    | or =>
      refine (evalTest_ends hleft frame).bind fun b => ?_
      exact .ite b (.pure _) ((evalTest_ends hright frame).map _)
    | _ =>
      exact (hleft frame).bind fun l => (hright frame).bind fun r => Run.Ends.get.bind fun m =>
        .pureAct (Operators.evaluate_ordinary _ _ _ _)
  | not operand => exact (evalTest_ends (h operand (.operand List.mem_cons_self)) frame).map _
  | cond test onTrue onFalse =>
    have htest := h test (.operand List.mem_cons_self)
    refine (evalTest_ends htest frame).bind fun taken => ?_
    cases taken with
    | true => exact evalBlock_ends (chain (List.subset_append_left _ _)) frame
    | false => exact evalBlock_ends (chain (List.subset_append_right _ _)) frame
  | block body => exact evalBlock_ends (chain (List.Subset.refl _)) frame
  | doWhile body test =>
    have htest := h test (.operand List.mem_cons_self)
    cases limit with
    | none => cases hloops rfl
    | some l =>
      refine (enter_ends frame).bind fun inner => .repeatWhile ?_
      exact (evalChain_ends (chain (List.Subset.refl _)) inner).body.bind fun more =>
        .ite more (evalTest_ends htest frame) (.pure _)
  | whileDo test body =>
    have htest := h test (.operand List.mem_cons_self)
    cases limit with
    | none => cases hloops rfl
    | some l =>
      refine (enter_ends frame).bind fun inner => .repeatWhile ?_
      exact (evalTest_ends htest frame).bind fun more =>
        .ite more (evalChain_ends (chain (List.Subset.refl _)) inner).body (.pure _)
  | forEach item iterable body =>
    have hiterable := h iterable (.operand List.mem_cons_self)
    refine (hiterable frame).bind fun v => Run.Ends.get.bind fun m => ?_
    refine (Run.Ends.pureAct (iterated_ordinary _ v)).bind fun items => ?_
    refine (enter_ends frame).bind fun inner => .forItems (fun v => ?_) items
    refine Run.Ends.checkLiveness.bind fun _ => ?_
    refine (act (Scope.declare_quiet _ _ _ _ _)).bind fun _ => ?_
    exact (evalChain_ends (chain (List.Subset.refl _)) inner).body
  | ret value =>
    have hvalue := h value (.operand List.mem_cons_self)
    exact (hvalue frame).bind fun v => .throw (by simp) rfl
  | brk => exact .throw (by simp) rfl
  | listLit r =>
    refine (evalAll_ends (range rfl) frame).bind fun values => Run.Ends.get.bind fun m => ?_
    exact (act (.onStore fun s => Lists.create_ordinary s _ values)).map _
  | mapLit r =>
    refine (evalPairs_ends (range rfl) frame).bind fun pairs => Run.Ends.get.bind fun m => ?_
    exact (act (.onStore fun s => Maps.create_ordinary s _ pairs)).map _
  | setLit r =>
    refine (evalAll_ends (range rfl) frame).bind fun values => Run.Ends.get.bind fun m => ?_
    exact (act (.onStore fun s => Sets.create_ordinary s _ values)).map _
  | typeRef name => exact .pureAct (j.environment.resolveType_ordinary name)
  | call receiver method args =>
    have hreceiver := h receiver (.operand List.mem_cons_self)
    refine (hreceiver frame).bind fun v => (evalAll_ends (range rfl) frame).bind fun values => ?_
    exact .act fun l hl => Environment.call_quiet (hquiet l hl) v method values

section Job

variable (hclosed : j.arena.Closed) (hgrounded : Grounded j.arena.Needs)
  (hquiet : ∀ l, limit = some l → j.environment.Quiet)
  (hloops : limit = none → ∀ id kind, j.arena.kind? id = some kind → kind.repeats = false)

include hclosed hgrounded hquiet hloops

theorem eval_ends {id : NodeId} (hid : id < j.arena.size) : NodeEnds limit j.eval id := by
  induction id using hgrounded.induction with
  | _ id ih =>
    intro frame
    obtain ⟨kind, hk⟩ : ∃ kind, j.arena.kind? id = some kind :=
      ⟨_, by rw [Arena.kind?, Array.getElem?_eq_getElem hid]; rfl⟩
    refine .step (fun _ => rfl) ?_
    simp only [eval, hk]
    refine evalNode_ends hquiet (fun h => hloops h id kind hk) (fun m hm => ?_) frame
    exact ih m ⟨kind, hk, hm⟩ (hclosed.needs_lt (hclosed.kinds hk) hm)

/-- So does a chain of statements. -/
theorem interpret_ends {head : Option NodeId} (hhead : ∀ id, head = some id → id < j.arena.size)
    (frame : Nat) : Run.Ends limit fun n => j.interpret n head frame := by
  refine evalChain_ends (fun id hid => ?_) frame
  exact eval_ends hclosed hgrounded hquiet hloops (hclosed.chain_lt hhead hid)

end Job

end Job

end MeteredScript

import MeteredScript.Evaluation
import MeteredScript.Proofs.Evaluation.Running

/-!
# Fuel

Fuel decides whether an evaluation comes to an end and nothing else: with more of it, an evaluation
that did not use it up does the same.
-/

namespace MeteredScript

/-- The first run uses its fuel up, or both do the same. -/
def Run.Refines {α : Type} (x y : Run α) : Prop :=
  ∀ m : Machine, (x.run m).1 = .error .exhausted ∨ x.run m = y.run m

namespace Run.Refines

variable {α β : Type}

theorem refl (x : Run α) : Run.Refines x x := fun _ => .inr rfl

theorem trans {x y z : Run α} (h : Run.Refines x y) (k : Run.Refines y z) : Run.Refines x z := by
  intro m
  rcases h m with h | h
  · exact .inl h
  · exact (k m).imp (congrArg Prod.fst h).trans h.trans

theorem bind {x y : Run α} {f g : α → Run β} (h : Run.Refines x y)
    (k : ∀ a, Run.Refines (f a) (g a)) : Run.Refines (x >>= f) (y >>= g) := by
  intro m
  rw [run_bind, run_bind]
  rcases h m with h | h
  · rcases hx : x.run m with ⟨e | a, t⟩
    · rw [hx] at h
      exact .inl (congrArg _ (Except.error.inj h))
    · rw [hx] at h
      cases h
  · rw [← h]
    rcases x.run m with ⟨e | a, t⟩
    · exact .inr rfl
    · exact k a t

theorem foldlM {items : List α} {f g : β → α → Run β} (h : ∀ b a, Run.Refines (f b a) (g b a))
    (start : β) : Run.Refines (items.foldlM f start) (items.foldlM g start) := by
  induction items generalizing start with
  | nil => exact refl _
  | cons a rest ih =>
    rw [List.foldlM_cons, List.foldlM_cons]
    exact (h start a).bind ih

theorem mapM {items : List α} {f g : α → Run β} (h : ∀ a, Run.Refines (f a) (g a)) :
    Run.Refines (items.mapM f) (items.mapM g) := by
  induction items with
  | nil => exact refl _
  | cons a rest ih =>
    rw [List.mapM_cons, List.mapM_cons]
    exact (h a).bind fun b => ih.bind fun bs => refl _

theorem body {x y : Run Value} (h : Run.Refines x y) :
    Run.Refines (Run.body x) (Run.body y) := by
  intro m
  rw [Run.run_body, Run.run_body]
  rcases h m with h | h
  · rcases hx : x.run m with ⟨e | a, t⟩
    · rw [hx] at h
      rw [Except.error.inj h]
      exact .inl rfl
    · rw [hx] at h
      cases h
  · rw [h]
    exact .inr rfl

theorem turn {x y : Run Bool} (h : Run.Refines x y) {x' y' : Run Value} (h' : Run.Refines x' y') :
    Run.Refines (do if ← x then x' else return .null) (do if ← y then y' else return .null) := by
  refine h.bind fun more => ?_
  cases more with
  | true => exact h'
  | false => exact refl _

theorem repeatWhile {x y : Run Bool} (h : Run.Refines x y) {fuel fuel' : Nat}
    (hf : fuel ≤ fuel') : Run.Refines (Run.repeatWhile x fuel) (Run.repeatWhile y fuel') := by
  induction fuel generalizing fuel' with
  | zero => exact fun _ => .inl rfl
  | succ fuel ih =>
    obtain ⟨k, rfl⟩ := Nat.exists_eq_add_of_le hf
    rw [Nat.add_right_comm, Run.repeatWhile_succ, Run.repeatWhile_succ]
    exact turn h (ih (Nat.le_add_right fuel k))

theorem forItems {items : List α} {x y : α → Run Bool} (h : ∀ a, Run.Refines (x a) (y a)) :
    Run.Refines (Run.forItems x items) (Run.forItems y items) := by
  induction items with
  | nil => exact refl _
  | cons a rest ih =>
    rw [Run.forItems_cons, Run.forItems_cons]
    exact turn (h a) ih

end Run.Refines

namespace Job

variable {j : Job} {ev ev' : Evaluator}
  (hev : ∀ id frame, Run.Refines (ev id frame) (ev' id frame))

include hev

theorem evalChain_refines (head : Option NodeId) (frame : Nat) :
    Run.Refines (j.evalChain ev head frame) (j.evalChain ev' head frame) :=
  .foldlM (fun _ id => hev id frame) _

theorem evalBlock_refines (head : Option NodeId) (frame : Nat) :
    Run.Refines (j.evalBlock ev head frame) (j.evalBlock ev' head frame) := by
  cases head with
  | none => exact .refl _
  | some id => exact (Run.Refines.refl _).bind fun inner => evalChain_refines hev _ inner

theorem evalAll_refines (ids : List NodeId) (frame : Nat) :
    Run.Refines (evalAll ev ids frame) (evalAll ev' ids frame) :=
  .mapM fun id => hev id frame

theorem evalPairs_refines (frame : Nat) (ids : List NodeId) :
    Run.Refines (evalPairs ev frame ids) (evalPairs ev' frame ids) := by
  induction ids using evalPairs.induct with
  | case1 => exact .refl _
  | case2 k => exact (hev k frame).bind fun _ => .refl _
  | case3 k v rest ih =>
    refine (hev k frame).bind fun key => (hev v frame).bind fun value => ?_
    exact (Run.Refines.refl _).bind fun key => ih.bind fun pairs => .refl _

theorem evalTest_refines (test : NodeId) (frame : Nat) :
    Run.Refines (evalTest ev test frame) (evalTest ev' test frame) :=
  (hev test frame).bind fun _ => .refl _

theorem evalNode_refines {fuel fuel' : Nat} (hf : fuel ≤ fuel') (frame : Nat) (kind : NodeKind) :
    Run.Refines (j.evalNode ev fuel frame kind) (j.evalNode ev' fuel' frame kind) := by
  have same {α : Type} (x : Run α) := Run.Refines.refl x
  cases kind with
  | literal | this | var | brk | typeRef => exact same _
  | declare name type init => exact (hev init frame).bind fun v => same _
  | declareAt slot name type init => exact (hev init frame).bind fun v => same _
  | assign name value => exact (hev value frame).bind fun v => same _
  | binary op left right =>
    cases op with
    | and =>
      refine (evalTest_refines hev left frame).bind fun b => ?_
      cases b with
      | true => exact (evalTest_refines hev right frame).bind fun _ => same _
      | false => exact same _
    | or =>
      refine (evalTest_refines hev left frame).bind fun b => ?_
      cases b with
      | true => exact same _
      | false => exact (evalTest_refines hev right frame).bind fun _ => same _
    | _ => exact (hev left frame).bind fun l => (hev right frame).bind fun r => same _
  | not operand => exact (evalTest_refines hev operand frame).bind fun _ => same _
  | cond test onTrue onFalse =>
    exact (evalTest_refines hev test frame).bind fun _ => evalBlock_refines hev _ frame
  | block body => exact evalBlock_refines hev body frame
  | doWhile body test =>
    refine (same _).bind fun inner => .repeatWhile ((same _).bind fun _ => ?_) hf
    refine (evalChain_refines hev body inner).body.bind fun more => ?_
    cases more with
    | true => exact evalTest_refines hev test frame
    | false => exact same _
  | whileDo test body =>
    refine (same _).bind fun inner => .repeatWhile ((same _).bind fun _ => ?_) hf
    refine (evalTest_refines hev test frame).bind fun more => ?_
    cases more with
    | true => exact (evalChain_refines hev body inner).body
    | false => exact same _
  | forEach item iterable body =>
    refine (hev iterable frame).bind fun v => (same _).bind fun m => (same _).bind fun items => ?_
    refine (same _).bind fun inner => .forItems fun w => ?_
    refine (same _).bind fun _ => (same _).bind fun _ => ?_
    exact (evalChain_refines hev body inner).body
  | ret value => exact (hev value frame).bind fun v => same _
  | listLit range => exact (evalAll_refines hev _ frame).bind fun values => same _
  | mapLit range => exact (evalPairs_refines hev frame _).bind fun pairs => same _
  | setLit range => exact (evalAll_refines hev _ frame).bind fun values => same _
  | call receiver method args =>
    exact (hev receiver frame).bind fun v => (evalAll_refines hev _ frame).bind fun _ => same _

end Job

namespace Job

theorem eval_refines (j : Job) {fuel fuel' : Nat} (h : fuel ≤ fuel') (id : NodeId) (frame : Nat) :
    Run.Refines (j.eval fuel id frame) (j.eval fuel' id frame) := by
  induction fuel generalizing fuel' id frame with
  | zero => exact fun _ => .inl rfl
  | succ fuel ih =>
    obtain ⟨k, rfl⟩ := Nat.exists_eq_add_of_le h
    rw [Nat.add_right_comm, eval, eval]
    dsimp only
    cases j.arena.kind? id with
    | none => exact .refl _
    | some kind =>
      have hle := Nat.le_add_right fuel k
      exact evalNode_refines (fun id frame => ih hle id frame) hle frame kind

theorem interpret_refines (j : Job) {fuel fuel' : Nat} (h : fuel ≤ fuel') (head : Option NodeId)
    (frame : Nat) : Run.Refines (j.interpret fuel head frame) (j.interpret fuel' head frame) :=
  evalChain_refines (fun id frame => j.eval_refines h id frame) head frame

end Job

end MeteredScript

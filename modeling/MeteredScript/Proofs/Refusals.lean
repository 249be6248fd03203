import MeteredScript.Evaluation
import MeteredScript.Proofs.Evaluation.Honesty
import MeteredScript.Proofs.Evaluation.Running

/-!
# Calls that fail

Whatever a built-in method checks, it checks before it begins. A script that gets a fault from one
finds the store as the last of its arguments left it: contents, memory, totals and journals, and the
identities that are still to be given.
-/

namespace MeteredScript

namespace Environment

variable {e : Environment} {receiver : Value} {method : Name} {args : List Value} {f : Fault}

/-- No container has to fit the receiver for this, and every list may be reordered. -/
theorem callBuiltIn_clean {account : Nat} {name : String} {s : Store}
    (h : ((callBuiltIn account receiver name args).run s).1 = .error f) :
    ((callBuiltIn account receiver name args).run s).2 = s := by
  have honest : StoreM.Honest (s.Suits receiver) (fun _ => True) s
      (callBuiltIn account receiver name args) :=
    callBuiltIn_honest account receiver name args fun _ _ _ => trivial
  exact (honest.clean f h).1

/-- A call on a value that is no native type is refused by the sandbox, or is a built-in one. -/
theorem call_run (e : Environment) (method : Name) (args : List Value) (m : Machine)
    (hr : owner? receiver = none) :
    (∃ fault : SandboxFault, (e.call receiver method args).run m = (.error fault.toFault, m)) ∨
      (e.call receiver method args).run m =
        (Act.onStore (callBuiltIn m.context.account receiver (e.names.lookup method) args)).run
          m := by
  unfold call
  dsimp only
  split
  · next fault _ => exact .inl ⟨fault, rfl⟩
  · split
    · cases hr
    · exact .inr rfl

theorem call_clean {m : Machine} (hr : owner? receiver = none)
    (h : ((e.call receiver method args).run m).1 = .error f) :
    ((e.call receiver method args).run m).2 = m := by
  rcases call_run e method args m hr with ⟨fault, hrun⟩ | hrun
  · rw [hrun]
  · rw [hrun, run_onStore] at h ⊢
    rw [callBuiltIn_clean h]

/-- A call of a built-in method that fails changes nothing, be it called on the store or by a
script. -/
theorem failed_call_unchanged (receiver : Value) (args : List Value) (f : Fault) :
    (∀ (account : Nat) (name : String) (s : Store),
      ((callBuiltIn account receiver name args).run s).1 = .error f →
        ((callBuiltIn account receiver name args).run s).2 = s) ∧
      (owner? receiver = none → ∀ (e : Environment) (method : Name) (m : Machine),
        ((e.call receiver method args).run m).1 = .error f →
          ((e.call receiver method args).run m).2 = m) := by
  constructor
  · intro account name s
    exact callBuiltIn_clean
  · intro hr e method m
    exact call_clean hr

/-- A map with a value that is no key, on an account with a journal. -/
def keyless : Store :=
  ((do
    let inner ← Lists.create 0 []
    Maps.create 0 [(.str "a", .int 1), (.str "b", .list inner)] : StoreM Handle).run
      ⟨#[.opened .bySize true], #[]⟩).2

theorem failed_call_unchanged_invert :
    ((callBuiltIn 0 (.map ⟨1, .owner⟩) "invert" []).run keyless).1 =
        .error (.typeMismatch "hashable scalar" "list") ∧
      ((callBuiltIn 0 (.map ⟨1, .owner⟩) "invert" []).run keyless).2 = keyless := by
  have hf : ((callBuiltIn 0 (.map ⟨1, .owner⟩) "invert" []).run keyless).1 =
      .error (.typeMismatch "hashable scalar" "list") := by decide +kernel
  exact ⟨hf, (failed_call_unchanged _ _ _).1 0 "invert" keyless hf⟩

end Environment

namespace Job

variable {j : Job} {ev : Evaluator} {fuel frame : Nat} {receiver : NodeId} {method : Name}
  {args : NodeRange}

/-- A call in a script that fails did so in its receiver, or in its arguments, or else it left the
machine as its arguments did, if it was no call of a native type. -/
theorem evalNode_call_error {m t : Machine} {f : Fault}
    (h : (j.evalNode ev fuel frame (.call receiver method args)).run m = (.error (.fault f), t)) :
    (ev receiver frame).run m = (.error (.fault f), t) ∨
      ∃ v m₁, (ev receiver frame).run m = (.ok v, m₁) ∧
        ((evalAll ev (j.arena.operands args) frame).run m₁ = (.error (.fault f), t) ∨
          ∃ values m₂, (evalAll ev (j.arena.operands args) frame).run m₁ = (.ok values, m₂) ∧
            (Environment.owner? v = none → t = m₂)) := by
  rw [evalNode, run_bind] at h
  split at h
  · next v m₁ hv =>
    refine .inr ⟨v, m₁, hv, ?_⟩
    rw [run_bind] at h
    split at h
    · next values m₂ hvalues =>
      refine .inr ⟨values, m₂, hvalues, fun hr => ?_⟩
      rw [Run.run_act] at h
      split at h
      · cases (Prod.mk.inj h).1
      · next fault m₃ hcall =>
        obtain rfl := (Prod.mk.inj h).2
        have hclean : ((j.environment.call v method values).run m₂).2 = m₂ :=
          Environment.call_clean hr (congrArg Prod.fst hcall)
        rwa [hcall] at hclean
    · next e m₂ hvalues =>
      obtain ⟨he, rfl⟩ := Prod.mk.inj h
      obtain rfl := Except.error.inj he
      exact .inl hvalues
  · next e m₁ hv => exact .inl (hv.trans h)

end Job

end MeteredScript

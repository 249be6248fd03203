import MeteredScript.Evaluation.Calls
import MeteredScript.Evaluation.Run

/-!
# Runs and their parts

What an operation does from one state, in terms of what its parts do.
-/

namespace MeteredScript

/-- A sequence of operations runs the second one only if the first one has a result. -/
theorem run_bind {ε σ α β : Type} (x : ExceptT ε (StateM σ) α)
    (f : α → ExceptT ε (StateM σ) β) (s : σ) : (x >>= f).run s = match x.run s with
      | (.ok a, t) => (f a).run t
      | (.error e, t) => (.error e, t) := by
  change (ExceptT.bindCont f (x.run s).1).run (x.run s).2 = _
  rcases x.run s with ⟨_ | a, t⟩ <;> rfl

/-- A sequence that has a result went through a result of its first part. -/
theorem run_bind_ok {ε σ α β : Type} {x : ExceptT ε (StateM σ) α}
    {f : α → ExceptT ε (StateM σ) β} {s t : σ} {b : β} (h : (x >>= f).run s = (.ok b, t)) :
    ∃ a u, x.run s = (.ok a, u) ∧ (f a).run u = (.ok b, t) := by
  rw [run_bind] at h
  split at h
  · next a u hx => exact ⟨a, u, hx, h⟩
  · cases (Prod.mk.inj h).1

theorem run_get_bind {ε σ α : Type} (f : σ → ExceptT ε (StateM σ) α) (s : σ) :
    (get >>= f).run s = (f s).run s := rfl

/-- What is found in an association is one of its pairs. -/
theorem mem_of_lookup_eq_some {κ α : Type} [BEq κ] [LawfulBEq κ] {k : κ} {a : α}
    {pairs : List (κ × α)} (h : pairs.lookup k = some a) : (k, a) ∈ pairs := by
  obtain ⟨l₁, l₂, rfl, _⟩ := List.lookup_eq_some_iff.mp h
  exact List.mem_append_right _ List.mem_cons_self

theorem run_onStore {α : Type} (x : StoreM α) (m : Machine) :
    (Act.onStore x).run m = ((x.run m.store).1, { m with store := (x.run m.store).2 }) := rfl

namespace Run

variable {α : Type}

theorem run_act (x : Act α) (m : Machine) :
    (Run.act x).run m = match x.run m with
      | (.ok a, m) => (.ok a, m)
      | (.error f, m) => (.error (.fault f), m) := rfl

theorem run_body (x : Run Value) (m : Machine) :
    (Run.body x).run m = match x.run m with
      | (.ok _, m) => (.ok true, m)
      | (.error .broke, m) => (.ok false, m)
      | (.error e, m) => (.error e, m) := rfl

theorem repeatWhile_succ (x : Run Bool) (fuel : Nat) :
    repeatWhile x (fuel + 1) = do if ← x then repeatWhile x fuel else return .null := by
  funext m
  change _ = (x >>= fun more => if more then repeatWhile x fuel else return .null).run m
  rw [run_bind, repeatWhile]
  dsimp only
  rcases x.run m with ⟨_ | _ | _, t⟩ <;> rfl

theorem forItems_cons (x : α → Run Bool) (item : α) (rest : List α) :
    forItems x (item :: rest) = do if ← x item then forItems x rest else return .null := by
  funext m
  change _ = (x item >>= fun more => if more then forItems x rest else return .null).run m
  rw [run_bind, forItems]
  dsimp only
  rcases (x item).run m with ⟨_ | _ | _, t⟩ <;> rfl

end Run

/-! ## Calls -/

namespace Environment

variable {P : Act Value → Prop} {e : Environment} {method : Name} {args : List Value}

/-- A native type is called by calling one of the functions that are registered, unless there is
none. -/
theorem callNative_cases {t : NativeType}
    (missing : P (throw (.noSuchMethod (e.names.lookup method) t.name)))
    (h : ∀ n ∈ e.configuration.natives, ∀ f ∈ n.methods, P (f.2 args)) :
    P (e.callNative t method args) := by
  unfold callNative
  cases hfound : (e.configuration.native? t.path).bind (·.methods.lookup method) with
  | none => exact missing
  | some f =>
    obtain ⟨n, hclass, hmethod⟩ := Option.bind_eq_some_iff.mp hfound
    exact h n (List.mem_of_find?_eq_some hclass) (method, f) (mem_of_lookup_eq_some hmethod)

/-- A call is refused by the sandbox, or goes to a native type, or to a value of the store. -/
theorem call_cases {receiver : Value} (refused : ∀ f : SandboxFault, P (throw f.toFault))
    (native : ∀ t : NativeType, P (e.callNative t method args))
    (builtIn : P (do
      let m ← get
      Act.onStore (callBuiltIn m.context.account receiver (e.names.lookup method) args))) :
    P (e.call receiver method args) := by
  unfold call
  dsimp only
  split
  · exact refused _
  · split
    · exact native _
    · exact builtIn

end Environment

end MeteredScript

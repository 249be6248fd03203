import MeteredScript.Evaluation

/-!
# Faults of checks and operators

An evaluation is stopped by the liveness check of its context only. The faults of other checks, and
those of operators on values, are ordinary ones.
-/

namespace MeteredScript

/-- No fault by which an evaluation is stopped. -/
def Ordinary {α : Type} (x : Except Fault α) : Prop := ∀ f, x = .error f → f.isLiveness = false

namespace Ordinary

variable {α β : Type}

@[simp] theorem ok (a : α) : Ordinary (.ok a : Except Fault α) := by
  intro f h
  cases h

@[simp] theorem error {f : Fault} :
    Ordinary (.error f : Except Fault α) ↔ f.isLiveness = false := by
  constructor
  · exact fun h => h f rfl
  · intro h g hg
    cases hg
    exact h

theorem bind {x : Except Fault α} {f : α → Except Fault β} (hx : Ordinary x)
    (hf : ∀ a, Ordinary (f a)) : Ordinary (x >>= f) := by
  cases x with
  | error g => exact error.mpr (error.mp hx)
  | ok a => exact hf a

theorem mapM {f : α → Except Fault β} (hf : ∀ a, Ordinary (f a)) (items : List α) :
    Ordinary (items.mapM f) := by
  induction items with
  | nil => exact ok []
  | cons a rest ih =>
    rw [List.mapM_cons]
    exact (hf a).bind fun b => ih.bind fun bs => ok (b :: bs)

theorem foldlM {f : β → α → Except Fault β} (hf : ∀ b a, Ordinary (f b a)) (items : List α)
    (b : β) : Ordinary (items.foldlM f b) := by
  induction items generalizing b with
  | nil => exact ok b
  | cons a rest ih =>
    rw [List.foldlM_cons]
    exact (hf b a).bind ih

end Ordinary

/-! ## Checks -/

theorem Key.ofValue_ordinary (v : Value) : Ordinary (Key.ofValue v) := by
  cases v <;> simp [Key.ofValue, Fault.isLiveness]

theorem Value.requireBool_ordinary (v : Value) : Ordinary v.requireBool := by
  cases v <;> simp [requireBool, Fault.isLiveness]

theorem Handle.checkOwner_ordinary (h : Handle) (operation : String) :
    Ordinary (h.checkOwner operation) := by
  unfold checkOwner
  split <;> simp [Fault.isLiveness]

theorem Handle.checkOwner_ok {h : Handle} {operation : String} {u : Unit}
    (ho : h.checkOwner operation = .ok u) (other : String) : h.checkOwner other = .ok () := by
  unfold checkOwner at ho ⊢
  split at ho
  · cases ho
  · next hv => exact if_neg hv

theorem checkType_ordinary (type : Option ValueType) (v : Value) : Ordinary (checkType type v) := by
  unfold checkType
  split
  · split <;> simp [Fault.isLiveness]
  · simp

theorem Position.ofElement_ordinary (index : Int) (length : Nat) :
    Ordinary (ofElement index length) := by
  unfold ofElement
  split <;> simp [Fault.isLiveness]

theorem Position.ofGap_ordinary (index : Int) (length : Nat) : Ordinary (ofGap index length) := by
  unfold ofGap
  split <;> simp [Fault.isLiveness]

theorem Sorting.textRank_ordinary (v : Value) : Ordinary (textRank v) := by
  cases v <;> simp [textRank, Fault.isLiveness]

theorem Sorting.sortBy_ordinary {α : Type} (valueOf : α → Value) (ascending : Bool)
    (items : List α) : Ordinary (sortBy valueOf ascending items) := by
  have hranks : Ordinary (ranks (items.map valueOf)) := by
    unfold ranks
    split
    · simp
    · exact .mapM textRank_ordinary _
  exact hranks.bind fun keys => .ok _

theorem Entries.inverseGroups_ordinary (pairs : List (Key × Value)) :
    Ordinary (inverseGroups pairs) := by
  apply Ordinary.foldlM
  intro groups p
  exact (Key.ofValue_ordinary p.2).bind fun _ => .ok _

/-! ## Arguments -/

namespace Arguments

variable (args : List Value)

theorem require_ordinary (method : String) (expected : Nat) :
    Ordinary (require method expected args) := by
  unfold require
  split <;> simp [Fault.isLiveness]

theorem requireBetween_ordinary (method : String) (low high : Nat) :
    Ordinary (requireBetween method low high args) := by
  unfold requireBetween
  split <;> simp [Fault.isLiveness]

theorem int_ordinary (i : Nat) : Ordinary (int args i) := by
  unfold int
  split <;> simp [Fault.isLiveness]

theorem intOr_ordinary (i : Nat) (otherwise : Int) : Ordinary (intOr args i otherwise) := by
  unfold intOr
  split
  · exact int_ordinary args i
  · simp

theorem text_ordinary (i : Nat) : Ordinary (text args i) := by
  unfold text
  split <;> simp [Fault.isLiveness]

theorem ascending_ordinary : Ordinary (ascending args) := by
  cases args with
  | nil => exact .ok true
  | cons v _ => exact v.requireBool_ordinary

theorem key_ordinary (i : Nat) : Ordinary (key args i) := Key.ofValue_ordinary _

theorem elements_ordinary (s : Store) (i : Nat) : Ordinary (elements s args i) := by
  unfold elements
  split <;> simp [Fault.isLiveness]

end Arguments

theorem ListMethod.appended_ordinary (s : Store) (args : List Value) :
    Ordinary (appended s args) := by
  unfold appended
  split
  · exact Arguments.elements_ordinary args s 0
  · exact Arguments.elements_ordinary args s 0
  · simp

/-! ## Operators and types -/

theorem Operators.exact_ordinary (op : BinaryOp) (i : Int) : Ordinary (exact op i) := by
  unfold Operators.exact
  split <;> simp [Fault.isLiveness]

theorem Operators.onInts_ordinary (a b : Int64) (op : BinaryOp) : Ordinary (onInts a b op) := by
  cases op with
  | add | sub | mul => exact exact_ordinary _ _
  | div =>
    simp only [onInts]
    split <;> simp [exact_ordinary, Fault.isLiveness]
  | rem =>
    simp only [onInts]
    repeat' split
    all_goals simp [exact_ordinary, Fault.isLiveness]
  | lt | ltEq | gt | gtEq => exact .ok _
  | eq | notEq | and | or => simp [onInts, relation, mismatch, Fault.isLiveness]

theorem Operators.onTexts_ordinary (a b : String) (op : BinaryOp) : Ordinary (onTexts a b op) := by
  unfold onTexts
  split <;> simp [mismatch, Fault.isLiveness]

theorem Operators.evaluate_ordinary (s : Store) (left right : Value) (op : BinaryOp) :
    Ordinary (evaluate s left right op) := by
  unfold evaluate
  repeat' split
  all_goals simp [onInts_ordinary, onTexts_ordinary, mismatch, Fault.isLiveness]

theorem SandboxFault.toFault_ordinary (f : SandboxFault) : f.toFault.isLiveness = false := by
  cases f <;> rfl

theorem Environment.typePath_ordinary (e : Environment) (name : Name) :
    Ordinary (e.typePath name) := by
  unfold typePath
  split
  · split <;> simp [Fault.isLiveness]
  · dsimp only
    split
    · exact .ok _
    · simp [Fault.isLiveness]
    · exact Ordinary.error.mpr (SandboxFault.toFault_ordinary _)

theorem Environment.resolveType_ordinary (e : Environment) (name : Name) :
    Ordinary (e.resolveType name) := by
  unfold resolveType
  split
  · next f hf => simpa using e.typePath_ordinary name f hf
  · split <;> simp [Fault.isLiveness]

theorem Job.iterated_ordinary (s : Store) (v : Value) : Ordinary (iterated s v) := by
  cases v <;> simp [iterated, Fault.isLiveness]

end MeteredScript

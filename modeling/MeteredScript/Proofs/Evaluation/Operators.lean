import MeteredScript.Arena
import MeteredScript.Evaluation.Operators

/-!
# Results of operators

The types of two operands settle the type of what an operator answers, which is a scalar. A type
that is inferred from types that accept the operands accepts the answer.
-/

namespace MeteredScript

namespace Value

theorem type_ne_any (v : Value) : v.type ≠ .any := by cases v <;> exact nofun

theorem isScalar_of_type {v : Value} (h : v.type ∈ [.any, .bool, .int, .float, .str]) :
    v.isScalar = true := by
  cases v <;> first | rfl | simp [type] at h

end Value

/-! ## Types of arithmetic -/

namespace Arena

variable {op : BinaryOp} {left right l r : ValueType}

theorem arithmeticType_accepts_int (hl : left.accepts .int = true) (hr : right.accepts .int = true) :
    (arithmeticType op left right).accepts .int = true := by
  cases left <;> simp [ValueType.accepts] at hl <;> cases right <;>
    simp [ValueType.accepts] at hr <;> rfl

/-- A number and a float, in any order. -/
theorem arithmeticType_accepts_float (hl : left.accepts .int = true)
    (hr : right.accepts .int = true)
    (h : left.accepts .float = true ∨ right.accepts .float = true) :
    (arithmeticType op left right).accepts .float = true := by
  cases left <;> simp [ValueType.accepts] at hl <;> cases right <;>
    simp [ValueType.accepts] at hr h <;> rfl

theorem arithmeticType_accepts_str (h : left.accepts .str = true ∨ right.accepts .str = true) :
    (arithmeticType .add left right).accepts .str = true := by
  revert h; cases left <;> cases right <;> decide

theorem arithmeticType_text (h : left = .str ∨ right = .str) :
    arithmeticType .add left right = .str := by
  revert h; cases left <;> cases right <;> decide

theorem arithmeticType_mem (op : BinaryOp) (left right : ValueType) :
    arithmeticType op left right ∈ [.any, .bool, .int, .float, .str] := by
  fun_cases arithmeticType op left right <;> decide

/-- What accepts a float accepts an int. -/
theorem accepts_int_of_float {t : ValueType} (h : t.accepts .float = true) :
    t.accepts .int = true :=
  ValueType.accepts_trans h rfl

/-- If the type of a result is known, it is accepted by the type inferred from less. -/
theorem arithmeticType_accepts (hl : left.accepts l = true) (hr : right.accepts r = true)
    (h : arithmeticType op l r ≠ .any) :
    (arithmeticType op left right).accepts (arithmeticType op l r) = true := by
  revert h
  fun_cases arithmeticType op l r with
  | case1 => exact fun _ => arithmeticType_accepts_int hl hr
  | case2 => exact fun _ => arithmeticType_accepts_float (accepts_int_of_float hl) hr (.inl hl)
  | case3 =>
    exact fun _ =>
      arithmeticType_accepts_float (accepts_int_of_float hl) (accepts_int_of_float hr) (.inl hl)
  | case4 => exact fun _ => arithmeticType_accepts_float hl (accepts_int_of_float hr) (.inr hr)
  | case5 r ha => exact fun _ => ha ▸ arithmeticType_accepts_str (.inl hl)
  | case7 l ha => exact fun _ => ha ▸ arithmeticType_accepts_str (.inr hr)
  | case6 | case8 | case9 => exact fun h => absurd rfl h

end Arena

namespace Operators

variable {op : BinaryOp} {v : Value}

theorem exact_type {i : Int} (h : exact op i = .ok v) : v.type = .int := by
  unfold exact at h
  split at h
  · exact Except.ok.inj h ▸ rfl
  · cases h

theorem isBoolean_of_relation {o : Ordering} {b : Bool} (h : relation o op = some b) :
    op.isBoolean = true := by
  cases op <;> first | rfl | cases h

theorem onInts_type {a b : Int64} (h : onInts a b op = .ok v) :
    v.type = if op.isBoolean then .bool else .int := by
  unfold onInts at h
  cases op with
  | add | sub | mul => exact exact_type h
  | div =>
    dsimp only at h
    split at h
    · cases h
    · exact exact_type h
  | rem =>
    dsimp only at h
    split at h
    · cases h
    · split at h
      · cases h
      · exact exact_type h
  | _ =>
    dsimp only at h
    split at h
    · exact Except.ok.inj h ▸ rfl
    · cases h

theorem onFloats_type (x y : Binary64) (op : BinaryOp) :
    (onFloats x y op).type = if op.isBoolean then .bool else .float := by
  cases op <;> rfl

theorem onTexts_type {a b : String} (h : onTexts a b op = .ok v) :
    v.type = .bool ∧ op.isBoolean = true := by
  unfold onTexts at h
  split at h
  · next hr => exact ⟨Except.ok.inj h ▸ rfl, isBoolean_of_relation hr⟩
  · cases h

/-- The type of an answer is the one that the operands have been given to have. -/
theorem evaluate_type {s : Store} {left right : Value} (h : evaluate s left right op = .ok v) :
    v.type = if op.isBoolean then .bool else Arena.arithmeticType op left.type right.type := by
  unfold evaluate at h
  split at h
  · exact Except.ok.inj h ▸ rfl
  · exact Except.ok.inj h ▸ rfl
  · split at h
    · exact onInts_type h
    · exact Except.ok.inj h ▸ onFloats_type _ _ _
    · exact Except.ok.inj h ▸ onFloats_type _ _ _
    · exact Except.ok.inj h ▸ onFloats_type _ _ _
    · split at h
      · next ha => exact Except.ok.inj h ▸ ha ▸ rfl
      · obtain ⟨ht, hb⟩ := onTexts_type h
        rw [ht, if_pos hb]
    · split at h
      · next ha => exact Except.ok.inj h ▸ ha ▸ rfl
      · cases h
    · split at h
      · next ha =>
        rw [← Except.ok.inj h, ha]
        exact (Arena.arithmeticType_text (.inr rfl)).symm
      · cases h
    · cases h

/-- A type that is inferred from types which accept the operands accepts the answer. -/
theorem evaluate_accepts {s : Store} {l r : Value} {left right : ValueType}
    (h : evaluate s l r op = .ok v) (hl : left.accepts l.type = true)
    (hr : right.accepts r.type = true) :
    (if op.isBoolean then .bool else Arena.arithmeticType op left right).accepts v.type = true := by
  have ht := evaluate_type h
  split at ht
  · next hb => rw [ht, if_pos hb]; rfl
  · next hb =>
    have hknown : Arena.arithmeticType op l.type r.type ≠ .any := ht ▸ v.type_ne_any
    rw [ht, if_neg hb]
    exact Arena.arithmeticType_accepts hl hr hknown

theorem evaluate_isScalar {s : Store} {left right : Value} (h : evaluate s left right op = .ok v) :
    v.isScalar = true := by
  refine Value.isScalar_of_type ?_
  rw [evaluate_type h]
  split
  · decide
  · exact Arena.arithmeticType_mem op left.type right.type

end Operators

end MeteredScript

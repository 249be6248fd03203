import Mathlib.Logic.ExistsUnique
import MeteredScript.Evaluation.Operators

/-!
# Operators on integers

What an operator answers on two integers of 64 bits is the exact result, or a fault that says why
there is none. No sum, difference or product wraps. One quotient does not fit, and the remainder that
belongs to it is refused with it.
-/

namespace MeteredScript.Operators

/-! ## Results of 64 bits -/

/-- The answer is this integer if 64 bits hold it, and otherwise the overflow of the operator. -/
structure Exactly (symbol : String) (z : Int) (answer : Except Fault Value) : Prop where
  value : ∀ c : Int64, answer = .ok (.int c) ↔ c.toInt = z
  overflow : answer = .error (.integerOverflow symbol) ↔ ∀ c : Int64, c.toInt ≠ z

theorem fits_iff {z : Int} :
    (Int64.minValue.toInt ≤ z ∧ z ≤ Int64.maxValue.toInt) ↔ ∃ c : Int64, c.toInt = z := by
  constructor
  · intro ⟨hlow, hhigh⟩
    refine ⟨.ofInt z, Int64.toInt_ofInt_of_le ?_ ?_⟩
    · exact Int64.toInt_minValue ▸ hlow
    · exact Int.lt_of_le_sub_one (Int64.toInt_maxValue ▸ hhigh)
  · rintro ⟨c, rfl⟩
    exact ⟨c.minValue_le_toInt, c.toInt_le⟩

theorem exact_toInt (op : BinaryOp) (c : Int64) : exact op c.toInt = .ok (.int c) := by
  rw [exact, if_pos (fits_iff.mpr ⟨c, rfl⟩), Int64.ofInt_toInt]

theorem exact_exactly (op : BinaryOp) (z : Int) : Exactly op.symbol z (exact op z) := by
  by_cases h : ∃ c : Int64, c.toInt = z
  · obtain ⟨c, rfl⟩ := h
    rw [exact_toInt]
    exact ⟨fun d => by simp [Int64.toInt_inj, eq_comm], by simp⟩
  · have hno : ∀ c : Int64, c.toInt ≠ z := fun c hc => h ⟨c, hc⟩
    rw [exact, if_neg (mt fits_iff.mp h)]
    exact ⟨by simp [hno], by simp [hno]⟩

theorem exact_fault {op : BinaryOp} {z : Int} {f : Fault} (h : exact op z = .error f) :
    f = .integerOverflow op.symbol := by
  unfold exact at h
  split at h
  · cases h
  · exact (Except.error.inj h).symm

/-! ## Division -/

section Division

variable {a b : Int64} {op : BinaryOp}

/-- The one division whose quotient 64 bits do not hold. -/
def QuotientOverflows (a b : Int64) : Prop := a = Int64.minValue ∧ b = -1

theorem toInt_eq_zero_iff : b.toInt = 0 ↔ b = 0 := by
  rw [← Int64.toInt_zero, Int64.toInt_inj]

theorem QuotientOverflows.ne_zero (h : QuotientOverflows a b) : b ≠ 0 := by
  obtain ⟨-, rfl⟩ := h
  decide

theorem tdiv_eq_toInt (h : ¬ QuotientOverflows a b) : a.toInt.tdiv b.toInt = (a / b).toInt := by
  by_cases ha : a = Int64.minValue
  · exact (Int64.toInt_div_of_ne_right a b fun hb => h ⟨ha, hb⟩).symm
  · exact (Int64.toInt_div_of_ne_left a b ha).symm

theorem onInts_div (hb : b ≠ 0) (h : ¬ QuotientOverflows a b) :
    onInts a b .div = .ok (.int (a / b)) := by
  simp only [onInts]
  rw [if_neg (mt toInt_eq_zero_iff.mp hb), tdiv_eq_toInt h, exact_toInt]

theorem onInts_rem (hb : b ≠ 0) (h : ¬ QuotientOverflows a b) :
    onInts a b .rem = .ok (.int (a % b)) := by
  simp only [onInts]
  rw [if_neg (mt toInt_eq_zero_iff.mp hb), tdiv_eq_toInt h, if_neg (Int.not_lt.mpr (a / b).toInt_le),
    ← Int64.toInt_mod, exact_toInt]

/-- Quotients and remainders fail alike. -/
theorem division_cases (hop : op = .div ∨ op = .rem) (a b : Int64) :
    b = 0 ∧ onInts a b op = .error .divisionByZero ∨
      QuotientOverflows a b ∧ onInts a b op = .error (.integerOverflow op.symbol) ∨
      b ≠ 0 ∧ ¬ QuotientOverflows a b ∧ ∃ c, onInts a b op = .ok (.int c) := by
  by_cases hb : b = 0
  · subst hb
    exact .inl ⟨rfl, by rcases hop with rfl | rfl <;> rfl⟩
  by_cases ho : QuotientOverflows a b
  · obtain ⟨rfl, rfl⟩ := ho
    exact .inr (.inl ⟨⟨rfl, rfl⟩, by rcases hop with rfl | rfl <;> rfl⟩)
  · refine .inr (.inr ⟨hb, ho, ?_⟩)
    rcases hop with rfl | rfl
    · exact ⟨_, onInts_div hb ho⟩
    · exact ⟨_, onInts_rem hb ho⟩

theorem division_byZero_iff (hop : op = .div ∨ op = .rem) :
    onInts a b op = .error .divisionByZero ↔ b = 0 := by
  rcases division_cases hop a b with ⟨hb, h⟩ | ⟨ho, h⟩ | ⟨hb, -, c, h⟩
  · exact iff_of_true h hb
  · simp [h, ho.ne_zero]
  · simp [h, hb]

theorem division_overflow_iff (hop : op = .div ∨ op = .rem) :
    onInts a b op = .error (.integerOverflow op.symbol) ↔ QuotientOverflows a b := by
  rcases division_cases hop a b with ⟨hb, h⟩ | ⟨ho, h⟩ | ⟨-, ho, c, h⟩
  · simpa [h] using fun ho : QuotientOverflows a b => ho.ne_zero hb
  · exact iff_of_true h ho
  · simp [h, ho]

/-- A remainder is smaller than the divisor, and has the sign of the dividend. -/
theorem remainder_bounds (hb : b ≠ 0) :
    (a % b).toInt.natAbs < b.toInt.natAbs ∧ (a % b = 0 ∨ (a % b).toInt.sign = a.toInt.sign) := by
  have hpos : 0 < b.toInt.natAbs := Int.natAbs_pos.mpr (mt toInt_eq_zero_iff.mp hb)
  rw [← toInt_eq_zero_iff, Int64.toInt_mod]
  refine ⟨?_, ?_⟩
  · rw [Int.natAbs_tmod]
    exact Nat.mod_lt _ hpos
  · by_cases hd : b.toInt ∣ a.toInt
    · exact .inl (Int.tmod_eq_zero_of_dvd hd)
    · exact .inr (by rw [Int.sign_tmod, if_neg hd])

end Division

/-! ## Order -/

section Order

variable (s : Store) (a b : Int64)

theorem evaluate_order :
    evaluate s (.int a) (.int b) .lt = .ok (.bool (a.toInt < b.toInt)) ∧
      evaluate s (.int a) (.int b) .ltEq = .ok (.bool (a.toInt ≤ b.toInt)) ∧
      evaluate s (.int a) (.int b) .gt = .ok (.bool (b.toInt < a.toInt)) ∧
      evaluate s (.int a) (.int b) .gtEq = .ok (.bool (b.toInt ≤ a.toInt)) := by
  refine ⟨?_, ?_, ?_, ?_⟩
  · simp only [evaluate, onInts, relation, Int.compare_eq_lt]
  · simp only [evaluate, onInts, relation, Int.compare_ne_gt]
  · simp only [evaluate, onInts, relation, Int.compare_eq_gt]
  · simp only [evaluate, onInts, relation, Int.compare_ne_lt]

theorem evaluate_equality :
    evaluate s (.int a) (.int b) .eq = .ok (.bool (a.toInt = b.toInt)) ∧
      evaluate s (.int a) (.int b) .notEq = .ok (.bool (a.toInt ≠ b.toInt)) := by
  have hsame : s.same (.int a) (.int b) = decide (a.toInt = b.toInt) := by
    simp only [Int64.toInt_inj]
    unfold Store.same
    cases s.containers.size <;> rfl
  simp only [evaluate, hsame, decide_not, and_self]

/-- The strict order or the equality that an ordering stands for. -/
def relationOf : Ordering → BinaryOp
  | .lt => .lt
  | .eq => .eq
  | .gt => .gt

theorem relationOf_mem (o : Ordering) : relationOf o ∈ [BinaryOp.lt, .eq, .gt] := by
  cases o <;> decide

theorem answers_true_iff {p : Prop} [Decidable p] :
    (.ok (.bool p) : Except Fault Value) = .ok (.bool true) ↔ p := by simp

theorem holds_iff {op : BinaryOp} (hop : op ∈ [BinaryOp.lt, .eq, .gt]) :
    evaluate s (.int a) (.int b) op = .ok (.bool true) ↔
      op = relationOf (compare a.toInt b.toInt) := by
  obtain ⟨hlt, -, hgt, -⟩ := evaluate_order s a b
  obtain ⟨heq, -⟩ := evaluate_equality s a b
  simp only [List.mem_cons, List.not_mem_nil, or_false] at hop
  rcases hop with rfl | rfl | rfl
  · rw [hlt, answers_true_iff, ← Int.compare_eq_lt]
    cases compare a.toInt b.toInt <;> decide
  · rw [heq, answers_true_iff, ← Int.compare_eq_eq]
    cases compare a.toInt b.toInt <;> decide
  · rw [hgt, answers_true_iff, ← Int.compare_eq_gt]
    cases compare a.toInt b.toInt <;> decide

end Order

/-! ## All operators -/

section All

variable {s : Store} {a b : Int64} {op : BinaryOp}

theorem evaluate_division (hop : op = .div ∨ op = .rem) :
    evaluate s (.int a) (.int b) op = onInts a b op := by
  rcases hop with rfl | rfl <;> rfl

theorem evaluate_fault {f : Fault} (h : evaluate s (.int a) (.int b) op = .error f) :
    f = .divisionByZero ∨ f = .integerOverflow op.symbol ∨ f = mismatch (.int a) (.int b) op := by
  by_cases hop : op = .div ∨ op = .rem
  · rw [evaluate_division hop] at h
    rcases division_cases hop a b with ⟨-, hk⟩ | ⟨-, hk⟩ | ⟨-, -, c, hk⟩
    · exact .inl (Except.error.inj (h.symm.trans hk))
    · exact .inr (.inl (Except.error.inj (h.symm.trans hk)))
    · cases h.symm.trans hk
  · cases op with
    | add | sub | mul => exact .inr (.inl (exact_fault h))
    | div => exact absurd (.inl rfl) hop
    | rem => exact absurd (.inr rfl) hop
    | eq | notEq | lt | ltEq | gt | gtEq => cases h
    | and | or => exact .inr (.inr (Except.error.inj h).symm)

/-- What operators answer on two integers, if nothing wraps. -/
structure OnIntegers (a b : Int64) (answer : BinaryOp → Except Fault Value) : Prop where
  add : Exactly "+" (a.toInt + b.toInt) (answer .add)
  sub : Exactly "-" (a.toInt - b.toInt) (answer .sub)
  mul : Exactly "*" (a.toInt * b.toInt) (answer .mul)
  byZero : ∀ op, op = .div ∨ op = .rem → (answer op = .error .divisionByZero ↔ b = 0)
  overflow : ∀ op, op = .div ∨ op = .rem →
    (answer op = .error (.integerOverflow op.symbol) ↔ QuotientOverflows a b)
  divided : b ≠ 0 → ¬ QuotientOverflows a b → ∃ q r : Int64,
    answer .div = .ok (.int q) ∧ answer .rem = .ok (.int r) ∧
      q.toInt = a.toInt.tdiv b.toInt ∧ a.toInt = q.toInt * b.toInt + r.toInt ∧
      r.toInt.natAbs < b.toInt.natAbs ∧ (r = 0 ∨ r.toInt.sign = a.toInt.sign)
  equality : answer .eq = .ok (.bool (a.toInt = b.toInt)) ∧
    answer .notEq = .ok (.bool (a.toInt ≠ b.toInt))
  order : answer .lt = .ok (.bool (a.toInt < b.toInt)) ∧
    answer .ltEq = .ok (.bool (a.toInt ≤ b.toInt)) ∧
    answer .gt = .ok (.bool (b.toInt < a.toInt)) ∧
    answer .gtEq = .ok (.bool (b.toInt ≤ a.toInt))
  oneHolds : ∃! op, op ∈ [BinaryOp.lt, .eq, .gt] ∧ answer op = .ok (.bool true)
  logical : ∀ op, op = .and ∨ op = .or →
    answer op = .error (.typeMismatch ("operands for `" ++ op.symbol ++ "`") "int and int")
  faults : ∀ op f, answer op = .error f →
    f = .divisionByZero ∨ f = .integerOverflow op.symbol ∨
      f = .typeMismatch ("operands for `" ++ op.symbol ++ "`") "int and int"

/-- The answers of all operators on integers are exact, or faults. -/
theorem evaluate_ints (s : Store) (a b : Int64) :
    OnIntegers a b (evaluate s (.int a) (.int b)) where
  add := exact_exactly .add _
  sub := exact_exactly .sub _
  mul := exact_exactly .mul _
  byZero := fun op hop => by rw [evaluate_division hop, division_byZero_iff hop]
  overflow := fun op hop => by rw [evaluate_division hop, division_overflow_iff hop]
  divided := by
    intro hb ho
    have hq := tdiv_eq_toInt ho
    refine ⟨a / b, a % b, onInts_div hb ho, onInts_rem hb ho, hq.symm, ?_, remainder_bounds hb⟩
    rw [Int64.toInt_mod, ← hq, Int.tdiv_mul_add_tmod]
  equality := evaluate_equality s a b
  order := evaluate_order s a b
  oneHolds := by
    have hmem := relationOf_mem (compare a.toInt b.toInt)
    exact ⟨_, ⟨hmem, (holds_iff s a b hmem).mpr rfl⟩, fun _ ⟨hop, h⟩ => (holds_iff s a b hop).mp h⟩
  logical := by rintro op (rfl | rfl) <;> rfl
  faults := fun _ _ h => evaluate_fault h

/-- The smallest integer has no quotient by -1, and no remainder, but a quotient by 2. -/
theorem evaluate_ints_minValue :
    evaluate default (.int Int64.minValue) (.int (-1)) .div = .error (.integerOverflow "/") ∧
      evaluate default (.int Int64.minValue) (.int (-1)) .rem = .error (.integerOverflow "%") ∧
      ∃ q r : Int64, evaluate default (.int Int64.minValue) (.int 2) .div = .ok (.int q) ∧
        evaluate default (.int Int64.minValue) (.int 2) .rem = .ok (.int r) ∧
        Int64.minValue.toInt = q.toInt * 2 + r.toInt := by
  have hone := evaluate_ints default Int64.minValue (-1)
  have hover : QuotientOverflows Int64.minValue (-1) := ⟨rfl, rfl⟩
  have htwo : ¬ QuotientOverflows Int64.minValue 2 := fun h => absurd h.2 (by decide)
  obtain ⟨q, r, hq, hr, -, hsum, -⟩ :=
    (evaluate_ints default Int64.minValue 2).divided (by decide) htwo
  exact ⟨(hone.overflow .div (.inl rfl)).mpr hover, (hone.overflow .rem (.inr rfl)).mpr hover,
    q, r, hq, hr, hsum⟩

end All

end MeteredScript.Operators

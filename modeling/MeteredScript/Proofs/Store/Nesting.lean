import MeteredScript.Proofs.Store.Comparing
import MeteredScript.Proofs.Store.ListWriting
import MeteredScript.Store.Display

/-!
# Texts that have an end

Nothing keeps a list or a map from holding itself, and then its text has no end. The other values
nest to some depth; at that depth their text is complete, and it is the same at any greater one.
-/

namespace MeteredScript.Store

/-- The lists and maps that a value leads to are inside each other, and no more than so many. -/
def nests (s : Store) : Nat → Value → Bool
  | 0, .list _ | 0, .map _ => false
  | depth + 1, .list l => (s.items l).all (nests s depth)
  | depth + 1, .map m => (s.entries m).all fun p => nests s depth p.2
  | _, _ => true

variable {s : Store} {d d' : Nat} {v w : Value}

theorem nests_mono (h : s.nests d v = true) (hd : d ≤ d') : s.nests d' v = true := by
  induction d generalizing d' v with
  | zero =>
    cases v with
    | list | map => cases h
    | _ => cases d' <;> rfl
  | succ d ih =>
    obtain ⟨d', rfl⟩ := Nat.exists_eq_add_of_le' (Nat.le_trans (Nat.le_add_left 1 d) hd)
    have hd := Nat.le_of_succ_le_succ hd
    cases v with
    | list l => exact List.all_eq_true.mpr fun v hv => ih (List.all_eq_true.mp h v hv) hd
    | map m => exact List.all_eq_true.mpr fun p hp => ih (List.all_eq_true.mp h p hp) hd
    | _ => rfl

/-- The text of a value is complete as soon as nothing is deeper inside it. -/
theorem displayTo_of_nests (h : s.nests d v = true) (hd : d ≤ d') :
    s.displayTo d' v = s.displayTo d v := by
  induction d generalizing d' v with
  | zero =>
    cases v with
    | list | map => cases h
    | _ => cases d' <;> rfl
  | succ d ih =>
    obtain ⟨d', rfl⟩ := Nat.exists_eq_add_of_le' (Nat.le_trans (Nat.le_add_left 1 d) hd)
    have hd := Nat.le_of_succ_le_succ hd
    cases v with
    | list l =>
      refine congrArg (bracketed _ · _) (List.map_congr_left fun v hv => ?_)
      exact ih (List.all_eq_true.mp h v hv) hd
    | map m =>
      refine congrArg (bracketed _ · _) (List.map_congr_left fun p hp => ?_)
      exact congrArg (p.1.display ++ "=" ++ ·) (ih (List.all_eq_true.mp h p hp) hd)
    | _ => rfl

end MeteredScript.Store

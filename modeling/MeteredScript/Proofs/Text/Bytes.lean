import Mathlib.Data.List.Lex
import Mathlib.Data.String.Basic
import Mathlib.Order.Monotone.Basic

/-!
# Texts by their bytes

Texts are ordered by their characters. That is the order of their bytes: where two characters
differ, the bytes of the smaller one are less at the first place where they differ, and the bytes of
no character begin those of another.
-/

namespace MeteredScript.Text

/-- The bytes of a text in UTF-8, as numbers. -/
def bytes (s : String) : List Nat := s.toByteArray.data.toList.map UInt8.toNat

def charBytes (c : Char) : List Nat := (String.utf8EncodeChar c).map UInt8.toNat

theorem bytes_eq (s : String) : bytes s = s.toList.flatMap charBytes := by
  rw [bytes, ← String.utf8Encode_toList, List.utf8Encode, List.data_toByteArray]
  exact List.map_flatMap

/-- Two lists differ at some place, and where they do so first, the former has less. -/
inductive Precedes : List Nat → List Nat → Prop
  | here {x y : Nat} {xs ys : List Nat} (less : x < y) : Precedes (x :: xs) (y :: ys)
  | later {x : Nat} {xs ys : List Nat} (rest : Precedes xs ys) : Precedes (x :: xs) (x :: ys)

theorem precedes_cons {x y : Nat} {xs ys : List Nat} :
    Precedes (x :: xs) (y :: ys) ↔ x < y ∨ x = y ∧ Precedes xs ys := by
  constructor
  · rintro (less | rest)
    · exact .inl less
    · exact .inr ⟨rfl, rest⟩
  · rintro (less | ⟨rfl, rest⟩)
    · exact .here less
    · exact .later rest

theorem not_precedes_nil {xs : List Nat} : ¬ Precedes xs [] := nofun

/-- What follows makes no difference any more. -/
theorem Precedes.append_lt {xs ys : List Nat} (h : Precedes xs ys) (xs' ys' : List Nat) :
    xs ++ xs' < ys ++ ys' := by
  induction h with
  | here less => exact .rel less
  | later _ ih => exact .cons ih

theorem charBytes_ne_nil (c : Char) : charBytes c ≠ [] := by
  simp [charBytes, String.utf8EncodeChar_ne_nil]

/-- The first byte tells how many there are, and is the larger the more there are. -/
theorem charBytes_precedes {c d : Char} (h : c < d) : Precedes (charBytes c) (charBytes d) := by
  have hlt : c.val.toNat < d.val.toNat := h
  have hbound : d.val.toNat < 0x110000 := by
    rcases d.valid with hd | ⟨-, hd⟩ <;> omega
  simp only [charBytes, String.utf8EncodeChar]
  generalize c.val.toNat = n at hlt
  generalize d.val.toNat = m at hlt hbound
  split_ifs <;>
    simp (disch := omega) only [List.map_cons, List.map_nil, UInt8.toNat_ofNat', Nat.mod_eq_of_lt,
      precedes_cons, not_precedes_nil] <;>
    omega

theorem flatMap_charBytes_lt {l m : List Char} (h : l < m) :
    l.flatMap charBytes < m.flatMap charBytes := by
  induction h with
  | @nil c rest =>
    obtain ⟨x, xs, hx⟩ := List.exists_cons_of_ne_nil (charBytes_ne_nil c)
    rw [List.flatMap_cons, hx]
    exact .nil
  | rel less =>
    rw [List.flatMap_cons, List.flatMap_cons]
    exact (charBytes_precedes less).append_lt _ _
  | cons _ ih =>
    rw [List.flatMap_cons, List.flatMap_cons]
    exact List.append_left_lt ih

/-- Texts are ordered as their bytes are. -/
theorem bytes_strictMono : StrictMono bytes := by
  intro s t h
  rw [bytes_eq, bytes_eq]
  exact flatMap_charBytes_lt (String.lt_iff.mp h)

end MeteredScript.Text

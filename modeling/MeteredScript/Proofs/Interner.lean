import Mathlib.Algebra.BigOperators.Fin
import Mathlib.Data.Fintype.BigOperators
import Mathlib.Data.List.Forall2
import Mathlib.Data.List.Nodup
import MeteredScript.Interner

/-!
# Names of a growing table

In a table that was reached from a new one, the index of each shard is inverse to its slots, every
text is in the shard of its choice, and the counter has the number of the slots (`Sound`). Tables
only grow (`Grows`), so a name stays the name of its text, and the name of a text is found by `get?`
exactly if the text is in the table.
-/

namespace MeteredScript

namespace Shard

/-- The index has exactly the texts of the slots, each with its slot. -/
def Agrees (s : Shard) : Prop :=
  ∀ (text : String) (slot : Nat), s.find text = some slot ↔ s.slots[slot]? = some text

theorem find_insert (s : Shard) (text word : String) :
    (s.insert text).find word = if word = text then some s.slots.length else s.find word := by
  rw [find, insert, List.lookup_cons]
  by_cases h : word = text
  · rw [if_pos h, beq_iff_eq.mpr h]
  · rw [if_neg h, beq_eq_false_iff_ne.mpr h]
    rfl

theorem slot_insert (s : Shard) (text : String) (slot : Nat) :
    (s.insert text).slots[slot]? =
      if slot = s.slots.length then some text else s.slots[slot]? := by
  simp only [insert, List.getElem?_append]
  rcases Nat.lt_trichotomy slot s.slots.length with h | h | h
  · rw [if_pos h, if_neg (Nat.ne_of_lt h)]
  · simp [h]
  · rw [if_neg (Nat.lt_asymm h), if_neg (Nat.ne_of_gt h), List.getElem?_eq_none (by simp; omega),
      List.getElem?_eq_none (Nat.le_of_lt h)]

theorem agrees_empty : empty.Agrees := by
  intro text slot
  simp [empty, find]

section Agrees

variable {s : Shard} {text : String}

theorem Agrees.find_eq_none_iff (h : s.Agrees) : s.find text = none ↔ text ∉ s.slots := by
  rw [Option.eq_none_iff_forall_ne_some, List.mem_iff_getElem?, not_exists]
  exact forall_congr' fun slot => not_congr (h text slot)

/-- No text has two slots, as it would be found in both. -/
theorem Agrees.nodup (h : s.Agrees) : s.slots.Nodup := by
  rw [List.nodup_iff_getElem?_ne_getElem?]
  intro i j hij hj heq
  have hsome : s.slots[j]? = some s.slots[j] := List.getElem?_eq_getElem hj
  have hi := (h _ i).mpr (heq.trans hsome)
  have hj := (h _ j).mpr hsome
  exact Nat.ne_of_lt hij (Option.some.inj (hi.symm.trans hj))

/-- A new text is found in the next slot, and nothing else changes in either table. -/
theorem Agrees.insert (h : s.Agrees) (hnew : s.find text = none) : (s.insert text).Agrees := by
  intro word slot
  rw [find_insert, slot_insert]
  by_cases hword : word = text <;> by_cases hslot : slot = s.slots.length
  · simp [hword, hslot]
  · have habsent : ¬ s.slots[slot]? = some text := by
      rw [← h text slot, hnew]
      exact nofun
    simp [hword, hslot, habsent, Ne.symm hslot]
  · have habsent : ¬ s.find word = some s.slots.length := by
      rw [h word, List.getElem?_eq_none (Nat.le_refl _)]
      exact nofun
    simp [hword, hslot, habsent, Ne.symm hword]
  · simp only [hword, hslot, if_false]
    exact h word slot

end Agrees

end Shard

namespace Interner

/-- Both tables of each shard agree, every text is in the shard that is chosen for it, and the
counter has counted them all. -/
structure Sound (t : Interner) : Prop where
  agrees : ∀ i, (t.shard i).Agrees
  placed : ∀ (i : Fin 16) (text : String), text ∈ (t.shard i).slots → t.place text = i
  counted : t.count = ∑ i, (t.shard i).slots.length

/-- A name that stands for a text of the table. -/
def Knows (t : Interner) (n : Name) : Prop := n.slot < (t.shard n.shard).slots.length

instance (t : Interner) (n : Name) : Decidable (t.Knows n) := inferInstanceAs (Decidable (_ < _))

/-- The second table has all that the first one has, at the same places. -/
structure Grows (t u : Interner) : Prop where
  hash : u.hash = t.hash
  slots : ∀ i : Fin 16, (t.shard i).slots <+: (u.shard i).slots

/-- The table after some texts were interned in order. -/
def internAll (texts : List String) (t : Interner) : Interner :=
  texts.foldl (fun t text => (intern text t).2) t

/-! ## Growth -/

theorem Grows.refl (t : Interner) : Grows t t := ⟨rfl, fun _ => List.prefix_rfl⟩

theorem Grows.trans {t u v : Interner} (h : Grows t u) (k : Grows u v) : Grows t v where
  hash := k.hash.trans h.hash
  slots i := (h.slots i).trans (k.slots i)

theorem Grows.place {t u : Interner} (h : Grows t u) : u.place = t.place := by
  funext text
  rw [Interner.place, Interner.place, h.hash]

theorem shard_push (t : Interner) (text : String) (i : Fin 16) :
    (t.push text).shard i =
      if t.place text = i then (t.shard i).insert text else t.shard i := by
  simp only [push, shard, Fin.getElem_fin, Vector.getElem_set]
  by_cases h : t.place text = i
  · simp [h]
  · simp [h, Fin.val_inj]

theorem length_push (t : Interner) (text : String) (i : Fin 16) :
    ((t.push text).shard i).slots.length =
      (t.shard i).slots.length + if t.place text = i then 1 else 0 := by
  rw [shard_push]
  split
  · exact List.length_append
  · rfl

theorem grows_push (t : Interner) (text : String) : Grows t (t.push text) := by
  refine ⟨rfl, fun i => ?_⟩
  rw [shard_push]
  split
  · exact List.prefix_append _ _
  · exact List.prefix_rfl

theorem grows_intern (t : Interner) (text : String) : Grows t (intern text t).2 := by
  unfold intern
  split
  · exact .refl t
  · exact grows_push t text

theorem grows_internAll (texts : List String) (t : Interner) : Grows t (internAll texts t) := by
  induction texts generalizing t with
  | nil => exact .refl t
  | cons text rest ih => exact (grows_intern t text).trans (ih _)

theorem Grows.knows {t u : Interner} (h : Grows t u) {n : Name} (hn : t.Knows n) : u.Knows n :=
  Nat.lt_of_lt_of_le hn (h.slots n.shard).length_le

theorem knows_of_slot {t : Interner} {n : Name} {text : String}
    (h : (t.shard n.shard).slots[n.slot]? = some text) : t.Knows n :=
  (List.getElem?_eq_some_iff.mp h).1

theorem Knows.slot {t : Interner} {n : Name} (h : t.Knows n) :
    (t.shard n.shard).slots[n.slot]? = some (t.lookup n) := by
  rw [lookup, List.getElem?_eq_getElem h, Option.getD_some]

theorem Grows.lookup {t u : Interner} (h : Grows t u) {n : Name} (hn : t.Knows n) :
    u.lookup n = t.lookup n := by
  obtain ⟨rest, hr⟩ := h.slots n.shard
  unfold Interner.lookup
  rw [← hr, List.getElem?_append_left (show n.slot < (t.shard n.shard).slots.length from hn)]

/-! ## Names of texts -/

theorem get?_eq_none_iff {t : Interner} {text : String} :
    t.get? text = none ↔ (t.shard (t.place text)).find text = none := by
  rw [get?, Option.map_eq_none_iff]

theorem Sound.get?_eq_none_iff {t : Interner} (h : t.Sound) {text : String} :
    t.get? text = none ↔ text ∉ (t.shard (t.place text)).slots :=
  Interner.get?_eq_none_iff.trans (h.agrees _).find_eq_none_iff

/-- The two tables are inverse to each other. -/
theorem Sound.get?_eq_some_iff {t : Interner} (h : t.Sound) {text : String} {n : Name} :
    t.get? text = some n ↔ t.Knows n ∧ t.lookup n = text := by
  rw [get?, Option.map_eq_some_iff]
  constructor
  · rintro ⟨slot, hfind, rfl⟩
    have hslot := (h.agrees _ text slot).mp hfind
    have hknows : t.Knows ⟨t.place text, slot⟩ := knows_of_slot hslot
    exact ⟨hknows, Option.some.inj (hknows.slot.symm.trans hslot)⟩
  · rintro ⟨hknows, rfl⟩
    obtain ⟨shard, slot⟩ := n
    have hplace : t.place (t.lookup ⟨shard, slot⟩) = shard :=
      h.placed shard _ (List.mem_of_getElem? hknows.slot)
    have hfind := (h.agrees shard _ slot).mpr hknows.slot
    refine ⟨slot, ?_, ?_⟩
    · rw [hplace]
      exact hfind
    · rw [hplace]

/-- A name that is known has one text, and the text has that name only. -/
theorem Sound.get?_lookup {t : Interner} (h : t.Sound) {n : Name} (hn : t.Knows n) :
    t.get? (t.lookup n) = some n :=
  h.get?_eq_some_iff.mpr ⟨hn, rfl⟩

theorem Sound.lookup_inj {t : Interner} (h : t.Sound) {m n : Name} (hm : t.Knows m)
    (hn : t.Knows n) (he : t.lookup m = t.lookup n) : m = n := by
  have := h.get?_lookup hm
  rw [he, h.get?_lookup hn] at this
  exact (Option.some.inj this).symm

/-- The lookup of a name outside of the table answers the empty text. -/
theorem knows_of_lookup_ne {t : Interner} {n : Name} (h : t.lookup n ≠ "") : t.Knows n := by
  by_contra hk
  have : (t.shard n.shard).slots.length ≤ n.slot := Nat.le_of_not_lt hk
  exact h (by rw [lookup, List.getElem?_eq_none this, Option.getD_none])

theorem Grows.get? {t u : Interner} (h : Grows t u) (hu : u.Sound) (ht : t.Sound) {text : String}
    {n : Name} (hn : t.get? text = some n) : u.get? text = some n := by
  obtain ⟨hk, hl⟩ := ht.get?_eq_some_iff.mp hn
  exact hu.get?_eq_some_iff.mpr ⟨h.knows hk, (h.lookup hk).trans hl⟩

theorem map_get?_grow {t u : Interner} (h : Grows t u) (ht : t.Sound) (hu : u.Sound)
    {texts : List String} {names : List Name} (hn : texts.map t.get? = names.map some) :
    texts.map u.get? = names.map some := by
  rw [← hn]
  apply List.map_congr_left
  intro text htext
  have hmem : t.get? text ∈ names.map some := hn ▸ List.mem_map_of_mem htext
  obtain ⟨n, _, he⟩ := List.mem_map.mp hmem
  rw [← he, h.get? hu ht he.symm]

/-! ## Tables that are reached -/

theorem Sound.push {t : Interner} (h : t.Sound) {text : String} (hn : t.get? text = none) :
    (t.push text).Sound := by
  have hplace : (t.push text).place = t.place := (grows_push t text).place
  constructor
  case agrees =>
    intro i
    rw [shard_push]
    split
    · next hi =>
      subst hi
      exact (h.agrees _).insert (Interner.get?_eq_none_iff.mp hn)
    · exact h.agrees i
  case placed =>
    intro i word hword
    rw [hplace]
    rw [shard_push] at hword
    split at hword
    · next hi =>
      rcases List.mem_append.mp hword with hold | hnew
      · exact h.placed i word hold
      · rw [List.mem_singleton.mp hnew]
        exact hi
    · exact h.placed i word hword
  case counted =>
    have hone : ∑ i, (if t.place text = i then 1 else 0) = 1 := by
      rw [Finset.sum_ite_eq, if_pos (Finset.mem_univ _)]
    calc (t.push text).count
      _ = ∑ i, (t.shard i).slots.length + 1 := congrArg (· + 1) h.counted
      _ = ∑ i, ((t.shard i).slots.length + if t.place text = i then 1 else 0) := by
        rw [Finset.sum_add_distrib, hone]
      _ = ∑ i, ((t.push text).shard i).slots.length :=
        Finset.sum_congr rfl fun i _ => (length_push t text i).symm

theorem Sound.intern {t : Interner} (h : t.Sound) (text : String) :
    (Interner.intern text t).2.Sound := by
  unfold Interner.intern
  split
  · exact h
  · next hn => exact h.push hn

theorem Sound.internAll {t : Interner} (h : t.Sound) (texts : List String) :
    (Interner.internAll texts t).Sound := by
  induction texts generalizing t with
  | nil => exact h
  | cons text rest ih => exact ih (h.intern text)

theorem get?_push (t : Interner) (text word : String) :
    (t.push text).get? word =
      if word = text then some ⟨t.place text, (t.shard (t.place text)).slots.length⟩
      else t.get? word := by
  have hplace : (t.push text).place word = t.place word := rfl
  rw [get?, get?, hplace, shard_push]
  by_cases hword : word = text
  · rw [hword, if_pos rfl, if_pos rfl, Shard.find_insert, if_pos rfl]
    rfl
  · rw [if_neg hword]
    split
    · rw [Shard.find_insert, if_neg hword]
    · rfl

theorem get?_intern (t : Interner) (text : String) :
    (intern text t).2.get? text = some (intern text t).1 := by
  unfold intern
  split
  · assumption
  · rw [get?_push, if_pos rfl]

theorem shard_bare (hash : String → Fin 16) (i : Fin 16) :
    (bare hash).shard i = if i = 0 then Shard.empty.insert "" else .empty := by
  simp only [bare, shard, Fin.getElem_fin, Vector.getElem_set, Vector.getElem_replicate]
  by_cases h : i = 0
  · simp [h]
  · have hne : ¬ (0 : Nat) = i := fun e => h (Fin.ext e.symm)
    simp [h, hne]

theorem sound_bare (hash : String → Fin 16) : (bare hash).Sound := by
  constructor
  case agrees =>
    intro i
    rw [shard_bare]
    split
    · exact Shard.agrees_empty.insert rfl
    · exact Shard.agrees_empty
  case placed =>
    intro i text htext
    rw [shard_bare] at htext
    split at htext
    · next hi =>
      rw [List.mem_singleton.mp htext, hi]
      exact if_pos rfl
    · exact absurd htext List.not_mem_nil
  case counted =>
    have hlength (i : Fin 16) : ((bare hash).shard i).slots.length = if i = 0 then 1 else 0 := by
      rw [shard_bare]
      split <;> rfl
    simp_rw [hlength]
    rw [Finset.sum_ite_eq', if_pos (Finset.mem_univ _)]
    rfl

theorem run_bind {α β : Type} (x : StateM Interner α) (f : α → StateM Interner β)
    (t : Interner) : (x >>= f).run t = (f (x.run t).1).run (x.run t).2 := rfl

theorem run_mapM_intern (texts : List String) (t : Interner) :
    ((texts.mapM Interner.intern).run t).2 = internAll texts t := by
  induction texts generalizing t with
  | nil => rfl
  | cons text rest ih =>
    rw [List.mapM_cons]
    exact ih _

/-- Reading a list of items one by one, where growth keeps what was read before. -/
theorem Sound.run_mapM {α β : Type} {f : α → StateM Interner β} {R : Interner → α → β → Prop}
    (hf : ∀ (t : Interner) (a : α), t.Sound →
      ((f a).run t).2.Sound ∧ Grows t ((f a).run t).2 ∧ R ((f a).run t).2 a ((f a).run t).1)
    (hR : ∀ {t u : Interner} {a : α} {b : β}, Grows t u → t.Sound → u.Sound → R t a b → R u a b)
    (items : List α) {t : Interner} (h : t.Sound) :
    ((items.mapM f).run t).2.Sound ∧ Grows t ((items.mapM f).run t).2 ∧
      List.Forall₂ (R ((items.mapM f).run t).2) items ((items.mapM f).run t).1 := by
  induction items generalizing t with
  | nil => exact ⟨h, .refl t, .nil⟩
  | cons a rest ih =>
    obtain ⟨hs, hg, hn⟩ := hf t a h
    obtain ⟨hu, hgu, hrest⟩ := ih hs
    rw [List.mapM_cons]
    exact ⟨hu, hg.trans hgu, .cons (hR hgu hs hu hn) hrest⟩

theorem map_get?_of_forall₂ {t : Interner} {texts : List String} {names : List Name}
    (h : List.Forall₂ (fun text n => t.get? text = some n) texts names) :
    texts.map t.get? = names.map some := by
  induction h with
  | nil => rfl
  | cons hn _ ih => rw [List.map_cons, List.map_cons, hn, ih]

theorem Sound.run_mapM_intern {t : Interner} (h : t.Sound) (texts : List String) :
    ((texts.mapM Interner.intern).run t).2.Sound ∧
      Grows t ((texts.mapM Interner.intern).run t).2 ∧
      texts.map ((texts.mapM Interner.intern).run t).2.get? =
        ((texts.mapM Interner.intern).run t).1.map some := by
  obtain ⟨hs, hg, hn⟩ := Sound.run_mapM (f := Interner.intern)
    (R := fun t text n => t.get? text = some n)
    (fun t text ht => ⟨ht.intern text, grows_intern t text, get?_intern t text⟩)
    (fun hg ht hu hn => hg.get? hu ht hn) texts h
  exact ⟨hs, hg, map_get?_of_forall₂ hn⟩

theorem sound_withWellKnown (hash : String → Fin 16) : (withWellKnown hash).Sound := by
  rw [withWellKnown, run_mapM_intern]
  exact (sound_bare hash).internAll _

end Interner

end MeteredScript

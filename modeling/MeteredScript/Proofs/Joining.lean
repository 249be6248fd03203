import MeteredScript.Evaluation.Calls
import MeteredScript.Proofs.Store.Adding
import MeteredScript.Proofs.Text.Occurrences

/-!
# Splitting and joining texts

A script that splits a text and joins the pieces at the same separator has the text again. The pieces
are a new list of texts, one more of them than the separator occurs, and none of them contains it.
-/

namespace MeteredScript

theorem Lists.join_texts {s : Store} {l : Handle} {pieces : List String}
    (h : s.items l = pieces.map .str) (separator : String) :
    join s l separator = separator.intercalate pieces := by
  have : s.display ∘ Value.str = id := rfl
  rw [join, h, List.map_map, this, List.map_id]

namespace Environment

variable (account : Nat) (text separator : String) (s : Store)

theorem run_split :
    ∃ t, (callBuiltIn account (.str text) "split" [.str separator]).run s =
        (.ok (.list ⟨s.containers.size, .owner⟩), t) ∧
      s.Adds (.items ((Text.piecesOf separator text).map .str)) t := by
  obtain ⟨t, hrun, ht⟩ := Lists.create_adds account ((Text.piecesOf separator text).map .str) s
  refine ⟨t, ?_, ht⟩
  have hvalues : (Text.piecesOf separator text).map Value.str =
      (Text.split separator.toList text.toList).map fun piece => .str (String.ofList piece) :=
    List.map_map
  change (Lists.create account _ >>= fun l => pure (.list l) : StoreM Value).run s = _
  rw [run_bind, ← hvalues, hrun]
  rfl

theorem run_join (l : Handle) :
    (callBuiltIn account (.list l) "join" [.str separator]).run s =
      (.ok (.str (Lists.join s l separator)), s) := rfl

/-- Joining the pieces of a text at the separator that it was split at makes the text again. -/
theorem join_of_split (account' : Nat) :
    ∃ (l : Handle) (t : Store) (pieces : List String),
      (callBuiltIn account (.str text) "split" [.str separator]).run s = (.ok (.list l), t) ∧
      s.Adds (.items (pieces.map .str)) t ∧ t.items l = pieces.map .str ∧
      (callBuiltIn account' (.list l) "join" [.str separator]).run t = (.ok (.str text), t) ∧
      (separator ≠ "" →
        (∃! places, Text.Leftmost separator.toList text.toList places) ∧
        (∀ places, Text.Leftmost separator.toList text.toList places →
          pieces.length = places.length + 1) ∧
        ∀ p ∈ pieces, ¬ separator.toList <:+: p.toList) := by
  obtain ⟨t, hrun, ht⟩ := run_split account text separator s
  refine ⟨_, t, Text.piecesOf separator text, hrun, ht, ht.items, ?_, fun hs => ?_⟩
  · rw [run_join, Lists.join_texts ht.items, Text.intercalate_piecesOf]
  have hne : separator.toList ≠ [] := mt String.toList_eq_nil_iff.mp hs
  obtain ⟨places, hplaces, hlength⟩ := Text.length_split hne text.toList
  refine ⟨⟨places, hplaces, fun _ h => h.unique hne hplaces⟩, fun _ h => ?_, fun p hp => ?_⟩
  · rw [Text.piecesOf, List.length_map, hlength, hplaces.unique hne h]
  · have hmem : p.toList ∈ Text.split separator.toList text.toList := by
      rw [← Text.map_toList_piecesOf]
      exact List.mem_map_of_mem hp
    exact Text.not_infix_of_mem_split hne hmem

/-- The separator stands at two places that overlap, and cuts at the first of them. -/
theorem join_of_split_overlapping :
    ∃ (l : Handle) (t : Store) (pieces : List String),
      (callBuiltIn 0 (.str "aaab") "split" [.str "aa"]).run default = (.ok (.list l), t) ∧
      t.items l = pieces.map .str ∧ pieces.length = 2 ∧
      (callBuiltIn 0 (.list l) "join" [.str "aa"]).run t = (.ok (.str "aaab"), t) := by
  have hplaces : Text.Leftmost "aa".toList "aaab".toList [0] := by
    have hbefore : ∀ j < 4, Text.StandsAt "aa".toList "aaab".toList j → j < 2 := by decide
    refine ⟨by decide, List.pairwise_singleton _ 0, fun j hj => ?_⟩
    exact ⟨0, List.mem_singleton_self 0, Nat.zero_le j, hbefore j (hj.lt (by decide)) hj⟩
  obtain ⟨l, t, pieces, hsplit, -, hitems, hjoin, hcuts⟩ := join_of_split 0 "aaab" "aa" default 0
  exact ⟨l, t, pieces, hsplit, hitems, (hcuts (by decide)).2.1 [0] hplaces, hjoin⟩

end Environment

end MeteredScript

import Mathlib.Data.Finset.Card
import MeteredScript.Proofs.Interner

/-!
# Histories of a table

A table is asked for names, to add texts or only to find them. However requests follow each other, a
name belongs to one text for good, packed into 32 bits as well, and the table has the texts that it
started with and those that were interned, each of them once.
-/

namespace MeteredScript.Interner

/-- What a table is asked for. -/
inductive Request where
  | intern (text : String)
  | tryIntern (text : String)
  | get (text : String)
deriving DecidableEq, Repr

/-- The text that a request interns. -/
def Request.interned? : Request → Option String
  | intern text | tryIntern text => some text
  | get _ => none

/-- Interning the text does not overflow its shard. -/
def HasRoom (t : Interner) (text : String) : Prop :=
  t.get? text = none → (t.shard (t.place text)).slots.length < Name.slotsPerShard

instance (t : Interner) (text : String) : Decidable (t.HasRoom text) :=
  inferInstanceAs (Decidable (_ → _))

/-- A request that is served, with its answer and the table that it leaves. -/
inductive Serves (t : Interner) : Request → Option Name → Interner → Prop
  | intern {text : String} (room : t.HasRoom text) :
      Serves t (.intern text) (some (intern text t).1) (intern text t).2
  | tryIntern {text : String} {n : Name} {u : Interner} (fits : t.tryIntern text = .ok (n, u)) :
      Serves t (.tryIntern text) (some n) u
  | get (text : String) : Serves t (.get text) (t.get? text) t

/-- Requests that are served one after another lead from one table to another. -/
inductive Leads (t : Interner) : List Request → Interner → Prop
  | start : Leads t [] t
  | next {requests : List Request} {request : Request} {answer : Option Name} {u v : Interner}
      (before : Leads t requests u) (serves : u.Serves request answer v) :
      Leads t (requests ++ [request]) v

/-- The texts that requests intern. -/
def interned (requests : List Request) : List String := requests.filterMap Request.interned?

/-- A text of the table. -/
def Has (t : Interner) (text : String) : Prop := t.get? text ≠ none

/-! ## One text more -/

theorem Sound.has_iff_mem {t : Interner} (h : t.Sound) (text : String) :
    t.Has text ↔ text ∈ (t.shard (t.place text)).slots :=
  (not_congr h.get?_eq_none_iff).trans not_not

theorem has_push (t : Interner) (text word : String) :
    (t.push text).Has word ↔ word = text ∨ t.Has word := by
  unfold Has
  rw [get?_push]
  by_cases hword : word = text
  · simp [hword]
  · simp [hword]

theorem has_intern (t : Interner) (text word : String) :
    (intern text t).2.Has word ↔ word = text ∨ t.Has word := by
  unfold intern
  split
  · next n hn =>
    have htext : t.Has text := by simp [Has, hn]
    constructor
    · exact .inr
    · rintro (rfl | hword)
      · exact htext
      · exact hword
  · exact has_push t text word

theorem has_internAll (texts : List String) (t : Interner) (word : String) :
    (internAll texts t).Has word ↔ word ∈ texts ∨ t.Has word := by
  induction texts generalizing t with
  | nil => exact (or_iff_right List.not_mem_nil).symm
  | cons text rest ih =>
    rw [internAll, List.foldl_cons, ← internAll, ih, has_intern, List.mem_cons, or_left_comm,
      or_assoc]

theorem length_intern_le (t : Interner) (text : String) (i : Fin 16) :
    ((intern text t).2.shard i).slots.length ≤ (t.shard i).slots.length + 1 := by
  unfold intern
  split
  · exact Nat.le_succ _
  · rw [length_push]
    split
    · exact Nat.le_refl _
    · exact Nat.le_succ _

theorem length_internAll_le (texts : List String) (t : Interner) (i : Fin 16) :
    ((internAll texts t).shard i).slots.length ≤ (t.shard i).slots.length + texts.length := by
  induction texts generalizing t with
  | nil => exact Nat.le_refl _
  | cons text rest ih =>
    have hrest := ih (intern text t).2
    have hfirst := length_intern_le t text i
    rw [internAll, List.foldl_cons, ← internAll, List.length_cons]
    omega

theorem intern_of_get? {t : Interner} {text : String} {n : Name} (h : t.get? text = some n) :
    intern text t = (n, t) := by
  unfold intern
  rw [h]

theorem tryIntern_of_hasRoom {t : Interner} {text : String} (h : t.HasRoom text) :
    t.tryIntern text = .ok (intern text t) := by
  unfold tryIntern
  apply if_neg
  rintro ⟨hnone, hfull⟩
  exact Nat.not_lt_of_le hfull (h hnone)

/-- What interns a text without an overflow is the same in both ways. -/
theorem hasRoom_of_tryIntern {t u : Interner} {text : String} {n : Name}
    (h : t.tryIntern text = .ok (n, u)) : t.HasRoom text ∧ intern text t = (n, u) := by
  unfold tryIntern at h
  split at h
  · cases h
  · next hfits =>
    refine ⟨?_, Except.ok.inj h⟩
    intro hnone
    apply Nat.lt_of_not_le
    intro hfull
    exact hfits ⟨hnone, hfull⟩

/-! ## Tables on record -/

/-- The table has the texts, each one once, and no shard is larger than names can tell. -/
structure Records (t : Interner) (texts : List String) : Prop extends t.Sound where
  bounded : ∀ i : Fin 16, (t.shard i).slots.length ≤ Name.slotsPerShard
  has : ∀ text, t.Has text ↔ text ∈ texts

/-- The texts of every table from the start. -/
def initial : List String := "" :: wellKnown

theorem records_withWellKnown (hash : String → Fin 16) :
    (withWellKnown hash).Records initial := by
  refine ⟨sound_withWellKnown hash, fun i => ?_, fun text => ?_⟩
  · have hfirst : ((bare hash).shard i).slots.length ≤ 1 := by
      rw [shard_bare]
      split
      · exact Nat.le_refl 1
      · exact Nat.zero_le 1
    have hlength := length_internAll_le wellKnown (bare hash) i
    have hwords : wellKnown.length = 39 := rfl
    rw [withWellKnown, run_mapM_intern]
    unfold Name.slotsPerShard
    omega
  · have hempty : (bare hash).Has text ↔ text = "" := by
      rw [(sound_bare hash).has_iff_mem, shard_bare]
      by_cases h : text = ""
      · subst h
        simp [place, Name.empty, Shard.insert]
      · split <;> simp [h, Shard.insert, Shard.empty]
    rw [withWellKnown, run_mapM_intern, has_internAll, hempty, initial, List.mem_cons, or_comm]

section Records

variable {t u : Interner} {texts : List String} {requests : List Request}

theorem Records.intern (h : t.Records texts) {text : String} (room : t.HasRoom text) :
    (Interner.intern text t).2.Records (texts ++ [text]) := by
  refine ⟨h.toSound.intern text, fun i => ?_, fun word => ?_⟩
  · unfold Interner.intern
    split
    · exact h.bounded i
    · next hnone =>
      rw [length_push]
      split
      · next hplace =>
        subst hplace
        exact room hnone
      · exact h.bounded i
  · rw [has_intern, h.has, List.mem_append, List.mem_singleton, or_comm]

theorem Serves.records {request : Request} {answer : Option Name} (h : t.Records texts)
    (hserves : t.Serves request answer u) :
    u.Records (texts ++ interned [request]) ∧ Grows t u := by
  cases hserves with
  | intern room => exact ⟨h.intern room, grows_intern t _⟩
  | tryIntern fits =>
    obtain ⟨room, hrun⟩ := hasRoom_of_tryIntern fits
    have hleft : (Interner.intern _ t).2 = u := congrArg Prod.snd hrun
    exact ⟨hleft ▸ h.intern room, hleft ▸ grows_intern t _⟩
  | get text =>
    have hnone : texts ++ interned [.get text] = texts := List.append_nil texts
    exact ⟨hnone.symm ▸ h, .refl t⟩

theorem Leads.records (h : t.Records texts) (hleads : t.Leads requests u) :
    u.Records (texts ++ interned requests) ∧ Grows t u := by
  induction hleads with
  | start => exact ⟨by simpa [interned] using h, .refl t⟩
  | next _ serves ih =>
    obtain ⟨hrecords, hgrows⟩ := serves.records ih.1
    refine ⟨?_, ih.2.trans hgrows⟩
    simpa [interned, List.filterMap_append] using hrecords

/-- Finding names leaves no trace. -/
theorem Leads.without_get (h : t.Leads requests u) :
    t.Leads (requests.filter (·.interned?.isSome)) u := by
  induction h with
  | start => exact .start
  | next _ serves ih =>
    rw [List.filter_append]
    cases serves with
    | intern room => exact .next ih (.intern room)
    | tryIntern fits => exact .next ih (.tryIntern fits)
    | get text => simpa [Request.interned?] using ih

theorem Records.knows_lt (h : t.Records texts) {n : Name} (hn : t.Knows n) :
    n.slot < Name.slotsPerShard :=
  Nat.lt_of_lt_of_le hn (h.bounded n.shard)

theorem Records.raw_inj (h : t.Records texts) {n n' : Name} (hn : t.Knows n) (hn' : t.Knows n') :
    n'.raw = n.raw ↔ n' = n := by
  constructor
  · intro hraw
    rw [← Name.ofRaw_raw (h.knows_lt hn), ← Name.ofRaw_raw (h.knows_lt hn'), hraw]
  · exact congrArg _

theorem Sound.mem_iff_has (h : t.Sound) {i : Fin 16} {text : String} :
    text ∈ (t.shard i).slots ↔ t.place text = i ∧ t.Has text := by
  rw [h.has_iff_mem]
  constructor
  · intro htext
    have hplace := h.placed i text htext
    refine ⟨hplace, ?_⟩
    rw [hplace]
    exact htext
  · rintro ⟨rfl, htext⟩
    exact htext

/-- The counter has counted every text once. -/
theorem Records.size_eq (h : t.Records texts) : t.size = texts.toFinset.card := by
  have hparts : texts.toFinset =
      Finset.univ.biUnion fun i => (t.shard i).slots.toFinset := by
    ext text
    simp only [Finset.mem_biUnion, Finset.mem_univ, true_and, List.mem_toFinset,
      h.toSound.mem_iff_has, exists_eq_left', h.has]
  have hapart : Set.PairwiseDisjoint ↑(Finset.univ : Finset (Fin 16))
      fun i => (t.shard i).slots.toFinset := by
    intro i _ j _ hij
    refine Finset.disjoint_left.mpr fun text hi hj => hij ?_
    have hplacei := h.placed i text (List.mem_toFinset.mp hi)
    have hplacej := h.placed j text (List.mem_toFinset.mp hj)
    exact hplacei.symm.trans hplacej
  calc t.size
    _ = ∑ i, (t.shard i).slots.length := h.counted
    _ = ∑ i, (t.shard i).slots.toFinset.card :=
      Finset.sum_congr rfl fun i _ => (List.toFinset_card_of_nodup (h.agrees i).nodup).symm
    _ = texts.toFinset.card := by rw [hparts, Finset.card_biUnion hapart]

end Records

/-! ## Names for good -/

/-- In a table that was reached from a new one without an overflow, a text that is interned gets a
name that it has from then on, and that no other text has, packed into a number or not. Exactly the
texts from the start and those that were interned have names that can be found, which are the names
that interning them again would answer, and they are what the table counts. What the index of a
shard finds and what its slots hold is the same all along. -/
theorem names_of_history {hash : String → Fin 16} {requests : List Request} {t : Interner}
    (h : (withWellKnown hash).Leads requests t) :
    (∀ text, t.HasRoom text →
        t.tryIntern text = .ok (intern text t) ∧ (intern text t).1.raw < 0x100000000 ∧
        ∀ (later : List Request) (u : Interner), (intern text t).2.Leads later u →
          u.lookup (intern text t).1 = text ∧
          u.get? text = some (intern text t).1 ∧
          intern text u = ((intern text t).1, u) ∧
          ∀ other, u.HasRoom other →
            ((intern other u).1.raw = (intern text t).1.raw ↔ other = text)) ∧
      (∀ text, (∃ n, t.get? text = some n) ↔ text = "" ∨ text ∈ wellKnown ∨
        text ∈ interned requests) ∧
      (∀ text n, t.get? text = some n → intern text t = (n, t)) ∧
      (∀ i, (t.shard i).Agrees) ∧
      t.get? "" = some Name.empty ∧
      (withWellKnown hash).Leads (requests.filter (·.interned?.isSome)) t ∧
      t.size = ("" :: wellKnown ++ interned requests).toFinset.card := by
  obtain ⟨hrecords, hgrows⟩ := h.records (records_withWellKnown hash)
  refine ⟨?_, ?_, ?_, hrecords.agrees, ?_, h.without_get, hrecords.size_eq⟩
  · intro text room
    have hnew := hrecords.intern room
    have hname : (intern text t).2.get? text = some (intern text t).1 :=
      get?_intern t text
    have hknown := (hnew.get?_eq_some_iff.mp hname).1
    refine ⟨tryIntern_of_hasRoom room, Name.raw_lt (hnew.knows_lt hknown), ?_⟩
    intro later u hlater
    obtain ⟨hlast, hgrown⟩ := hlater.records hnew
    have hfound := hgrown.get? hlast.toSound hnew.toSound hname
    obtain ⟨hknows, hlookup⟩ := hlast.get?_eq_some_iff.mp hfound
    refine ⟨hlookup, hfound, intern_of_get? hfound, ?_⟩
    intro other hroom
    -- Both names are compared in the table that has both texts.
    have hmore := hlast.intern hroom
    have hother := hmore.get?_eq_some_iff.mp (get?_intern u other)
    have hgrow := grows_intern u other
    rw [hmore.raw_inj (hgrow.knows hknows) hother.1]
    constructor
    · intro hsame
      rw [← hother.2, hsame, hgrow.lookup hknows, hlookup]
    · rintro rfl
      rw [intern_of_get? hfound]
  · intro text
    rw [← Option.ne_none_iff_exists']
    have hmem := hrecords.has text
    rwa [initial, List.cons_append, List.mem_cons, List.mem_append] at hmem
  · intro text n hn
    exact intern_of_get? hn
  · have hempty : (withWellKnown hash).get? "" = some Name.empty := by
      rw [withWellKnown, run_mapM_intern]
      exact (grows_internAll _ _).get? ((sound_bare hash).internAll _) (sound_bare hash) rfl
    exact hgrows.get? hrecords.toSound (sound_withWellKnown hash) hempty

/-- A text is interned twice, and another one is asked for in vain. -/
theorem names_of_history_twice :
    ∃ t : Interner,
      (withWellKnown spread).Leads [.intern "rate", .get "total", .tryIntern "rate"] t ∧
      t.size = 41 ∧ t.get? "total" = none ∧ t.HasRoom "total" ∧
      t.tryIntern "total" = .ok (intern "total" t) := by
  have hroom : (withWellKnown spread).HasRoom "rate" := by decide +kernel
  rcases hrun : intern "rate" (withWellKnown spread) with ⟨n, t⟩
  have hfirst : (withWellKnown spread).Leads [.intern "rate"] t := by
    have hserves := Serves.intern hroom
    rw [hrun] at hserves
    exact .next .start hserves
  have hknown := (names_of_history .start).1 "rate" hroom
  rw [hrun] at hknown
  obtain ⟨-, hname, -, -⟩ := hknown.2.2 [] t .start
  have htwice : t.tryIntern "rate" = .ok (n, t) := by
    have hthere : t.HasRoom "rate" := by simp [HasRoom, hname]
    exact (tryIntern_of_hasRoom hthere).trans (congrArg _ (intern_of_get? hname))
  have hall := Leads.next (.next hfirst (.get "total")) (.tryIntern htwice)
  obtain ⟨hintern, hfound, -, -, -, -, hsize⟩ := names_of_history hall
  have hnone : t.get? "total" = none := Option.eq_none_iff_forall_ne_some.mpr fun m hm =>
    absurd ((hfound "total").mp ⟨m, hm⟩) (by decide +kernel)
  have hlast : t.HasRoom "total" := by
    have ht : t = (intern "rate" (withWellKnown spread)).2 := by rw [hrun]
    rw [ht]
    decide +kernel
  exact ⟨t, hall, hsize.trans (by decide +kernel), hnone, hlast, (hintern "total" hlast).1⟩

end MeteredScript.Interner

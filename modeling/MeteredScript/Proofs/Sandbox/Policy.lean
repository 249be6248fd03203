import MeteredScript.Proofs.Interner
import MeteredScript.Proofs.Splitting
import MeteredScript.Sandbox

/-!
# The rules of a sandbox as texts

A sandbox decides on names of a table, of which a segment that nobody interned has none. A policy is
the same set of rules as plain texts. A sandbox that represents a policy on a sound table decides as
the policy does, whatever else is in the table.
-/

namespace MeteredScript

/-- The rules of a sandbox, each the segments of a dotted name. -/
structure Policy where
  classes : List (List String)
  packages : List (List String)
  forbidden : List (List String)

namespace Policy

def empty : Policy := ⟨[], [], []⟩

def add (p : Policy) (rule : Sandbox.Rule) (parts : List String) : Policy :=
  match rule with
  | .allowClass => { p with classes := parts :: p.classes }
  | .allowPackage => { p with packages := parts :: p.packages }
  | .forbidPackage => { p with forbidden := parts :: p.forbidden }

/-- The decision on the segments of a name. -/
def decides (p : Policy) (parts : List String) : Bool :=
  match parts.getLast? with
  | none => false
  | some last =>
    if last ∈ Sandbox.closedTypeWords then false
    else if parts ∈ p.classes then true
    else if p.forbidden.any (·.isPrefixOf parts) then false
    else p.packages.any (·.isPrefixOf parts)

/-- The decision on a dotted name. A name with an empty segment is denied. -/
def allows (p : Policy) (name : String) : Bool :=
  if "" ∈ ClassPath.words name then false else p.decides (ClassPath.words name)

/-- Reads one rule; a malformed name is passed over. -/
def read (p : Policy) (rule : Sandbox.Rule) (name : String) : Policy :=
  if "" ∈ ClassPath.words name then p else p.add rule (ClassPath.words name)

theorem decides_add {p : Policy} {rule : Sandbox.Rule} (hr : rule ≠ .forbidPackage)
    {new parts : List String} (h : p.decides parts = true) :
    (p.add rule new).decides parts = true := by
  unfold decides at h ⊢
  generalize parts.getLast? = last at h ⊢
  cases last with
  | none => simp at h
  | some last =>
    cases rule with
    | forbidPackage => exact absurd rfl hr
    | allowClass => simp only [add] at h ⊢; grind
    | allowPackage => simp only [add] at h ⊢; grind

theorem allows_read {p : Policy} {rule : Sandbox.Rule} (hr : rule ≠ .forbidPackage)
    {new name : String} (h : p.allows name = true) : (p.read rule new).allows name = true := by
  unfold allows at h ⊢
  unfold read
  split at h
  · simp at h
  · next hn =>
    rw [if_neg hn]
    split
    · exact h
    · exact decides_add hr h

end Policy

/-! ## Paths and the texts they spell -/

namespace ClassPath

/-- A path is made of the names of these texts. -/
structure Spells (t : Interner) (path : ClassPath) (parts : List String) : Prop where
  ne_nil : parts ≠ []
  names : parts.map t.get? = path.segments.map some

theorem Spells.grow {t u : Interner} (hg : t.Grows u) (ht : t.Sound) (hu : u.Sound)
    {path : ClassPath} {parts : List String} (h : Spells t path parts) : Spells u path parts :=
  ⟨h.ne_nil, Interner.map_get?_grow hg ht hu h.names⟩

theorem eq_of_map_get? {t : Interner} (ht : t.Sound) {ns : List Name} {ws vs : List String}
    (hw : ws.map t.get? = ns.map some) (hv : vs.map t.get? = ns.map some) : ws = vs := by
  induction ns generalizing ws vs with
  | nil => rw [List.map_eq_nil_iff.mp hw, List.map_eq_nil_iff.mp hv]
  | cons n ns ih =>
    obtain ⟨w, ws', rfl, hwn, hw'⟩ := List.map_eq_cons_iff.mp hw
    obtain ⟨v, vs', rfl, hvn, hv'⟩ := List.map_eq_cons_iff.mp hv
    have hlw := (ht.get?_eq_some_iff.mp hwn).2
    have hlv := (ht.get?_eq_some_iff.mp hvn).2
    rw [← hlw, ← hlv, ih hw' hv']

theorem Spells.lookup {t : Interner} (ht : t.Sound) {path : ClassPath} {parts : List String}
    (h : Spells t path parts) : path.segments.map t.lookup = parts := by
  obtain ⟨ns⟩ := path
  have hn := h.names
  clear h
  induction ns generalizing parts with
  | nil => rw [List.map_eq_nil_iff.mp hn]; rfl
  | cons n ns ih =>
    obtain ⟨w, ws, rfl, hw, hws⟩ := List.map_eq_cons_iff.mp hn
    rw [List.map_cons, (ht.get?_eq_some_iff.mp hw).2]
    exact congrArg _ (ih hws)

/-- The paths of one list spell the texts of the other. -/
structure Matches (t : Interner) (paths : List ClassPath) (texts : List (List String)) : Prop where
  spelled : ∀ path ∈ paths, ∃ parts ∈ texts, Spells t path parts
  found : ∀ parts ∈ texts, ∃ path ∈ paths, Spells t path parts

theorem Matches.nil (t : Interner) : Matches t [] [] := ⟨by simp, by simp⟩

theorem Matches.grow {t u : Interner} (hg : t.Grows u) (ht : t.Sound) (hu : u.Sound)
    {paths : List ClassPath} {texts : List (List String)} (h : Matches t paths texts) :
    Matches u paths texts := by
  constructor
  · intro path hp
    obtain ⟨parts, hm, hs⟩ := h.spelled path hp
    exact ⟨parts, hm, hs.grow hg ht hu⟩
  · intro parts hp
    obtain ⟨path, hm, hs⟩ := h.found parts hp
    exact ⟨path, hm, hs.grow hg ht hu⟩

theorem Matches.insert {t : Interner} {paths : List ClassPath} {texts : List (List String)}
    (h : Matches t paths texts) {path : ClassPath} {parts : List String}
    (hs : Spells t path parts) : Matches t (paths.insert path) (parts :: texts) := by
  constructor
  · intro other ho
    rcases List.mem_insert_iff.mp ho with rfl | ho
    · exact ⟨parts, List.mem_cons_self, hs⟩
    · obtain ⟨words, hm, hw⟩ := h.spelled other ho
      exact ⟨words, List.mem_cons_of_mem _ hm, hw⟩
  · intro words hw
    rcases List.mem_cons.mp hw with rfl | hw
    · exact ⟨path, List.mem_insert_self, hs⟩
    · obtain ⟨other, hm, ho⟩ := h.found words hw
      exact ⟨other, List.mem_insert_of_mem hm, ho⟩

/-! ## The known start of a name -/

/-- The names up to the first segment that has none. -/
def known (segments : List (Option Name)) : List Name :=
  (segments.takeWhile Option.isSome).filterMap id

theorem map_some_known (segments : List (Option Name)) :
    (known segments).map some = segments.takeWhile Option.isSome := by
  induction segments with
  | nil => rfl
  | cons o rest ih =>
    cases o with
    | none => rfl
    | some n => simpa [known] using ih

theorem known_leads (segments : List (Option Name)) :
    (known segments).map some <+: segments := by
  rw [map_some_known]
  exact List.takeWhile_prefix _

theorem known_append (names : List Name) (rest : List (Option Name)) :
    known (names.map some ++ rest) = names ++ known rest := by
  induction names with
  | nil => rfl
  | cons n ns ih => simp [known]

theorem known_eq_iff {t : Interner} {parts : List String} (hp : parts ≠ []) {path : ClassPath} :
    path.segments = known (parts.map t.get?) ∧
      (known (parts.map t.get?)).length = (parts.map t.get?).length ↔ Spells t path parts := by
  constructor
  · rintro ⟨he, hl⟩
    refine ⟨hp, ?_⟩
    rw [he]
    have hl' : ((known (parts.map t.get?)).map some).length = (parts.map t.get?).length := by
      rwa [List.length_map]
    exact ((known_leads _).eq_of_length hl').symm
  · intro hs
    have : known (parts.map t.get?) = path.segments := by
      rw [hs.names, ← List.append_nil (path.segments.map some), known_append]
      exact List.append_nil _
    rw [this, hs.names]
    exact ⟨rfl, (List.length_map _).symm⟩

/-- A start of the known segments is among the paths just if one of the texts begins the name. -/
theorem starts_any {t : Interner} (ht : t.Sound) {paths : List ClassPath}
    {texts : List (List String)} (h : Matches t paths texts) (parts : List String) :
    ((List.range (known (parts.map t.get?)).length).map fun n =>
        ClassPath.mk ((known (parts.map t.get?)).take (n + 1))).any (· ∈ paths) =
      texts.any (·.isPrefixOf parts) := by
  rw [Bool.eq_iff_iff]
  simp only [List.any_eq_true, List.mem_map, List.mem_range, decide_eq_true_eq,
    List.isPrefixOf_iff_prefix]
  constructor
  · rintro ⟨_, ⟨n, _, rfl⟩, hmem⟩
    obtain ⟨words, hw, hs⟩ := h.spelled _ hmem
    refine ⟨words, hw, ?_⟩
    have hpre : ((known (parts.map t.get?)).take (n + 1)).map some <+: parts.map t.get? := by
      rw [List.map_take]
      exact (List.take_prefix _ _).trans (known_leads _)
    have he := List.prefix_iff_eq_take.mp hpre
    rw [← List.map_take] at he
    rw [eq_of_map_get? ht hs.names he.symm]
    exact List.take_prefix _ _
  · rintro ⟨words, hw, rest, rfl⟩
    obtain ⟨path, hmem, hs⟩ := h.found words hw
    have hk : known ((words ++ rest).map t.get?) = path.segments ++ known (rest.map t.get?) := by
      rw [List.map_append, hs.names, known_append]
    have hlen : 0 < path.segments.length := by
      have := congrArg List.length hs.names
      rw [List.length_map, List.length_map] at this
      rw [← this]
      exact List.length_pos_of_ne_nil hs.ne_nil
    refine ⟨path, ⟨path.segments.length - 1, ?_, ?_⟩, hmem⟩
    · rw [hk, List.length_append]; omega
    · rw [hk, Nat.sub_add_cancel hlen, List.take_left]

end ClassPath

/-! ## Sandboxes and policies -/

namespace Sandbox

open ClassPath (Spells Matches known)

/-- The rules of a sandbox are those of a policy. -/
structure Represents (t : Interner) (s : Sandbox) (p : Policy) : Prop where
  classes : Matches t s.allowedClasses p.classes
  packages : Matches t s.allowedPackages p.packages
  forbidden : Matches t s.forbiddenPackages p.forbidden

/-- The fixed lists of a sandbox are those of the words that no rule can open. -/
structure ClosedOn (t : Interner) (s : Sandbox) : Prop where
  types : closedTypeWords.map t.get? = s.closedTypes.map some
  members : List.Forall₂ (fun w m => t.get? w.1 = some m.1 ∧ w.2 = m.2)
    closedMemberWords s.closedMembers

theorem Represents.grow {t u : Interner} (hg : t.Grows u) (ht : t.Sound) (hu : u.Sound)
    {s : Sandbox} {p : Policy} (h : Represents t s p) : Represents u s p :=
  ⟨h.classes.grow hg ht hu, h.packages.grow hg ht hu, h.forbidden.grow hg ht hu⟩

theorem Represents.add {t : Interner} {s : Sandbox} {p : Policy} (h : Represents t s p)
    (rule : Rule) {path : ClassPath} {parts : List String} (hs : Spells t path parts) :
    Represents t (s.add rule path) (p.add rule parts) := by
  cases rule with
  | allowClass => exact ⟨h.classes.insert hs, h.packages, h.forbidden⟩
  | allowPackage => exact ⟨h.classes, h.packages.insert hs, h.forbidden⟩
  | forbidPackage => exact ⟨h.classes, h.packages, h.forbidden.insert hs⟩

theorem ClosedOn.grow {t u : Interner} (hg : t.Grows u) (ht : t.Sound) (hu : u.Sound)
    {s : Sandbox} (h : ClosedOn t s) : ClosedOn u s :=
  ⟨Interner.map_get?_grow hg ht hu h.types,
    h.members.imp fun _ _ hm => ⟨hg.get? hu ht hm.1, hm.2⟩⟩

theorem ClosedOn.add {t : Interner} {s : Sandbox} (h : ClosedOn t s) (rule : Rule)
    (path : ClassPath) : ClosedOn t (s.add rule path) := by
  cases rule <;> exact ⟨h.types, h.members⟩

theorem ClosedOn.mem_closedTypes {t : Interner} (ht : t.Sound) {s : Sandbox} (h : ClosedOn t s)
    {n : Name} {text : String} (hn : t.get? text = some n) :
    n ∈ s.closedTypes ↔ text ∈ closedTypeWords := by
  constructor
  · intro hm
    have : some n ∈ closedTypeWords.map t.get? := h.types ▸ List.mem_map_of_mem hm
    obtain ⟨word, hw, hg⟩ := List.mem_map.mp this
    have h1 := (ht.get?_eq_some_iff.mp hg).2
    have h2 := (ht.get?_eq_some_iff.mp hn).2
    rwa [← h2, h1]
  · intro hm
    have : t.get? text ∈ s.closedTypes.map some := h.types ▸ List.mem_map_of_mem hm
    obtain ⟨m, hm, he⟩ := List.mem_map.mp this
    rw [hn] at he
    exact Option.some.inj he ▸ hm

/-- A sandbox decides on the names of some texts as its policy does on the texts. -/
theorem decides_eq {t : Interner} (ht : t.Sound) {s : Sandbox} {p : Policy}
    (hr : Represents t s p) (hc : ClosedOn t s) (parts : List String) :
    s.decides (parts.map t.get?) = p.decides parts := by
  have hlast : (parts.map t.get?).getLast? = parts.getLast?.map t.get? := List.getLast?_map
  have hclass : (known (parts.map t.get?)).length = (parts.map t.get?).length ∧
      ClassPath.mk (known (parts.map t.get?)) ∈ s.allowedClasses ↔ parts ∈ p.classes := by
    constructor
    · rintro ⟨hl, hm⟩
      obtain ⟨words, hw, hs⟩ := hr.classes.spelled _ hm
      have he : (known (parts.map t.get?)).map some = parts.map t.get? :=
        (ClassPath.known_leads _).eq_of_length (by rwa [List.length_map])
      rwa [ClassPath.eq_of_map_get? ht he.symm hs.names]
    · intro hm
      obtain ⟨path, hp, hs⟩ := hr.classes.found _ hm
      obtain ⟨he, hl⟩ := (ClassPath.known_eq_iff hs.ne_nil).mpr hs
      exact ⟨hl, he ▸ hp⟩
  have hforb := ClassPath.starts_any ht hr.forbidden parts
  have hpack := ClassPath.starts_any ht hr.packages parts
  unfold decides Policy.decides
  rw [hlast]
  cases parts.getLast? with
  | none => rfl
  | some last =>
    have hclosed : (t.get? last).any (· ∈ s.closedTypes) = decide (last ∈ closedTypeWords) := by
      cases hg : t.get? last with
      | some n => simpa using hc.mem_closedTypes ht hg
      | none =>
        -- a closed word is always known, so an unknown segment is none of them
        have hn : last ∉ closedTypeWords := by
          intro hm
          have : t.get? last ∈ s.closedTypes.map some := hc.types ▸ List.mem_map_of_mem hm
          rw [hg] at this
          simp at this
        simp [hn]
    simp only [known] at hclass hforb hpack
    simp only [Option.map_some, hclosed, decide_eq_true_eq, hclass, hforb, hpack]

/-! ## Words that no rule opens -/

theorem ClosedOn.lookup_simpleName {t : Interner} (ht : t.Sound) {s : Sandbox}
    (hc : ClosedOn t s) {path : ClassPath} (h : s.allows path = true) {n : Name}
    (hn : path.simpleName = some n) : t.lookup n ∉ closedTypeWords := by
  intro hclosed
  have hknown : t.Knows n := by
    refine Interner.knows_of_lookup_ne fun hempty => ?_
    rw [hempty] at hclosed
    exact absurd hclosed (by decide)
  have hmem : n ∈ s.closedTypes := (hc.mem_closedTypes ht (ht.get?_lookup hknown)).mpr hclosed
  unfold allows decides at h
  rw [List.getLast?_map, ← ClassPath.simpleName, hn] at h
  simp [hmem] at h

theorem lookup_closedMembers {t : Interner} (ht : t.Sound) {words : List (String × Closure)}
    {members : List (Name × Closure)}
    (h : List.Forall₂ (fun w m => t.get? w.1 = some m.1 ∧ w.2 = m.2) words members)
    {word : String} {n : Name} (hn : t.get? word = some n) :
    members.lookup n = words.lookup word := by
  induction h with
  | nil => rfl
  | @cons w m _ _ hw _ ih =>
    obtain ⟨hget, htag⟩ := hw
    by_cases he : word = w.1
    · have hnm : n = m.1 := Option.some.inj (hn.symm.trans (he ▸ hget))
      obtain ⟨w₁, w₂⟩ := w
      obtain ⟨m₁, m₂⟩ := m
      rw [List.lookup_cons, List.lookup_cons, beq_iff_eq.mpr hnm, beq_iff_eq.mpr he]
      exact congrArg some htag.symm
    · have hnm : n ≠ m.1 := by
        rintro rfl
        have h1 := (ht.get?_eq_some_iff.mp hn).2
        have h2 := (ht.get?_eq_some_iff.mp hget).2
        exact he (h1.symm.trans h2)
      obtain ⟨w₁, w₂⟩ := w
      obtain ⟨m₁, m₂⟩ := m
      rw [List.lookup_cons, List.lookup_cons, beq_false_of_ne hnm, beq_false_of_ne he]
      exact ih

theorem closedMember_known {t : Interner} {words : List (String × Closure)}
    {members : List (Name × Closure)}
    (h : List.Forall₂ (fun w m => t.get? w.1 = some m.1 ∧ w.2 = m.2) words members) :
    ∀ w ∈ words, ∃ n, t.get? w.1 = some n := by
  induction h with
  | nil => exact fun _ hw => absurd hw List.not_mem_nil
  | cons hw _ ih => exact List.forall_mem_cons.mpr ⟨⟨_, hw.1⟩, ih⟩

/-- A member that may be called on a native type has none of the closed names. -/
theorem ClosedOn.member_open {t : Interner} (ht : t.Sound) {s : Sandbox} (hc : ClosedOn t s)
    {path : ClassPath} {member : String} (h : s.allowsMember t (some path) member = true) :
    member ∉ closedMemberWords.map Prod.fst := by
  intro hmem
  obtain ⟨w, hw, rfl⟩ := List.mem_map.mp hmem
  obtain ⟨n, hn⟩ := closedMember_known hc.members w hw
  have hall : ∀ w ∈ closedMemberWords, (closedMemberWords.lookup w.1).isSome := by decide
  obtain ⟨tag, htag⟩ := Option.isSome_iff_exists.mp (hall w hw)
  unfold allowsMember at h
  rw [hn, Option.bind_some, lookup_closedMembers ht hc.members hn, htag] at h
  cases tag <;> simp at h

end Sandbox

end MeteredScript

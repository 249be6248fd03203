import Mathlib.Data.List.TakeWhile
import MeteredScript.Proofs.Sandbox.Policy

/-!
# Sandboxes in the course of their lives

A sandbox is drafted, built and then extended while it is used; between any two steps other users of
the table intern what they like. Whatever the history, it decides on each name as the policy of its
rules decides on the texts.
-/

namespace MeteredScript.Sandbox

open ClassPath (Spells Matches)

/-- What happens to a table of names and to a sandbox on it. -/
inductive Event where
  /-- Another user of the table interns a text. -/
  | text (text : String)
  /-- The sandbox is given a rule. -/
  | rule (rule : Rule) (name : String)

namespace Event

def draft (d : Draft) : Event → StateM Interner Draft
  | text word => do
    let _ ← Interner.intern word
    return d
  | rule r name => d.read r name

/-- A refused rule leaves the sandbox in use as it is. -/
def use (s : Sandbox) : Event → StateM Interner Sandbox
  | text word => do
    let _ ← Interner.intern word
    return s
  | rule r name => do
    match ← s.extend r name with
    | .ok extended => return extended
    | .error _ => return s

def read (p : Policy) : Event → Policy
  | text _ => p
  | rule r name => p.read r name

end Event

/-- A sandbox that is drafted, built and then used; none if it was not built. -/
def live (drafting using_ : List Event) : StateM Interner (Option Sandbox) := do
  match ← (← drafting.foldlM Event.draft .empty).finish with
  | .error _ => return none
  | .ok s => return some (← using_.foldlM Event.use s)

/-- The policy that events state in texts alone. -/
def policyOf (events : List Event) : Policy := events.foldl Event.read .empty

/-- A path that was interned on the table when it had less texts, or has just been. -/
def InternedOn (t : Interner) (path : ClassPath) : Prop :=
  ∃ (name : String) (u : Interner), u.Sound ∧ ((ClassPath.intern name).run u).1 = some path ∧
    ((ClassPath.intern name).run u).2.Grows t

/-! ## Single steps -/

/-- Interning a dotted name spells it, unless it is malformed. -/
theorem run_intern {t : Interner} (ht : t.Sound) (name : String) :
    ((ClassPath.intern name).run t).2.Sound ∧ t.Grows ((ClassPath.intern name).run t).2 ∧
      if "" ∈ ClassPath.words name then ((ClassPath.intern name).run t).1 = none
      else ∃ path, ((ClassPath.intern name).run t).1 = some path ∧
        Spells ((ClassPath.intern name).run t).2 path (ClassPath.words name) := by
  obtain ⟨hs, hg, hn⟩ := ht.run_mapM_intern ((ClassPath.words name).takeWhile (· ≠ ""))
  refine ⟨hs, hg, ?_⟩
  split
  · next hw => exact if_pos hw
  · next hw =>
    have hall : (ClassPath.words name).takeWhile (· ≠ "") = ClassPath.words name := by
      apply List.takeWhile_eq_self_iff.mpr
      intro word hword
      have : word ≠ "" := by rintro rfl; exact hw hword
      exact decide_eq_true this
    rw [hall] at hn
    refine ⟨⟨(((ClassPath.words name).mapM Interner.intern).run t).1⟩, ?_, ?_⟩
    · change (if "" ∈ ClassPath.words name then none else
        some (ClassPath.mk (((ClassPath.words name).takeWhile (· ≠ "")).mapM
          Interner.intern |>.run t).1)) = _
      rw [if_neg hw, hall]
    · refine ⟨ClassPath.words_ne_nil name, ?_⟩
      change (ClassPath.words name).map
        ((((ClassPath.words name).takeWhile (· ≠ "")).mapM Interner.intern).run t).2.get? = _
      rw [hall]
      exact hn

/-- A table with a draft or a sandbox on it that has the rules of a policy. -/
structure Keeps (t u : Interner) (s : Sandbox) (p : Policy) : Prop where
  sound : u.Sound
  grows : t.Grows u
  represents : Represents u s p

theorem Keeps.after {t u v : Interner} {s : Sandbox} {p : Policy} (k : Keeps u v s p)
    (h : t.Grows u) : Keeps t v s p :=
  ⟨k.sound, h.trans k.grows, k.represents⟩

theorem Event.run_read (d : Draft) (r : Rule) (name : String) (t : Interner) :
    (Event.draft d (.rule r name)).run t =
      (match ((ClassPath.intern name).run t).1 with
        | some path => (d.1.add r path, d.2)
        | none => (d.1, d.2 <|> some name), ((ClassPath.intern name).run t).2) := by
  simp only [draft, Draft.read, StateT.run_bind]
  rcases (ClassPath.intern name).run t with ⟨_ | path, u⟩ <;> rfl

theorem Event.run_draft {t : Interner} (ht : t.Sound) {d : Draft} {p : Policy}
    (h : Represents t d.1 p) (e : Event) :
    Keeps t ((e.draft d).run t).2 ((e.draft d).run t).1.1 (e.read p) := by
  cases e with
  | text word =>
    have hg := Interner.grows_intern t word
    exact ⟨ht.intern word, hg, h.grow hg ht (ht.intern word)⟩
  | rule r name =>
    obtain ⟨hs, hg, hn⟩ := run_intern ht name
    have hr := h.grow hg ht hs
    rw [run_read]
    refine ⟨hs, hg, ?_⟩
    simp only [read, Policy.read]
    split at hn
    · next hw => rw [hn, if_pos hw]; exact hr
    · next hw =>
      obtain ⟨path, hp, hsp⟩ := hn
      rw [hp, if_neg hw]
      exact hr.add r hsp

theorem run_extend (s : Sandbox) (r : Rule) (name : String) (t : Interner) :
    (s.extend r name).run t =
      (match ((ClassPath.intern name).run t).1 with
        | some path => .ok (s.add r path)
        | none => .error (.invalidName name), ((ClassPath.intern name).run t).2) := by
  simp only [extend, StateT.run_bind]
  rcases (ClassPath.intern name).run t with ⟨_ | path, u⟩ <;> rfl

theorem Event.use_rule (s : Sandbox) (r : Rule) (name : String) (t : Interner) :
    (Event.use s (.rule r name)).run t =
      (match ((ClassPath.intern name).run t).1 with
        | some path => s.add r path
        | none => s, ((ClassPath.intern name).run t).2) := by
  simp only [use, StateT.run_bind, run_extend]
  rcases (ClassPath.intern name).run t with ⟨_ | path, u⟩ <;> rfl

theorem Event.run_use {t : Interner} (ht : t.Sound) {s : Sandbox} {p : Policy}
    (h : Represents t s p) (hc : ClosedOn t s) (e : Event) :
    Keeps t ((e.use s).run t).2 ((e.use s).run t).1 (e.read p) ∧
      ClosedOn ((e.use s).run t).2 ((e.use s).run t).1 := by
  cases e with
  | text word =>
    have hg := Interner.grows_intern t word
    have hs := ht.intern word
    exact ⟨⟨hs, hg, h.grow hg ht hs⟩, hc.grow hg ht hs⟩
  | rule r name =>
    obtain ⟨hs, hg, hn⟩ := run_intern ht name
    have hr := h.grow hg ht hs
    rw [use_rule]
    simp only [read, Policy.read]
    split at hn
    · next hw => rw [hn, if_pos hw]; exact ⟨⟨hs, hg, hr⟩, hc.grow hg ht hs⟩
    · next hw =>
      obtain ⟨path, hp, hsp⟩ := hn
      rw [hp, if_neg hw]
      exact ⟨⟨hs, hg, hr.add r hsp⟩, (hc.grow hg ht hs).add r path⟩

theorem close_run (s : Sandbox) (t : Interner) :
    s.close.run t =
      let types := (closedTypeWords.mapM Interner.intern).run t
      let members := (closedMemberWords.mapM internMember).run types.2
      ({ s with closedTypes := types.1, closedMembers := members.1 }, members.2) := by
  -- the equation holds of any words; the closed ones would be interned one by one
  unfold close
  generalize closedTypeWords = types
  generalize closedMemberWords = members
  rfl

theorem run_close {t : Interner} (ht : t.Sound) {s : Sandbox} {p : Policy}
    (h : Represents t s p) :
    Keeps t (s.close.run t).2 (s.close.run t).1 p ∧
      ClosedOn (s.close.run t).2 (s.close.run t).1 := by
  obtain ⟨hs, hg, hn⟩ := ht.run_mapM_intern closedTypeWords
  obtain ⟨hs', hg', hm⟩ := Interner.Sound.run_mapM (f := internMember)
    (R := fun t w m => t.get? w.1 = some m.1 ∧ w.2 = m.2)
    (fun t w ht => ⟨ht.intern w.1, Interner.grows_intern t w.1, Interner.get?_intern t w.1, rfl⟩)
    (fun hg ht hu hm => ⟨hg.get? hu ht hm.1, hm.2⟩) closedMemberWords hs
  simp only [close_run]
  generalize (closedTypeWords.mapM Interner.intern).run t = types at *
  generalize (closedMemberWords.mapM internMember).run types.2 = members at *
  have hr := h.grow (hg.trans hg') ht hs'
  exact ⟨⟨hs', hg.trans hg', hr.classes, hr.packages, hr.forbidden⟩,
    Interner.map_get?_grow hg' hs hs' hn, hm⟩

/-! ## Whole histories -/

theorem run_drafting {t : Interner} (ht : t.Sound) {d : Draft} {p : Policy}
    (h : Represents t d.1 p) (events : List Event) :
    Keeps t ((events.foldlM Event.draft d).run t).2 ((events.foldlM Event.draft d).run t).1.1
      (events.foldl Event.read p) := by
  induction events generalizing t d p with
  | nil => exact ⟨ht, .refl t, h⟩
  | cons e rest ih =>
    have hk := e.run_draft ht h
    rw [List.foldlM_cons, List.foldl_cons]
    exact (ih hk.sound hk.represents).after hk.grows

theorem run_uses {t : Interner} (ht : t.Sound) {s : Sandbox} {p : Policy}
    (h : Represents t s p) (hc : ClosedOn t s) (events : List Event) :
    Keeps t ((events.foldlM Event.use s).run t).2 ((events.foldlM Event.use s).run t).1
        (events.foldl Event.read p) ∧
      ClosedOn ((events.foldlM Event.use s).run t).2 ((events.foldlM Event.use s).run t).1 := by
  induction events generalizing t s p with
  | nil => exact ⟨⟨ht, .refl t, h⟩, hc⟩
  | cons e rest ih =>
    obtain ⟨hk, hc'⟩ := e.run_use ht h hc
    obtain ⟨hr, hcr⟩ := ih hk.sound hk.represents hc'
    rw [List.foldlM_cons, List.foldl_cons]
    exact ⟨hr.after hk.grows, hcr⟩

theorem represents_empty (t : Interner) : Represents t Draft.empty.1 .empty :=
  ⟨.nil t, .nil t, .nil t⟩

/-- A sandbox that was built and used has the rules it was given, and the closed words. -/
theorem run_live {t u : Interner} (ht : t.Sound) {drafting using_ : List Event} {s : Sandbox}
    (h : (live drafting using_).run t = (some s, u)) :
    Keeps t u s (policyOf (drafting ++ using_)) ∧ ClosedOn u s := by
  have hd := run_drafting ht (represents_empty t) drafting
  rw [live, Interner.run_bind] at h
  generalize (drafting.foldlM Event.draft Draft.empty).run t = drafted at hd h
  obtain ⟨⟨rules, _ | name⟩, v⟩ := drafted
  · obtain ⟨hk, hc⟩ := run_close hd.sound hd.represents
    obtain ⟨hu, hcu⟩ := run_uses hk.sound hk.represents hc using_
    simp only [Draft.finish] at h
    rw [Interner.run_bind, Interner.run_bind] at h
    generalize rules.close.run v = closed at hk hu hcu h
    obtain ⟨he, rfl⟩ := Prod.mk.inj h
    obtain rfl := Option.some.inj he
    rw [policyOf, List.foldl_append]
    exact ⟨(hu.after hk.grows).after hd.grows, hcu⟩
  · exact absurd (congrArg Prod.fst h) (Option.some_ne_none s).symm

/-! ## Decisions -/

theorem allowsName_eq {t : Interner} (ht : t.Sound) {s : Sandbox} {p : Policy}
    (hr : Represents t s p) (hc : ClosedOn t s) (name : String) :
    s.allowsName t name = p.allows name := by
  unfold allowsName ClassPath.query Policy.allows
  by_cases hw : "" ∈ ClassPath.words name
  · simp only [if_pos hw]
  · simp only [if_neg hw]
    exact decides_eq ht hr hc _

theorem allows_eq {t : Interner} (ht : t.Sound) (s : Sandbox) {path : ClassPath}
    (h : InternedOn t path) : s.allows path = s.allowsName t (path.dotted t) := by
  obtain ⟨name, u, hu, hp, hg⟩ := h
  obtain ⟨hs, _, hn⟩ := run_intern hu name
  split at hn
  · rw [hn] at hp; simp at hp
  · next hw =>
    obtain ⟨path', hp', hsp⟩ := hn
    obtain rfl : path' = path := Option.some.inj (hp'.symm.trans hp)
    have hsp := hsp.grow hg hs ht
    have hd : path'.dotted t = name := by
      rw [ClassPath.dotted, hsp.lookup ht, ClassPath.intercalate_words]
    rw [hd, allowsName, ClassPath.query]
    simp only [if_neg hw]
    rw [hsp.names, allows]

/-- An event that can only open names. -/
def Event.Opens : Event → Prop
  | .text _ => True
  | .rule r _ => r ≠ .forbidPackage

theorem allows_foldl {events : List Event} (h : ∀ e ∈ events, e.Opens) {p : Policy} {name : String}
    (ha : p.allows name = true) : (events.foldl Event.read p).allows name = true := by
  induction events generalizing p with
  | nil => exact ha
  | cons e rest ih =>
    refine ih (fun e he => h e (List.mem_cons_of_mem _ he)) ?_
    cases e with
    | text _ => exact ha
    | rule r new => exact Policy.allows_read (h _ List.mem_cons_self) ha

/-- Whatever its history, a sandbox decides as its rules decide on texts, on names and on interned
paths alike; further rules take nothing back, and refused ones change nothing. -/
theorem live_decides_as_policy (hash : String → Fin 16) (earlier : List String)
    (drafting using_ : List Event) {s : Sandbox} {t : Interner}
    (h : (live drafting using_).run (Interner.internAll earlier (.withWellKnown hash)) =
      (some s, t)) :
    (∀ name, s.allowsName t name = (policyOf (drafting ++ using_)).allows name) ∧
      (∀ path, InternedOn t path → s.allows path = s.allowsName t (path.dotted t)) ∧
      (∀ (events : List Event) (name : String), (∀ e ∈ events, e.Opens) →
        s.allowsName t name = true →
        ((events.foldlM Event.use s).run t).1.allowsName ((events.foldlM Event.use s).run t).2 name
          = true) ∧
      (∀ (r : Rule) (new : String) (fault : SandboxFault),
        ((s.extend r new).run t).1 = .error fault →
        (((Event.rule r new).use s).run t).1 = s ∧
          ∀ name, s.allowsName (((Event.rule r new).use s).run t).2 name = s.allowsName t name) := by
  have ht := (Interner.sound_withWellKnown hash).internAll earlier
  obtain ⟨hk, hc⟩ := run_live ht h
  have heq := allowsName_eq hk.sound hk.represents hc
  refine ⟨heq, fun path hp => allows_eq hk.sound s hp, ?_, ?_⟩
  · intro events name hopen ha
    obtain ⟨hu, hcu⟩ := run_uses hk.sound hk.represents hc events
    rw [allowsName_eq hu.sound hu.represents hcu]
    exact allows_foldl hopen (heq name ▸ ha)
  · intro r new fault hf
    obtain ⟨hu, hcu⟩ := (Event.rule r new).run_use hk.sound hk.represents hc
    have hsame : (((Event.rule r new).use s).run t).1 = s ∧
        (Event.rule r new).read (policyOf (drafting ++ using_)) =
          policyOf (drafting ++ using_) := by
      obtain ⟨_, _, hn⟩ := run_intern hk.sound new
      rw [run_extend] at hf
      rw [Event.use_rule]
      split at hn
      · next hw => rw [hn]; exact ⟨rfl, if_pos hw⟩
      · obtain ⟨path, hp, _⟩ := hn
        rw [hp] at hf
        simp at hf
    refine ⟨hsame.1, fun name => ?_⟩
    have hname := allowsName_eq hu.sound hu.represents hcu name
    rw [hsame.1, hsame.2] at hname
    rw [hname, heq]

/-- A package is opened and a part of it closed; a type of that part is opened while in use. -/
theorem live_decides_as_policy_shop :
    ∃ (s : Sandbox) (t : Interner),
      (live [.rule .allowPackage "net.shop", .text "Rate", .rule .forbidPackage "net.shop.tax"]
        [.rule .allowClass "net.shop.tax.Rate", .rule .allowClass "net..Rate"]).run
          (Interner.internAll ["tax"] (.withWellKnown Interner.spread)) = (some s, t) ∧
      s.allowsName t "net.shop.tax.Rate" = true ∧ s.allowsName t "net.shop.tax.Duty" = false := by
  obtain ⟨s, hs⟩ : ∃ s, ((live
      [.rule .allowPackage "net.shop", .text "Rate", .rule .forbidPackage "net.shop.tax"]
      [.rule .allowClass "net.shop.tax.Rate", .rule .allowClass "net..Rate"]).run
        (Interner.internAll ["tax"] (.withWellKnown Interner.spread))).1 = some s :=
    Option.isSome_iff_exists.mp (by decide +kernel)
  have h := live_decides_as_policy Interner.spread ["tax"] _ _ (Prod.ext hs rfl)
  refine ⟨s, _, Prod.ext hs rfl, ?_, ?_⟩
  · rw [h.1]; decide +kernel
  · rw [h.1]; decide +kernel

end MeteredScript.Sandbox

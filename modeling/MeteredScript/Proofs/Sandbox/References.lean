import MeteredScript.Evaluation
import MeteredScript.Natives
import MeteredScript.Proofs.Sandbox.Configured

/-!
# What a type reference comes to

An imported name is decided on by an interned path, and any other name by as many of its segments as
the table knows. Either way a reference comes to what a reading of texts alone says: it does not
matter what else is in the table, nor in which order the configuration was read.
-/

namespace MeteredScript

open ClassPath (Spells words)

/-- What a type name comes to, with the full name that it stands for. -/
inductive Reference where
  | denied (full : String)
  | missing (full : String)
  | type (full : String)
deriving DecidableEq, Repr

namespace Reference

/-- The reading of a name by texts alone. An imported short name stands for its type, and any other
name for itself. The policy comes first, which denies malformed names; then the type has to be one
that was registered. -/
def read (policy : Policy) (imports : List (String × String)) (registered : List String)
    (name : String) : Reference :=
  let full := (imports.lookup name).getD name
  if policy.allows full = false then denied full
  else if full ∈ registered then type full
  else missing full

/-- The outcome of an evaluation shows a reference: a fault names it, and a type that was registered
spells it by its path and by its name. -/
def Shows (e : Environment) : Reference → Except Fault Value → Prop
  | denied full, outcome => outcome = .error (.classNotAllowed full)
  | missing full, outcome => outcome = .error (.nameNotFound full)
  | type full, outcome => ∃ n ∈ e.configuration.natives, outcome = .ok (.native n.type) ∧
      n.type.path.dotted e.names = full ∧ n.type.name = full

end Reference

namespace Environment

/-- The sandbox of an environment has the rules of a policy, and its configuration is what texts
say, on one table. -/
structure Reads (e : Environment) (policy : Policy) (imports : List (String × String))
    (registered : List String) : Prop where
  sound : e.names.Sound
  represents : Sandbox.Represents e.names e.sandbox policy
  closed : Sandbox.ClosedOn e.names e.sandbox
  imports : Configuration.Imports e.names e.configuration.imports imports
  registers : Configuration.Registers e.names (e.configuration.natives.map (·.type)) registered

section Reads

variable {e : Environment} {policy : Policy} {imports : List (String × String)}
  {registered : List String}

theorem Reads.allows (h : e.Reads policy imports registered) {path : ClassPath} {full : String}
    (hw : ClassPath.Written e.names path full) : e.sandbox.allows path = policy.allows full := by
  rw [Sandbox.allows, ← hw.spells.names, Sandbox.decides_eq h.sound h.represents h.closed,
    Policy.allows, if_neg hw.wellFormed]

/-- A path that may be referred to is looked up among the types that were registered. -/
theorem Reads.find (h : e.Reads policy imports registered) {path : ClassPath} {full : String}
    (hs : Spells e.names path (words full)) :
    Reference.Shows e (if full ∈ registered then .type full else .missing full)
      (match e.configuration.native? path with
        | some c => .ok (.native c.type)
        | none => .error (.nameNotFound (path.dotted e.names))) := by
  obtain ⟨hin, hout⟩ := h.registers.native? h.sound hs
  split
  · next hmem =>
    obtain ⟨n, hn, hfound, hpath, hname⟩ := hin hmem
    rw [hfound]
    exact ⟨n, hn, rfl, by rw [hpath, hs.dotted h.sound], hname⟩
  · next hmem =>
    rw [hout hmem, hs.dotted h.sound]
    rfl

/-- What a full name may lead to before the registered types are looked at. -/
inductive Leads (e : Environment) (policy : Policy) (full : String) :
    Except Fault ClassPath → Prop
  | denied (refused : policy.allows full = false) :
      Leads e policy full (.error (.classNotAllowed full))
  | unknown (allowed : policy.allows full = true)
      (unspelled : ∀ path, ¬ Spells e.names path (words full)) :
      Leads e policy full (.error (.nameNotFound full))
  | found (allowed : policy.allows full = true) {path : ClassPath}
      (spelled : Spells e.names path (words full)) : Leads e policy full (.ok path)

/-- Names that are all known make a path. -/
theorem map_some_filterMap {segments : List (Option Name)}
    (h : segments.all Option.isSome = true) : (segments.filterMap id).map some = segments := by
  induction segments with
  | nil => rfl
  | cons o rest ih =>
    cases o with
    | none => cases h
    | some n => exact congrArg (some n :: ·) (ih h)

/-- The check of a name decides as the policy does. A name that is allowed leads to its path if the
table knows all of it. -/
theorem Reads.leads_of_checkClass (h : e.Reads policy imports registered) (full : String) :
    Leads e policy full (match e.sandbox.checkClass e.names full with
      | .ok (some path) => .ok path
      | .ok none => .error (.nameNotFound full)
      | .error fault => .error fault.toFault) := by
  unfold Sandbox.checkClass ClassPath.query
  by_cases hw : "" ∈ words full
  · simp only [if_pos hw]
    exact .denied (if_pos hw)
  have hallows : policy.allows full = policy.decides (words full) := if_neg hw
  simp only [if_neg hw, Sandbox.decides_eq h.sound h.represents h.closed, ← hallows]
  by_cases ha : policy.allows full = true
  · rw [if_pos ha]
    by_cases hall : ((words full).map e.names.get?).all Option.isSome = true
    · rw [if_pos hall]
      exact .found ha ⟨ClassPath.words_ne_nil full, (map_some_filterMap hall).symm⟩
    · rw [if_neg hall]
      refine .unknown ha fun path hs => hall ?_
      rw [hs.names]
      simp
  · rw [if_neg ha]
    exact .denied (by simpa using ha)

theorem Reads.leads_of_typePath (h : e.Reads policy imports registered) {n : Name}
    (hn : e.names.Knows n) :
    Leads e policy ((imports.lookup (e.names.lookup n)).getD (e.names.lookup n))
      (e.typePath n) := by
  unfold typePath
  rcases h.imports.leads n hn with ⟨hbound, himport⟩ | ⟨path, full, hbound, himport, hw⟩
  · rw [hbound, himport]
    exact h.leads_of_checkClass _
  · rw [hbound, himport, Option.getD_some]
    dsimp only
    rw [h.allows hw, hw.spells.dotted h.sound]
    split
    · next ha => exact .found ha hw.spells
    · next ha => exact .denied (by simpa using ha)

/-- A name of the table comes to what its text is read as. -/
theorem Reads.resolveType_shows (h : e.Reads policy imports registered) {n : Name}
    (hn : e.names.Knows n) :
    (Reference.read policy imports registered (e.names.lookup n)).Shows e (e.resolveType n) := by
  have hleads := h.leads_of_typePath hn
  unfold Reference.read resolveType
  generalize (imports.lookup (e.names.lookup n)).getD (e.names.lookup n) = full at hleads
  generalize e.typePath n = result at hleads
  dsimp only
  cases hleads with
  | denied refused =>
    rw [if_pos refused]
    rfl
  | unknown allowed unspelled =>
    have hout : full ∉ registered := by
      intro hin
      obtain ⟨path, hs⟩ := h.registers.known hin
      exact unspelled path hs
    rw [if_neg (by simp [allowed]), if_neg hout]
    rfl
  | found allowed spelled =>
    rw [if_neg (by simp [allowed])]
    exact h.find spelled

end Reads

/-! ## How environments come about -/

/-- A sandbox is drafted, built and used on a table; a host builds a configuration with it; and the
sandbox is used further. Others intern texts all the while. -/
inductive Arises (imports : List (String × String)) (natives : List (String × String × Native)) :
    Policy → Environment → Prop
  | mk (hash : String → Fin 16) (earlier : List String)
      {drafting using_ later : List Sandbox.Event} {s s' : Sandbox} {t u : Interner}
      {h h' : Host} {i c : Nat} {strong : Bool}
      (live : (Sandbox.live drafting using_).run
        (Interner.internAll earlier (.withWellKnown hash)) = (some s, t))
      (table : h.tables[0]? = some t) (sandbox : h.sandbox i = ⟨0, s⟩)
      (built : (Host.configure (some i) imports natives strong).run h = (.ok c, h'))
      (used : (later.foldlM Sandbox.Event.use s).run (h'.names 0) = (s', u)) :
      Arises imports natives (Sandbox.policyOf (drafting ++ using_ ++ later))
        ⟨u, s', h'.configuration c⟩

theorem Arises.reads {imports : List (String × String)}
    {natives : List (String × String × Native)} {policy : Policy} {e : Environment}
    (h : Arises imports natives policy e) : e.Reads policy imports (natives.map (·.1)) := by
  cases h with
  | @mk hash earlier drafting using_ later s s' t u h h' i c strong live table sandbox built used =>
    have ht := (Interner.sound_withWellKnown hash).internAll earlier
    obtain ⟨hk, hc⟩ := Sandbox.run_live ht live
    obtain ⟨bound, t₁, classes, t₂, hbound, hclasses, hconfiguration, htables⟩ :=
      Host.configure_ok built
    have hstart : h.names 0 = t := by
      rw [Host.names, Array.getD_eq_getD_getElem?, table, Option.getD_some]
    rw [hstart] at hbound
    obtain ⟨hs₁, hg₁, himports⟩ := Configuration.imports_of_bindImports hk.sound hbound
    obtain ⟨hs₂, hg₂, hregisters⟩ := Configuration.registers_of_register hs₁ hclasses
    have hnames : h'.names 0 = t₂ := by
      have hsize := (Array.getElem?_eq_some_iff.mp table).1
      rw [Host.names, htables, Array.getD_eq_getD_getElem?]
      simp [hsize]
    rw [hnames] at used
    have hgrown := hg₁.trans hg₂
    obtain ⟨hlater, hclater⟩ := Sandbox.run_uses hs₂ (hk.represents.grow hgrown hk.sound hs₂)
      (hc.grow hgrown hk.sound hs₂) later
    rw [used] at hlater hclater
    rw [hconfiguration]
    refine ⟨hlater.sound, ?_, hclater, ?_, ?_⟩
    · rw [Sandbox.policyOf, List.foldl_append]
      exact hlater.represents
    · exact himports.grow (hg₂.trans hlater.grows) hs₁ hlater.sound
    · exact hregisters.grow hlater.grows hs₂ hlater.sound

theorem run_typeRef {j : Job} {e : Environment} (hj : j.environment = e) (ev : Job.Evaluator)
    (fuel frame : Nat) (n : Name) (m : Machine) :
    (j.evalNode ev fuel frame (.typeRef n)).run m = ((e.resolveType n).mapError .fault, m) := by
  subst hj
  change (Run.pureAct (j.environment.resolveType n)).run m = _
  cases j.environment.resolveType n <;> rfl

/-- The evaluation of a type reference comes to what the text of its name is read as. So two
environments that came about from the same texts agree on it, whatever else is in their tables, and
a name that is denied is so whichever types are registered. -/
theorem typeRef_reads_text {imports : List (String × String)}
    {natives : List (String × String × Native)} {policy : Policy} {e : Environment}
    (h : Arises imports natives policy e) {n : Name} (hn : e.names.Knows n) :
    (∀ j : Job, j.environment = e → ∀ (ev : Job.Evaluator) (fuel frame : Nat) (m : Machine),
      ∃ outcome,
        (Reference.read policy imports (natives.map (·.1)) (e.names.lookup n)).Shows e outcome ∧
        (j.evalNode ev fuel frame (.typeRef n)).run m = (outcome.mapError .fault, m)) ∧
      ∀ {others : List (String × String × Native)} {e' : Environment},
        Arises imports others policy e' → ∀ n', e'.names.Knows n' →
        e'.names.lookup n' = e.names.lookup n →
        (others.map (·.1) = natives.map (·.1) →
          ∃ r : Reference, r.Shows e (e.resolveType n) ∧ r.Shows e' (e'.resolveType n')) ∧
        ∀ full, e.resolveType n = .error (.classNotAllowed full) →
          e'.resolveType n' = .error (.classNotAllowed full) := by
  have hshows := h.reads.resolveType_shows hn
  constructor
  · intro j hj ev fuel frame m
    exact ⟨_, hshows, run_typeRef hj ev fuel frame n m⟩
  intro others e' h' n' hn' htext
  have hshows' := h'.reads.resolveType_shows hn'
  rw [htext] at hshows'
  constructor
  · intro hsame
    rw [hsame] at hshows'
    exact ⟨_, hshows, hshows'⟩
  · intro full hfull
    rw [hfull] at hshows
    unfold Reference.read at hshows hshows'
    dsimp only at hshows hshows'
    split at hshows
    · next hdenied =>
      rw [if_pos hdenied] at hshows'
      exact hshows'.trans hshows.symm
    · split at hshows
      · obtain ⟨_, _, hok, _⟩ := hshows
        cases hok
      · cases hshows

/-! ## A name that is allowed late -/

/-- The table of a sandbox that allows nothing at first. -/
def lateSandbox : Option Sandbox × Interner :=
  (Sandbox.live [] []).run (Interner.internAll ["Rate"] (.withWellKnown Interner.spread))

def lateHost : Host := ⟨#[lateSandbox.2], #[⟨0, lateSandbox.1.getD default⟩], #[]⟩

/-- A configuration with an imported type that is registered. -/
def lateConfigured : Except ConfigurationFault Nat × Host :=
  (Host.configure (some 0) [("Tax", "net.Rate")] [("net.Rate", "of", Native.first)] false).run
    lateHost

/-- The type is allowed once the configuration was built. -/
def lateUsed : Sandbox × Interner :=
  ([Sandbox.Event.rule .allowPackage "net"].foldlM Sandbox.Event.use
    (lateSandbox.1.getD default)).run (lateConfigured.2.names 0)

def lateEnvironment : Environment := ⟨lateUsed.2, lateUsed.1, lateConfigured.2.configuration 0⟩

theorem lateEnvironment_arises : Arises [("Tax", "net.Rate")] [("net.Rate", "of", Native.first)]
    (Sandbox.policyOf [.rule .allowPackage "net"]) lateEnvironment := by
  have hsome : lateSandbox.1.isSome = true := by decide +kernel
  have hlive : (Sandbox.live [] []).run
      (Interner.internAll ["Rate"] (.withWellKnown Interner.spread)) =
        (some (lateSandbox.1.getD default), lateSandbox.2) := by
    obtain ⟨s, hs⟩ := Option.isSome_iff_exists.mp hsome
    rw [hs, Option.getD_some]
    exact Prod.ext hs rfl
  have hbuilt : lateConfigured.1 = .ok 0 := by decide +kernel
  exact .mk Interner.spread ["Rate"] hlive rfl rfl
    (Prod.ext hbuilt rfl) rfl

theorem typeRef_reads_text_late :
    ∃ n, Arises [("Tax", "net.Rate")] [("net.Rate", "of", Native.first)]
        (Sandbox.policyOf [.rule .allowPackage "net"]) lateEnvironment ∧
      lateEnvironment.names.Knows n ∧ lateEnvironment.names.lookup n = "Tax" ∧
      ∀ (ev : Job.Evaluator) (fuel frame : Nat) (m : Machine), ∃ t : NativeType,
        (Job.evalNode ⟨lateEnvironment, default, .null⟩ ev fuel frame (.typeRef n)).run m =
          (.ok (.native t), m) ∧
        t.path.dotted lateEnvironment.names = "net.Rate" ∧ t.name = "net.Rate" := by
  obtain ⟨n, hn⟩ : ∃ n, lateEnvironment.names.get? "Tax" = some n :=
    Option.isSome_iff_exists.mp (by decide +kernel)
  obtain ⟨hknown, htext⟩ := lateEnvironment_arises.reads.sound.get?_eq_some_iff.mp hn
  refine ⟨n, lateEnvironment_arises, hknown, htext, fun ev fuel frame m => ?_⟩
  obtain ⟨outcome, hshows, hrun⟩ := (typeRef_reads_text lateEnvironment_arises hknown).1
    ⟨lateEnvironment, default, .null⟩ rfl ev fuel frame m
  have hread : Reference.read (Sandbox.policyOf [.rule .allowPackage "net"])
      [("Tax", "net.Rate")] ["net.Rate"] "Tax" = .type "net.Rate" := by decide +kernel
  rw [htext] at hshows
  obtain ⟨c, -, houtcome, hpath, hname⟩ := hread ▸ hshows
  exact ⟨c.type, by rw [hrun, houtcome]; rfl, hpath, hname⟩

end Environment

end MeteredScript

import ForeignNamespace.ProcessWide
import ForeignNamespace.Proofs.Conversation
import ForeignNamespace.Proofs.FixedRuns

namespace ForeignNamespace

/-- What is done to a meta path, and to the default enquirer that a setup may fall back on. -/
inductive PathChange where
  | setup (enquirer : Option EnquirerId)
  | install (i : ImporterId)
  | push (f : FinderId) (keeps : List RegistryId)
  | setDefault (e : EnquirerId)

namespace PathChange

/-- Carries a change out; the answer is whether it has installed an importer. -/
def perform (s : ResolverId) : PathChange → Bridge (Except ImportError Bool)
  | .setup enquirer => s.setup enquirer
  | .install i => return .ok (← s.install i)
  | .push f keeps => do
    s.pushFinder f keeps
    return .ok false
  | .setDefault e => do
    let _ ← ProcessWide.setDefaultEnquirer e
    return .ok false

def pushed? : PathChange → Option Finder
  | .push f keeps => some (.host f keeps)
  | _ => none

end PathChange

/-- A change that was carried out, with its answer and the worlds around it. -/
structure PathStep where
  change : PathChange
  before : World
  answer : Except ImportError Bool
  after : World

namespace PathStep

def installed (step : PathStep) : Bool :=
  match step.answer with
  | .ok installed => installed
  | .error _ => false

def take (host : FixedHost) (s : ResolverId) (w : World) (change : PathChange) : PathStep :=
  let outcome := (change.perform s).run host w
  ⟨change, w, outcome.result, outcome.world⟩

/-- The steps of changes that are carried out one after the other. -/
def takeAll (host : FixedHost) (s : ResolverId) : World → List PathChange → List PathStep
  | _, [] => []
  | w, change :: changes =>
    let step := take host s w change
    step :: takeAll host s step.after changes

end PathStep

/-- The world that changes leave when they are carried out one after the other. -/
def PathChange.performAll (host : FixedHost) (s : ResolverId) (w : World)
    (changes : List PathChange) : World :=
  changes.foldl (fun w change => (PathStep.take host s w change).after) w

/-- Whether the meta path of a resolver is an importer, if there is one, in front of finders of the
host. -/
structure ResolverId.Arranged (s : ResolverId) (w : World) (hook : Option ImporterId)
    (pushed : List Finder) : Prop where
  path : (w.resolver s).metaPath = hook.toList.map .hook ++ pushed
  hosts : ∀ f ∈ pushed, f.importer? = none

theorem World.resolver_updateResolver_self (w : World) (s : ResolverId)
    (change : Resolver → Resolver) :
    (w.updateResolver s change).resolver s = change (w.resolver s) := by
  simp [World.updateResolver, World.resolver, Arena.get_set]

theorem ResolverId.Arranged.hook_eq {s : ResolverId} {w : World} {hook : Option ImporterId}
    {pushed : List Finder} (h : s.Arranged w hook pushed) : (w.resolver s).hook? = hook := by
  have hpushed : pushed.findSome? Finder.importer? = none := List.findSome?_eq_none_iff.mpr h.hosts
  rw [Resolver.hook?, h.path, List.findSome?_append, hpushed]
  cases hook <;> rfl

section Single

open Bridge

variable {s : ResolverId} {w : World} {host : FixedHost}

def World.withInstalled (w : World) (s : ResolverId) (i : ImporterId) : World :=
  w.updateResolver s fun resolver => { resolver with metaPath := .hook i :: resolver.metaPath }

theorem install_gives_later (there : (w.resolver s).hook?.isSome) (i : ImporterId) :
    (s.install i).Gives host w [] false w := by
  refine (gives_world w).then ?_
  simp only [there, if_true]
  exact gives_pure false w

theorem install_gives_first (absent : (w.resolver s).hook? = none) (i : ImporterId) :
    (s.install i).Gives host w [] true (w.withInstalled s i) := by
  refine (gives_world w).then ?_
  simp only [absent, Option.isSome_none, Bool.false_eq_true, if_false]
  exact (gives_modify _ w).then ((gives_report _ _).then (gives_pure true _))

theorem build_gives_without (r : RegistryId) {plan : ImporterPlan}
    (nobody : plan.enquirer.or w.defaultEnquirer = none) :
    (ImporterId.build r plan).Gives host w [] (.error .noEnquirer) w := by
  refine (gives_world w).then ?_
  simp only [nobody]
  exact gives_pure _ w

theorem build_gives_importer (r : RegistryId) {plan : ImporterPlan} {e : EnquirerId}
    (known : plan.enquirer.or w.defaultEnquirer = some e) :
    (ImporterId.build r plan).Gives host w [] (.ok ⟨w.importers.next⟩)
      (w.addImporter
        { registry := r, enquirer := e, classes := plan.classes, config := plan.config }) := by
  refine (gives_world w).then ?_
  simp only [known]
  exact (gives_modify _ w).then (gives_pure _ _)

theorem setup_gives_later (there : (w.resolver s).hook?.isSome) (enquirer : Option EnquirerId) :
    (s.setup enquirer).Gives host w [] (.ok false) w := by
  refine (gives_world w).then ?_
  simp only [there, if_true]
  exact (gives_report _ w).then (gives_pure _ w)

theorem setup_gives_without (absent : (w.resolver s).hook? = none) {enquirer : Option EnquirerId}
    (nobody : enquirer.or w.defaultEnquirer = none) :
    (s.setup enquirer).Gives host w [] (.error .noEnquirer) w := by
  refine (gives_world w).then ?_
  simp only [absent, Option.isSome_none, Bool.false_eq_true, if_false]
  exact (build_gives_without _ nobody).then (gives_pure _ w)

theorem setup_gives_first (absent : (w.resolver s).hook? = none) {enquirer : Option EnquirerId}
    {e : EnquirerId} (known : enquirer.or w.defaultEnquirer = some e) :
    let importer : Importer :=
      { registry := (w.resolver s).registry, enquirer := e, classes := none, config := {} }
    (s.setup enquirer).Gives host w [] (.ok true)
      ((w.addImporter importer).withInstalled s ⟨w.importers.next⟩) := by
  refine (gives_world w).then ?_
  simp only [absent, Option.isSome_none, Bool.false_eq_true, if_false]
  refine (build_gives_importer _ known).then ?_
  have still : ∀ importer, ((w.addImporter importer).resolver s).hook? = none := fun _ => absent
  exact (install_gives_first (still _) _).then (gives_pure _ _)

/-- A setup fails if and only if there is nobody to be asked, and then nothing has changed.  Behind
an installed importer it does nothing. -/
theorem setup_cases (host : FixedHost) (s : ResolverId) (w : World)
    (enquirer : Option EnquirerId) :
    let step := PathStep.take host s w (.setup enquirer)
    ((∃ error, step.answer = .error error) ↔
        (w.resolver s).hook? = none ∧ enquirer = none ∧ w.defaultEnquirer = none) ∧
      (∀ error, step.answer = .error error → error = .noEnquirer ∧ step.after = w) ∧
      ((w.resolver s).hook?.isSome → step.answer = .ok false ∧ step.after = w) := by
  intro step
  have hstep : ∀ {answer v}, (s.setup enquirer).Gives host w [] answer v →
      step.answer = answer ∧ step.after = v := fun h => ⟨h.result, h.world⟩
  cases hhook : (w.resolver s).hook? with
  | some i =>
      obtain ⟨hanswer, hafter⟩ := hstep (setup_gives_later (by rw [hhook]; rfl) enquirer)
      rw [hanswer, hafter]
      simp
  | none =>
      cases hknown : enquirer.or w.defaultEnquirer with
      | some e =>
          obtain ⟨hanswer, hafter⟩ := hstep (setup_gives_first hhook hknown)
          rw [hanswer, hafter]
          cases enquirer <;> simp_all
      | none =>
          obtain ⟨hanswer, hafter⟩ := hstep (setup_gives_without hhook hknown)
          rw [hanswer, hafter]
          simpa using hknown

theorem ResolverId.Arranged.withInstalled {pushed : List Finder} (h : s.Arranged w none pushed)
    (i : ImporterId) : s.Arranged (w.withInstalled s i) (some i) pushed where
  path := by
    rw [World.withInstalled, World.resolver_updateResolver_self, h.path]
    rfl
  hosts := h.hosts

/-- A change installs an importer where none is, or it pushes a finder or leaves the meta path as it
is. -/
theorem ResolverId.Arranged.take {hook : Option ImporterId} {pushed : List Finder}
    (h : s.Arranged w hook pushed) (host : FixedHost) (change : PathChange) :
    let step := PathStep.take host s w change
    ∃ hook', s.Arranged step.after hook' (pushed ++ change.pushed?.toList) ∧
      (hook' = hook ∧ step.installed = false ∨
        hook = none ∧ hook'.isSome ∧ step.installed = true) := by
  intro step
  have hstep : ∀ {answer v}, (change.perform s).Gives host w [] answer v →
      step.answer = answer ∧ step.after = v := fun h => ⟨h.result, h.world⟩
  cases change with
  | setup enquirer =>
      have hpushed : pushed ++ (PathChange.setup enquirer).pushed?.toList = pushed :=
        List.append_nil _
      rw [hpushed, PathStep.installed]
      cases hook with
      | some i =>
          have there : (w.resolver s).hook?.isSome := by
            rw [h.hook_eq]
            rfl
          obtain ⟨hanswer, hafter⟩ := hstep (setup_gives_later there enquirer)
          rw [hanswer, hafter]
          exact ⟨some i, h, .inl ⟨rfl, rfl⟩⟩
      | none =>
          cases hknown : enquirer.or w.defaultEnquirer with
          | some e =>
              obtain ⟨hanswer, hafter⟩ := hstep (setup_gives_first h.hook_eq hknown)
              rw [hanswer, hafter]
              have built : ∀ importer, s.Arranged (w.addImporter importer) none pushed :=
                fun _ => ⟨h.path, h.hosts⟩
              exact ⟨_, (built _).withInstalled _, .inr ⟨rfl, rfl, rfl⟩⟩
          | none =>
              obtain ⟨hanswer, hafter⟩ := hstep (setup_gives_without h.hook_eq hknown)
              rw [hanswer, hafter]
              exact ⟨none, h, .inl ⟨rfl, rfl⟩⟩
  | install i =>
      have hpushed : pushed ++ (PathChange.install i).pushed?.toList = pushed := List.append_nil _
      rw [hpushed, PathStep.installed]
      cases hook with
      | some j =>
          have there : (w.resolver s).hook?.isSome := by
            rw [h.hook_eq]
            rfl
          obtain ⟨hanswer, hafter⟩ := hstep ((install_gives_later there i).then (gives_pure _ _))
          rw [hanswer, hafter]
          exact ⟨some j, h, .inl ⟨rfl, rfl⟩⟩
      | none =>
          obtain ⟨hanswer, hafter⟩ :=
            hstep ((install_gives_first h.hook_eq i).then (gives_pure _ _))
          rw [hanswer, hafter]
          exact ⟨some i, h.withInstalled i, .inr ⟨rfl, rfl, rfl⟩⟩
  | push f keeps =>
      refine ⟨hook, ⟨?_, ?_⟩, .inl ⟨rfl, rfl⟩⟩
      · have hafter : step.after = w.updateResolver s fun resolver =>
            { resolver with metaPath := resolver.metaPath ++ [.host f keeps] } := rfl
        rw [hafter, World.resolver_updateResolver_self, h.path, List.append_assoc]
        rfl
      · exact List.forall_mem_append.mpr ⟨h.hosts, List.forall_mem_singleton.mpr rfl⟩
  | setDefault e =>
      have hpushed : pushed ++ (PathChange.setDefault e).pushed?.toList = pushed :=
        List.append_nil _
      rw [hpushed]
      exact ⟨hook, ⟨h.path, h.hosts⟩, .inl ⟨rfl, rfl⟩⟩

end Single

/-- What changes make of a meta path, and what their steps answer. -/
theorem ResolverId.Arranged.takeAll {s : ResolverId} {w : World} {hook : Option ImporterId}
    {pushed : List Finder} (h : s.Arranged w hook pushed) (host : FixedHost)
    (changes : List PathChange) :
    let steps := PathStep.takeAll host s w changes
    let v := PathChange.performAll host s w changes
    ∃ hook', s.Arranged v hook' (pushed ++ changes.filterMap PathChange.pushed?) ∧
      (∀ i, hook = some i → hook' = some i) ∧
      (∀ step ∈ steps, ∀ i, (step.after.resolver s).hook? = some i → hook' = some i) ∧
      hook.toList.length + steps.countP PathStep.installed = hook'.toList.length := by
  induction changes generalizing w hook pushed with
  | nil =>
      refine ⟨hook, ?_, fun _ => id, ?_, rfl⟩
      · rw [List.filterMap_nil, List.append_nil]
        exact h
      · exact fun step hmem => absurd hmem List.not_mem_nil
  | cons change changes ih =>
      obtain ⟨middle, hmiddle, hcases⟩ := h.take host change
      obtain ⟨hook', hend, hkeeps, hstays, hcount⟩ := ih hmiddle
      refine ⟨hook', ?_, ?_, ?_, ?_⟩
      · have hpushed : (change :: changes).filterMap PathChange.pushed? =
            change.pushed?.toList ++ changes.filterMap PathChange.pushed? := by
          rw [List.filterMap_cons]
          cases change.pushed? <;> rfl
        rw [hpushed, ← List.append_assoc]
        exact hend
      · rintro i rfl
        rcases hcases with ⟨rfl, -⟩ | ⟨hnone, -, -⟩
        · exact hkeeps i rfl
        · cases hnone
      · intro step hmem i hi
        rcases List.mem_cons.mp hmem with rfl | hmem
        · -- The importer behind the first step is the one that the later steps start with.
          exact hkeeps i (hmiddle.hook_eq ▸ hi)
        · exact hstays step hmem i hi
      · rw [PathStep.takeAll, List.countP_cons]
        rcases hcases with ⟨rfl, hinstalled⟩ | ⟨rfl, hsome, hinstalled⟩
        · rw [hinstalled]
          simpa using hcount
        · obtain ⟨i, rfl⟩ := Option.isSome_iff_exists.mp hsome
          rw [hinstalled]
          simp only [Option.toList_some, List.length_singleton] at hcount
          simp only [Option.toList_none, List.length_nil, if_true]
          omega

theorem PathStep.exists_take_of_mem {host : FixedHost} {s : ResolverId} {w : World}
    {changes : List PathChange} {step : PathStep} (hmem : step ∈ takeAll host s w changes) :
    step = take host s step.before step.change := by
  induction changes generalizing w with
  | nil => cases hmem
  | cons change changes ih =>
      rcases List.mem_cons.mp hmem with rfl | hmem
      · rfl
      · exact ih hmem

/-- On a new resolver the meta path is at any time the installed importer, if there is one, in front
of the pushed finders in the order in which they were pushed.  An importer that is installed stays
for good, and exactly one change answers that it has installed it.  A setup fails if and only if
none is installed, none was given an enquirer and none is the default; behind an installed importer
it changes nothing. -/
theorem metaPath_after_changes {s : ResolverId} {w : World} (new : (w.resolver s).metaPath = [])
    (host : FixedHost) (changes : List PathChange) :
    let steps := PathStep.takeAll host s w changes
    let resolver := (PathChange.performAll host s w changes).resolver s
    resolver.metaPath =
        resolver.hook?.toList.map .hook ++ changes.filterMap PathChange.pushed? ∧
      resolver.metaPath.filterMap Finder.importer? = resolver.hook?.toList ∧
      (∀ step ∈ steps, ∀ i, (step.after.resolver s).hook? = some i → resolver.hook? = some i) ∧
      steps.countP PathStep.installed = (if resolver.hook?.isSome then 1 else 0) ∧
      ∀ step ∈ steps, ∀ enquirer, step.change = .setup enquirer →
        ((∃ error, step.answer = .error error) ↔
            (step.before.resolver s).hook? = none ∧ enquirer = none ∧
              step.before.defaultEnquirer = none) ∧
          (∀ error, step.answer = .error error →
            error = .noEnquirer ∧ step.after = step.before) ∧
          ((step.before.resolver s).hook?.isSome →
            step.answer = .ok false ∧ step.after = step.before) := by
  intro steps resolver
  have start : s.Arranged w none [] := ⟨new, by simp⟩
  obtain ⟨hook, hend, -, hstays, hcount⟩ := start.takeAll host changes
  have hhook : resolver.hook? = hook := hend.hook_eq
  have hpath : resolver.metaPath = hook.toList.map .hook ++ changes.filterMap PathChange.pushed? :=
    hend.path
  rw [hhook]
  refine ⟨hpath, ?_, hstays, ?_, ?_⟩
  · have hnone : (changes.filterMap PathChange.pushed?).filterMap Finder.importer? = [] :=
      List.filterMap_eq_nil_iff.mpr hend.hosts
    rw [hpath, List.filterMap_append, hnone, List.append_nil]
    cases hook <;> rfl
  · cases hook <;> simpa using hcount
  · intro step hmem enquirer hsetup
    have hcases := setup_cases host s step.before enquirer
    rw [← hsetup, ← PathStep.exists_take_of_mem hmem] at hcases
    exact hcases

/-- Setups without and with a default enquirer, pushes, and an importer that comes too late. -/
theorem metaPath_after_changes_default :
    let s := ResolverId.processWide
    let changes : List PathChange := [.setup none, .push ⟨0⟩ [], .setDefault ⟨5⟩, .setup none,
      .push ⟨1⟩ [.processWide], .install ⟨3⟩, .setup none]
    let resolver := (PathChange.performAll .ignorant s .fresh changes).resolver s
    (World.fresh.resolver s).metaPath = [] ∧
      resolver.metaPath = [.hook ⟨0⟩, .host ⟨0⟩ [], .host ⟨1⟩ [.processWide]] ∧
      (PathStep.takeAll .ignorant s .fresh changes).countP PathStep.installed = 1 := by
  intro s changes resolver
  have new : (World.fresh.resolver s).metaPath = [] := rfl
  have hhook : resolver.hook? = some ⟨0⟩ := by decide +kernel
  obtain ⟨hpath, -, -, hcount, -⟩ := metaPath_after_changes new .ignorant changes
  refine ⟨new, hpath.trans ?_, hcount.trans ?_⟩
  · rw [hhook]
    rfl
  · rw [hhook]
    rfl

end ForeignNamespace

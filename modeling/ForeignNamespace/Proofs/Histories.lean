import ForeignNamespace.ProcessWide
import ForeignNamespace.Proofs.SubmoduleBindings
import ForeignNamespace.Script.Runner

/-!
Histories of a process.

A process carries out operations step by step.  While one of them waits for an answer the host may
begin others, which may wait in turn, so the operations that are under way form a stack.  What all
operations uphold, whatever the host begins and answers, holds in every process that can be reached
(`Process.Reachable.upheld`).
-/

namespace ForeignNamespace

/-- What can be asked of the library. -/
inductive Operation where
  | call (c : Call)
  | upkeep (u : Upkeep)
  | hasAttr (n : NodeId) (attr : String)
  | tryStrategy (strategy : Strategy) (n : NodeId) (attr : String)
  | listNames (n : NodeId)
  | invoke (n : NodeId) (arguments : List Value)
  | claims (i : ImporterId) (name : String)
  | createRegistry
  | createResolver (r : RegistryId)
  | build (r : RegistryId) (plan : ImporterPlan)
  | install (s : ResolverId) (i : ImporterId)
  | setup (s : ResolverId) (enquirer : Option EnquirerId)
  | pushFinder (s : ResolverId) (f : FinderId) (keeps : List RegistryId)
  | setDefaultEnquirer (e : EnquirerId)
  | setDefaultClasses (c : ClassResolverId)
  | hold (h : Handle)
  | release (h : Handle)
  | runScripts (runner : ScriptRunner) (project : ProjectId)

namespace Operation

def Result : Operation → Type
  | .call c => c.Result
  | .upkeep u => u.Result
  | .hasAttr .. => Except ImportError Bool
  | .tryStrategy .. => Except ImportError Resolution
  | .listNames _ => List String
  | .invoke .. => Except ImportError Value
  | .claims .. => Bool
  | .createRegistry => RegistryId
  | .createResolver _ => ResolverId
  | .build .. => Except ImportError ImporterId
  | .install .. => Bool
  | .setup .. => Except ImportError Bool
  | .setDefaultEnquirer _ => Option EnquirerId
  | .setDefaultClasses _ => Option ClassResolverId
  | .pushFinder .. | .hold _ | .release _ => Unit
  | .runScripts .. => Except ImportError RunReport

def carryOut : (operation : Operation) → Bridge operation.Result
  | .call c => c.carryOut
  | .upkeep u => u.carryOut
  | .hasAttr n attr => n.hasAttr attr
  | .tryStrategy strategy n attr => strategy.apply n attr
  | .listNames n => n.listNames
  | .invoke n arguments => n.invoke arguments
  | .claims i name => i.claims name
  | .createRegistry => RegistryId.create
  | .createResolver r => ResolverId.create r
  | .build r plan => ImporterId.build r plan
  | .install s i => s.install i
  | .setup s enquirer => s.setup enquirer
  | .pushFinder s f keeps => s.pushFinder f keeps
  | .setDefaultEnquirer e => ProcessWide.setDefaultEnquirer e
  | .setDefaultClasses c => ProcessWide.setDefaultClasses c
  | .hold h => Bridge.modify (·.hold h)
  | .release h => Bridge.modify (·.release h)
  | .runScripts runner project => runner.run project

/-- Carries an operation out and leaves its result to the host, which may do with it what it
likes. -/
def perform (operation : Operation) : Bridge Unit := (fun _ => ()) <$> operation.carryOut

/-- Whether an operation may bind nodes that it has imported. -/
def BindsImports : Operation → Prop
  | .call (.importName ..) | .call (.importFrom ..) | .call (.importStar ..) => True
  | .runScripts .. => True
  | _ => False

end Operation

/-- What can be seen of a process: an operation is begun, one of them writes, the host answers. -/
inductive Incident where
  | began (operation : Operation)
  | wrote (operation : Operation) (w : World)
  | answered (question : Query) (answer : question.Answer)

/-- An operation under way, and what is left of it. -/
structure Activity where
  operation : Operation
  rest : Bridge Unit

/-- The world, and the operations that are under way, the innermost first. -/
structure Process where
  world : World
  activities : List Activity

/-- Whether the host is to answer next. -/
def Bridge.Asks {α : Type} : Bridge α → Prop
  | .ask .. => True
  | _ => False

namespace Process

/-- One step of a process, and what can be seen of it. -/
inductive Step : Process → List Incident → Process → Prop
  | begins {w : World} {activities : List Activity} (operation : Operation)
      (waits : ∀ a ∈ activities, a.rest.Asks) :
      Step ⟨w, activities⟩ [.began operation] ⟨w, ⟨operation, operation.perform⟩ :: activities⟩
  | reads {w : World} {operation : Operation} {next : World → Bridge Unit}
      {activities : List Activity} :
      Step ⟨w, ⟨operation, .read next⟩ :: activities⟩ [] ⟨w, ⟨operation, next w⟩ :: activities⟩
  | writes {w v : World} {operation : Operation} {next : Bridge Unit}
      {activities : List Activity} :
      Step ⟨w, ⟨operation, .write v next⟩ :: activities⟩ [.wrote operation v]
        ⟨v, ⟨operation, next⟩ :: activities⟩
  | reports {w : World} {operation : Operation} {event : Event} {next : Bridge Unit}
      {activities : List Activity} :
      Step ⟨w, ⟨operation, .emit event next⟩ :: activities⟩ []
        ⟨w, ⟨operation, next⟩ :: activities⟩
  | answers {w : World} {operation : Operation} {question : Query}
      {next : question.Answer → Bridge Unit} {activities : List Activity}
      (answer : question.Answer) :
      Step ⟨w, ⟨operation, .ask question next⟩ :: activities⟩ [.answered question answer]
        ⟨w, ⟨operation, next answer⟩ :: activities⟩
  | ends {w : World} {operation : Operation} {activities : List Activity} :
      Step ⟨w, ⟨operation, .pure ()⟩ :: activities⟩ [] ⟨w, activities⟩

/-- The processes that can be reached from the start, with their histories, the latest first. -/
inductive Reachable : List Incident → Process → Prop
  | start : Reachable [] ⟨.fresh, []⟩
  | step {history incidents : List Incident} {p p' : Process} (before : Reachable history p)
      (step : Step p incidents p') : Reachable (incidents ++ history) p'

end Process

section Upholds

variable (good : World → Prop) (fine : Incident → Prop) (operation : Operation)

/-- Whether a computation writes good worlds only, as long as what happens is fine. -/
def Bridge.UpholdsFrom {α : Type} : Bridge α → World → Prop
  | .pure _, _ => True
  | .read next, w => (next w).UpholdsFrom w
  | .write v next, _ => fine (.wrote operation v) → good v ∧ next.UpholdsFrom v
  | .emit _ next, w => next.UpholdsFrom w
  | .ask question next, _ =>
    ∀ answer, fine (.answered question answer) → ∀ v, good v → (next answer).UpholdsFrom v

def Bridge.Upholds {α : Type} (p : Bridge α) : Prop :=
  ∀ w, good w → p.UpholdsFrom good fine operation w

end Upholds

/-- The rule by which good worlds are followed by good ones, if an operation does what is fine. -/
def Rule.preserving (good : World → Prop) (fine : Incident → Prop) (operation : Operation) : Rule :=
  .ofWrites fun w v => fine (.wrote operation v) → good w → good v

namespace Bridge

variable {α β : Type} {good : World → Prop} {fine : Incident → Prop} {operation : Operation}

theorem UpholdsFrom.bind {p : Bridge α} {f : α → Bridge β} {w : World}
    (hgood : good w) (hp : p.UpholdsFrom good fine operation w)
    (hf : ∀ a, (f a).Upholds good fine operation) :
    (p >>= f).UpholdsFrom good fine operation w := by
  change (p.bind f).UpholdsFrom good fine operation w
  induction p generalizing w with
  | pure a => exact hf a w hgood
  | read next ih => exact ih w hgood hp
  | write v next ih => exact fun hfine => ⟨(hp hfine).1, ih (hp hfine).1 (hp hfine).2⟩
  | emit event next ih => exact ih hgood hp
  | ask question next ih => exact fun answer hfine v hv => ih answer hv (hp answer hfine v hv)

theorem Upholds.bind {p : Bridge α} {f : α → Bridge β} (hp : p.Upholds good fine operation)
    (hf : ∀ a, (f a).Upholds good fine operation) : (p >>= f).Upholds good fine operation :=
  fun w hgood => (hp w hgood).bind hgood hf

/-- What keeps to a rule by which good worlds are followed by good ones upholds them. -/
theorem Obeys.upholds {p : Bridge α} (h : p.Obeys (.preserving good fine operation)) :
    p.Upholds good fine operation := by
  intro w hgood
  have hfrom := h w
  clear h
  induction p generalizing w with
  | pure a => trivial
  | read next ih => exact ih w w hgood hfrom
  | write v next ih =>
      exact fun hfine => ⟨hfrom.1 hfine hgood, ih v (hfrom.1 hfine hgood) hfrom.2⟩
  | emit event next ih => exact ih w hgood hfrom.2
  | ask question next ih => exact fun answer _ v hv => ih answer v hv (hfrom.2 answer v)

theorem upholds_pure (a : α) : (Pure.pure a : Bridge α).Upholds good fine operation :=
  fun _ _ => trivial

theorem Upholds.map {p : Bridge α} (hp : p.Upholds good fine operation) (f : α → β) :
    (f <$> p).Upholds good fine operation :=
  hp.bind fun a => upholds_pure (f a)

theorem upholds_world : world.Upholds good fine operation := fun _ _ => trivial

theorem upholds_report (event : Event) : (report event).Upholds good fine operation :=
  fun _ _ => trivial

theorem upholds_modify {change : World → World}
    (h : ∀ w, good w → fine (.wrote operation (change w)) → good (change w)) :
    (modify change).Upholds good fine operation :=
  fun w hgood hfine => ⟨h w hgood hfine, trivial⟩

end Bridge

namespace Process

variable {good : World → Prop} {fine : Incident → Prop} {p p' : Process}
  {incidents history : List Incident}

/-- All operations under way but the innermost one wait for an answer. -/
theorem Reachable.waits (h : Reachable history p) : ∀ a ∈ p.activities.tail, a.rest.Asks := by
  induction h with
  | start => simp
  | step before step ih =>
      cases step with
      | begins operation waits => exact waits
      | ends => exact fun a ha => ih a (List.mem_of_mem_tail ha)
      | _ => exact ih

theorem Reachable.began (h : Reachable history p) :
    ∀ operation ∈ p.activities.map Activity.operation, .began operation ∈ history := by
  induction h with
  | start => simp
  | step before step ih =>
      intro operation hmem
      cases step with
      | begins begun waits =>
          rcases List.mem_cons.mp hmem with rfl | hmem
          · exact List.mem_cons_self
          · exact List.mem_cons_of_mem _ (ih operation hmem)
      | ends => exact ih operation (List.mem_cons_of_mem _ hmem)
      | _ => exact List.mem_append_right _ (ih operation hmem)

/-- Whether the world is good and every operation under way will leave it so. -/
structure Sound (good : World → Prop) (fine : Incident → Prop) (p : Process) : Prop where
  world : good p.world
  upholds : ∀ a ∈ p.activities, a.rest.UpholdsFrom good fine a.operation p.world

/-- What is left of an operation that waits does not depend on the world. -/
theorem upholdsFrom_of_asks {α : Type} {rest : Bridge α} {operation : Operation} {w v : World}
    (asks : rest.Asks) (h : rest.UpholdsFrom good fine operation w) :
    rest.UpholdsFrom good fine operation v := by
  cases rest with
  | ask question next => exact h
  | _ => exact asks.elim

theorem Sound.innermost {w : World} {a : Activity} {activities : List Activity}
    (h : Sound good fine ⟨w, a :: activities⟩) :
    a.rest.UpholdsFrom good fine a.operation w :=
  h.upholds a List.mem_cons_self

/-- The innermost operation goes on, and what it does is good. -/
theorem Sound.goes_on {w v : World} {a b : Activity} {activities : List Activity}
    (h : Sound good fine ⟨w, a :: activities⟩) (waits : ∀ a ∈ activities, a.rest.Asks)
    (hgood : good v) (hb : b.rest.UpholdsFrom good fine b.operation v) :
    Sound good fine ⟨v, b :: activities⟩ := by
  refine ⟨hgood, fun other hother => ?_⟩
  rcases List.mem_cons.mp hother with rfl | hother
  · exact hb
  · exact upholdsFrom_of_asks (waits other hother)
      (h.upholds other (List.mem_cons_of_mem _ hother))

theorem Step.sound
    (fulfilled : ∀ operation, fine (.began operation) →
      operation.carryOut.Upholds good fine operation)
    (step : Step p incidents p') (waits : ∀ a ∈ p.activities.tail, a.rest.Asks)
    (hfine : ∀ x ∈ incidents, fine x) (h : p.Sound good fine) : p'.Sound good fine := by
  cases step with
  | begins operation =>
      refine ⟨h.world, fun a ha => ?_⟩
      rcases List.mem_cons.mp ha with rfl | ha
      · exact (fulfilled operation (hfine _ List.mem_cons_self)).map _ _ h.world
      · exact h.upholds a ha
  | reads => exact h.goes_on waits h.world h.innermost
  | writes =>
      obtain ⟨hgood, hnext⟩ := h.innermost (hfine _ List.mem_cons_self)
      exact h.goes_on waits hgood hnext
  | reports => exact h.goes_on waits h.world h.innermost
  | answers answer =>
      have hnext := h.innermost answer (hfine _ List.mem_cons_self) _ h.world
      exact h.goes_on waits h.world hnext
  | ends => exact ⟨h.world, fun a ha => h.upholds a (List.mem_cons_of_mem _ ha)⟩

/-- What every operation upholds holds wherever a process comes to, if what happened was fine. -/
theorem Reachable.upheld
    (fulfilled : ∀ operation, fine (.began operation) →
      operation.carryOut.Upholds good fine operation)
    (start : good .fresh) (h : Reachable history p) (hfine : ∀ x ∈ history, fine x) :
    good p.world := by
  suffices hsound : p.Sound good fine from hsound.world
  induction h with
  | start => exact ⟨start, by simp⟩
  | step before step ih =>
      refine step.sound fulfilled before.waits (fun x hx => hfine x (List.mem_append_left _ hx))
        (ih fun x hx => ?_)
      exact hfine x (List.mem_append_right _ hx)

end Process

/-- Whether an incident belongs to an operation, or is an answer of the host. -/
def Incident.BelongsTo (host : FixedHost) (operation : Operation) : Incident → Prop
  | .began begun => begun = operation
  | .wrote writing _ => writing = operation
  | .answered question answer => answer = host question

namespace Process

variable {history : List Incident} {w : World} {activities : List Activity}

theorem Reachable.goes_on (host : FixedHost) {operation : Operation} {rest : Bridge Unit}
    (h : Reachable history ⟨w, ⟨operation, rest⟩ :: activities⟩) :
    ∃ incidents, Reachable (incidents ++ history) ⟨(rest.run host w).world, activities⟩ ∧
      ∀ x ∈ incidents, x.BelongsTo host operation := by
  induction rest generalizing w history with
  | pure a => exact ⟨[], h.step .ends, by simp⟩
  | read next ih => exact ih w (h.step .reads)
  | write v next ih =>
      obtain ⟨incidents, hreach, hown⟩ := ih (h.step .writes)
      rw [← List.append_assoc] at hreach
      exact ⟨_, hreach, List.forall_mem_append.mpr ⟨hown, List.forall_mem_singleton.mpr rfl⟩⟩
  | emit event next ih => exact ih (h.step .reports)
  | ask question next ih =>
      obtain ⟨incidents, hreach, hown⟩ := ih _ (h.step (.answers (host question)))
      rw [← List.append_assoc] at hreach
      exact ⟨_, hreach, List.forall_mem_append.mpr ⟨hown, List.forall_mem_singleton.mpr rfl⟩⟩

theorem Reachable.performs (host : FixedHost) (operation : Operation)
    (h : Reachable history ⟨w, []⟩) :
    ∃ incidents, Reachable (incidents ++ history) ⟨(operation.perform.run host w).world, []⟩ ∧
      ∀ x ∈ incidents, x.BelongsTo host operation := by
  obtain ⟨incidents, hreach, hown⟩ := (h.step (.begins operation (by simp))).goes_on host
  rw [← List.append_assoc] at hreach
  exact ⟨_, hreach, List.forall_mem_append.mpr ⟨hown, List.forall_mem_singleton.mpr rfl⟩⟩

end Process

/-- The world that operations leave, one after the other, with a host of fixed answers. -/
def Operation.performAll (host : FixedHost) (operations : List Operation) (w : World) : World :=
  operations.foldl (fun w operation => (operation.perform.run host w).world) w

/-- A host may begin one operation after the other. -/
theorem Process.Reachable.performsAll (host : FixedHost) {history : List Incident} {w : World}
    (operations : List Operation) (h : Reachable history ⟨w, []⟩) :
    ∃ incidents, Reachable (incidents ++ history) ⟨Operation.performAll host operations w, []⟩ ∧
      ∀ x ∈ incidents, ∃ operation ∈ operations, x.BelongsTo host operation := by
  induction operations generalizing history w with
  | nil => exact ⟨[], h, by simp⟩
  | cons operation operations ih =>
      obtain ⟨front, hfront, hown⟩ := h.performs host operation
      obtain ⟨incidents, hreach, howned⟩ := ih hfront
      rw [← List.append_assoc] at hreach
      refine ⟨_, hreach, List.forall_mem_append.mpr ⟨fun x hx => ?_, fun x hx => ?_⟩⟩
      · obtain ⟨other, hother, hx⟩ := howned x hx
        exact ⟨other, List.mem_cons_of_mem _ hother, hx⟩
      · exact ⟨operation, List.mem_cons_self, hown x hx⟩

end ForeignNamespace

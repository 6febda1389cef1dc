import ForeignNamespace.Bridge.Run
import ForeignNamespace.Import.Resolver
import ForeignNamespace.Proofs.WorldLaws

/-!
Runs against a host of fixed answers, up to the events that they report.

Such a run has one result, leaves one world and asks one list of questions (`Bridge.Gives`), and
the runs of the parts of a computation make up the run of the whole (`Bridge.Gives.bind`).
-/

namespace ForeignNamespace

/-- Whether a computation gives a result and leaves a world, asking these questions. -/
structure Bridge.Gives (host : FixedHost) {α : Type} (p : Bridge α) (w : World)
    (asked : List Query) (a : α) (w' : World) : Prop where
  result : (p.run host w).result = a
  world : (p.run host w).world = w'
  questions : (p.run host w).questions = asked

namespace Bridge

variable {α β : Type} {host : FixedHost} {w v w' : World} {asked back : List Query} {a : α} {b : β}

theorem Gives.bind {p : Bridge α} {f : α → Bridge β} (first : p.Gives host w asked a v)
    (second : (f a).Gives host v back b w') : (p >>= f).Gives host w (asked ++ back) b w' := by
  obtain ⟨rfl, rfl, rfl⟩ := first
  have hrun := run_bind host p f w
  constructor
  · rw [hrun]
    exact second.result
  · rw [hrun]
    exact second.world
  · rw [hrun, Outcome.questions, Outcome.behind, List.filterMap_append, ← second.questions]
    rfl

/-- A computation that asks nothing, in front of another. -/
theorem Gives.then {p : Bridge α} {f : α → Bridge β} (first : p.Gives host w [] a v)
    (second : (f a).Gives host v asked b w') : (p >>= f).Gives host w asked b w' :=
  first.bind second

/-- A computation in front of another that asks nothing. -/
theorem Gives.before {p : Bridge α} {f : α → Bridge β} (first : p.Gives host w asked a v)
    (second : (f a).Gives host v [] b w') : (p >>= f).Gives host w asked b w' := by
  rw [← List.append_nil asked]
  exact first.bind second

theorem gives_pure (a : α) (w : World) : (Pure.pure a : Bridge α).Gives host w [] a w :=
  ⟨rfl, rfl, rfl⟩

theorem gives_world (w : World) : Bridge.world.Gives host w [] w w := ⟨rfl, rfl, rfl⟩

theorem gives_report (event : Event) (w : World) :
    (Bridge.report event).Gives host w [] () w :=
  ⟨by rfl, by rfl, by rfl⟩

theorem gives_modify (change : World → World) (w : World) :
    (Bridge.modify change).Gives host w [] () (change w) :=
  ⟨rfl, rfl, rfl⟩

theorem gives_create (node : Node) (w : World) :
    (Bridge.create node).Gives host w [] w.nextNode (w.addNode node) :=
  ⟨rfl, rfl, rfl⟩

theorem gives_ask (question : Query) (w : World) :
    (Bridge.ask question .pure).Gives host w [question] (host question) w :=
  ⟨by rfl, by rfl, by rfl⟩

theorem gives_answer {question : Query} {answer : question.Answer} (h : host question = answer)
    (w : World) : (Bridge.ask question .pure).Gives host w [question] answer w :=
  h ▸ gives_ask question w

theorem Gives.holding {h : Handle} {body : Bridge α}
    (inner : body.Gives host (w.hold h) asked a (v.hold h)) :
    (Bridge.holding h body).Gives host w asked a v := by
  refine (gives_modify _ w).then (inner.before ((gives_modify _ _).then ?_))
  rw [World.release_hold]
  exact gives_pure a v

end Bridge

namespace FixedHost

variable (host : FixedHost) (e : EnquirerId) (name : String)

def isPackage : Bool := host (.isPackage e name)

def loadsModules : Bool := host (.loadsModules e)

def isModule : Bool := host (.isModule e name)

def subPackages : Option (List String) := host (.subPackages e name)

def loadModule : Except ForeignError ObjectId := host (.loadModule e name)

def knowsModule : Bool := host.loadsModules e && host.isModule e name

def claims : Bool := host.isPackage e name || host.knowsModule e name

/-- The questions that it takes to find out whether a name is a foreign module. -/
def moduleQuestions : List Query :=
  .loadsModules e :: if host.loadsModules e then [.isModule e name] else []

/-- The questions that it takes to find out whether a name is claimed. -/
def claimQuestions : List Query :=
  .isPackage e name :: if host.isPackage e name then [] else host.moduleQuestions e name

/-- The questions that it takes to load a name. -/
def loadQuestions : List Query :=
  host.moduleQuestions e name ++ if host.knowsModule e name then [.loadModule e name] else []

/-- The questions that it takes to import an unregistered name. -/
def importQuestions : List Query :=
  host.claimQuestions e name ++ if host.claims e name then host.loadQuestions e name else []

end FixedHost

theorem knowsModule_gives (host : FixedHost) (e : EnquirerId) (name : String) (w : World) :
    (Host.knowsModule e name).Gives host w (host.moduleQuestions e name)
      (host.knowsModule e name) w := by
  rw [FixedHost.moduleQuestions, FixedHost.knowsModule]
  cases h : host.loadsModules e with
  | false => exact (Bridge.gives_answer h w).bind (Bridge.gives_pure false w)
  | true => exact (Bridge.gives_answer h w).bind (Bridge.gives_ask (.isModule e name) w)

theorem decide_gives (host : FixedHost) (i : ImporterId) (name : String) (decision : HookDecision)
    (w : World) : (i.decide name decision).Gives host w [] () w :=
  (Bridge.gives_world w).then (Bridge.gives_report _ w)

theorem claims_gives (host : FixedHost) (i : ImporterId) (name : String) (w : World) :
    (i.claims name).Gives host w (host.claimQuestions (w.importer i).enquirer name)
      (host.claims (w.importer i).enquirer name) w := by
  have hdecided : ∀ known, (do
      i.decide name (if known = true then .claimed else .declined)
      return known : Bridge Bool).Gives host w [] known w := fun known =>
    (decide_gives host i name _ w).then (Bridge.gives_pure known w)
  rw [FixedHost.claimQuestions, FixedHost.claims]
  refine (Bridge.gives_world w).then ?_
  cases h : host.isPackage (w.importer i).enquirer name with
  | false =>
      have hmodule := knowsModule_gives host (w.importer i).enquirer name w
      exact (Bridge.gives_answer h w).bind (hmodule.before (hdecided _))
  | true => exact (Bridge.gives_answer h w).bind (hdecided true)

theorem put_gives (host : FixedHost) (r : RegistryId) (name : String) (n : NodeId) (w : World) :
    (r.put name n).Gives host w [] (w.lookup r name) (w.register r name n) :=
  (Bridge.gives_world w).then ((Bridge.gives_report _ w).then
    ((Bridge.gives_modify _ w).then (Bridge.gives_pure _ _)))

theorem makeLoaded_gives (host : FixedHost) (r : RegistryId) (name : String)
    (loader : Option ImporterId) (enquirer : Option EnquirerId) (w : World) :
    (r.makeLoaded name loader enquirer).Gives host w [] w.nextNode
      (w.addRegistered (.bridge name r loader enquirer)) :=
  (Bridge.gives_create _ w).then ((put_gives host r name _ _).then (Bridge.gives_pure _ _))

theorem makeForeign_gives (host : FixedHost) (r : RegistryId) (name : String) (handle : ObjectId)
    (w : World) :
    (r.makeForeign name handle).Gives host w [] w.nextNode
      (w.addRegistered (.foreignBacked name r handle)) :=
  (Bridge.gives_create _ w).then ((put_gives host r name _ _).then (Bridge.gives_pure _ _))

/-- Patching a node that is registered under its own name only links it. -/
theorem patch_gives (host : FixedHost) {r : RegistryId} {n : NodeId} {w : World}
    (hn : w.lookup r (w.node n).name = some n) (loader : Option ImporterId)
    (enquirer : Option EnquirerId) :
    (r.patch n loader enquirer).Gives host w [] () (w.link n loader enquirer) := by
  have hname : ((w.link n loader enquirer).node n).name = (w.node n).name := by
    simp [World.link]
  have hthere : (w.link n loader enquirer).lookup r ((w.link n loader enquirer).node n).name =
      some n := by
    rw [hname]
    exact hn
  have hput := put_gives host r ((w.link n loader enquirer).node n).name n
    (w.link n loader enquirer)
  rw [World.register_of_lookup _ _ _ hthere] at hput
  exact (Bridge.gives_modify _ w).then ((Bridge.gives_world _).then
    (hput.then (Bridge.gives_pure _ _)))

theorem bindSubmodule_gives (host : FixedHost) (n : NodeId) (attr name : String) (w : World) :
    (n.bindSubmodule attr name).Gives host w [] () (w.bindSubmodule n attr name) :=
  Bridge.gives_modify _ w

end ForeignNamespace

import ForeignNamespace.Event
import ForeignNamespace.Query
import ForeignNamespace.World

/-!
Bridge computations.

A computation reads and writes the world, reports events and puts questions to the host.  It is a
tree with one branch for every answer, so it ends on every path whatever the host answers.  Between
a question and its answer the host may run computations of its own: the world that a branch finds
is read again, not remembered.
-/

namespace ForeignNamespace

/-- A computation with a result in `α`. -/
inductive Bridge (α : Type) : Type where
  | pure (result : α)
  | read (next : World → Bridge α)
  | write (w : World) (next : Bridge α)
  | emit (event : Event) (next : Bridge α)
  | ask (question : Query) (next : question.Answer → Bridge α)

namespace Bridge

variable {α β γ : Type}

def bind : Bridge α → (α → Bridge β) → Bridge β
  | .pure a, f => f a
  | .read next, f => .read fun w => (next w).bind f
  | .write w next, f => .write w (next.bind f)
  | .emit event next, f => .emit event (next.bind f)
  | .ask question next, f => .ask question fun answer => (next answer).bind f

instance : Monad Bridge where
  pure := .pure
  bind := .bind

theorem bind_pure_right (p : Bridge α) : p.bind .pure = p := by
  induction p with
  | pure a => rfl
  | read next ih => simp [bind, ih]
  | write w next ih => simp [bind, ih]
  | emit event next ih => simp [bind, ih]
  | ask question next ih => simp [bind, ih]

theorem bind_assoc (p : Bridge α) (f : α → Bridge β) (g : β → Bridge γ) :
    (p.bind f).bind g = p.bind fun a => (f a).bind g := by
  induction p with
  | pure a => rfl
  | read next ih => simp [bind, ih]
  | write w next ih => simp [bind, ih]
  | emit event next ih => simp [bind, ih]
  | ask question next ih => simp [bind, ih]

instance : LawfulMonad Bridge :=
  LawfulMonad.mk' Bridge bind_pure_right (fun _ _ => rfl) bind_assoc

def world : Bridge World := .read .pure

def modify (change : World → World) : Bridge Unit := .read fun w => .write (change w) (.pure ())

def report (event : Event) : Bridge Unit := .emit event (.pure ())

def create (node : Node) : Bridge NodeId :=
  .read fun w => .write (w.addNode node) (.pure w.nextNode)

/-- A computation during which something is kept alive. -/
def holding (h : Handle) (body : Bridge α) : Bridge α := do
  modify (·.hold h)
  let result ← body
  modify (·.release h)
  return result

/-- What carries out the steps of a computation. -/
structure Performer (m : Type → Type) where
  world : m World
  setWorld : World → m Unit
  observe : Event → m Unit
  answer : (question : Query) → m question.Answer

/-- Carries out a computation step by step. -/
def perform {m : Type → Type} [Monad m] (performer : Performer m) : Bridge α → m α
  | .pure result => Pure.pure result
  | .read next => do next (← performer.world) |>.perform performer
  | .write w next => do
    performer.setWorld w
    next.perform performer
  | .emit event next => do
    performer.observe event
    next.perform performer
  | .ask question next => do (next (← performer.answer question)).perform performer

end Bridge

namespace Host

def getAttr (o : ObjectId) (name : String) : Bridge (Except ForeignError (Option Value)) :=
  .ask (.getAttr o name) .pure

def call (o : ObjectId) (arguments : List Value) : Bridge (Except ForeignError Value) :=
  .ask (.call o arguments) .pure

def truth (o : ObjectId) : Bridge Bool := .ask (.truth o) .pure

def isPackage (e : EnquirerId) (name : String) : Bridge Bool := .ask (.isPackage e name) .pure

def subPackages (e : EnquirerId) (name : String) : Bridge (Option (List String)) :=
  .ask (.subPackages e name) .pure

def classNames (e : EnquirerId) (name : String) : Bridge (Option (List String)) :=
  .ask (.classNames e name) .pure

def loadsModules (e : EnquirerId) : Bridge Bool := .ask (.loadsModules e) .pure

def isModule (e : EnquirerId) (name : String) : Bridge Bool := .ask (.isModule e name) .pure

def loadModule (e : EnquirerId) (name : String) : Bridge (Except ForeignError ObjectId) :=
  .ask (.loadModule e name) .pure

def resolveClass (c : ClassResolverId) (name : String) :
    Bridge (Except ForeignError (Option ClassHandle)) :=
  .ask (.resolveClass c name) .pure

def finderClaims (f : FinderId) (name : String) : Bridge Bool := .ask (.finderClaims f name) .pure

def finderLoads (f : FinderId) (name : String) : Bridge (Except ImportError NodeId) :=
  .ask (.finderLoads f name) .pure

def loadScript (s : ScriptId) : Bridge (Except ForeignError ObjectId) := .ask (.loadScript s) .pure

def projectArgument (p : ProjectId) : Bridge Value := .ask (.projectArgument p) .pure

def handleReturn (p : ProjectId) (result : Value) :
    Bridge (Except ForeignError (Option (List String))) :=
  .ask (.handleReturn p result) .pure

def reportFailure (p : ProjectId) (title : String) (target : ScriptTarget) (message : String) :
    Bridge (Except ForeignError Bool) :=
  .ask (.reportFailure p title target message) .pure

/-- Whether a name is a foreign module; an enquirer that cannot load modules knows none. -/
def knowsModule (e : EnquirerId) (name : String) : Bridge Bool := do
  if ← loadsModules e then isModule e name else return false

end Host

def Value.isTruthy : Value → Bridge Bool
  | .foreign o => Host.truth o
  | v => return v.truth?.getD true

end ForeignNamespace

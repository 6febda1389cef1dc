import ForeignNamespace.Bridge.Run

/-!
Conversations with a host that does nothing but answer.

Such a host may answer the same question differently each time.  What a computation can say to it
is a predicate on lists of exchanges (`Bridge.Talks`); what it says to one host is a function
(`Bridge.converse`).
-/

namespace ForeignNamespace

/-- A question to the host and the answer that it gave. -/
structure Exchange where
  question : Query
  answer : question.Answer

/-- A host that carries out nothing of its own.  An answer may depend on everything that was said
before. -/
abbrev QuietHost := List Exchange → FixedHost

/-- The host that knows of nothing. -/
def FixedHost.ignorant : FixedHost
  | .getAttr .. | .resolveClass .. | .handleReturn .. => .ok none
  | .call .. => .ok .none
  | .truth _ => true
  | .isPackage .. | .loadsModules _ | .isModule .. | .finderClaims .. => false
  | .subPackages .. | .classNames .. => none
  | .loadModule _ name => .error { kind := "ImportError", message := name }
  | .finderLoads _ name => .error (.moduleNotFound name)
  | .loadScript _ => .error { kind := "ImportError", message := "" }
  | .projectArgument _ => .none
  | .reportFailure .. => .ok false

/-- The host that knows one foreign module besides, whichever enquirer is asked. -/
def FixedHost.knowing (name : String) (o : ObjectId) : FixedHost
  | .loadsModules _ => true
  | .isModule _ name' => name' == name
  | .loadModule e name' =>
    if name' = name then .ok o else FixedHost.ignorant (.loadModule e name')
  | question => FixedHost.ignorant question

/-- The host that knows every name as a foreign module and loads none. -/
def FixedHost.broken : FixedHost
  | .loadsModules _ | .isModule .. => true
  | question => FixedHost.ignorant question

structure Conversation (α : Type) where
  result : α
  world : World
  exchanges : List Exchange

namespace Bridge

variable {α β : Type}

/-- The conversation of a computation with a host, behind what they have said before. -/
def converse (host : QuietHost) : Bridge α → List Exchange → World → Conversation α
  | .pure result, _, w => ⟨result, w, []⟩
  | .read next, said, w => (next w).converse host said w
  | .write v next, said, _ => next.converse host said v
  | .emit _ next, said, w => next.converse host said w
  | .ask question next, said, w =>
    let exchange : Exchange := ⟨question, host said question⟩
    let rest := (next exchange.answer).converse host (said ++ [exchange]) w
    { rest with exchanges := exchange :: rest.exchanges }

/-- Whether a computation can end with a result in a world, if these are the exchanges. -/
def Talks : Bridge α → World → List Exchange → α → World → Prop
  | .pure a, w, talk, result, w' => talk = [] ∧ result = a ∧ w' = w
  | .read next, w, talk, result, w' => (next w).Talks w talk result w'
  | .write v next, _, talk, result, w' => next.Talks v talk result w'
  | .emit _ next, w, talk, result, w' => next.Talks w talk result w'
  | .ask question next, w, talk, result, w' =>
    ∃ answer rest, talk = ⟨question, answer⟩ :: rest ∧ (next answer).Talks w rest result w'

/-- The conversation with a host is one that the computation can have. -/
theorem talks_converse (host : QuietHost) (p : Bridge α) (said : List Exchange) (w : World) :
    p.Talks w (p.converse host said w).exchanges (p.converse host said w).result
      (p.converse host said w).world := by
  induction p generalizing said w with
  | pure a => exact ⟨rfl, rfl, rfl⟩
  | read next ih => exact ih w said w
  | write v next ih => exact ih said v
  | emit event next ih => exact ih said w
  | ask question next ih => exact ⟨_, _, rfl, ih _ _ w⟩

/-- What stands in a conversation as an answer is what the host answered there. -/
theorem answer_converse (host : QuietHost) (p : Bridge α) {said front back : List Exchange}
    {exchange : Exchange} {w : World}
    (h : (p.converse host said w).exchanges = front ++ exchange :: back) :
    exchange.answer = host (said ++ front) exchange.question := by
  induction p generalizing said front w with
  | pure a => simp [converse] at h
  | read next ih => exact ih w h
  | write v next ih => exact ih h
  | emit event next ih => exact ih h
  | ask question next ih =>
      rcases front with _ | ⟨first, front⟩
      · obtain ⟨rfl, -⟩ := List.cons.inj h
        simp
      · obtain ⟨rfl, hrest⟩ := List.cons.inj h
        simpa using ih _ hrest

/-- A host of one way has one conversation: the one that `Bridge.run` shows. -/
theorem converse_eq_run (host : FixedHost) (p : Bridge α) (said : List Exchange) (w : World) :
    (p.converse (fun _ => host) said w).result = (p.run host w).result ∧
      (p.converse (fun _ => host) said w).world = (p.run host w).world := by
  induction p generalizing said w with
  | pure a => exact ⟨rfl, rfl⟩
  | read next ih => exact ih w said w
  | write v next ih => exact ih said v
  | emit event next ih => exact ih said w
  | ask question next ih => exact ih _ _ w

/-- What a run says is a conversation in which the host gives each of its answers. -/
theorem exists_talks_run (host : FixedHost) (p : Bridge α) (w : World) :
    ∃ talk, p.Talks w talk (p.run host w).result (p.run host w).world ∧
      ∀ exchange ∈ talk, exchange.answer = host exchange.question := by
  obtain ⟨hresult, hworld⟩ := converse_eq_run host p [] w
  refine ⟨(p.converse (fun _ => host) [] w).exchanges, ?_, fun exchange hmem => ?_⟩
  · rw [← hresult, ← hworld]
    exact talks_converse (fun _ => host) p [] w
  · obtain ⟨front, back, hsplit⟩ := List.append_of_mem hmem
    exact answer_converse (fun _ => host) p hsplit

@[simp] theorem talks_pure_iff {a : α} {w w' : World} {talk : List Exchange} {result : α} :
    (Pure.pure a : Bridge α).Talks w talk result w' ↔ talk = [] ∧ result = a ∧ w' = w :=
  Iff.rfl

theorem talks_bind_iff {p : Bridge α} {f : α → Bridge β} {w w' : World} {talk : List Exchange}
    {result : β} :
    (p >>= f).Talks w talk result w' ↔
      ∃ front back middle v, talk = front ++ back ∧ p.Talks w front middle v ∧
        (f middle).Talks v back result w' := by
  change (p.bind f).Talks w talk result w' ↔ _
  induction p generalizing w talk with
  | pure a =>
      constructor
      · intro h
        exact ⟨[], talk, a, w, rfl, ⟨rfl, rfl, rfl⟩, h⟩
      · rintro ⟨front, back, middle, v, rfl, ⟨rfl, rfl, rfl⟩, h⟩
        exact h
  | read next ih => exact ih w
  | write v next ih => exact ih
  | emit event next ih => exact ih
  | ask question next ih =>
      constructor
      · rintro ⟨answer, rest, rfl, h⟩
        obtain ⟨front, back, middle, v, rfl, hfront, hback⟩ := (ih answer).mp h
        exact ⟨⟨question, answer⟩ :: front, back, middle, v, rfl, ⟨answer, front, rfl, hfront⟩,
          hback⟩
      · rintro ⟨_, back, middle, v, rfl, ⟨answer, front, rfl, hfront⟩, hback⟩
        exact ⟨answer, front ++ back, rfl,
          (ih answer).mpr ⟨front, back, middle, v, rfl, hfront, hback⟩⟩

section Steps

variable {w w' : World} {talk : List Exchange} {result : β}

@[simp] theorem talks_world_bind_iff {f : World → Bridge β} :
    (world >>= f).Talks w talk result w' ↔ (f w).Talks w talk result w' :=
  Iff.rfl

@[simp] theorem talks_modify_bind_iff {change : World → World} {f : Unit → Bridge β} :
    (modify change >>= f).Talks w talk result w' ↔ (f ()).Talks (change w) talk result w' :=
  Iff.rfl

@[simp] theorem talks_report_bind_iff {event : Event} {f : Unit → Bridge β} :
    (report event >>= f).Talks w talk result w' ↔ (f ()).Talks w talk result w' :=
  Iff.rfl

@[simp] theorem talks_create_bind_iff {node : Node} {f : NodeId → Bridge β} :
    (create node >>= f).Talks w talk result w' ↔
      (f w.nextNode).Talks (w.addNode node) talk result w' :=
  Iff.rfl

theorem talks_holding_iff {h : Handle} {body : Bridge β} :
    (holding h body).Talks w talk result w' ↔
      ∃ v, body.Talks (w.hold h) talk result v ∧ w' = v.release h := by
  rw [holding, talks_modify_bind_iff, talks_bind_iff]
  constructor
  · rintro ⟨front, back, middle, v, rfl, hbody, hback⟩
    rw [talks_modify_bind_iff, talks_pure_iff] at hback
    obtain ⟨rfl, rfl, rfl⟩ := hback
    exact ⟨v, by simpa using hbody, rfl⟩
  · rintro ⟨v, hbody, rfl⟩
    exact ⟨talk, [], result, v, by simp, hbody, rfl, rfl, rfl⟩

@[simp] theorem talks_getAttr_bind_iff {o : ObjectId} {name : String}
    {f : Except ForeignError (Option Value) → Bridge β} :
    (Host.getAttr o name >>= f).Talks w talk result w' ↔
      ∃ answer rest, talk = ⟨.getAttr o name, answer⟩ :: rest ∧
        (f answer).Talks w rest result w' :=
  Iff.rfl

@[simp] theorem talks_subPackages_bind_iff {e : EnquirerId} {name : String}
    {f : Option (List String) → Bridge β} :
    (Host.subPackages e name >>= f).Talks w talk result w' ↔
      ∃ answer rest, talk = ⟨.subPackages e name, answer⟩ :: rest ∧
        (f answer).Talks w rest result w' :=
  Iff.rfl

@[simp] theorem talks_classNames_bind_iff {e : EnquirerId} {name : String}
    {f : Option (List String) → Bridge β} :
    (Host.classNames e name >>= f).Talks w talk result w' ↔
      ∃ answer rest, talk = ⟨.classNames e name, answer⟩ :: rest ∧
        (f answer).Talks w rest result w' :=
  Iff.rfl

@[simp] theorem talks_loadsModules_bind_iff {e : EnquirerId} {f : Bool → Bridge β} :
    (Host.loadsModules e >>= f).Talks w talk result w' ↔
      ∃ answer rest, talk = ⟨.loadsModules e, answer⟩ :: rest ∧
        (f answer).Talks w rest result w' :=
  Iff.rfl

@[simp] theorem talks_loadModule_bind_iff {e : EnquirerId} {name : String}
    {f : Except ForeignError ObjectId → Bridge β} :
    (Host.loadModule e name >>= f).Talks w talk result w' ↔
      ∃ answer rest, talk = ⟨.loadModule e name, answer⟩ :: rest ∧
        (f answer).Talks w rest result w' :=
  Iff.rfl

@[simp] theorem talks_resolveClass_bind_iff {c : ClassResolverId} {name : String}
    {f : Except ForeignError (Option ClassHandle) → Bridge β} :
    (Host.resolveClass c name >>= f).Talks w talk result w' ↔
      ∃ answer rest, talk = ⟨.resolveClass c name, answer⟩ :: rest ∧
        (f answer).Talks w rest result w' :=
  Iff.rfl

end Steps

end Bridge
end ForeignNamespace

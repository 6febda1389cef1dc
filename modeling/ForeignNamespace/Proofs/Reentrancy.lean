import ForeignNamespace.Import.Resolver

/-!
Hosts that call the bridge.

While it is asked, and on its own, a host may make any finite number of calls, and it may be asked
again within each of them.  A course of a computation and a session of calls keep every world that
was written and every call that returned.  What a computation can guarantee against such hosts is
computed on its tree (`Bridge.Ensures`), and holds in every course (`Bridge.Course.sound`).
-/

namespace ForeignNamespace

inductive Call where
  | importName (s : ResolverId) (name : String)
  | importFrom (s : ResolverId) (n : NodeId) (name : String)
  | importStar (s : ResolverId) (n : NodeId)
  | load (i : ImporterId) (name : String)
  | getAttr (n : NodeId) (attr : String)
  | setAttr (n : NodeId) (attr : String) (value : Value)
  | delAttr (n : NodeId) (attr : String)
  | register (r : RegistryId) (name : String) (handle : ObjectId)
  | unregister (r : RegistryId) (name : String)
  | teardown (r : RegistryId)

namespace Call

def Result : Call → Type
  | .importName .. | .load .. | .register .. | .unregister .. => Except ImportError NodeId
  | .importFrom .. | .getAttr .. => Except ImportError Value
  | .importStar .. => Except ImportError (List (String × Value))
  | .setAttr .. => Unit
  | .delAttr .. => Bool
  | .teardown _ => Nat

def carryOut : (call : Call) → Bridge call.Result
  | .importName s name => s.importName name
  | .importFrom s n name => s.importFrom n name
  | .importStar s n => s.importStar n
  | .load i name => i.load name
  | .getAttr n attr => n.getAttr attr
  | .setAttr n attr value => n.setAttr attr value
  | .delAttr n attr => n.delAttr attr
  | .register r name handle => r.registerForeign name handle
  | .unregister r name => r.unregisterForeign name
  | .teardown r => r.teardown

/-- The result of a call as a value or an error.  A node is a value. -/
def reply : (call : Call) → call.Result → Except ImportError Value
  | .importName .., result | .load .., result | .register .., result | .unregister .., result =>
    result.map .node
  | .importFrom .., result | .getAttr .., result => result
  | .importStar .., result => result.map fun bindings => .list (bindings.map Prod.snd)
  | .delAttr .., there => .ok (.bool there)
  | .setAttr .., _ | .teardown _, _ => .ok .none

def perform (call : Call) : Bridge (Except ImportError Value) := call.reply <$> call.carryOut

@[simp] theorem perform_importFrom (s : ResolverId) (n : NodeId) (name : String) :
    (importFrom s n name).perform = s.importFrom n name :=
  id_map _

@[simp] theorem perform_getAttr (n : NodeId) (attr : String) :
    (getAttr n attr).perform = n.getAttr attr :=
  id_map _

end Call

/-- How a host behaves: which calls it makes in a world, and with which answer, in which world, it
ends its turn after a question in a world. -/
structure Conduct where
  makes : World → Call → Prop
  answers : (question : Query) → World → question.Answer → World → Prop

inductive Moment where
  | wrote (w : World)
  | returned (call : Call) (result : Except ImportError Value) (w : World)

def Moment.world : Moment → World
  | .wrote w => w
  | .returned _ _ w => w

mutual

/-- The courses of a computation against a host. -/
inductive Bridge.Course (conduct : Conduct) :
    {α : Type} → Bridge α → World → List Moment → α → World → Prop where
  | pure {α : Type} (result : α) (w : World) : Bridge.Course conduct (.pure result) w [] result w
  | read {α : Type} {next : World → Bridge α} {w w' : World} {moments : List Moment} {result : α}
      (rest : Bridge.Course conduct (next w) w moments result w') :
      Bridge.Course conduct (.read next) w moments result w'
  | write {α : Type} {next : Bridge α} {w v w' : World} {moments : List Moment} {result : α}
      (rest : Bridge.Course conduct next v moments result w') :
      Bridge.Course conduct (.write v next) w (.wrote v :: moments) result w'
  | emit {α : Type} {event : Event} {next : Bridge α} {w w' : World} {moments : List Moment}
      {result : α} (rest : Bridge.Course conduct next w moments result w') :
      Bridge.Course conduct (.emit event next) w moments result w'
  | ask {α : Type} {question : Query} {next : question.Answer → Bridge α} {w v w' : World}
      {turn moments : List Moment} {answer : question.Answer} {result : α}
      (host : Session conduct w turn v) (answers : conduct.answers question w answer v)
      (rest : Bridge.Course conduct (next answer) v moments result w') :
      Bridge.Course conduct (.ask question next) w (turn ++ moments) result w'

/-- The sessions of a host: the calls that it makes, one after the other. -/
inductive Session (conduct : Conduct) : World → List Moment → World → Prop where
  | done (w : World) : Session conduct w [] w
  | call {call : Call} {w v w' : World} {inner moments : List Moment}
      {result : Except ImportError Value} (makes : conduct.makes w call)
      (course : Bridge.Course conduct call.perform w inner result v)
      (rest : Session conduct v moments w') :
      Session conduct w (inner ++ .returned call result v :: moments) w'

end

theorem Bridge.Course.bind {conduct : Conduct} {α β : Type} {p : Bridge α} {f : α → Bridge β}
    {w v w' : World} {front back : List Moment} {a : α} {b : β} :
    Bridge.Course conduct p w front a v → Bridge.Course conduct (f a) v back b w' →
      Bridge.Course conduct (p >>= f) w (front ++ back) b w'
  | .pure _ _, second => second
  | .read first, second => .read (first.bind second)
  | .write first, second => .write (first.bind second)
  | .emit first, second => .emit (first.bind second)
  | .ask host answers first, second => by
      rw [List.append_assoc]
      exact .ask host answers (first.bind second)

/-- What is to be shown of a conduct: an invariant of worlds, a relation that every step keeps to,
and what a call has achieved when it returns. -/
structure Discipline where
  conduct : Conduct
  good : World → Prop
  step : World → World → Prop
  refl : ∀ w, step w w
  trans : ∀ {u v w}, step u v → step v w → step u w
  achieves : Call → Except ImportError Value → World → Prop

namespace Discipline

variable (d : Discipline)

/-- What a computation can count on when the host's turn is over. -/
structure Relies (question : Query) (w : World) (answer : question.Answer) (v : World) :
    Prop where
  good : d.good v
  step : d.step w v
  answers : d.conduct.answers question w answer v
  session : ∃ turn, Session d.conduct w turn v

/-- Each of the moments is one step from the one before, and the last is one from the end. -/
def Along : World → List Moment → World → Prop
  | w, [], w' => d.step w w'
  | w, moment :: moments, w' => d.step w moment.world ∧ Along moment.world moments w'

/-- Every call that has returned has achieved what it is for. -/
def Achieved (moments : List Moment) : Prop :=
  ∀ call result w, .returned call result w ∈ moments → d.achieves call result w

variable {d}

theorem Along.of_step {u v w : World} {moments : List Moment} (h : d.step u v)
    (rest : d.Along v moments w) : d.Along u moments w := by
  cases moments with
  | nil => exact d.trans h rest
  | cons moment moments => exact ⟨d.trans h rest.1, rest.2⟩

theorem Along.append {u v w : World} {front back : List Moment} (first : d.Along u front v)
    (second : d.Along v back w) : d.Along u (front ++ back) w := by
  induction front generalizing u with
  | nil => exact Along.of_step first second
  | cons moment front ih => exact ⟨first.1, ih first.2⟩

theorem Along.step {u w : World} {moments : List Moment} (h : d.Along u moments w) :
    d.step u w := by
  induction moments generalizing u with
  | nil => exact h
  | cons moment moments ih => exact d.trans h.1 (ih h.2)

theorem Along.step_of_mem {u w : World} {moments : List Moment} (h : d.Along u moments w) :
    ∀ moment ∈ moments, d.step u moment.world := by
  induction moments generalizing u with
  | nil => simp
  | cons first moments ih =>
      intro moment hmem
      rcases List.mem_cons.mp hmem with rfl | hmem
      · exact h.1
      · exact d.trans h.1 (ih h.2 moment hmem)

theorem Along.step_to_end {u w : World} {moments : List Moment} (h : d.Along u moments w) :
    ∀ moment ∈ moments, d.step moment.world w := by
  induction moments generalizing u with
  | nil => simp
  | cons first moments ih =>
      intro moment hmem
      rcases List.mem_cons.mp hmem with rfl | hmem
      · exact h.2.step
      · exact ih h.2 moment hmem

/-- Any two worlds of a history, the first and the last included, are one step apart. -/
theorem Along.pairwise {u w : World} {moments : List Moment} (h : d.Along u moments w) :
    (u :: moments.map Moment.world ++ [w]).Pairwise d.step := by
  induction moments generalizing u with
  | nil => simpa [Along] using h
  | cons moment moments ih =>
      rw [List.map_cons, List.cons_append, List.pairwise_cons]
      refine ⟨?_, ih h.2⟩
      intro v hv
      simp only [List.cons_append, List.mem_cons, List.mem_append, List.mem_map,
        List.not_mem_nil, or_false] at hv
      rcases hv with rfl | ⟨later, hlater, rfl⟩ | rfl
      · exact h.1
      · exact d.trans h.1 (h.2.step_of_mem later hlater)
      · exact d.trans h.1 h.2.step

theorem Achieved.append {front back : List Moment} (first : d.Achieved front)
    (second : d.Achieved back) : d.Achieved (front ++ back) := by
  intro call result w hmem
  rcases List.mem_append.mp hmem with hmem | hmem
  · exact first call result w hmem
  · exact second call result w hmem

end Discipline

/-- Whether every write of a computation is a good step and its end is as wanted, wherever the
host's turns lead within what can be relied on. -/
def Bridge.Ensures (d : Discipline) {α : Type} :
    Bridge α → World → (α → World → Prop) → Prop
  | .pure a, w, post => post a w
  | .read next, w, post => (next w).Ensures d w post
  | .write v next, w, post => (d.good v ∧ d.step w v) ∧ next.Ensures d v post
  | .emit _ next, w, post => next.Ensures d w post
  | .ask question next, w, post =>
    ∀ answer v, d.Relies question w answer v → (next answer).Ensures d v post

/-- Whether every call of the host achieves what it is for. -/
def Discipline.Fulfilled (d : Discipline) : Prop :=
  ∀ {w call}, d.good w → d.conduct.makes w call → call.perform.Ensures d w (d.achieves call)

mutual

/-- What a computation ensures holds in every course, for the nested calls too. -/
theorem Bridge.Course.sound {d : Discipline} (fulfilled : d.Fulfilled) {α : Type} {p : Bridge α}
    {w w' : World} {moments : List Moment} {result : α} {post : α → World → Prop} :
    Bridge.Course d.conduct p w moments result w' → d.good w → p.Ensures d w post →
      post result w' ∧ d.good w' ∧ d.Along w moments w' ∧ d.Achieved moments
  | .pure _ _, hgood, hp => ⟨hp, hgood, d.refl _, by simp [Discipline.Achieved]⟩
  | .read rest, hgood, hp => rest.sound fulfilled hgood hp
  | .write rest, _, hp => by
      obtain ⟨hpost, hgood, halong, hachieved⟩ := rest.sound fulfilled hp.1.1 hp.2
      refine ⟨hpost, hgood, ⟨hp.1.2, halong⟩, ?_⟩
      simpa [Discipline.Achieved] using hachieved
  | .emit rest, hgood, hp => rest.sound fulfilled hgood hp
  | .ask host answers rest, hgood, hp => by
      -- The turn is a smaller session, so what the calls in it achieve is known already.
      obtain ⟨hturn, hbefore, hdone⟩ := host.sound fulfilled hgood
      obtain ⟨hpost, hgood, halong, hachieved⟩ :=
        rest.sound fulfilled hturn (hp _ _ ⟨hturn, hbefore.step, answers, ⟨_, host⟩⟩)
      exact ⟨hpost, hgood, hbefore.append halong, hdone.append hachieved⟩

theorem Session.sound {d : Discipline} (fulfilled : d.Fulfilled) {w w' : World}
    {moments : List Moment} :
    Session d.conduct w moments w' → d.good w →
      d.good w' ∧ d.Along w moments w' ∧ d.Achieved moments
  | .done _, hgood => ⟨hgood, d.refl _, by simp [Discipline.Achieved]⟩
  | .call makes course rest, hgood => by
      obtain ⟨hpost, hgood, hinner, hachieved⟩ :=
        course.sound fulfilled hgood (fulfilled hgood makes)
      obtain ⟨hgood, halong, hrest⟩ := rest.sound fulfilled hgood
      refine ⟨hgood, hinner.append ⟨d.refl _, halong⟩, hachieved.append ?_⟩
      intro call result v hmem
      rcases List.mem_cons.mp hmem with heq | hmem
      · obtain ⟨rfl, rfl, rfl⟩ := Moment.returned.inj heq
        exact hpost
      · exact hrest call result v hmem

end

namespace Bridge

variable {α β : Type} {d : Discipline} {w : World}

theorem ensures_bind_iff {p : Bridge α} {f : α → Bridge β} {post : β → World → Prop} :
    (p >>= f).Ensures d w post ↔ p.Ensures d w fun a v => (f a).Ensures d v post := by
  change (p.bind f).Ensures d w post ↔ _
  induction p generalizing w with
  | pure a => exact Iff.rfl
  | read next ih => exact ih w
  | write v next ih => exact and_congr_right fun _ => ih
  | emit event next ih => exact ih
  | ask question next ih =>
      exact forall_congr' fun answer => forall_congr' fun v => imp_congr_right fun _ => ih answer

theorem Ensures.mono {p : Bridge α} {post post' : α → World → Prop} (hp : p.Ensures d w post)
    (himp : ∀ a v, post a v → post' a v) : p.Ensures d w post' := by
  induction p generalizing w with
  | pure a => exact himp a w hp
  | read next ih => exact ih w hp
  | write v next ih => exact ⟨hp.1, ih hp.2⟩
  | emit event next ih => exact ih hp
  | ask question next ih => exact fun answer v hv => ih answer (hp answer v hv)

/-- The end is good and one step from the start. -/
theorem Ensures.reached {p : Bridge α} {post : α → World → Prop} (hgood : d.good w)
    (hp : p.Ensures d w post) : p.Ensures d w fun a v => post a v ∧ d.good v ∧ d.step w v := by
  induction p generalizing w with
  | pure a => exact ⟨hp, hgood, d.refl w⟩
  | read next ih => exact ih w hgood hp
  | write v next ih =>
      refine ⟨hp.1, (ih hp.1.1 hp.2).mono fun a u hu => ?_⟩
      exact ⟨hu.1, hu.2.1, d.trans hp.1.2 hu.2.2⟩
  | emit event next ih => exact ih hgood hp
  | ask question next ih =>
      intro answer v hv
      refine (ih answer hv.good (hp answer v hv)).mono fun a u hu => ?_
      exact ⟨hu.1, hu.2.1, d.trans hv.step hu.2.2⟩

theorem Ensures.bind {p : Bridge α} {f : α → Bridge β} {post : α → World → Prop}
    {post' : β → World → Prop} (hgood : d.good w) (hp : p.Ensures d w post)
    (hf : ∀ a v, post a v → d.good v → d.step w v → (f a).Ensures d v post') :
    (p >>= f).Ensures d w post' :=
  ensures_bind_iff.mpr ((hp.reached hgood).mono fun a v h => hf a v h.1 h.2.1 h.2.2)

@[simp] theorem ensures_world_bind_iff {f : World → Bridge β} {post : β → World → Prop} :
    (world >>= f).Ensures d w post ↔ (f w).Ensures d w post :=
  Iff.rfl

@[simp] theorem ensures_report_bind_iff {event : Event} {f : Unit → Bridge β}
    {post : β → World → Prop} :
    (report event >>= f).Ensures d w post ↔ (f ()).Ensures d w post :=
  Iff.rfl

end Bridge
end ForeignNamespace

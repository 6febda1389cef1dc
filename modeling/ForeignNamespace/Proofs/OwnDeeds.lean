import ForeignNamespace.Proofs.ActingHosts
import ForeignNamespace.Proofs.Reentrancy

/-!
What a computation does by itself.

The deeds of a computation are its own writes, reports and questions; what the host does in its
turns is only seen as a change of the world between a question and its answer (`Bridge.Does`).  A
rule says which deeds are allowed.  Whether a computation obeys a rule can be read off its tree,
whatever the host does (`Bridge.Obeys`).
-/

namespace ForeignNamespace

/-- What a host may do when it is asked: the question, the world in which it is put, the answer and
the world in which it is given. -/
abbrev Turn := (question : Query) → World → question.Answer → World → Prop

/-- The host that only answers. -/
def Turn.quiet : Turn := fun _ w _ v => v = w

/-- The turns of a host that calls the bridge. -/
def Conduct.turn (conduct : Conduct) : Turn := fun question w answer v =>
  (∃ moments, Session conduct w moments v) ∧ conduct.answers question w answer v

/-- The turns of a host that answers each question in one way. -/
def FixedHost.turn (host : FixedHost) : Turn := fun question w answer v =>
  answer = host question ∧ v = w

inductive Deed where
  | wrote (before after : World)
  | reported (event : Event)
  | asked (question : Query) (before : World) (answer : question.Answer) (after : World)

/-- A module that is loaded, with the world in which the host is asked to load it. -/
structure Load where
  world : World
  name : String
  answer : Except ForeignError ObjectId

def Query.isLoad : Query → Bool
  | .loadModule .. => true
  | _ => false

def Deed.load? : Deed → Option Load
  | .asked (.loadModule _ name) w answer _ => some ⟨w, name, answer⟩
  | _ => none

def loads (deeds : List Deed) : List Load := deeds.filterMap Deed.load?

@[simp] theorem loads_nil : loads [] = [] := rfl

@[simp] theorem loads_cons_wrote (w v : World) (deeds : List Deed) :
    loads (.wrote w v :: deeds) = loads deeds := rfl

@[simp] theorem loads_append (front back : List Deed) :
    loads (front ++ back) = loads front ++ loads back :=
  List.filterMap_append

/-- What a computation may ask, report and write. -/
structure Rule where
  asks : Query → Prop
  reports : Event → Prop
  writes : World → World → Prop

/-- The rule that is only about writes. -/
def Rule.ofWrites (writes : World → World → Prop) : Rule where
  asks _ := True
  reports _ := True
  writes := writes

def Deed.Allowed (rule : Rule) : Deed → Prop
  | .wrote w v => rule.writes w v
  | .reported event => rule.reports event
  | .asked question .. => rule.asks question

namespace Bridge

variable {α β : Type}

/-- Whether a computation can end with a result in a world after these deeds. -/
def Does (turn : Turn) : Bridge α → World → List Deed → α → World → Prop
  | .pure a, w, deeds, result, w' => deeds = [] ∧ result = a ∧ w' = w
  | .read next, w, deeds, result, w' => (next w).Does turn w deeds result w'
  | .write v next, w, deeds, result, w' =>
    ∃ rest, deeds = .wrote w v :: rest ∧ next.Does turn v rest result w'
  | .emit event next, w, deeds, result, w' =>
    ∃ rest, deeds = .reported event :: rest ∧ next.Does turn w rest result w'
  | .ask question next, w, deeds, result, w' =>
    ∃ answer v rest, turn question w answer v ∧ deeds = .asked question w answer v :: rest ∧
      (next answer).Does turn v rest result w'

/-- Whether a computation in a world keeps to a rule, wherever the host's turns lead. -/
def ObeysFrom (rule : Rule) : Bridge α → World → Prop
  | .pure _, _ => True
  | .read next, w => (next w).ObeysFrom rule w
  | .write v next, w => rule.writes w v ∧ next.ObeysFrom rule v
  | .emit event next, w => rule.reports event ∧ next.ObeysFrom rule w
  | .ask question next, _ => rule.asks question ∧ ∀ answer v, (next answer).ObeysFrom rule v

def Obeys (rule : Rule) (p : Bridge α) : Prop := ∀ w, p.ObeysFrom rule w

section Deeds

variable {turn : Turn} {w w' : World} {deeds : List Deed} {result : β}

theorem does_bind_iff {p : Bridge α} {f : α → Bridge β} :
    (p >>= f).Does turn w deeds result w' ↔
      ∃ front back middle v, deeds = front ++ back ∧ p.Does turn w front middle v ∧
        (f middle).Does turn v back result w' := by
  change (p.bind f).Does turn w deeds result w' ↔ _
  induction p generalizing w deeds with
  | pure a =>
      constructor
      · intro h
        exact ⟨[], deeds, a, w, rfl, ⟨rfl, rfl, rfl⟩, h⟩
      · rintro ⟨front, back, middle, v, rfl, ⟨rfl, rfl, rfl⟩, h⟩
        exact h
  | read next ih => exact ih w
  | write u next ih =>
      constructor
      · rintro ⟨rest, rfl, h⟩
        obtain ⟨front, back, middle, v, rfl, hfront, hback⟩ := ih.mp h
        exact ⟨.wrote w u :: front, back, middle, v, rfl, ⟨front, rfl, hfront⟩, hback⟩
      · rintro ⟨_, back, middle, v, rfl, ⟨front, rfl, hfront⟩, hback⟩
        exact ⟨front ++ back, rfl, ih.mpr ⟨front, back, middle, v, rfl, hfront, hback⟩⟩
  | emit event next ih =>
      constructor
      · rintro ⟨rest, rfl, h⟩
        obtain ⟨front, back, middle, v, rfl, hfront, hback⟩ := ih.mp h
        exact ⟨.reported event :: front, back, middle, v, rfl, ⟨front, rfl, hfront⟩, hback⟩
      · rintro ⟨_, back, middle, v, rfl, ⟨front, rfl, hfront⟩, hback⟩
        exact ⟨front ++ back, rfl, ih.mpr ⟨front, back, middle, v, rfl, hfront, hback⟩⟩
  | ask question next ih =>
      constructor
      · rintro ⟨answer, u, rest, hturn, rfl, h⟩
        obtain ⟨front, back, middle, v, rfl, hfront, hback⟩ := (ih answer).mp h
        exact ⟨.asked question w answer u :: front, back, middle, v, rfl,
          ⟨answer, u, front, hturn, rfl, hfront⟩, hback⟩
      · rintro ⟨_, back, middle, v, rfl, ⟨answer, u, front, hturn, rfl, hfront⟩, hback⟩
        exact ⟨answer, u, front ++ back, hturn, rfl,
          (ih answer).mpr ⟨front, back, middle, v, rfl, hfront, hback⟩⟩

@[simp] theorem does_world_bind_iff {f : World → Bridge β} :
    (world >>= f).Does turn w deeds result w' ↔ (f w).Does turn w deeds result w' :=
  Iff.rfl

@[simp] theorem does_modify_bind_iff {change : World → World} {f : Unit → Bridge β} :
    (modify change >>= f).Does turn w deeds result w' ↔
      ∃ rest, deeds = .wrote w (change w) :: rest ∧ (f ()).Does turn (change w) rest result w' :=
  Iff.rfl

@[simp] theorem does_create_bind_iff {node : Node} {f : NodeId → Bridge β} :
    (create node >>= f).Does turn w deeds result w' ↔
      ∃ rest, deeds = .wrote w (w.addNode node) :: rest ∧
        (f w.nextNode).Does turn (w.addNode node) rest result w' :=
  Iff.rfl

theorem does_ask_bind_iff {question : Query} {f : question.Answer → Bridge β} :
    (Bridge.ask question .pure >>= f).Does turn w deeds result w' ↔
      ∃ answer v rest, turn question w answer v ∧ deeds = .asked question w answer v :: rest ∧
        (f answer).Does turn v rest result w' :=
  Iff.rfl

@[simp] theorem does_get_bind_iff {r : RegistryId} {name : String}
    {f : Option NodeId → Bridge β} :
    (r.get name >>= f).Does turn w deeds result w' ↔
      (f (w.lookup r name)).Does turn w deeds result w' :=
  Iff.rfl

@[simp] theorem does_contains_bind_iff {r : RegistryId} {name : String} {f : Bool → Bridge β} :
    (r.contains name >>= f).Does turn w deeds result w' ↔
      (f (w.lookup r name).isSome).Does turn w deeds result w' :=
  Iff.rfl

@[simp] theorem does_lookup_bind_iff {s : ResolverId} {name : String}
    {f : Option NodeId → Bridge β} :
    (s.lookup name >>= f).Does turn w deeds result w' ↔
      (f (w.lookup (w.resolver s).registry name)).Does turn w deeds result w' :=
  Iff.rfl

theorem does_holding_iff {h : Handle} {body : Bridge β} :
    (holding h body).Does turn w deeds result w' ↔
      ∃ inner v, deeds = .wrote w (w.hold h) :: (inner ++ [.wrote v (v.release h)]) ∧
        body.Does turn (w.hold h) inner result v ∧ w' = v.release h := by
  rw [holding, does_modify_bind_iff]
  constructor
  · rintro ⟨rest, rfl, h⟩
    obtain ⟨inner, back, a, v, rfl, hbody, hback⟩ := does_bind_iff.mp h
    obtain ⟨last, rfl, rfl, rfl, rfl⟩ := does_modify_bind_iff.mp hback
    exact ⟨inner, v, rfl, hbody, rfl⟩
  · rintro ⟨inner, v, rfl, hbody, rfl⟩
    exact ⟨_, rfl, does_bind_iff.mpr ⟨inner, _, result, v, rfl, hbody, [], rfl, rfl, rfl, rfl⟩⟩

/-- The courses of a computation against a host are what it can do against the turns of the host. -/
theorem exists_course_iff {conduct : Conduct} {p : Bridge β} :
    (∃ moments, Course conduct p w moments result w') ↔
      ∃ deeds, p.Does conduct.turn w deeds result w' := by
  constructor
  · rintro ⟨moments, h⟩
    induction p generalizing w moments with
    | pure a =>
        cases h
        exact ⟨[], rfl, rfl, rfl⟩
    | read next ih =>
        cases h with
        | read rest => exact ih w moments rest
    | write v next ih =>
        cases h with
        | write rest =>
            obtain ⟨deeds, hdeeds⟩ := ih _ rest
            exact ⟨_, deeds, rfl, hdeeds⟩
    | emit event next ih =>
        cases h with
        | emit rest =>
            obtain ⟨deeds, hdeeds⟩ := ih _ rest
            exact ⟨_, deeds, rfl, hdeeds⟩
    | ask question next ih =>
        cases h with
        | ask host answers rest =>
            obtain ⟨deeds, hdeeds⟩ := ih _ _ rest
            exact ⟨_, _, _, deeds, ⟨⟨_, host⟩, answers⟩, rfl, hdeeds⟩
  · rintro ⟨deeds, h⟩
    induction p generalizing w deeds with
    | pure a =>
        obtain ⟨-, rfl, rfl⟩ := h
        exact ⟨[], .pure _ _⟩
    | read next ih =>
        obtain ⟨moments, hrest⟩ := ih w deeds h
        exact ⟨moments, .read hrest⟩
    | write v next ih =>
        obtain ⟨rest, rfl, h⟩ := h
        obtain ⟨moments, hrest⟩ := ih rest h
        exact ⟨_, .write hrest⟩
    | emit event next ih =>
        obtain ⟨rest, rfl, h⟩ := h
        obtain ⟨moments, hrest⟩ := ih rest h
        exact ⟨moments, .emit hrest⟩
    | ask question next ih =>
        obtain ⟨answer, v, rest, ⟨⟨turn, hturn⟩, hanswers⟩, rfl, h⟩ := h
        obtain ⟨moments, hrest⟩ := ih answer rest h
        exact ⟨_, .ask hturn hanswers hrest⟩

theorem Does.mono {turn' : Turn} {p : Bridge β}
    (h : ∀ {question w answer v}, turn question w answer v → turn' question w answer v)
    (hdoes : p.Does turn w deeds result w') : p.Does turn' w deeds result w' := by
  induction p generalizing w deeds with
  | pure a => exact hdoes
  | read next ih => exact ih w hdoes
  | write v next ih =>
      obtain ⟨rest, rfl, hrest⟩ := hdoes
      exact ⟨rest, rfl, ih hrest⟩
  | emit event next ih =>
      obtain ⟨rest, rfl, hrest⟩ := hdoes
      exact ⟨rest, rfl, ih hrest⟩
  | ask question next ih =>
      obtain ⟨answer, v, rest, hturn, rfl, hrest⟩ := hdoes
      exact ⟨answer, v, rest, h hturn, rfl, ih answer hrest⟩

theorem exists_does_run (host : FixedHost) (p : Bridge β) (w : World) :
    ∃ deeds, p.Does host.turn w deeds (p.run host w).result (p.run host w).world := by
  induction p generalizing w with
  | pure a => exact ⟨[], rfl, rfl, rfl⟩
  | read next ih => exact ih w w
  | write v next ih =>
      obtain ⟨deeds, h⟩ := ih v
      exact ⟨_, deeds, rfl, h⟩
  | emit event next ih =>
      obtain ⟨deeds, h⟩ := ih w
      exact ⟨_, deeds, rfl, h⟩
  | ask question next ih =>
      obtain ⟨deeds, h⟩ := ih (host question) w
      exact ⟨_, host question, w, deeds, ⟨rfl, rfl⟩, rfl, h⟩

/-- The deeds of a computation against a host that acts. -/
def deedsWith (host : ActingHost) : Bridge β → List Exchange → World → List Deed
  | .pure _, _, _ => []
  | .read next, said, w => (next w).deedsWith host said w
  | .write v next, said, w => .wrote w v :: next.deedsWith host said v
  | .emit event next, said, w => .reported event :: next.deedsWith host said w
  | .ask question next, said, w =>
    let reply := host said w question
    .asked question w reply.1 reply.2 ::
      (next reply.1).deedsWith host (said ++ [⟨question, reply.1⟩]) reply.2

theorem does_attend {host : ActingHost}
    (may : ∀ said w question, turn question w (host said w question).1 (host said w question).2)
    (p : Bridge β) (said : List Exchange) (w : World) :
    p.Does turn w (p.deedsWith host said w) (p.attend host said w).result
      (p.attend host said w).world := by
  induction p generalizing said w with
  | pure a => exact ⟨rfl, rfl, rfl⟩
  | read next ih => exact ih w said w
  | write v next ih => exact ⟨_, rfl, ih said v⟩
  | emit event next ih => exact ⟨_, rfl, ih said w⟩
  | ask question next ih => exact ⟨_, _, _, may said w question, rfl, ih _ _ _⟩

end Deeds

section Rules

variable {rule : Rule}

theorem obeys_pure (a : α) : (Pure.pure a : Bridge α).Obeys rule := fun _ => trivial

theorem ObeysFrom.bind {p : Bridge α} {f : α → Bridge β} {w : World} (hp : p.ObeysFrom rule w)
    (hf : ∀ a, (f a).Obeys rule) : (p >>= f).ObeysFrom rule w := by
  change (p.bind f).ObeysFrom rule w
  induction p generalizing w with
  | pure a => exact hf a w
  | read next ih => exact ih w hp
  | write v next ih => exact ⟨hp.1, ih hp.2⟩
  | emit event next ih => exact ⟨hp.1, ih hp.2⟩
  | ask question next ih => exact ⟨hp.1, fun answer v => ih answer (hp.2 answer v)⟩

theorem Obeys.bind {p : Bridge α} {f : α → Bridge β} (hp : p.Obeys rule)
    (hf : ∀ a, (f a).Obeys rule) : (p >>= f).Obeys rule :=
  fun w => (hp w).bind hf

theorem Obeys.map {p : Bridge α} (hp : p.Obeys rule) (f : α → β) : (f <$> p).Obeys rule :=
  hp.bind fun a => obeys_pure (f a)

theorem obeys_world : world.Obeys rule := fun _ => trivial

theorem obeys_report {event : Event} (h : rule.reports event) : (report event).Obeys rule :=
  fun _ => ⟨h, trivial⟩

theorem obeys_ask {question : Query} (h : rule.asks question) :
    (Bridge.ask question .pure).Obeys rule :=
  fun _ => ⟨h, fun _ _ => trivial⟩

theorem obeys_modify {change : World → World} (h : ∀ w, rule.writes w (change w)) :
    (modify change).Obeys rule :=
  fun w => ⟨h w, trivial⟩

theorem obeys_holding {h : Handle} {body : Bridge α} (hold : ∀ w : World, rule.writes w (w.hold h))
    (release : ∀ w : World, rule.writes w (w.release h)) (hbody : body.Obeys rule) :
    (holding h body).Obeys rule := by
  refine (obeys_modify hold).bind fun _ => hbody.bind fun result => ?_
  exact (obeys_modify release).bind fun _ => obeys_pure result

theorem obeys_create {node : Node} (h : ∀ w : World, rule.writes w (w.addNode node)) :
    (create node).Obeys rule :=
  fun w => ⟨h w, trivial⟩

variable {turn : Turn} {p : Bridge α} {w w' : World} {deeds : List Deed} {result : α}

theorem Does.allowed (h : p.Does turn w deeds result w') (hp : p.ObeysFrom rule w) :
    ∀ deed ∈ deeds, deed.Allowed rule := by
  induction p generalizing w deeds with
  | pure a =>
      obtain ⟨rfl, -, -⟩ := h
      simp
  | read next ih => exact ih w h hp
  | write v next ih =>
      obtain ⟨rest, rfl, h⟩ := h
      exact List.forall_mem_cons.mpr ⟨hp.1, ih h hp.2⟩
  | emit event next ih =>
      obtain ⟨rest, rfl, h⟩ := h
      exact List.forall_mem_cons.mpr ⟨hp.1, ih h hp.2⟩
  | ask question next ih =>
      obtain ⟨answer, v, rest, -, rfl, h⟩ := h
      exact List.forall_mem_cons.mpr ⟨hp.1, ih answer h (hp.2 answer v)⟩

theorem Does.loads_eq_nil (h : p.Does turn w deeds result w') (hp : p.ObeysFrom rule w)
    (never : ∀ e name, ¬rule.asks (.loadModule e name)) : loads deeds = [] := by
  refine List.filterMap_eq_nil_iff.mpr fun deed hdeed => ?_
  have hallowed := h.allowed hp deed hdeed
  cases deed with
  | asked question =>
      cases question with
      | loadModule e name => exact absurd hallowed (never e name)
      | _ => rfl
  | _ => rfl

/-- If the writes and the host's turns keep to a relation, the end is related to the start. -/
theorem Does.related (related : World → World → Prop) (refl : ∀ w, related w w)
    (trans : ∀ {u v w}, related u v → related v w → related u w)
    (hrule : ∀ {w v}, rule.writes w v → related w v)
    (hturn : ∀ {question w answer v}, turn question w answer v → related w v)
    (h : p.Does turn w deeds result w') (hp : p.ObeysFrom rule w) : related w w' := by
  induction p generalizing w deeds with
  | pure a =>
      obtain ⟨-, -, rfl⟩ := h
      exact refl _
  | read next ih => exact ih w h hp
  | write v next ih =>
      obtain ⟨rest, rfl, h⟩ := h
      exact trans (hrule hp.1) (ih h hp.2)
  | emit event next ih =>
      obtain ⟨rest, rfl, h⟩ := h
      exact ih h hp.2
  | ask question next ih =>
      obtain ⟨answer, v, rest, hv, rfl, h⟩ := h
      exact trans (hturn hv) (ih answer h (hp.2 answer v))

/-- So is the world behind every question. -/
theorem Does.related_behind (related : World → World → Prop)
    (trans : ∀ {u v w}, related u v → related v w → related u w)
    (hrule : ∀ {w v}, rule.writes w v → related w v)
    (hturn : ∀ {question w answer v}, turn question w answer v → related w v)
    (h : p.Does turn w deeds result w') (hp : p.ObeysFrom rule w) {question : Query}
    {before after : World} {answer : question.Answer}
    (hmem : .asked question before answer after ∈ deeds) : related w after := by
  induction p generalizing w deeds with
  | pure a =>
      obtain ⟨rfl, -, -⟩ := h
      cases hmem
  | read next ih => exact ih w h hp hmem
  | write v next ih =>
      obtain ⟨rest, rfl, h⟩ := h
      exact trans (hrule hp.1) (ih h hp.2 (by simpa using hmem))
  | emit event next ih =>
      obtain ⟨rest, rfl, h⟩ := h
      exact ih h hp.2 (by simpa using hmem)
  | ask asked next ih =>
      obtain ⟨reply, v, rest, hv, rfl, h⟩ := h
      rcases List.mem_cons.mp hmem with heq | hmem
      · obtain ⟨-, -, -, rfl⟩ := Deed.asked.inj heq
        exact hturn hv
      · exact trans (hturn hv) (ih reply h (hp.2 reply v) hmem)

/-- What the writes keep holds at the end if it holds at the start and behind every question. -/
theorem Does.keeps (good : World → Prop)
    (hrule : ∀ {w v}, rule.writes w v → good w → good v)
    (h : p.Does turn w deeds result w') (hp : p.ObeysFrom rule w) (start : good w)
    (behind : ∀ {question before answer after},
      .asked question before answer after ∈ deeds → good after) : good w' := by
  induction p generalizing w deeds with
  | pure a =>
      obtain ⟨-, -, rfl⟩ := h
      exact start
  | read next ih => exact ih w h hp start behind
  | write v next ih =>
      obtain ⟨rest, rfl, h⟩ := h
      exact ih h hp.2 (hrule hp.1 start) fun hmem => behind (List.mem_cons_of_mem _ hmem)
  | emit event next ih =>
      obtain ⟨rest, rfl, h⟩ := h
      exact ih h hp.2 start fun hmem => behind (List.mem_cons_of_mem _ hmem)
  | ask question next ih =>
      obtain ⟨answer, v, rest, -, rfl, h⟩ := h
      exact ih answer h (hp.2 answer v) (behind List.mem_cons_self)
        fun hmem => behind (List.mem_cons_of_mem _ hmem)

/-- What obeys a rule about writes ensures that the writes are steps of a discipline. -/
theorem ObeysFrom.ensures {d : Discipline} (good : d.good w)
    (hrule : ∀ {w v}, d.good w → rule.writes w v → d.good v ∧ d.step w v)
    (hp : p.ObeysFrom rule w) : p.Ensures d w fun _ _ => True := by
  induction p generalizing w with
  | pure a => trivial
  | read next ih => exact ih w good hp
  | write v next ih =>
      have hv := hrule good hp.1
      exact ⟨hv, ih hv.1 hp.2⟩
  | emit event next ih => exact ih good hp.2
  | ask question next ih => exact fun answer v hv => ih answer hv.good (hp.2 answer v)

end Rules

end Bridge
end ForeignNamespace

import ForeignNamespace.Proofs.FixedRuns

/-!
Runs against a host that has a turn of its own only when one module is loaded.

Such runs have one result and one end, and show how often the module was loaded and what the host
did each time (`Bridge.Attains`).  Parts that load nothing run as against a host of fixed answers
(`Bridge.Gives.attains`).
-/

namespace ForeignNamespace

/-- The module that a mark shows to be loaded. -/
def Mark.load? : Mark → Option (EnquirerId × String)
  | .question (.loadModule e name) => some (e, name)
  | _ => none

def Quiet (marks : List Mark) : Prop := marks.filterMap Mark.load? = []

theorem Quiet.append {front back : List Mark} (h : Quiet front) (h' : Quiet back) :
    Quiet (front ++ back) := by
  rw [Quiet, List.filterMap_append, h, h', List.append_nil]

/-- Whether marks show the loads of a module, and no other loads, with the host's turn in each. -/
def Shows (e : EnquirerId) (name : String) : List (List Mark → Prop) → List Mark → Prop
  | [], marks => Quiet marks
  | turn :: turns, marks => ∃ front between back,
    marks = front ++ .question (.loadModule e name) :: (between ++ back) ∧ Quiet front ∧
      Quiet between ∧ turn between ∧ Shows e name turns back

section Shows

variable {e : EnquirerId} {name : String} {turns turns' : List (List Mark → Prop)}
  {front back marks : List Mark}

theorem Shows.append (h : Shows e name turns front) (h' : Shows e name turns' back) :
    Shows e name (turns ++ turns') (front ++ back) := by
  induction turns generalizing front with
  | nil =>
      cases turns' with
      | nil => exact Quiet.append h h'
      | cons turn turns' =>
          obtain ⟨before, between, behind, rfl, hbefore, hrest⟩ := h'
          exact ⟨front ++ before, between, behind, by rw [List.append_assoc],
            Quiet.append h hbefore, hrest⟩
  | cons turn turns ih =>
      obtain ⟨before, between, behind, rfl, hbefore, hbetween, hturn, hbehind⟩ := h
      refine ⟨before, between, behind ++ back, ?_, hbefore, hbetween, hturn, ih hbehind⟩
      simp only [List.append_assoc, List.cons_append]

theorem Shows.loads (h : Shows e name turns marks) :
    marks.filterMap Mark.load? = turns.map fun _ => (e, name) := by
  induction turns generalizing marks with
  | nil => exact h
  | cons turn turns ih =>
      obtain ⟨before, between, behind, rfl, hbefore, hbetween, -, hbehind⟩ := h
      rw [List.filterMap_append, hbefore, List.nil_append,
        List.filterMap_cons_some (show Mark.load? _ = some (e, name) from rfl),
        List.filterMap_append, hbetween, List.nil_append, ih hbehind]
      rfl

end Shows

namespace Bridge

variable {α β : Type} {reaction : Reaction} {e : EnquirerId} {name : String}
  {turns turns' : List (List Mark → Prop)} {w v w' : World} {a : α} {b : β}

/-- Whether a computation can be run to its end and always comes to one result in one world, with
the given turns of the host in loads of a module. -/
structure Attains (reaction : Reaction) (e : EnquirerId) (name : String) (p : Bridge α)
    (w : World) (turns : List (List Mark → Prop)) (a : α) (w' : World) : Prop where
  ends : ∃ marks, Runs reaction p w marks a w'
  all : ∀ {marks b v}, Runs reaction p w marks b v → b = a ∧ v = w' ∧ Shows e name turns marks

theorem attains_pure (a : α) (w : World) :
    (Pure.pure a : Bridge α).Attains reaction e name w [] a w where
  ends := ⟨[], .pure a w⟩
  all h := by
    cases h
    exact ⟨rfl, rfl, rfl⟩

theorem Attains.bind {p : Bridge α} {f : α → Bridge β}
    (first : p.Attains reaction e name w turns a v)
    (second : (f a).Attains reaction e name v turns' b w') :
    (p >>= f).Attains reaction e name w (turns ++ turns') b w' := by
  constructor
  · obtain ⟨front, hfront⟩ := first.ends
    obtain ⟨back, hback⟩ := second.ends
    exact ⟨front ++ back, runs_bind_iff.mpr ⟨front, back, a, v, hfront, hback, rfl⟩⟩
  · intro marks c u h
    obtain ⟨front, back, middle, x, hfront, hback, rfl⟩ := runs_bind_iff.mp h
    obtain ⟨rfl, rfl, hshown⟩ := first.all hfront
    obtain ⟨rfl, rfl, hshown'⟩ := second.all hback
    exact ⟨rfl, rfl, hshown.append hshown'⟩

/-- A computation that loads nothing, in front of another. -/
theorem Attains.then {p : Bridge α} {f : α → Bridge β}
    (first : p.Attains reaction e name w [] a v)
    (second : (f a).Attains reaction e name v turns b w') :
    (p >>= f).Attains reaction e name w turns b w' :=
  first.bind second

/-- A computation in front of another that loads nothing. -/
theorem Attains.before {p : Bridge α} {f : α → Bridge β}
    (first : p.Attains reaction e name w turns a v)
    (second : (f a).Attains reaction e name v [] b w') :
    (p >>= f).Attains reaction e name w turns b w' := by
  rw [← List.append_nil turns]
  exact first.bind second

/-- What a fixed host gives is attained where a reaction answers the questions as that host does,
if none of them is a load. -/
theorem Gives.attains {host : FixedHost} {p : Bridge α} {asked : List Query}
    (h : p.Gives host w asked a w')
    (agrees : ∀ q ∈ asked, ∀ turn, reaction q turn ↔ turn = .pure (host q))
    (quiet : ∀ q ∈ asked, Mark.load? (.question q) = none) :
    p.Attains reaction e name w [] a w' := by
  obtain ⟨rfl, rfl, rfl⟩ := h
  have hiff : ∀ {marks b v}, Runs reaction p w marks b v ↔ p.run host w = ⟨b, v, marks⟩ :=
    runs_iff_of_agrees agrees
  refine ⟨⟨_, hiff.mpr rfl⟩, fun hruns => ?_⟩
  rw [hiff.mp hruns] at quiet ⊢
  refine ⟨rfl, rfl, List.filterMap_eq_nil_iff.mpr fun mark hmark => ?_⟩
  cases mark with
  | event => rfl
  | question q => exact quiet q (List.mem_filterMap.mpr ⟨_, hmark, rfl⟩)

/-- A computation that asks nothing runs alike against every host. -/
theorem Gives.silent {host : FixedHost} {p : Bridge α} (h : p.Gives host w [] a w') :
    p.Attains reaction e name w [] a w' :=
  h.attains (fun _ hq => absurd hq List.not_mem_nil) fun _ hq => absurd hq List.not_mem_nil

/-- A question that the host answers at once, though not always alike, in front of what comes to
the same end behind every answer. -/
theorem attains_answer {question : Query} {f : question.Answer → Bridge β}
    (quiet : Mark.load? (.question question) = none)
    (answers : ∃ answer, reaction question (.pure answer))
    (atOnce : ∀ turn, reaction question turn → ∃ answer, turn = .pure answer)
    (rest : ∀ answer, (f answer).Attains reaction e name w turns b w') :
    (Bridge.ask question .pure >>= f).Attains reaction e name w turns b w' := by
  constructor
  · obtain ⟨answer, may⟩ := answers
    obtain ⟨marks, hmarks⟩ := (rest answer).ends
    exact ⟨_, .ask may (.pure answer w) hmarks⟩
  · intro marks c u h
    cases h with
    | ask may reacts after =>
        obtain ⟨answer, rfl⟩ := atOnce _ may
        cases reacts
        obtain ⟨rfl, rfl, hshown⟩ := (rest _).all after
        have hquiet : Shows e name [] [.question question] :=
          List.filterMap_cons_none quiet
        exact ⟨rfl, rfl, hquiet.append hshown⟩

/-- The load itself, if the host has one way to take its turn. -/
theorem attains_load {turn : Bridge (Except ForeignError ObjectId)}
    {answer : Except ForeignError ObjectId}
    (only : ∀ other, reaction (.loadModule e name) other ↔ other = turn)
    (h : turn.Attains reaction e name w [] answer v) :
    (Bridge.ask (.loadModule e name) .pure).Attains reaction e name w
      [fun between => Runs reaction turn w between answer v] answer v := by
  constructor
  · obtain ⟨between, hbetween⟩ := h.ends
    exact ⟨_, .ask ((only _).mpr rfl) hbetween (.pure _ _)⟩
  · intro marks b u hruns
    cases hruns with
    | ask may reacts rest =>
        obtain rfl := (only _).mp may
        obtain ⟨rfl, rfl, hquiet⟩ := h.all reacts
        cases rest
        exact ⟨rfl, rfl, [], _, [], rfl, rfl, hquiet, reacts, rfl⟩

theorem attains_world (w : World) :
    Bridge.world.Attains reaction e name w [] w w where
  ends := ⟨[], .read (.pure _ _)⟩
  all h := by
    cases h with
    | read h =>
        cases h
        exact ⟨rfl, rfl, rfl⟩

theorem attains_report (event : Event) (w : World) :
    (Bridge.report event).Attains reaction e name w [] () w where
  ends := ⟨[.event event], .emit (.pure _ _)⟩
  all h := by
    cases h with
    | emit h =>
        cases h
        exact ⟨rfl, rfl, rfl⟩

theorem attains_modify (change : World → World) (w : World) :
    (Bridge.modify change).Attains reaction e name w [] () (change w) where
  ends := ⟨[], .read (.write (.pure _ _))⟩
  all h := by
    cases h with
    | read h =>
        cases h with
        | write h =>
            cases h
            exact ⟨rfl, rfl, rfl⟩

theorem Attains.holding {h : Handle} {body : Bridge α}
    (inner : body.Attains reaction e name (w.hold h) turns a (v.hold h)) :
    (Bridge.holding h body).Attains reaction e name w turns a v := by
  refine (attains_modify _ w).then (inner.before ((attains_modify _ _).then ?_))
  rw [World.release_hold]
  exact attains_pure a v

end Bridge
end ForeignNamespace

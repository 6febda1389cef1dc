import ForeignNamespace.Bridge

/-!
Running a computation.

Against a host that answers every question in one way and does nothing else, a computation is a
function on worlds (`Bridge.run`).  A host may also carry out computations of its own before it
answers, and those may ask again; then a computation is a relation (`Bridge.Runs`).  The two agree
on hosts of the first kind (`Bridge.runs_reaction_iff`).
-/

namespace ForeignNamespace

/-- What a run shows to the outside. -/
inductive Mark where
  | event (event : Event)
  | question (question : Query)

/-- A host that answers each question in one way. -/
abbrev FixedHost := (question : Query) → question.Answer

/-- What a host may carry out between a question and its answer; the result is the answer. -/
abbrev Reaction := (question : Query) → Bridge question.Answer → Prop

/-- A host of one way answers at once. -/
def FixedHost.reaction (host : FixedHost) : Reaction :=
  fun question p => p = .pure (host question)

@[ext] structure Outcome (α : Type) where
  result : α
  world : World
  marks : List Mark

def Mark.question? : Mark → Option Query
  | .event _ => none
  | .question asked => some asked

def Outcome.questions {α : Type} (o : Outcome α) : List Query := o.marks.filterMap Mark.question?

/-- The same end behind earlier marks. -/
def Outcome.behind {α : Type} (marks : List Mark) (o : Outcome α) : Outcome α :=
  { o with marks := marks ++ o.marks }

namespace Bridge

variable {α β : Type}

/-- The run of a computation against a host of one way. -/
def run (host : FixedHost) : Bridge α → World → Outcome α
  | .pure result, w => ⟨result, w, []⟩
  | .read next, w => (next w).run host w
  | .write w next, _ => next.run host w
  | .emit event next, w => (next.run host w).behind [.event event]
  | .ask question next, w => ((next (host question)).run host w).behind [.question question]

/-- The runs of a computation against a host of many ways: from which world, with which marks, to
which result and world. -/
inductive Runs (reaction : Reaction) :
    {α : Type} → Bridge α → World → List Mark → α → World → Prop where
  | pure {α : Type} (result : α) (w : World) : Runs reaction (.pure result) w [] result w
  | read {α : Type} {next : World → Bridge α} {w w' : World} {marks : List Mark} {result : α}
      (rest : Runs reaction (next w) w marks result w') :
      Runs reaction (.read next) w marks result w'
  | write {α : Type} {next : Bridge α} {w v w' : World} {marks : List Mark} {result : α}
      (rest : Runs reaction next v marks result w') :
      Runs reaction (.write v next) w marks result w'
  | emit {α : Type} {event : Event} {next : Bridge α} {w w' : World} {marks : List Mark}
      {result : α} (rest : Runs reaction next w marks result w') :
      Runs reaction (.emit event next) w (.event event :: marks) result w'
  | ask {α : Type} {question : Query} {next : question.Answer → Bridge α} {w v w' : World}
      {between marks : List Mark} {answer : question.Answer} {result : α}
      {inner : Bridge question.Answer} (may : reaction question inner)
      (reacts : Runs reaction inner w between answer v)
      (rest : Runs reaction (next answer) v marks result w') :
      Runs reaction (.ask question next) w (.question question :: (between ++ marks)) result w'

@[simp] theorem run_pure (host : FixedHost) (result : α) (w : World) :
    (Pure.pure result : Bridge α).run host w = ⟨result, w, []⟩ := rfl

/-- One computation behind another runs from the world that the first has left. -/
theorem run_bind (host : FixedHost) (p : Bridge α) (f : α → Bridge β) (w : World) :
    (p >>= f).run host w =
      ((f (p.run host w).result).run host (p.run host w).world).behind (p.run host w).marks := by
  show (p.bind f).run host w = _
  induction p generalizing w with
  | pure result => simp [bind, run, Outcome.behind]
  | read next ih => simpa [bind, run] using ih w w
  | write v next ih => simpa [bind, run] using ih v
  | emit event next ih => simp [bind, run, Outcome.behind, ih]
  | ask question next ih => simp [bind, run, Outcome.behind, ih]

/-- A run of two computations is a run of the first and then one of the second. -/
theorem runs_bind_iff {reaction : Reaction} {p : Bridge α} {f : α → Bridge β} {w w' : World}
    {marks : List Mark} {result : β} :
    Runs reaction (p >>= f) w marks result w' ↔
      ∃ front back middle v, Runs reaction p w front middle v ∧
        Runs reaction (f middle) v back result w' ∧ marks = front ++ back := by
  show Runs reaction (p.bind f) w marks result w' ↔ _
  induction p generalizing w marks with
  | pure a =>
    constructor
    · intro h
      exact ⟨[], marks, a, w, .pure a w, h, rfl⟩
    · rintro ⟨front, back, middle, v, first, second, rfl⟩
      cases first
      exact second
  | read next ih =>
    constructor
    · intro h
      cases h with
      | read rest =>
        obtain ⟨front, back, middle, v, first, second, rfl⟩ := (ih w).1 rest
        exact ⟨front, back, middle, v, .read first, second, rfl⟩
    · rintro ⟨front, back, middle, v, first, second, rfl⟩
      cases first with
      | read first => exact .read ((ih w).2 ⟨front, back, middle, v, first, second, rfl⟩)
  | write u next ih =>
    constructor
    · intro h
      cases h with
      | write rest =>
        obtain ⟨front, back, middle, v, first, second, rfl⟩ := ih.1 rest
        exact ⟨front, back, middle, v, .write first, second, rfl⟩
    · rintro ⟨front, back, middle, v, first, second, rfl⟩
      cases first with
      | write first => exact .write (ih.2 ⟨front, back, middle, v, first, second, rfl⟩)
  | emit event next ih =>
    constructor
    · intro h
      cases h with
      | emit rest =>
        obtain ⟨front, back, middle, v, first, second, rfl⟩ := ih.1 rest
        exact ⟨.event event :: front, back, middle, v, .emit first, second, rfl⟩
    · rintro ⟨front, back, middle, v, first, second, rfl⟩
      cases first with
      | emit first => exact .emit (ih.2 ⟨_, back, middle, v, first, second, rfl⟩)
  | ask question next ih =>
    constructor
    · intro h
      cases h with
      | ask may reacts rest =>
        obtain ⟨front, back, middle, v, first, second, rfl⟩ := (ih _).1 rest
        exact ⟨_, back, middle, v, .ask may reacts first, second, by simp⟩
    · rintro ⟨front, back, middle, v, first, second, rfl⟩
      cases first with
      | ask may reacts first =>
        have rest := (ih _).2 ⟨_, back, middle, v, first, second, rfl⟩
        rw [List.cons_append, List.append_assoc]
        exact .ask may reacts rest

/-- Where a reaction answers the questions of a run as a host of one way does, and at once, the
relation is the function. -/
theorem runs_iff_of_agrees {reaction : Reaction} {host : FixedHost} {p : Bridge α} {w w' : World}
    {marks : List Mark} {result : α}
    (agrees : ∀ q ∈ (p.run host w).questions, ∀ turn, reaction q turn ↔ turn = .pure (host q)) :
    Runs reaction p w marks result w' ↔ p.run host w = ⟨result, w', marks⟩ := by
  induction p generalizing w marks with
  | pure a =>
    constructor
    · intro h
      cases h
      rfl
    · intro h
      obtain ⟨rfl, rfl, rfl⟩ := Outcome.mk.inj h
      exact .pure _ _
  | read next ih =>
    constructor
    · intro h
      cases h with
      | read rest => exact (ih w agrees).1 rest
    · intro h
      exact .read ((ih w agrees).2 h)
  | write v next ih =>
    constructor
    · intro h
      cases h with
      | write rest => exact (ih agrees).1 rest
    · intro h
      exact .write ((ih agrees).2 h)
  | emit event next ih =>
    constructor
    · intro h
      cases h with
      | emit rest => simp [run, Outcome.behind, (ih agrees).1 rest]
    · intro h
      obtain ⟨rfl, rfl, rfl⟩ := Outcome.mk.inj h
      exact .emit ((ih agrees).2 rfl)
  | ask question next ih =>
    have hhere := agrees question List.mem_cons_self
    have hrest := fun q hq => agrees q (List.mem_cons_of_mem _ hq)
    constructor
    · intro h
      cases h with
      | ask may reacts rest =>
        obtain rfl := (hhere _).1 may
        cases reacts
        simp [run, Outcome.behind, (ih _ hrest).1 rest]
    · intro h
      obtain ⟨rfl, rfl, rfl⟩ := Outcome.mk.inj h
      exact .ask ((hhere _).2 rfl) (.pure _ _) ((ih _ hrest).2 rfl)

/-- Against a host of one way the relation is the function. -/
theorem runs_reaction_iff {host : FixedHost} {p : Bridge α} {w w' : World} {marks : List Mark}
    {result : α} :
    Runs host.reaction p w marks result w' ↔ p.run host w = ⟨result, w', marks⟩ :=
  runs_iff_of_agrees fun _ _ _ => Iff.rfl

end ForeignNamespace.Bridge

import ForeignNamespace.Proofs.Conversation
import ForeignNamespace.Proofs.DottedSegments
import ForeignNamespace.Proofs.IdentityStability
import ForeignNamespace.Proofs.ReentrantLoad

namespace ForeignNamespace

/-- What the host raises in place of an answer. -/
def Query.raised? : (question : Query) → question.Answer → Option ForeignError
  | .getAttr .., .error error | .call .., .error error | .loadModule .., .error error => some error
  | .resolveClass .., .error error | .loadScript _, .error error => some error
  | .handleReturn .., .error error | .reportFailure .., .error error => some error
  | _, _ => none

def Deed.question? : Deed → Option Query
  | .asked question .. => some question
  | _ => none

/-- Whether one of certain questions has raised an error, and nothing was asked behind it. -/
def RaisedLast (culprits : Query → Prop) (error : ForeignError) (deeds : List Deed) : Prop :=
  ∃ front question before answer after back,
    deeds = front ++ .asked question before answer after :: back ∧ culprits question ∧
      question.raised? answer = some error ∧ ∀ deed ∈ back, deed.question? = none

/-- Whether an error is exactly what one of certain questions has raised last. -/
def HandsOn (culprits : Query → Prop) (error : ImportError) (deeds : List Deed) : Prop :=
  ∃ cause, error = .foreign cause ∧ RaisedLast culprits cause deeds

namespace HandsOn

variable {culprits culprits' : Query → Prop} {error : ImportError} {deeds : List Deed}

theorem asked {question : Query} {before after : World} {answer : question.Answer}
    {cause : ForeignError} (culprit : culprits question)
    (raised : question.raised? answer = some cause) :
    HandsOn culprits (.foreign cause) [.asked question before answer after] :=
  ⟨cause, rfl, [], question, before, answer, after, [], rfl, culprit, raised, by simp⟩

theorem behind (h : HandsOn culprits error deeds) (front : List Deed) :
    HandsOn culprits error (front ++ deeds) := by
  obtain ⟨cause, rfl, first, question, before, answer, after, back, rfl, hlast⟩ := h
  exact ⟨cause, rfl, front ++ first, question, before, answer, after, back, by simp, hlast⟩

theorem before (h : HandsOn culprits error deeds) {back : List Deed}
    (silent : ∀ deed ∈ back, deed.question? = none) : HandsOn culprits error (deeds ++ back) := by
  obtain ⟨cause, rfl, front, question, before, answer, after, rest, hlast⟩ := h
  obtain ⟨rfl, hculprit, hraised, hrest⟩ := hlast
  refine ⟨cause, rfl, front, question, before, answer, after, rest ++ back, by simp, hculprit,
    hraised, fun deed hmem => ?_⟩
  rcases List.mem_append.mp hmem with hmem | hmem
  · exact hrest deed hmem
  · exact silent deed hmem

theorem mono (h : HandsOn culprits error deeds)
    (himp : ∀ question, culprits question → culprits' question) :
    HandsOn culprits' error deeds := by
  obtain ⟨cause, rfl, front, question, before, answer, after, back, rfl, hculprit, hlast⟩ := h
  exact ⟨cause, rfl, front, question, before, answer, after, back, rfl, himp _ hculprit, hlast⟩

end HandsOn

/-- A computation that ends with a result does not fail. -/
theorem not_does_error {α β ε : Type} {turn : Turn} {p : Bridge α} {f : α → β} {w v : World}
    {deeds : List Deed} {error : ε} :
    ¬(p >>= fun a => Pure.pure (Except.ok (f a))).Does turn w deeds (.error error) v := by
  intro h
  obtain ⟨_, _, _, _, _, -, -, hresult, -⟩ := Bridge.does_bind_iff.mp h
  cases hresult

/-- The questions that an access puts and that can raise: the handle is asked for the attribute, an
enquirer is asked to load the child, and a class resolver is asked for it. -/
inductive NodeId.Consults (n : NodeId) (w : World) (attr : String) : Query → Prop
  | handle {o : ObjectId} (backed : (w.node n).handle = some o) :
      n.Consults w attr (.getAttr o attr)
  | module (e : EnquirerId) : n.Consults w attr (.loadModule e (childName (w.node n).name attr))
  | classes (c : ClassResolverId) :
      n.Consults w attr (.resolveClass c (childName (w.node n).name attr))

theorem NodeId.Consults.evolve {n : NodeId} {w v : World} {attr : String} {question : Query}
    (evolves : w.Evolves v) (here : n.index < w.nodes.next) (h : n.Consults v attr question) :
    n.Consults w attr question := by
  cases h with
  | handle backed => exact .handle ((evolves.handle here).symm.trans backed)
  | module e => exact evolves.name here ▸ .module e
  | classes c => exact evolves.name here ▸ .classes c

section Accesses

variable {turn : Turn} {w v : World} {n : NodeId} {attr : String} {deeds : List Deed}
  {error : ImportError}

theorem delegate_fails (h : (n.delegate attr).Does turn w deeds (.error error) v) :
    HandsOn (n.Consults w attr) error deeds := by
  simp only [NodeId.delegate, Bridge.does_world_bind_iff] at h
  cases hhandle : (w.node n).handle with
  | none =>
      simp only [hhandle] at h
      cases h.2.1
  | some o =>
      simp only [hhandle] at h
      obtain ⟨reply, u, rest, -, rfl, hback⟩ := Bridge.does_ask_bind_iff.mp h
      rcases reply with cause | (_ | value)
      · obtain ⟨rfl, herror, -⟩ := hback
        cases herror
        exact .asked (.handle hhandle) rfl
      · cases hback.2.1
      · obtain ⟨_, _, truth, _, _, -, hfound⟩ := Bridge.does_bind_iff.mp hback
        cases truth with
        | true =>
            exact (not_does_error hfound).elim
        | false =>
            obtain ⟨_, _, _, hresult, _⟩ := hfound
            cases hresult

theorem ensureLoaded_fails {r : RegistryId} {e : EnquirerId} {name : String} {cause : ForeignError}
    (h : (NodeId.ensureLoaded r e name).Does turn w deeds (.error cause) v) :
    HandsOn (· = .loadModule e name) (.foreign cause) deeds := by
  rw [NodeId.ensureLoaded, Bridge.does_contains_bind_iff] at h
  split at h
  · cases h.2.1
  · obtain ⟨reply, u, rest, -, rfl, hback⟩ := Bridge.does_ask_bind_iff.mp h
    cases reply with
    | error raised =>
        obtain ⟨rfl, herror, -⟩ := hback
        cases herror
        exact .asked rfl rfl
    | ok handle =>
        replace hback := Bridge.does_contains_bind_iff.mp hback
        split at hback
        · exact (not_does_error hback).elim
        · cases hback.2.1

theorem foreignModule_fails (h : (n.foreignModule attr).Does turn w deeds (.error error) v) :
    HandsOn (n.Consults w attr) error deeds := by
  simp only [NodeId.foreignModule, Bridge.does_world_bind_iff] at h
  cases henquirer : (w.node n).enquirer with
  | none =>
      simp only [henquirer] at h
      cases h.2.1
  | some e =>
      simp only [henquirer] at h
      obtain ⟨asking, back, known, u, rfl, -, hback⟩ := Bridge.does_bind_iff.mp h
      cases known with
      | false => cases hback.2.1
      | true =>
          simp only [if_true, Bridge.does_world_bind_iff] at hback
          cases hlive : u.registryOf? n with
          | none =>
              simp only [hlive] at hback
              cases hback.2.1
          | some r =>
              simp only [hlive] at hback
              obtain ⟨inner, x, rfl, hinner, -⟩ := Bridge.does_holding_iff.mp hback
              obtain ⟨loading, rest, loaded, y, rfl, hload, hrest⟩ := Bridge.does_bind_iff.mp hinner
              cases loaded with
              | error cause =>
                  obtain ⟨rfl, herror, -⟩ := hrest
                  cases herror
                  have hraised := (ensureLoaded_fails hload).mono fun question hquestion =>
                    hquestion ▸ NodeId.Consults.module e
                  have hinner : HandsOn (n.Consults w attr) (.foreign cause)
                      (loading ++ [] ++ [.wrote x (x.release (.registry r))]) := by
                    rw [List.append_nil]
                    exact hraised.before (by simp [Deed.question?])
                  exact (hinner.behind [_]).behind asking
              | ok _ =>
                  exact (not_does_error hrest).elim

theorem terminal_fails (h : (n.terminal attr).Does turn w deeds (.error error) v) :
    HandsOn (n.Consults w attr) error deeds := by
  simp only [NodeId.terminal, Bridge.does_world_bind_iff] at h
  cases hhandle : (w.node n).handle with
  | some o =>
      simp only [hhandle] at h
      cases h.2.1
  | none =>
      cases hresolver : w.nodeClassResolver? n with
      | none =>
          simp only [hhandle, hresolver] at h
          cases h.2.1
      | some c =>
          simp only [hhandle, hresolver] at h
          obtain ⟨reply, u, rest, -, rfl, hback⟩ := Bridge.does_ask_bind_iff.mp h
          rcases reply with cause | (_ | handle)
          · obtain ⟨rfl, herror, -⟩ := hback
            cases herror
            exact .asked (.classes c) rfl
          · cases hback.2.1
          · exact (not_does_error hback).elim

/-- A strategy that fails hands on what a question of its own has raised. -/
theorem apply_fails {s : Strategy} (h : (s.apply n attr).Does turn w deeds (.error error) v) :
    HandsOn (n.Consults w attr) error deeds := by
  cases s with
  | foreignDelegate => exact delegate_fails h
  | foreignModule => exact foreignModule_fails h
  | terminal => exact terminal_fails h
  | cache | native | subPackage | exportMarker =>
      exact (not_does_error h).elim

/-- The last strategy finds the handle of a node that has one. -/
theorem terminal_finds {o : ObjectId} {answer : Except ImportError Resolution}
    (backed : (w.node n).handle = some o) (h : (n.terminal attr).Does turn w deeds answer v) :
    answer = .ok (.found (.foreign o)) := by
  simp only [NodeId.terminal, Bridge.does_world_bind_iff, backed] at h
  exact h.2.1

/-- Whether the host lets every node be what it is made as, as every host does that acts through the
bridge. -/
def Turn.Evolving (turn : Turn) : Prop :=
  ∀ {question w answer v}, turn question w answer v → w.Evolves v

theorem Conduct.turn_evolving (conduct : Conduct) : conduct.turn.Evolving :=
  fun ⟨⟨_, hsession⟩, _⟩ => hsession.evolves

theorem resolveBy_fails (evolving : turn.Evolving) (here : n.index < w.nodes.next)
    {strategies : List Strategy}
    (h : (n.resolveBy attr strategies).Does turn w deeds (.error error) v) :
    error = .attributeNotFound (w.node n).name attr ∧
        ((w.node n).handle ≠ none → Strategy.terminal ∉ strategies) ∨
      HandsOn (n.Consults w attr) error deeds := by
  induction strategies generalizing w deeds with
  | nil =>
      obtain ⟨_, rfl, rfl, herror, -⟩ := h
      cases herror
      exact .inl ⟨rfl, by simp⟩
  | cons s others ih =>
      obtain ⟨front, back, answer, u, rfl, hfront, hback⟩ := Bridge.does_bind_iff.mp h
      have hevolves : w.Evolves u := hfront.related World.Evolves .refl .trans id evolving
        (n.obeys_apply attr allowsAdding_evolves.toAllowsFinding s w)
      have hthere : n.index < u.nodes.next := Nat.lt_of_lt_of_le here hevolves.next
      rcases answer with cause | (value | _)
      · -- Only what the host raises comes out of a strategy, and that is never not-found.
        have hraised := apply_fails hfront
        obtain ⟨raised, rfl, -⟩ := id hraised
        obtain ⟨rfl, herror, -⟩ := hback
        cases herror
        exact .inr (hraised.before (by simp))
      · simp only at hback
        split at hback
        · obtain ⟨_, rfl, _, hresult, _⟩ := hback
          cases hresult
        · cases hback.2.1
      · rcases ih hthere hback with ⟨rfl, hbacked⟩ | hraised
        · refine .inl ⟨by rw [hevolves.name here], fun hhandle => ?_⟩
          obtain ⟨o, hhandle⟩ := Option.ne_none_iff_exists'.mp hhandle
          have hs : s ≠ .terminal := by
            rintro rfl
            cases terminal_finds hhandle hfront
          have hothers := hbacked (by rw [hevolves.handle here, hhandle]; simp)
          simp [hs.symm, hothers]
        · exact .inr ((hraised.mono fun _ => .evolve hevolves here).behind front)

theorem getAttr_fails (evolving : turn.Evolving) (here : n.index < w.nodes.next)
    (h : (n.getAttr attr).Does turn w deeds (.error error) v) :
    error = .attributeNotFound (w.node n).name attr ∧ (w.node n).handle = none ∨
      HandsOn (n.Consults w attr) error deeds := by
  rcases resolveBy_fails evolving here h with ⟨rfl, hbacked⟩ | hraised
  · refine .inl ⟨rfl, Decidable.byContradiction fun hhandle => hbacked hhandle ?_⟩
    decide
  · exact .inr hraised

/-- An access to a node with a handle fails with what the host raises, which is never not-found. -/
theorem isNotFound_of_backed (evolving : turn.Evolving) (here : n.index < w.nodes.next)
    (backed : (w.node n).handle ≠ none)
    (h : (n.getAttr attr).Does turn w deeds (.error error) v) : error.isNotFound = false := by
  rcases getAttr_fails evolving here h with ⟨-, hnone⟩ | ⟨cause, rfl, -⟩
  · exact absurd hnone backed
  · rfl

theorem hasAttr_of_backed (evolving : turn.Evolving) (here : n.index < w.nodes.next)
    (backed : (w.node n).handle ≠ none) : ¬(n.hasAttr attr).Does turn w deeds (.ok false) v := by
  intro h
  obtain ⟨front, back, reply, u, rfl, hget, hback⟩ := Bridge.does_bind_iff.mp h
  cases reply with
  | ok value => cases hback.2.1
  | error error =>
      have hfound := isNotFound_of_backed evolving here backed hget
      simp only [hfound] at hback
      cases hback.2.1

/-- Importing from a node with a handle is accessing it. -/
theorem importFrom_iff_of_backed (evolving : turn.Evolving) (here : n.index < w.nodes.next)
    (backed : (w.node n).handle ≠ none) (s : ResolverId) {result : Except ImportError Value} :
    (s.importFrom n attr).Does turn w deeds result v ↔
      (n.getAttr attr).Does turn w deeds result v := by
  constructor
  · intro h
    obtain ⟨front, back, reply, u, rfl, hget, hback⟩ := Bridge.does_bind_iff.mp h
    have hreply : back = [] ∧ result = reply ∧ v = u := by
      cases reply with
      | ok value => exact hback
      | error error =>
          simp only [isNotFound_of_backed evolving here backed hget] at hback
          exact hback
    obtain ⟨rfl, rfl, rfl⟩ := hreply
    rwa [List.append_nil]
  · intro h
    refine Bridge.does_bind_iff.mpr ⟨deeds, [], result, v, by simp, h, ?_⟩
    cases result with
    | ok value => exact ⟨rfl, rfl, rfl⟩
    | error error =>
        simp only [isNotFound_of_backed evolving here backed h]
        exact ⟨rfl, rfl, rfl⟩

end Accesses

/-- Whether a resolver asks import hooks only. -/
def ResolverId.HooksOnly (s : ResolverId) (w : World) : Prop :=
  ∀ finder ∈ (w.resolver s).metaPath, ∃ i, finder = .hook i

/-- The questions by which a module is loaded under one of several names. -/
def LoadsAmong (names : List String) (question : Query) : Prop :=
  ∃ e, ∃ name ∈ names, question = .loadModule e name

section Imports

variable {turn : Turn} {w v : World} {deeds : List Deed} {name : String} {error : ImportError}

theorem ImporterId.load_fails {i : ImporterId}
    (h : (i.load name).Does turn w deeds (.error error) v) :
    HandsOn (LoadsAmong [name]) error deeds := by
  simp only [ImporterId.load, Bridge.does_world_bind_iff] at h
  split at h
  · exact (not_does_error h).elim
  · obtain ⟨asking, back, known, u, rfl, -, hback⟩ := Bridge.does_bind_iff.mp h
    cases known with
    | false =>
        obtain ⟨_, _, _, _, _, _, hmade⟩ := Bridge.does_bind_iff.mp hback
        exact (not_does_error hmade).elim
    | true =>
        obtain ⟨deciding, _, _, u', rfl, -, hload⟩ := Bridge.does_bind_iff.mp hback
        obtain ⟨reply, x, rest, -, rfl, hrest⟩ := Bridge.does_ask_bind_iff.mp hload
        cases reply with
        | error cause =>
            obtain ⟨rfl, herror, -⟩ := hrest
            cases herror
            have hraised : HandsOn (LoadsAmong [name]) (.foreign cause)
                [.asked (.loadModule (w.importer i).enquirer name) u' (.error cause) x] :=
              .asked ⟨_, name, by simp, rfl⟩ rfl
            exact (hraised.behind deciding).behind asking
        | ok handle =>
            obtain ⟨_, _, there, _, _, -, hsettle⟩ := Bridge.does_bind_iff.mp hrest
            cases there with
            | some n =>
                obtain ⟨_, _, _, _, _, -, hpatch⟩ := Bridge.does_bind_iff.mp hsettle
                exact (not_does_error hpatch).elim
            | none =>
                obtain ⟨_, _, _, _, _, -, hpatch⟩ := Bridge.does_bind_iff.mp hsettle
                exact (not_does_error hpatch).elim

theorem importBy_fails {s : ResolverId} {finders : List Finder}
    (hooks : ∀ finder ∈ finders, ∃ i, finder = .hook i)
    (h : (s.importBy name finders).Does turn w deeds (.error error) v) :
    error = .moduleNotFound name ∨ HandsOn (LoadsAmong [name]) error deeds := by
  induction finders generalizing w deeds with
  | nil =>
      obtain ⟨_, rfl, rfl, herror, -⟩ := h
      cases herror
      exact .inl rfl
  | cons finder others ih =>
      obtain ⟨asking, back, claimed, u, rfl, -, hback⟩ := Bridge.does_bind_iff.mp h
      cases claimed with
      | false =>
          exact (ih (fun f hf => hooks f (List.mem_cons_of_mem _ hf)) hback).imp_right
            (·.behind asking)
      | true =>
          obtain ⟨i, rfl⟩ := hooks finder List.mem_cons_self
          obtain ⟨loading, rest, reply, x, rfl, hload, hrest⟩ := Bridge.does_bind_iff.mp hback
          cases reply with
          | error cause =>
              obtain ⟨rfl, herror, -⟩ := hrest
              cases herror
              rw [List.append_nil]
              exact .inr ((ImporterId.load_fails hload).behind asking)
          | ok n =>
              exact (not_does_error hrest).elim

theorem importOne_fails {s : ResolverId} (hooks : s.HooksOnly w)
    (h : (s.importOne name).Does turn w deeds (.error error) v) :
    error = .moduleNotFound name ∨ HandsOn (LoadsAmong [name]) error deeds := by
  rw [ResolverId.importOne, Bridge.does_lookup_bind_iff] at h
  split at h
  · cases h.2.1
  · exact importBy_fails hooks h

/-- Whether a resolver asks import hooks only, at the start and behind every question. -/
def ResolverId.HooksThroughout (s : ResolverId) (w : World) (deeds : List Deed) : Prop :=
  s.HooksOnly w ∧ ∀ {question before answer after},
    .asked question before answer after ∈ deeds → s.HooksOnly after

theorem ResolverId.HooksOnly.of_resolvers {s : ResolverId} (hooks : s.HooksOnly w)
    (h : v.resolvers = w.resolvers) : s.HooksOnly v := by
  rw [ResolverId.HooksOnly, World.resolver, h]
  exact hooks

theorem allowsAdding_resolvers :
    (Rule.ofWrites fun before after => after.resolvers = before.resolvers).AllowsAdding where
  bind _ _ _ _ := rfl
  unbind _ _ _ := rfl
  bridge _ _ _ _ _ := rfl
  backed _ _ _ _ := rfl
  register _ _ _ _ := rfl
  link _ _ _ _ := rfl
  hold _ _ := rfl
  release _ _ := rfl
  asks _ _ := trivial
  reports _ _ := trivial
  loads _ _ := trivial
  reportsFound _ _ _ := trivial

theorem importAll_fails {s : ResolverId} {last : String} {names : List String}
    (h : (s.importAll last names).Does turn w deeds (.error error) v)
    (hooks : s.HooksThroughout w deeds) :
    (∃ name ∈ names ++ [last], error = .moduleNotFound name) ∨
      HandsOn (LoadsAmong (names ++ [last])) error deeds := by
  induction names generalizing w deeds with
  | nil =>
      rcases importOne_fails hooks.1 h with rfl | hraised
      · exact .inl ⟨last, by simp, rfl⟩
      · exact .inr hraised
  | cons name names ih =>
      obtain ⟨front, back, reply, u, rfl, hfront, hback⟩ := Bridge.does_bind_iff.mp h
      cases reply with
      | error cause =>
          obtain ⟨rfl, herror, -⟩ := hback
          cases herror
          rw [List.append_nil]
          rcases importOne_fails hooks.1 hfront with rfl | hraised
          · exact .inl ⟨name, by simp, rfl⟩
          · refine .inr (hraised.mono ?_)
            rintro question ⟨e, name', hmem, rfl⟩
            obtain rfl := List.mem_singleton.mp hmem
            exact ⟨e, name', by simp, rfl⟩
      | ok n =>
          have hmiddle : s.HooksOnly u := hfront.keeps s.HooksOnly (fun hsame honly =>
            honly.of_resolvers hsame)
            (s.obeys_importOne allowsAdding_resolvers.allowsImporting name w) hooks.1
            fun hmem => hooks.2 (List.mem_append_left back hmem)
          rcases ih hback ⟨hmiddle, fun hmem => hooks.2 (List.mem_append_right _ hmem)⟩ with
            ⟨name', hmem, rfl⟩ | hraised
          · exact .inl ⟨name', List.mem_cons_of_mem _ hmem, rfl⟩
          · refine .inr ((hraised.mono ?_).behind front)
            rintro question ⟨e, name', hmem, rfl⟩
            exact ⟨e, name', List.mem_cons_of_mem _ hmem, rfl⟩

/-- An import through hooks fails because the name is malformed, because one of its prefixes is not
found, or with what loading one of its prefixes has raised. -/
theorem importName_fails {s : ResolverId}
    (h : (s.importName name).Does turn w deeds (.error error) v)
    (hooks : s.HooksThroughout w deeds) :
    error = .invalidName name ∧ DottedName.parse name = none ∨
      DottedName.parse name ≠ none ∧
        ((∃ front ∈ prefixes name, error = .moduleNotFound front) ∨
          HandsOn (LoadsAmong (prefixes name)) error deeds) := by
  rw [ResolverId.importName, Bridge.does_lookup_bind_iff] at h
  split at h
  · cases h.2.1
  · cases hparse : DottedName.parse name with
    | none =>
        simp only [hparse] at h
        obtain ⟨-, herror, -⟩ := h
        cases herror
        exact .inl ⟨rfl, rfl⟩
    | some dotted =>
        simp only [hparse] at h
        have hall := importAll_fails h hooks
        rw [ancestors_append_fullName hparse] at hall
        exact .inr ⟨by simp, hall⟩

theorem ne_empty_of_mem_prefixes {front : String} (wellFormed : DottedName.parse name ≠ none)
    (h : front ∈ prefixes name) : front ≠ "" := by
  rintro rfl
  rw [DottedName.parse_eq] at wellFormed
  have hfilled : "" ∉ segments name := fun hempty => wellFormed (if_pos hempty)
  exact not_mem_pathFrom hfilled h

end Imports

def Discipline.resolvers (conduct : Conduct) : Discipline where
  conduct
  good _ := True
  step w v := v.resolvers = w.resolvers
  refl _ := rfl
  trans first second := second.trans first
  achieves _ _ _ := True

/-- Whatever a host calls, the resolvers stay as they are. -/
theorem Session.resolvers {conduct : Conduct} {w v : World} {moments : List Moment}
    (h : Session conduct w moments v) : v.resolvers = w.resolvers := by
  have removing : (Rule.ofWrites fun before after : World =>
      after.resolvers = before.resolvers).AllowsRemoving :=
    { updateRegistry := fun _ _ _ => rfl
      reports := fun _ _ => trivial }
  have hfulfilled : (Discipline.resolvers conduct).Fulfilled := fun _ _ =>
    (Call.obeys_perform allowsAdding_resolvers removing _ _).ensures trivial fun _ h => ⟨trivial, h⟩
  exact (h.sound hfulfilled trivial).2.1.step

/-- So a resolver that asks hooks only does so throughout. -/
theorem Bridge.Does.hooksThroughout {α : Type} {conduct : Conduct} {p : Bridge α} {w v : World}
    {deeds : List Deed} {result : α} {s : ResolverId} (h : p.Does conduct.turn w deeds result v)
    (hp : p.ObeysFrom (.ofWrites fun before after => after.resolvers = before.resolvers) w)
    (hooks : s.HooksOnly w) : s.HooksThroughout w deeds := by
  refine ⟨hooks, fun hmem => hooks.of_resolvers ?_⟩
  have htrans : ∀ {u v w : World}, v.resolvers = u.resolvers → w.resolvers = v.resolvers →
      w.resolvers = u.resolvers := fun first second => second.trans first
  exact h.related_behind (fun u u' => u'.resolvers = u.resolvers) htrans id
    (fun ⟨⟨_, hsession⟩, _⟩ => hsession.resolvers) hp hmem

/-- Whatever the host does in its turns: an access fails with not-found under the name of the node,
and only if the node has no handle, or it hands on what a question of its own has raised last.  So a
node with a handle never lacks an attribute, and an import from it is an access.  An import through
hooks fails with the name if that is malformed, with one of its prefixes, or with what loading one
of them has raised last. -/
theorem failures_classified {turn : Turn} (evolving : turn.Evolving) {w : World} {n : NodeId}
    (attr : String) (here : n.index < w.nodes.next) :
    (∀ deeds error v, (n.getAttr attr).Does turn w deeds (.error error) v →
      error = .attributeNotFound (w.node n).name attr ∧ (w.node n).handle = none ∨
        HandsOn (n.Consults w attr) error deeds) ∧
      ((w.node n).handle ≠ none →
        (∀ deeds v, ¬(n.hasAttr attr).Does turn w deeds (.ok false) v) ∧
          ∀ (s : ResolverId) deeds result v, (s.importFrom n attr).Does turn w deeds result v ↔
            (n.getAttr attr).Does turn w deeds result v) ∧
      ∀ (s : ResolverId) name deeds error v,
        (s.importName name).Does turn w deeds (.error error) v → s.HooksThroughout w deeds →
        error = .invalidName name ∧ DottedName.parse name = none ∨
          (∃ front ∈ prefixes name, front ≠ "" ∧ error = .moduleNotFound front) ∨
          HandsOn (LoadsAmong (prefixes name)) error deeds := by
  refine ⟨fun deeds error v => getAttr_fails evolving here, fun backed => ⟨fun deeds v =>
    hasAttr_of_backed evolving here backed, fun s deeds result v =>
    importFrom_iff_of_backed evolving here backed s⟩, fun s name deeds error v h hooks => ?_⟩
  rcases importName_fails h hooks with hmalformed | ⟨wellFormed, ⟨front, hmem, herror⟩ | hraised⟩
  · exact .inl hmalformed
  · exact .inr (.inl ⟨front, hmem, ne_empty_of_mem_prefixes wellFormed hmem, herror⟩)
  · exact .inr (.inr hraised)

/-- What can be done against a host that always gives these answers can be done against one that
may also call the bridge. -/
theorem exists_does_adding {α : Type} {p : Bridge (Except ImportError α)} {w : World}
    (fails : (p.run .broken w).result.toOption.isNone) :
    ∃ deeds error v, p.Does Conduct.adding.turn w deeds (.error error) v := by
  obtain ⟨deeds, hdoes⟩ := Bridge.exists_does_run .broken p w
  have hturn : ∀ {question w answer v}, FixedHost.broken.turn question w answer v →
      Conduct.adding.turn question w answer v := by
    rintro question w answer v ⟨-, rfl⟩
    refine ⟨⟨[], .done v⟩, ?_⟩
    cases question with
    | loadsModules => rfl
    | _ => trivial
  cases hresult : (p.run .broken w).result with
  | ok a => simp [hresult, Except.toOption] at fails
  | error error =>
      rw [hresult] at hdoes
      exact ⟨deeds, error, _, hdoes.mono hturn⟩

/-- An access to a package and an import, which both fail, and a foreign module. -/
theorem failures_classified_package :
    let turn := Conduct.adding.turn
    let w := World.withImported.addRegistered (.foreignBacked "pkg.mod" .processWide ⟨7⟩)
    let package : NodeId := ⟨0⟩
    let module : NodeId := ⟨1⟩
    (turn.Evolving ∧ package.index < w.nodes.next ∧ module.index < w.nodes.next) ∧
      (∃ deeds error v, (package.getAttr "sub").Does turn w deeds (.error error) v ∧
        (error = .attributeNotFound "pkg" "sub" ∧ (w.node package).handle = none ∨
          HandsOn (package.Consults w "sub") error deeds)) ∧
      (∀ deeds v, ¬(module.hasAttr "x").Does turn w deeds (.ok false) v) ∧
      ∃ deeds error v,
        (ResolverId.processWide.importName "pkg.sub").Does turn w deeds (.error error) v ∧
          (error = .invalidName "pkg.sub" ∧ DottedName.parse "pkg.sub" = none ∨
            (∃ front ∈ prefixes "pkg.sub", front ≠ "" ∧ error = .moduleNotFound front) ∨
            HandsOn (LoadsAmong (prefixes "pkg.sub")) error deeds) := by
  intro turn w package module
  have evolving : turn.Evolving := Conduct.adding.turn_evolving
  have here : package.index < w.nodes.next := by decide
  have hmodule : module.index < w.nodes.next := by decide
  have backed : (w.node module).handle ≠ none := by decide +kernel
  have hooks : ResolverId.processWide.HooksOnly w := by
    intro finder hmem
    have hpath : (w.resolver .processWide).metaPath = [.hook ⟨0⟩] := by decide +kernel
    rw [hpath] at hmem
    exact ⟨⟨0⟩, List.mem_singleton.mp hmem⟩
  obtain ⟨deeds, error, v, haccess⟩ : ∃ deeds error v,
      (package.getAttr "sub").Does turn w deeds (.error error) v :=
    exists_does_adding (by decide +kernel)
  obtain ⟨deeds', error', v', himport⟩ : ∃ deeds error v,
      (ResolverId.processWide.importName "pkg.sub").Does turn w deeds (.error error) v :=
    exists_does_adding (by decide +kernel)
  have hthroughout := himport.hooksThroughout
    (ResolverId.processWide.obeys_importName allowsAdding_resolvers.allowsImporting "pkg.sub" w)
    hooks
  exact ⟨⟨evolving, here, hmodule⟩,
    ⟨deeds, error, v, haccess, (failures_classified evolving "sub" here).1 _ _ _ haccess⟩,
    ((failures_classified evolving "x" hmodule).2.1 backed).1,
    deeds', error', v', himport,
    (failures_classified evolving "sub" here).2.2 _ _ _ _ _ himport hthroughout⟩

end ForeignNamespace

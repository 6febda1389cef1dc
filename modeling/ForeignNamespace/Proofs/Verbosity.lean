import ForeignNamespace.Proofs.Interplay
import ForeignNamespace.Proofs.MutedWorlds
import Mathlib.Data.List.Forall2

namespace ForeignNamespace

/-- Carries operations out, where each importer that the host builds is as verbose as it is given by
its number, and not as the host has planned it. -/
def Operation.carryOutAt (loud : ImporterId → UInt32) : Service
  | .build r plan => do
    let verbose := loud ⟨(← Bridge.world).importers.next⟩
    ImporterId.build r { plan with config := { plan.config with verbose } }
  | operation => operation.carryOut

/-- The importers that decide in an operation: the one that is asked, or those of the resolver that
imports. -/
def Operation.decider : Operation → Decider
  | .claims i _ | .call (.load i _) => .importer i
  | .call (.importName s _) | .call (.importFrom s _ _) | .call (.importStar s _) => .resolver s
  | _ => .nobody

/-- Whether two signs are the same but for the level of a hook decision. -/
inductive Sign.Agrees : Sign → Sign → Prop
  | reported {operation : Operation} {report report' : Report}
      (agrees : report.event.Agrees operation.decider report.world report'.world report'.event) :
      Agrees (.reported operation report) (.reported operation report')
  | told (heard : Told) : Agrees (.told heard) (.told heard)

namespace FreeHost

variable (host : FreeHost) (loud : ImporterId → UInt32) (n : Nat)

/-- The host that does as this one does where no importer is verbose. -/
def heedless : FreeHost := fun heard w => host heard w.muted

/-- The interplay with a host that does not look at verbosity. -/
def playAt : Play := host.heedless.play (Operation.carryOutAt loud) .fresh n

/-- Whether a host imports by resolvers only that there are. -/
def ImportsThere : Prop :=
  ∀ k < n, ∀ operation, host.heedless.moveAt (host.playAt loud k) = .begins operation →
    operation.decider.Stands (host.playAt loud k).world

end FreeHost

inductive Pause.Alike {α : Type} (d : Decider) (w : World) : Pause α → Pause α → Prop
  | ended (result : α) : Alike d w (.ended result) (.ended result)
  | asks {question : Query} {next next' : question.Answer → Bridge α}
      (rest : ∀ answer v v', v.muted = v'.muted → w.KeepsPaths v →
        (next answer).Alike d v (next' answer) v') :
      Alike d w (.asks question next) (.asks question next')

/-- Whether two operations that wait go on alike, whatever becomes of the world until then. -/
inductive Waiting.Alike (w : World) : Waiting → Waiting → Prop
  | rests {operation : Operation} {question : Query}
      {rest rest' : question.Answer → Bridge operation.Result}
      (alike : ∀ answer v v', v.muted = v'.muted → w.KeepsPaths v →
        (rest answer).Alike operation.decider v (rest' answer) v') :
      Alike w ⟨operation, question, rest⟩ ⟨operation, question, rest'⟩

structure Play.Alike (p p' : Play) : Prop where
  world : p.world.muted = p'.world.muted
  waiting : List.Forall₂ (Waiting.Alike p.world) p.waiting p'.waiting
  log : List.Forall₂ Sign.Agrees p.log p'.log

theorem Waiting.Alike.later {w v : World} {a a' : Waiting} (h : Waiting.Alike w a a')
    (keeps : w.KeepsPaths v) : Waiting.Alike v a a' := by
  obtain @⟨_, _, _, _, alike⟩ := h
  exact .rests fun answer u u' same later => alike answer u u' same (keeps.trans later)

/-- The host is told the same, and the same waits. -/
theorem Pause.Alike.told_eq {operation : Operation} {w : World}
    {pause pause' : Pause operation.Result} (h : pause.Alike operation.decider w pause') :
    pause.told = pause'.told ∧
      List.Forall₂ (Waiting.Alike w) pause.waiting pause'.waiting := by
  cases h with
  | ended result => exact ⟨rfl, .nil⟩
  | asks rest => exact ⟨rfl, .cons (.rests rest) .nil⟩

theorem Bridge.Alike.advance {α : Type} {d : Decider} {p p' : Bridge α} {w w' : World}
    (h : p.Alike d w p' w') :
    (p.advance w).world.muted = (p'.advance w').world.muted ∧
      w.KeepsPaths (p.advance w).world ∧
      List.Forall₂ (fun r r' => r.event.Agrees d r.world r'.world r'.event)
        (p.advance w).reports (p'.advance w').reports ∧
      (p.advance w).pause.Alike d (p.advance w).world (p'.advance w').pause := by
  induction h with
  | pure same => exact ⟨same, .of_resolvers rfl, .nil, .ended _⟩
  | read _ ih => exact ih
  | write keeps _ _ ih => exact ⟨ih.1, keeps.trans ih.2.1, ih.2.2⟩
  | emit agrees _ ih => exact ⟨ih.1, ih.2.1, .cons agrees ih.2.2.1, ih.2.2.2⟩
  | ask same rest => exact ⟨same, .of_resolvers rfl, .nil, .asks rest⟩

namespace Operation

theorem blind_carryOut (operation : Operation) :
    operation.carryOut.Blind operation.decider := by
  cases operation with
  | call c =>
      cases c with
      | importName s name => exact s.blind_importName name
      | importFrom s n name => exact s.blind_importFrom name n
      | importStar s n => exact s.blind_importStar n
      | load i name => exact i.blind_load name
      | getAttr n attr => exact n.blind_getAttr attr
      | setAttr n attr value => exact n.blind_setAttr attr value
      | delAttr n attr => exact n.blind_delAttr attr
      | register r name handle => exact r.blind_registerForeign name handle
      | unregister r name => exact r.blind_unregisterForeign name
      | teardown r => exact r.blind_teardown
  | upkeep u =>
      cases u with
      | register r name handle => exact r.blind_registerForeign name handle
      | unregister r name => exact r.blind_unregisterForeign name
      | put r name n => exact r.blind_put name n
      | remove r name => exact r.blind_remove name
      | makeLoaded r name loader enquirer => exact r.blind_makeLoaded name loader enquirer
      | makeForeign r name handle => exact r.blind_makeForeign name handle
      | patch r n loader enquirer => exact r.blind_patch n loader enquirer
      | teardown r => exact r.blind_teardown
  | hasAttr n attr => exact n.blind_hasAttr attr
  | tryStrategy strategy n attr => exact n.blind_apply attr strategy
  | listNames n => exact n.blind_listNames
  | invoke n arguments => exact n.blind_invoke arguments
  | claims i name => exact i.blind_claims name
  | createRegistry => exact RegistryId.blind_create
  | createResolver r => exact ResolverId.blind_create r
  | build r plan => exact ImporterId.blind_build r plan
  | install s i => exact s.blind_install i
  | setup s enquirer => exact s.blind_setup enquirer
  | pushFinder s f keeps => exact s.blind_pushFinder f keeps
  | setDefaultEnquirer e => exact ProcessWide.blind_setDefaultEnquirer e
  | setDefaultClasses c => exact ProcessWide.blind_setDefaultClasses c
  | hold h => exact Bridge.blind_modify (fun _ => rfl) fun _ => .of_resolvers rfl
  | release h => exact Bridge.blind_modify (fun _ => rfl) fun _ => .of_resolvers rfl
  | runScripts runner project => exact runner.blind_run project

theorem carryOutAt_of_ne {operation : Operation} (other : ∀ r plan, operation ≠ .build r plan)
    (loud : ImporterId → UInt32) : carryOutAt loud operation = operation.carryOut := by
  cases operation with
  | build r plan => exact absurd rfl (other r plan)
  | _ => rfl

theorem alike_carryOutAt (loud loud' : ImporterId → UInt32) (operation : Operation) {w w' : World}
    (same : w.muted = w'.muted) (stands : operation.decider.Stands w) :
    (carryOutAt loud operation).Alike operation.decider w (carryOutAt loud' operation) w' := by
  by_cases hbuild : ∃ r plan, operation = .build r plan
  · obtain ⟨r, plan, rfl⟩ := hbuild
    exact Bridge.alike_read (ImporterId.alike_build r same rfl rfl rfl)
  · have hother : ∀ r plan, operation ≠ .build r plan := fun r plan heq => hbuild ⟨r, plan, heq⟩
    rw [carryOutAt_of_ne hother, carryOutAt_of_ne hother]
    exact operation.blind_carryOut w w' same stands

end Operation

namespace Play.Alike

variable {p p' : Play}

theorem heard_eq (h : p.Alike p') : p.heard = p'.heard := by
  have hlog := h.log
  rw [heard, heard]
  generalize p.log = log, p'.log = log' at hlog
  induction hlog with
  | nil => rfl
  | cons agrees _ ih =>
      cases agrees with
      | reported => exact ih
      | told heard => exact congrArg (heard :: ·) ih

theorem go (h : p.Alike p') {operation : Operation} {rest rest' : Bridge operation.Result}
    {outer outer' : List Waiting}
    (hrest : rest.Alike operation.decider p.world rest' p'.world)
    (houter : List.Forall₂ (Waiting.Alike p.world) outer outer') :
    (p.go operation rest outer).Alike (p'.go operation rest' outer') := by
  obtain ⟨hworld, hkeeps, hreports, hpause⟩ := hrest.advance
  obtain ⟨htold, hwaiting⟩ := hpause.told_eq
  refine ⟨hworld, List.rel_append hwaiting ?_, List.rel_append h.log ?_⟩
  · exact houter.imp fun _ _ hwaits => hwaits.later hkeeps
  · refine List.rel_append ?_ (.cons ?_ .nil)
    · exact List.rel_map (fun _ _ agrees => .reported agrees) hreports
    · rw [htold]
      exact .told _

theorem take (h : p.Alike p') (loud loud' : ImporterId → UInt32) {move : Move}
    (stands : ∀ operation, move = .begins operation → operation.decider.Stands p.world) :
    (p.take (Operation.carryOutAt loud) move).Alike
      (p'.take (Operation.carryOutAt loud') move) := by
  cases move with
  | begins operation =>
      have hbegun := operation.alike_carryOutAt loud loud' h.world (stands operation rfl)
      exact h.go hbegun h.waiting
  | answers host =>
      obtain ⟨w, waiting, log⟩ := p
      obtain ⟨w', waiting', log'⟩ := p'
      cases h.waiting with
      | nil => exact h
      | cons first others =>
          cases first with
          | rests alike => exact h.go (alike _ w w' h.world (.of_resolvers rfl)) others

end Play.Alike

namespace FreeHost

theorem playAt_succ (host : FreeHost) (loud : ImporterId → UInt32) (n : Nat) :
    host.playAt loud (n + 1) =
      (host.playAt loud n).take (Operation.carryOutAt loud)
        (host.heedless.moveAt (host.playAt loud n)) :=
  rfl

theorem alike_play {host : FreeHost} {loud : ImporterId → UInt32} {n : Nat}
    (there : host.ImportsThere loud n) (loud' : ImporterId → UInt32) :
    (host.playAt loud n).Alike (host.playAt loud' n) := by
  induction n with
  | zero => exact ⟨rfl, .nil, .nil⟩
  | succ n ih =>
      have hn := ih fun k hk => there k (Nat.lt_succ_of_lt hk)
      -- The host decides on its move from things that are the same in both plays.
      have hmove : host.heedless.moveAt (host.playAt loud n) =
          host.heedless.moveAt (host.playAt loud' n) :=
        congrArg₂ host hn.heard_eq hn.world
      rw [playAt_succ, playAt_succ, ← hmove]
      exact hn.take loud loud' fun operation => there n (Nat.lt_succ_self n) operation

/-- However verbose the importers are that a host builds, it is asked the same and told the same
results in the same order, finds the same nodes, registries and importers but for their verbosity,
and the same events are reported, of which the decisions of an importer are loud exactly where it is
verbose. -/
theorem play_ignores_verbosity {host : FreeHost} {loud : ImporterId → UInt32} {n : Nat}
    (there : host.ImportsThere loud n) (loud' : ImporterId → UInt32) :
    let p := host.playAt loud n
    let p' := host.playAt loud' n
    p.heard = p'.heard ∧ p.world.muted = p'.world.muted ∧
      List.Forall₂ Sign.Agrees p.log p'.log := by
  intro p p'
  have h : p.Alike p' := alike_play there loud'
  exact ⟨h.heard_eq, h.world, h.log⟩

/-- A host installs an importer, and its import is declined at the level of the importer. -/
theorem play_ignores_verbosity_declined :
    let moves : List Move := [.begins (.build .processWide { enquirer := some ⟨0⟩ }),
      .begins (.install .processWide ⟨0⟩), .begins (.call (.importName .processWide "ui"))]
    let host : FreeHost := fun heard _ => moves.getD heard.length (.answers .ignorant)
    let levels (verbose : UInt32) : List Level :=
      (host.playAt (fun _ => verbose) 6).log.filterMap fun sign => match sign with
        | .reported _ report => if report.event.isDecision then some report.event.level else none
        | .told _ => none
    host.ImportsThere (fun _ => 1) 6 ∧
      (host.playAt (fun _ => 1) 6).heard = (host.playAt (fun _ => 0) 6).heard ∧
      levels 1 = [.debug] ∧ levels 0 = [.trace] := by
  intro moves host levels
  have hnext : ∀ k < 6, 0 < (host.playAt (fun _ => 1) k).world.resolvers.next := by
    decide +kernel
  have there : host.ImportsThere (fun _ => 1) 6 := by
    intro k hk operation hbegins
    change moves.getD (host.playAt (fun _ => 1) k).heard.length _ = _ at hbegins
    generalize (host.playAt (fun _ => 1) k).heard.length = m at hbegins
    rcases m with _ | _ | _ | m
    · cases hbegins
      trivial
    · cases hbegins
      trivial
    · cases hbegins
      exact hnext k hk
    · cases hbegins
  obtain ⟨hheard, -⟩ := play_ignores_verbosity there fun _ => 0
  exact ⟨there, hheard, by decide +kernel, by decide +kernel⟩

end FreeHost

end ForeignNamespace

import ForeignNamespace.Proofs.Histories

/-!
The interplay of the library with its host.

From all that it was told, and from the world, a host decides whether it answers the question that
it was asked last or begins an operation of its own; so operations nest to any depth.  What becomes
of this is a function of the host and of the number of its moves (`FreeHost.play`).  What every
operation restores by its next question or its end holds behind every move (`FreeHost.play_kept`).
-/

namespace ForeignNamespace

/-- What a host is told: a question, or the result of an operation that it has begun. -/
inductive Told where
  | asked (question : Query)
  | replied (operation : Operation) (result : operation.Result)

/-- An event with the world in which it is reported. -/
structure Report where
  world : World
  event : Event

/-- What can be seen of an interplay: what an operation reports, and what the host is told. -/
inductive Sign where
  | reported (operation : Operation) (report : Report)
  | told (heard : Told)

def Sign.told? : Sign → Option Told
  | .reported .. => none
  | .told heard => some heard

/-- Where a computation comes to without an answer. -/
inductive Pause (α : Type) where
  | ended (result : α)
  | asks (question : Query) (next : question.Answer → Bridge α)

/-- A part of a computation that needs no answer, from a world to its end or its next question. -/
structure Stretch (α : Type) where
  reports : List Report
  world : World
  pause : Pause α

namespace Bridge

variable {α : Type}

def advance : Bridge α → World → Stretch α
  | .pure result, w => ⟨[], w, .ended result⟩
  | .read next, w => (next w).advance w
  | .write v next, _ => next.advance v
  | .emit event next, w =>
    let stretch := next.advance w
    { stretch with reports := ⟨w, event⟩ :: stretch.reports }
  | .ask question next, w => ⟨[], w, .asks question next⟩

end Bridge

/-- What a host does next.  An answer is for the question that was put last. -/
inductive Move where
  | begins (operation : Operation)
  | answers (host : FixedHost)

/-- An operation that waits for an answer. -/
structure Waiting where
  operation : Operation
  question : Query
  rest : question.Answer → Bridge operation.Result

def Pause.told {operation : Operation} : Pause operation.Result → Told
  | .ended result => .replied operation result
  | .asks question _ => .asked question

def Pause.waiting {operation : Operation} : Pause operation.Result → List Waiting
  | .ended _ => []
  | .asks question next => [⟨operation, question, next⟩]

/-- The state of an interplay: the operations that wait, the innermost first, and all that could be
seen so far. -/
structure Play where
  world : World
  waiting : List Waiting := []
  log : List Sign := []

/-- How operations are carried out. -/
abbrev Service := (operation : Operation) → Bridge operation.Result

namespace Play

/-- All that the host was told. -/
def heard (p : Play) : List Told := p.log.filterMap Sign.told?

/-- An operation goes on until it ends or asks, inside of others that wait. -/
def go (p : Play) (operation : Operation) (rest : Bridge operation.Result)
    (outer : List Waiting) : Play :=
  let stretch := rest.advance p.world
  { world := stretch.world
    waiting := stretch.pause.waiting ++ outer
    log := p.log ++ (stretch.reports.map (.reported operation) ++ [.told stretch.pause.told]) }

/-- The host moves.  Without a question there is nothing to answer. -/
def take (service : Service) (p : Play) : Move → Play
  | .begins operation => p.go operation (service operation) p.waiting
  | .answers host =>
    match p.waiting with
    | [] => p
    | a :: outer => p.go a.operation (a.rest (host a.question)) outer

/-- A host is told one thing for each move. -/
theorem heard_go (p : Play) {operation : Operation} (rest : Bridge operation.Result)
    (outer : List Waiting) :
    (p.go operation rest outer).heard = p.heard ++ [(rest.advance p.world).pause.told] := by
  have hreports : ∀ reports : List Report,
      (reports.map (Sign.reported operation)).filterMap Sign.told? = [] := fun reports => by
    rw [List.filterMap_map]
    exact List.filterMap_eq_nil_iff.mpr fun _ _ => rfl
  simp [heard, go, hreports, Sign.told?]

end Play

/-- A host that moves as it likes.  It may remember all that it was told, and look at the world. -/
abbrev FreeHost := List Told → World → Move

namespace FreeHost

variable (host : FreeHost) (service : Service) (w : World)

def moveAt (p : Play) : Move := host p.heard p.world

/-- The interplay after a number of moves. -/
def play : Nat → Play
  | 0 => { world := w }
  | n + 1 => (play n).take service (host.moveAt (play n))

theorem log_prefix_succ (n : Nat) :
    (host.play service w n).log <+: (host.play service w (n + 1)).log := by
  rw [play]
  generalize host.play service w n = p
  unfold Play.take
  split
  · exact List.prefix_append ..
  · split
    · exact List.prefix_refl _
    · exact List.prefix_append ..

theorem log_prefix {k n : Nat} (h : k ≤ n) :
    (host.play service w k).log <+: (host.play service w n).log := by
  induction h with
  | refl => exact List.prefix_refl _
  | step _ ih => exact ih.trans (host.log_prefix_succ service w _)

/-- What a host was told stays told. -/
theorem heard_of_le {k n : Nat} (h : k ≤ n) {told : Told}
    (hmem : told ∈ (host.play service w k).heard) : told ∈ (host.play service w n).heard :=
  ((host.log_prefix service w h).sublist.filterMap Sign.told?).subset hmem

end FreeHost

/-- A property that worlds have whenever the host is at its turn, and a relation that every write
keeps to.  Between two turns the property may be broken. -/
structure Regime where
  good : World → Prop
  step : World → World → Prop
  refl : ∀ w, step w w
  trans : ∀ {u v w}, step u v → step v w → step u w

namespace Bridge

variable {α β : Type}

/-- Whether a computation keeps to a regime, and its end is as wanted. -/
def Restores (g : Regime) : Bridge α → World → (α → World → Prop) → Prop
  | .pure a, w, post => post a w
  | .read next, w, post => (next w).Restores g w post
  | .write v next, w, post => g.step w v ∧ next.Restores g v post
  | .emit _ next, w, post => next.Restores g w post
  | .ask _ next, w, post =>
    g.good w ∧ ∀ answer v, g.good v → g.step w v → (next answer).Restores g v post

/-- Whether a computation keeps to a regime and restores it by its end. -/
def Settles (g : Regime) (p : Bridge α) (w : World) : Prop := p.Restores g w fun _ v => g.good v

variable {g : Regime} {w : World}

theorem restores_bind_iff {p : Bridge α} {f : α → Bridge β} {post : β → World → Prop} :
    (p >>= f).Restores g w post ↔ p.Restores g w fun a v => (f a).Restores g v post := by
  change (p.bind f).Restores g w post ↔ _
  induction p generalizing w with
  | pure a => exact Iff.rfl
  | read next ih => exact ih w
  | write v next ih => exact and_congr_right fun _ => ih
  | emit event next ih => exact ih
  | ask question next ih =>
      refine and_congr_right fun _ => forall_congr' fun answer => forall_congr' fun v => ?_
      exact imp_congr_right fun _ => imp_congr_right fun _ => ih answer

theorem Restores.mono {p : Bridge α} {post post' : α → World → Prop} (hp : p.Restores g w post)
    (himp : ∀ a v, post a v → g.step w v → post' a v) : p.Restores g w post' := by
  induction p generalizing w with
  | pure a => exact himp a w hp (g.refl w)
  | read next ih => exact ih w hp himp
  | write v next ih =>
      exact ⟨hp.1, ih hp.2 fun a u hu hstep => himp a u hu (g.trans hp.1 hstep)⟩
  | emit event next ih => exact ih hp himp
  | ask question next ih =>
      refine ⟨hp.1, fun answer v hv hstep => ih answer (hp.2 answer v hv hstep) ?_⟩
      exact fun a u hu hlater => himp a u hu (g.trans hstep hlater)

theorem Restores.bind {p : Bridge α} {f : α → Bridge β} {post : α → World → Prop}
    {post' : β → World → Prop} (hp : p.Restores g w post)
    (hf : ∀ a v, post a v → g.step w v → (f a).Restores g v post') :
    (p >>= f).Restores g w post' :=
  restores_bind_iff.mpr (hp.mono hf)

theorem settles_pure (a : α) (hw : g.good w) : (Pure.pure a : Bridge α).Settles g w := hw

theorem settles_world_bind {f : World → Bridge β} (h : (f w).Settles g w) :
    (world >>= f).Settles g w := h

theorem settles_get_bind {r : RegistryId} {name : String} {f : Option NodeId → Bridge β}
    (h : (f (w.lookup r name)).Settles g w) : (r.get name >>= f).Settles g w := h

theorem settles_lookup_bind {s : ResolverId} {name : String} {f : Option NodeId → Bridge β}
    (h : (f (w.lookup (w.resolver s).registry name)).Settles g w) :
    (s.lookup name >>= f).Settles g w := h

theorem Settles.bind {p : Bridge α} {f : α → Bridge β} (hp : p.Settles g w)
    (hf : ∀ a v, g.good v → g.step w v → (f a).Settles g v) : (p >>= f).Settles g w :=
  Restores.bind hp hf

/-- What is only allowed to write good worlds is settled. -/
theorem Obeys.settles {rule : Rule} {p : Bridge α} (hp : p.Obeys rule)
    (writes : ∀ {w v}, rule.writes w v → g.good w → g.good v ∧ g.step w v) (hw : g.good w) :
    p.Settles g w := by
  have hfrom := hp w
  clear hp
  induction p generalizing w with
  | pure a => exact hw
  | read next ih => exact ih w hw hfrom
  | write v next ih =>
      obtain ⟨hv, hstep⟩ := writes hfrom.1 hw
      exact ⟨hstep, ih hv hfrom.2⟩
  | emit event next ih => exact ih hw hfrom.2
  | ask question next ih =>
      exact ⟨hw, fun answer v hv _ => ih answer hv (hfrom.2 answer v)⟩

end Bridge

/-- Whether the world is good and every operation that waits will settle. -/
structure Play.Kept (g : Regime) (p : Play) : Prop where
  good : g.good p.world
  waiting : ∀ a ∈ p.waiting, ∀ answer v, g.good v → g.step p.world v → (a.rest answer).Settles g v

/-- Whether a computation that has come to a pause will settle when it goes on. -/
def Pause.WillSettle {α : Type} (g : Regime) (w : World) : Pause α → Prop
  | .ended _ => True
  | .asks _ next => ∀ answer v, g.good v → g.step w v → (next answer).Settles g v

theorem Bridge.Settles.advance {α : Type} {g : Regime} {p : Bridge α} {w : World}
    (h : p.Settles g w) :
    g.good (p.advance w).world ∧ g.step w (p.advance w).world ∧
      (p.advance w).pause.WillSettle g (p.advance w).world := by
  induction p generalizing w with
  | pure a => exact ⟨h, g.refl w, trivial⟩
  | read next ih => exact ih w h
  | write v next ih =>
      obtain ⟨hgood, hstep, hpause⟩ := ih h.2
      exact ⟨hgood, g.trans h.1 hstep, hpause⟩
  | emit event next ih => exact ih h
  | ask question next ih => exact ⟨h.1, g.refl w, h.2⟩

namespace Play.Kept

variable {g : Regime} {p : Play}

theorem go (h : p.Kept g) {operation : Operation} {rest : Bridge operation.Result}
    {outer : List Waiting} (hrest : rest.Settles g p.world) (houter : outer ⊆ p.waiting) :
    (p.go operation rest outer).Kept g ∧ g.step p.world (p.go operation rest outer).world := by
  obtain ⟨hgood, hstep, hpause⟩ := hrest.advance
  refine ⟨⟨hgood, fun a ha => ?_⟩, hstep⟩
  rcases List.mem_append.mp ha with ha | ha
  · generalize (rest.advance p.world).pause = pause at ha hpause
    cases pause with
    | ended result => cases ha
    | asks question next =>
        obtain rfl := List.mem_singleton.mp ha
        exact hpause
  · exact fun answer v hv hlater => h.waiting a (houter ha) answer v hv (g.trans hstep hlater)

theorem take (h : p.Kept g) {service : Service} {move : Move}
    (fulfilled : ∀ operation, move = .begins operation → (service operation).Settles g p.world) :
    (p.take service move).Kept g ∧ g.step p.world (p.take service move).world := by
  cases move with
  | begins operation => exact h.go (fulfilled operation rfl) (List.Subset.refl _)
  | answers host =>
      rw [Play.take]
      split
      · exact ⟨h, g.refl _⟩
      · rename_i a outer hwaiting
        have hmem : a ∈ p.waiting := hwaiting ▸ List.mem_cons_self
        refine h.go (h.waiting a hmem _ _ h.good (g.refl _)) ?_
        rw [hwaiting]
        exact List.subset_cons_self _ _

end Play.Kept

/-- If every operation settles that a host begins in its first moves, then the world is good behind
these moves, and it keeps to the relation. -/
theorem FreeHost.play_kept {g : Regime} {host : FreeHost} {service : Service} {w : World}
    (start : g.good w) (n : Nat)
    (fulfilled : ∀ k < n, ∀ operation,
      host.moveAt (host.play service w k) = .begins operation →
        g.good (host.play service w k).world →
          (service operation).Settles g (host.play service w k).world) :
    (host.play service w n).Kept g ∧
      ∀ k ≤ n, g.step (host.play service w k).world (host.play service w n).world := by
  induction n with
  | zero =>
      refine ⟨⟨start, by simp [play]⟩, fun k hk => ?_⟩
      obtain rfl := Nat.le_zero.mp hk
      exact g.refl _
  | succ n ih =>
      obtain ⟨hkept, hsteps⟩ := ih fun k hk => fulfilled k (Nat.lt_succ_of_lt hk)
      obtain ⟨hnext, hstep⟩ := hkept.take fun operation hmove =>
        fulfilled n (Nat.lt_succ_self n) operation hmove hkept.good
      refine ⟨hnext, fun k hk => ?_⟩
      rcases Nat.le_succ_iff.mp hk with hk | rfl
      · exact g.trans (hsteps k hk) hstep
      · exact g.refl _

end ForeignNamespace

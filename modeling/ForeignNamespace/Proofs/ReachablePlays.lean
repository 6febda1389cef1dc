import ForeignNamespace.Proofs.Interplay
import Mathlib.Data.List.Induction

/-!
Plays and processes are the same, seen from the host's turns: every play is a process that can be
reached (`FreeHost.play_reachable`), and every process that can be reached is the process of a play
whenever the host is at its turn (`Process.Reachable.exists_play`).
-/

namespace ForeignNamespace

def Pause.activities (operation : Operation) : Pause Unit → List Activity
  | .ended _ => []
  | .asks question next => [⟨operation, .ask question next⟩]

/-- The process once its innermost operation has come to its end or its next question. -/
def Process.settled (p : Process) : Process :=
  match p.activities with
  | [] => p
  | a :: outer =>
    let stretch := a.rest.advance p.world
    { world := stretch.world, activities := stretch.pause.activities a.operation ++ outer }

/-- An operation that waits, with its result left out. -/
def Waiting.activity (a : Waiting) : Activity :=
  ⟨a.operation, .ask a.question fun answer => (fun _ => ()) <$> a.rest answer⟩

def Play.process (p : Play) : Process := ⟨p.world, p.waiting.map Waiting.activity⟩

theorem Play.asks_of_mem_process {p : Play} : ∀ a ∈ p.process.activities, a.rest.Asks := by
  intro a ha
  obtain ⟨waiting, -, rfl⟩ := List.mem_map.mp ha
  trivial

namespace Process

variable {history : List Incident} {p : Process}

theorem settled_of_asks (asks : ∀ a ∈ p.activities, a.rest.Asks) : p.settled = p := by
  obtain ⟨w, activities⟩ := p
  cases activities with
  | nil => rfl
  | cons a outer =>
      obtain ⟨operation, rest⟩ := a
      cases rest with
      | ask question next => rfl
      | _ => exact (asks _ List.mem_cons_self).elim

/-- What can be reached comes to the next turn of the host by the writes of one operation. -/
theorem Reachable.settles {fine : Incident → Prop} {w : World} {operation : Operation}
    {rest : Bridge Unit} {outer : List Activity}
    (h : Reachable history ⟨w, ⟨operation, rest⟩ :: outer⟩) (hfine : ∀ x ∈ history, fine x)
    (hwrites : ∀ v, fine (.wrote operation v)) :
    ∃ later, Reachable later (settled ⟨w, ⟨operation, rest⟩ :: outer⟩) ∧ ∀ x ∈ later, fine x := by
  induction rest generalizing w history with
  | pure a => exact ⟨_, h.step .ends, hfine⟩
  | read next ih => exact ih w (h.step .reads) hfine
  | write v next ih => exact ih (h.step .writes) (List.forall_mem_cons.mpr ⟨hwrites v, hfine⟩)
  | emit event next ih => exact ih (h.step .reports) hfine
  | ask question next ih => exact ⟨_, h, hfine⟩

end Process

namespace Play

theorem process_go (p : Play) {operation : Operation} (rest : Bridge operation.Result)
    (outer : List Waiting) :
    (p.go operation rest outer).process = Process.settled
      ⟨p.world, ⟨operation, (fun _ => ()) <$> rest⟩ :: outer.map Waiting.activity⟩ := by
  obtain ⟨w, waiting, log⟩ := p
  suffices hstretch : (((fun _ => ()) <$> rest).advance w).world = (rest.advance w).world ∧
      (((fun _ => ()) <$> rest).advance w).pause.activities operation =
        (rest.advance w).pause.waiting.map Waiting.activity by
    simp only [process, go, Process.settled, hstretch, List.map_append]
  clear waiting log
  induction rest generalizing w with
  | pure a => exact ⟨rfl, rfl⟩
  | read next ih => exact ih w w
  | write v next ih => exact ih v
  | emit event next ih => exact ih w
  | ask question next ih => exact ⟨rfl, rfl⟩

end Play

section Plays

variable (host : FreeHost) (n : Nat)

/-- Whether an incident comes of the first moves of a host. -/
def FreeHost.Causes : Incident → Prop
  | .began operation | .wrote operation _ =>
    ∃ k < n, host.moveAt (host.play Operation.carryOut .fresh k) = .begins operation
  | .answered question answer =>
    ∃ k < n, ∃ fixed, host.moveAt (host.play Operation.carryOut .fresh k) = .answers fixed ∧
      fixed question = answer

variable {host n}

theorem FreeHost.Causes.succ {x : Incident} (h : host.Causes n x) : host.Causes (n + 1) x := by
  cases x with
  | _ =>
      obtain ⟨k, hk, h⟩ := h
      exact ⟨k, Nat.lt_succ_of_lt hk, h⟩

/-- Every play is a process that can be reached, and nothing happens in it that does not come of the
moves of the host. -/
theorem FreeHost.play_reachable (host : FreeHost) (n : Nat) :
    ∃ history, Process.Reachable history (host.play Operation.carryOut .fresh n).process ∧
      ∀ x ∈ history, host.Causes n x := by
  induction n with
  | zero => exact ⟨[], .start, by simp⟩
  | succ n ih =>
      obtain ⟨history, hreach, hcaused⟩ := ih
      have hlater : ∀ x ∈ history, host.Causes (n + 1) x := fun x hx => (hcaused x hx).succ
      rw [play]
      cases hmove : host.moveAt (host.play Operation.carryOut .fresh n) with
      | begins operation =>
          have hbegan : host.Causes (n + 1) (.began operation) := ⟨n, Nat.lt_succ_self n, hmove⟩
          rw [Play.take, Play.process_go]
          exact (hreach.step (.begins operation Play.asks_of_mem_process)).settles
            (List.forall_mem_cons.mpr ⟨hbegan, hlater⟩) fun _ => hbegan
      | answers fixed =>
          rw [Play.take]
          split
          · exact ⟨history, hreach, hlater⟩
          · rename_i a outer hwaiting
            rw [Play.process, hwaiting] at hreach
            have hbegan : host.Causes (n + 1) (.began a.operation) :=
              hlater _ (hreach.began _ List.mem_cons_self)
            have hanswered : host.Causes (n + 1) (.answered a.question (fixed a.question)) :=
              ⟨n, Nat.lt_succ_self n, fixed, hmove, rfl⟩
            rw [Play.process_go]
            exact (hreach.step (.answers (fixed a.question))).settles
              (List.forall_mem_cons.mpr ⟨hanswered, hlater⟩) fun _ => hbegan

/-- What every operation upholds holds behind every move of a host. -/
theorem FreeHost.play_upheld {good : World → Prop} {fine : Incident → Prop}
    (fulfilled : ∀ operation, fine (.began operation) →
      operation.carryOut.Upholds good fine operation)
    (start : good .fresh) (hfine : ∀ x, host.Causes n x → fine x) :
    good (host.play Operation.carryOut .fresh n).world := by
  obtain ⟨history, hreach, hcaused⟩ := host.play_reachable n
  exact hreach.upheld fulfilled start fun x hx => hfine x (hcaused x hx)

end Plays

/-- The play after a list of moves. -/
def Play.after (moves : List Move) : Play :=
  moves.foldl (take Operation.carryOut) { world := .fresh }

theorem Play.after_append (moves : List Move) (move : Move) :
    after (moves ++ [move]) = (after moves).take Operation.carryOut move := by
  rw [after, List.foldl_append]
  rfl

/-- Without a question that waits, a host is not told anything for an answer. -/
theorem Play.length_heard_take_le (p : Play) (service : Service) (move : Move) :
    (p.take service move).heard.length ≤ p.heard.length + 1 := by
  unfold take
  split
  · simp [heard_go]
  · split
    · exact Nat.le_succ _
    · simp [heard_go]

theorem Play.take_answers {p : Play} {a : Waiting} {outer : List Waiting} {service : Service}
    (hwaiting : p.waiting = a :: outer) (fixed : FixedHost) :
    p.take service (.answers fixed) = p.go a.operation (a.rest (fixed a.question)) outer := by
  rw [take, hwaiting]

theorem Play.length_heard_after_le (moves : List Move) :
    (after moves).heard.length ≤ moves.length := by
  induction moves using List.reverseRecOn with
  | nil => exact Nat.le_refl _
  | append_singleton moves move ih =>
      rw [after_append, List.length_append]
      exact Nat.le_trans (length_heard_take_le _ _ _) (Nat.succ_le_succ ih)

/-- The host that makes the moves of a list, one whenever it is told something. -/
def FreeHost.following (moves : List Move) : FreeHost := fun heard _ =>
  moves.getD heard.length (.answers .ignorant)

theorem FreeHost.play_following {moves : List Move}
    (told : (Play.after moves).heard.length = moves.length) (more : List Move) :
    (following (moves ++ more)).play Operation.carryOut .fresh moves.length =
      Play.after moves := by
  induction moves using List.reverseRecOn generalizing more with
  | nil => rfl
  | append_singleton moves move ih =>
      rw [Play.after_append] at told ⊢
      rw [List.length_append, List.length_singleton] at told ⊢
      have hbefore : (Play.after moves).heard.length = moves.length := by
        have hle := Play.length_heard_after_le moves
        have hge := (Play.after moves).length_heard_take_le Operation.carryOut move
        omega
      have hplay := ih hbefore (move :: more)
      rw [List.append_assoc, List.singleton_append, play, hplay]
      simp [moveAt, following, hbefore]

theorem FixedHost.exists_answering (question : Query) (answer : question.Answer) :
    ∃ host : FixedHost, host question = answer := by
  classical
  exact ⟨fun q => if h : question = q then h ▸ answer else ignorant q, by simp⟩

namespace Process

variable {history : List Incident} {p : Process}

theorem Reachable.exists_moves (h : Reachable history p) :
    ∃ moves, (Play.after moves).process = p.settled ∧
      (Play.after moves).heard.length = moves.length ∧
      ∀ operation, .begins operation ∈ moves → .began operation ∈ history := by
  induction h with
  | start => exact ⟨[], rfl, rfl, by simp⟩
  | step before step ih =>
      obtain ⟨moves, hprocess, htold, hbegan⟩ := ih
      cases step with
      | begins operation waits =>
          rw [settled_of_asks waits] at hprocess
          obtain ⟨rfl, rfl⟩ := Process.mk.inj hprocess
          refine ⟨moves ++ [.begins operation], ?_, ?_, fun other hmem => ?_⟩
          · rw [Play.after_append, Play.take, Play.process_go]
            rfl
          · rw [Play.after_append, Play.take, Play.heard_go]
            simp [htold]
          · rcases List.mem_append.mp hmem with hmem | hmem
            · exact List.mem_cons_of_mem _ (hbegan other hmem)
            · obtain rfl := Move.begins.inj (List.mem_singleton.mp hmem)
              exact List.mem_cons_self
      | @answers w operation question next activities answer =>
          rw [settled_of_asks (List.forall_mem_cons.mpr ⟨trivial, before.waits⟩)] at hprocess
          obtain ⟨rfl, hactivities⟩ := Process.mk.inj hprocess
          obtain ⟨a, outer, hwaiting, ha, rfl⟩ := List.map_eq_cons_iff.mp hactivities
          cases ha
          obtain ⟨fixed, rfl⟩ := FixedHost.exists_answering a.question answer
          refine ⟨moves ++ [.answers fixed], ?_, ?_, fun other hmem => ?_⟩
          · rw [Play.after_append, Play.take_answers hwaiting, Play.process_go]
          · rw [Play.after_append, Play.take_answers hwaiting, Play.heard_go]
            simp [htold]
          · rcases List.mem_append.mp hmem with hmem | hmem
            · exact List.mem_append_right _ (hbegan other hmem)
            · cases List.mem_singleton.mp hmem
      | ends =>
          refine ⟨moves, ?_, htold, hbegan⟩
          rw [settled_of_asks before.waits]
          exact hprocess
      | _ => exact ⟨moves, hprocess, htold, fun other hmem =>
          List.mem_append_right _ (hbegan other hmem)⟩

/-- Whenever the host is at its turn, a process that can be reached is the process of a play in
which the host begins nothing else. -/
theorem Reachable.exists_play (h : Reachable history p) (turn : ∀ a ∈ p.activities, a.rest.Asks) :
    ∃ (host : FreeHost) (n : Nat), (host.play Operation.carryOut .fresh n).process = p ∧
      ∀ heard w operation, host heard w = .begins operation → .began operation ∈ history := by
  obtain ⟨moves, hprocess, htold, hbegan⟩ := h.exists_moves
  rw [settled_of_asks turn] at hprocess
  have hplay := FreeHost.play_following htold []
  rw [List.append_nil] at hplay
  refine ⟨.following moves, moves.length, ?_, fun heard w operation hbegins => ?_⟩
  · rw [hplay, hprocess]
  · refine hbegan operation ?_
    rw [FreeHost.following, List.getD_eq_getElem?_getD] at hbegins
    cases hmove : moves[heard.length]? with
    | none =>
        rw [hmove] at hbegins
        cases hbegins
    | some move =>
        rw [hmove, Option.getD_some] at hbegins
        exact hbegins ▸ List.mem_of_getElem? hmove

/-- What operations restore whenever the host is at its turn holds in every process then. -/
theorem Reachable.kept {g : Regime} (h : Reachable history p)
    (turn : ∀ a ∈ p.activities, a.rest.Asks) (start : g.good .fresh)
    (fulfilled : ∀ operation w, .began operation ∈ history → g.good w →
      operation.carryOut.Settles g w) : g.good p.world := by
  obtain ⟨host, n, rfl, hbegan⟩ := h.exists_play turn
  have hkept := FreeHost.play_kept start n fun k _ operation hmove =>
    fulfilled operation _ (hbegan _ _ _ hmove)
  exact hkept.1.good

end Process

end ForeignNamespace

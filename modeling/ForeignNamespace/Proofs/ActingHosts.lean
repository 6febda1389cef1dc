import ForeignNamespace.Proofs.Conversation

/-!
Hosts that act.

Before it answers a question, such a host may do to the world whatever it likes.  What a
computation says to one host is a function (`Bridge.attend`).  What it can say to some host is a
predicate in which the worlds have no part (`Bridge.Says`).
-/

namespace ForeignNamespace

/-- A host whose answers depend on all that was said before and on the world, which it may change
before it answers. -/
abbrev ActingHost := List Exchange → World → (question : Query) → question.Answer × World

/-- The same conversation behind an earlier one. -/
def Conversation.behind {α : Type} (said : List Exchange) (c : Conversation α) : Conversation α :=
  { c with exchanges := said ++ c.exchanges }

namespace Bridge

variable {α β : Type}

def attend (host : ActingHost) : Bridge α → List Exchange → World → Conversation α
  | .pure result, _, w => ⟨result, w, []⟩
  | .read next, said, w => (next w).attend host said w
  | .write v next, said, _ => next.attend host said v
  | .emit _ next, said, w => next.attend host said w
  | .ask question next, said, w =>
    let turn := host said w question
    ((next turn.1).attend host (said ++ [⟨question, turn.1⟩]) turn.2).behind [⟨question, turn.1⟩]

theorem attend_bind (host : ActingHost) (p : Bridge α) (f : α → Bridge β) (said : List Exchange)
    (w : World) :
    (p >>= f).attend host said w =
      ((f (p.attend host said w).result).attend host (said ++ (p.attend host said w).exchanges)
        (p.attend host said w).world).behind (p.attend host said w).exchanges := by
  change (p.bind f).attend host said w = _
  induction p generalizing said w with
  | pure a => simp [bind, attend, Conversation.behind]
  | read next ih => simpa [bind, attend] using ih w said w
  | write v next ih => simpa [bind, attend] using ih said v
  | emit event next ih => simpa [bind, attend] using ih said w
  | ask question next ih => simp [bind, attend, Conversation.behind, ih]

/-- Whether a computation can end with a result after these exchanges. -/
def Says : Bridge α → List Exchange → α → Prop
  | .pure a, talk, result => talk = [] ∧ result = a
  | .read next, talk, result => ∃ w, (next w).Says talk result
  | .write _ next, talk, result => next.Says talk result
  | .emit _ next, talk, result => next.Says talk result
  | .ask question next, talk, result =>
    ∃ answer rest, talk = ⟨question, answer⟩ :: rest ∧ (next answer).Says rest result

theorem says_attend (host : ActingHost) (p : Bridge α) (said : List Exchange) (w : World) :
    p.Says (p.attend host said w).exchanges (p.attend host said w).result := by
  induction p generalizing said w with
  | pure a => exact ⟨rfl, rfl⟩
  | read next ih => exact ⟨w, ih w said w⟩
  | write v next ih => exact ih said v
  | emit event next ih => exact ih said w
  | ask question next ih => exact ⟨_, _, rfl, ih _ _ _⟩

section Steps

variable {talk : List Exchange} {result : β}

@[simp] theorem says_pure_iff {b : β} :
    (Pure.pure b : Bridge β).Says talk result ↔ talk = [] ∧ result = b :=
  Iff.rfl

@[simp] theorem says_report_bind_iff {event : Event} {f : Unit → Bridge β} :
    (report event >>= f).Says talk result ↔ (f ()).Says talk result :=
  Iff.rfl

theorem says_ask_bind_iff {question : Query} {f : question.Answer → Bridge β} :
    (Bridge.ask question .pure >>= f).Says talk result ↔
      ∃ answer rest, talk = ⟨question, answer⟩ :: rest ∧ (f answer).Says rest result :=
  Iff.rfl

theorem says_bind_iff {p : Bridge α} {f : α → Bridge β} :
    (p >>= f).Says talk result ↔
      ∃ front back middle, talk = front ++ back ∧ p.Says front middle ∧
        (f middle).Says back result := by
  change (p.bind f).Says talk result ↔ _
  induction p generalizing talk with
  | pure a =>
      constructor
      · intro h
        exact ⟨[], talk, a, rfl, ⟨rfl, rfl⟩, h⟩
      · rintro ⟨front, back, middle, rfl, ⟨rfl, rfl⟩, h⟩
        exact h
  | read next ih =>
      constructor
      · rintro ⟨w, h⟩
        obtain ⟨front, back, middle, htalk, hfront, hback⟩ := (ih w).mp h
        exact ⟨front, back, middle, htalk, ⟨w, hfront⟩, hback⟩
      · rintro ⟨front, back, middle, htalk, ⟨w, hfront⟩, hback⟩
        exact ⟨w, (ih w).mpr ⟨front, back, middle, htalk, hfront, hback⟩⟩
  | write v next ih => exact ih
  | emit event next ih => exact ih
  | ask question next ih =>
      constructor
      · rintro ⟨answer, rest, rfl, h⟩
        obtain ⟨front, back, middle, rfl, hfront, hback⟩ := (ih answer).mp h
        exact ⟨⟨question, answer⟩ :: front, back, middle, rfl, ⟨answer, front, rfl, hfront⟩, hback⟩
      · rintro ⟨_, back, middle, rfl, ⟨answer, front, rfl, hfront⟩, hback⟩
        exact ⟨answer, front ++ back, rfl,
          (ih answer).mpr ⟨front, back, middle, rfl, hfront, hback⟩⟩

end Steps

end Bridge
end ForeignNamespace

/-!
Positions in a text, counted in UTF-8 bytes.

A cut takes whole characters only: `take n` is the longest front part that fits in `n` bytes and
`drop n` is what it leaves.  At the end of a front part both cuts are exact
(`take_length_append`, `drop_length_append`).
-/

namespace ForeignNamespace.Utf8

def length : List Char → Nat
  | [] => 0
  | c :: cs => c.utf8Size + length cs

/-- The longest front part that fits in the given number of bytes. -/
def take : Nat → List Char → List Char
  | _, [] => []
  | n, c :: cs => if c.utf8Size ≤ n then c :: take (n - c.utf8Size) cs else []

def drop : Nat → List Char → List Char
  | _, [] => []
  | n, c :: cs => if c.utf8Size ≤ n then drop (n - c.utf8Size) cs else c :: cs

/-- The text from one byte position up to another. -/
def slice (start stop : Nat) (text : List Char) : List Char :=
  take (stop - start) (drop start text)

@[simp] theorem length_append (a b : List Char) : length (a ++ b) = length a + length b := by
  induction a with
  | nil => simp [length]
  | cons c cs ih => simp [length, ih, Nat.add_assoc]

@[simp] theorem take_zero (text : List Char) : take 0 text = [] := by
  cases text with
  | nil => rfl
  | cons c cs => simp [take, Nat.ne_of_gt c.utf8Size_pos]

@[simp] theorem drop_zero (text : List Char) : drop 0 text = text := by
  cases text with
  | nil => rfl
  | cons c cs => simp [drop, Nat.ne_of_gt c.utf8Size_pos]

/-- At the end of a front part the cut takes exactly that part. -/
theorem take_length_append (a b : List Char) : take (length a) (a ++ b) = a := by
  induction a with
  | nil => simp [length]
  | cons c cs ih => simp [length, take, ih]

/-- At the end of a front part the cut leaves exactly the rest. -/
theorem drop_length_append (a b : List Char) : drop (length a) (a ++ b) = b := by
  induction a with
  | nil => simp [length]
  | cons c cs ih => simp [length, drop, ih]

end ForeignNamespace.Utf8

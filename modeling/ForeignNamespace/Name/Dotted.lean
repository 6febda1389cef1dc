import ForeignNamespace.Text.Layout
import ForeignNamespace.Text.Quoted
import ForeignNamespace.Text.Utf8

/-!
Dotted names.

A dotted name keeps its text and the byte positions of its separators, so every segment and every
prefix is a slice of the text.  No segment is empty.
-/

namespace ForeignNamespace

structure DottedName where
  fullName : String
  /-- The byte positions of the separators, ascending. -/
  dots : List Nat
deriving DecidableEq, Repr

namespace DottedName

/-- The byte positions of the dots of a text whose first byte has the given position. -/
def dotsFrom : Nat → List Char → List Nat
  | _, [] => []
  | position, c :: cs =>
    if c = '.' then position :: dotsFrom (position + c.utf8Size) cs
    else dotsFrom (position + c.utf8Size) cs

/-- Whether each of the given ends lies behind the start of its segment, where a segment starts
one byte behind the end of the one before. -/
def allSegmentsFilled : Nat → List Nat → Bool
  | _, [] => true
  | start, stop :: stops => stop != start && allSegmentsFilled (stop + 1) stops

/-- Reads a dotted name; the empty text and a text with an empty segment are none. -/
def parse (text : String) : Option DottedName :=
  let dots := dotsFrom 0 text.toList
  if allSegmentsFilled 0 (dots ++ [Utf8.length text.toList]) then some ⟨text, dots⟩ else none

def depth (name : DottedName) : Nat := name.dots.length + 1

def isSimple (name : DottedName) : Bool := name.dots.isEmpty

def upTo (name : DottedName) (position : Nat) : String :=
  String.ofList (Utf8.take position name.fullName.toList)

/-- The first segments, joined; no segment gives the empty text, and a count beyond the depth
gives the whole name. -/
def firstSegments (name : DottedName) (count : Nat) : String :=
  if count = 0 then ""
  else match name.dots[count - 1]? with
    | some position => name.upTo position
    | none => name.fullName

/-- The segment at an index below the depth. -/
def segment? (name : DottedName) (index : Nat) : Option String :=
  if index < name.depth then
    let start := if index = 0 then 0 else name.dots.getD (index - 1) 0 + 1
    let stop := name.dots.getD index (Utf8.length name.fullName.toList)
    some (String.ofList (Utf8.slice start stop name.fullName.toList))
  else none

/-- The proper prefixes, the shortest first. -/
def ancestors (name : DottedName) : List String :=
  name.dots.map name.upTo

def text (name : DottedName) : String :=
  Layout.record "DottedName"
    [("full_name", Quoted.quote name.fullName), ("dots", Layout.list (name.dots.map toString))]

end ForeignNamespace.DottedName

import ForeignNamespace.Proofs.ByteSlices
import ForeignNamespace.Proofs.DottedSegments

namespace ForeignNamespace.DottedName

variable {text : String} {name : DottedName}

/-- Reads a dotted name by the positions of the dots among the bytes of its text. -/
def parseBytes (text : String) : Option DottedName :=
  let dots := (Utf8.bytes text).idxsOf '.'.toUInt8
  if allSegmentsFilled 0 (dots ++ [text.utf8ByteSize]) then some ⟨text, dots⟩ else none

theorem idxsOf_encode (position : Nat) (cs : List Char) :
    (cs.flatMap String.utf8EncodeChar).idxsOf '.'.toUInt8 position = dotsFrom position cs := by
  induction cs generalizing position with
  | nil => rfl
  | cons c cs ih =>
      rw [List.flatMap_cons, List.idxsOf_append, ih, String.length_utf8EncodeChar, dotsFrom]
      by_cases hc : c = '.'
      · subst hc
        rw [if_pos rfl]
        rfl
      · have hnone : (String.utf8EncodeChar c).idxsOf '.'.toUInt8 position = [] := by
          refine List.idxsOf_eq_nil_iff.mpr fun b hb => beq_false_of_ne ?_
          rintro rfl
          exact Utf8.dot_not_mem_encode hc hb
        rw [if_neg hc, hnone, List.nil_append]

theorem parseBytes_eq (text : String) : parseBytes text = parse text := by
  rw [parseBytes, parse, Utf8.bytes, idxsOf_encode, Utf8.length_toList]

/-- The first segments, joined, as a slice of the name. -/
def slicedFront? (name : DottedName) (count : Nat) : Option String :=
  if count = 0 then some ""
  else if name.depth ≤ count then some name.fullName
  else do
    let stop ← name.dots[count - 1]?
    Utf8.slice? 0 stop name.fullName

/-- Where the segment at an index starts; beyond the last segment there is no dot in front. -/
def startOf? (name : DottedName) (index : Nat) : Option Nat :=
  if index = 0 then some 0 else (name.dots[index - 1]?).map (· + 1)

/-- The segment at an index, as a slice of the name. -/
def slicedSegment? (name : DottedName) (index : Nat) : Option String := do
  let start ← name.startOf? index
  Utf8.slice? start (name.dots.getD index name.fullName.utf8ByteSize) name.fullName

/-- The proper prefixes, as slices of the name. -/
def slicedAncestors? (name : DottedName) : Option (List String) :=
  name.dots.mapM fun stop => Utf8.slice? 0 stop name.fullName

theorem exists_of_mem_dotsFrom {position dot : Nat} {cs : List Char}
    (h : dot ∈ dotsFrom position cs) :
    ∃ front back, cs = front ++ '.' :: back ∧ dot = position + Utf8.length front := by
  induction cs generalizing position with
  | nil => cases h
  | cons c cs ih =>
      rw [dotsFrom] at h
      have hrest (hmem : dot ∈ dotsFrom (position + c.utf8Size) cs) :
          ∃ front back, c :: cs = front ++ '.' :: back ∧ dot = position + Utf8.length front := by
        obtain ⟨front, back, rfl, rfl⟩ := ih hmem
        exact ⟨c :: front, back, rfl, by rw [Utf8.length, Nat.add_assoc]⟩
      split at h
      · rename_i hc
        rcases List.mem_cons.mp h with rfl | hmem
        · exact ⟨[], cs, by rw [hc, List.nil_append], rfl⟩
        · exact hrest hmem
      · exact hrest h

/-- In front of a dot there is a slice. -/
theorem slice?_of_mem_dots (h : parse text = some name) {dot : Nat} (hdot : dot ∈ name.dots) :
    Utf8.slice? 0 dot name.fullName = some (name.upTo dot) := by
  obtain ⟨-, rfl⟩ := parse_eq_some_iff.mp h
  obtain ⟨front, back, htext, rfl⟩ := exists_of_mem_dotsFrom hdot
  have hslice := Utf8.slice?_ofList [] front ('.' :: back)
  rw [List.nil_append, ← htext, String.ofList_toList] at hslice
  rw [upTo, Nat.zero_add, htext, Utf8.take_length_append, ← hslice, Utf8.length, Nat.zero_add]

theorem slicedFront?_eq (h : parse text = some name) (count : Nat) :
    name.slicedFront? count = some (name.firstSegments count) := by
  rw [slicedFront?]
  cases count with
  | zero => rfl
  | succ k =>
      rw [if_neg (Nat.succ_ne_zero k), Nat.add_sub_cancel]
      rcases Nat.lt_or_ge k name.dots.length with hlt | hge
      · have hdepth : ¬name.depth ≤ k + 1 := Nat.not_le_of_lt (Nat.succ_lt_succ hlt)
        rw [if_neg hdepth, List.getElem?_eq_getElem hlt, firstSegments_of_lt hlt]
        exact slice?_of_mem_dots h (List.getElem_mem hlt)
      · have hdepth : name.depth ≤ k + 1 := Nat.succ_le_succ hge
        rw [if_pos hdepth, firstSegments_of_le hdepth]

theorem startOf?_of_lt {index : Nat} (h : index < name.depth) :
    name.startOf? index =
      some (if index = 0 then 0 else name.dots.getD (index - 1) 0 + 1) := by
  rw [startOf?]
  by_cases hzero : index = 0
  · rw [if_pos hzero, if_pos hzero]
  · have hlt : index - 1 < name.dots.length := by
      rw [depth] at h
      omega
    rw [if_neg hzero, if_neg hzero, List.getD_eq_getElem?_getD, List.getElem?_eq_getElem hlt]
    rfl

theorem startOf?_of_le {index : Nat} (h : name.depth ≤ index) : name.startOf? index = none := by
  rw [depth] at h
  rw [startOf?, if_neg (Nat.ne_zero_of_lt h), List.getElem?_eq_none (by omega), Option.map_none]

theorem slicedSegment?_eq (h : parse text = some name) (index : Nat) :
    name.slicedSegment? index = name.segment? index := by
  rcases Nat.lt_or_ge index name.depth with hlt | hge
  · obtain ⟨front, piece, tail, htext, hpiece, hstart, hstop⟩ := place_of_segment h hlt
    have hslice := Utf8.slice?_ofList front piece tail
    rw [← htext, String.ofList_toList] at hslice
    rw [Utf8.length_toList] at hstop
    rw [slicedSegment?, startOf?_of_lt hlt, hstart, segment_of_parse h, hpiece,
      fullName_of_parse h, hstop]
    exact hslice
  · rw [slicedSegment?, startOf?_of_le hge, segment?, if_neg (Nat.not_lt_of_le hge)]
    rfl

theorem mapM_eq_some_map {f : Nat → Option String} {g : Nat → String} {dots : List Nat}
    (h : ∀ dot ∈ dots, f dot = some (g dot)) : dots.mapM f = some (dots.map g) := by
  induction dots with
  | nil => rfl
  | cons dot dots ih =>
      have hrest := ih fun other hother => h other (List.mem_cons_of_mem _ hother)
      rw [List.mapM_cons, h dot List.mem_cons_self, hrest]
      rfl

theorem slicedAncestors?_eq (h : parse text = some name) :
    name.slicedAncestors? = some name.ancestors :=
  mapM_eq_some_map fun _ hdot => slice?_of_mem_dots h hdot

theorem intercalate_segments (text : String) : ".".intercalate (segments text) = text := by
  have hpieces : (segments text).map String.toList = text.toList.splitOn '.' := by
    rw [segments, List.map_map]
    exact List.map_id'' (fun _ => String.toList_ofList) _
  have hdot : ".".toList = ['.'] := rfl
  rw [← String.toList_inj, String.toList_intercalate, hpieces, hdot, List.intercalate_splitOn]

theorem filterMap_getElem_range {α : Type} (items : List α) :
    (List.range items.length).filterMap (fun k => items[k]?) = items := by
  induction items with
  | nil => rfl
  | cons item items ih =>
      rw [List.length_cons, List.range_succ_eq_map, List.filterMap_cons, List.filterMap_map]
      exact congrArg (item :: ·) ih

theorem filterMap_segment (h : parse text = some name) :
    (List.range name.depth).filterMap name.segment? = segments text := by
  have hsegment : name.segment? = fun k => (segments text)[k]? := funext (segment_of_parse h)
  rw [depth_of_parse h, hsegment, filterMap_getElem_range]

theorem firstSegments_eq (h : parse text = some name) (count : Nat) :
    name.firstSegments count = ".".intercalate ((segments text).take (min count name.depth)) := by
  rcases Nat.le_total name.depth count with hbeyond | hwithin
  · rw [Nat.min_eq_right hbeyond, depth_of_parse h, List.take_length, intercalate_segments,
      firstSegments_of_le hbeyond, fullName_of_parse h]
  · rw [Nat.min_eq_left hwithin]
    cases count with
    | zero => rfl
    | succ k =>
        have hfront := firstSegments_of_parse h hwithin
        rw [List.getElem?_cons_succ] at hfront
        rw [← segments_getElem_prefixes (filled_of_parse h) hfront, intercalate_segments]

theorem ancestors_eq (name : DottedName) :
    name.ancestors = (List.range' 1 (name.depth - 1)).map name.firstSegments := by
  have hlength : name.ancestors.length = name.depth - 1 := List.length_map _
  refine List.ext_getElem (by simp [hlength]) fun k hk _ => ?_
  have hk' : k < name.dots.length := hk.trans_eq hlength
  rw [List.getElem_map, List.getElem_range', Nat.one_mul, Nat.add_comm, firstSegments_of_lt hk']
  exact List.getElem_map _

/-- Whether a name answers every question as the list of the pieces of a text does, and finds all of
its slices between the ends of characters. -/
structure ListsPieces (name : DottedName) (text : String) : Prop where
  text_ne_empty : text ≠ ""
  fullName : name.fullName = text
  depth : name.depth = (segments text).length
  isSimple : name.isSimple = true ↔ name.depth = 1
  segment : ∀ k (h : k < (segments text).length), name.segment? k = some (segments text)[k]
  segment_beyond : ∀ k, name.depth ≤ k → name.segment? k = none
  firstSegments : ∀ k,
    name.firstSegments k = ".".intercalate ((segments text).take (min k name.depth))
  ancestors : name.ancestors = (List.range' 1 (name.depth - 1)).map name.firstSegments
  joined : ".".intercalate ((List.range name.depth).filterMap name.segment?) = text
  -- A slice that is asked for is there, so both of its positions are ends of characters.
  slicedFront : ∀ k, name.slicedFront? k = some (name.firstSegments k)
  slicedSegment : ∀ k, name.slicedSegment? k = name.segment? k
  slicedAncestors : name.slicedAncestors? = some name.ancestors

theorem listsPieces_of_parse (h : parse text = some name) : name.ListsPieces text where
  text_ne_empty := by
    rintro rfl
    exact filled_of_parse h (by decide)
  fullName := fullName_of_parse h
  depth := depth_of_parse h
  isSimple := isSimple_iff
  segment := fun k hk => (segment_of_parse h k).trans (List.getElem?_eq_getElem hk)
  segment_beyond := fun k hk => if_neg (Nat.not_lt_of_le hk)
  firstSegments := firstSegments_eq h
  ancestors := ancestors_eq name
  joined := by rw [filterMap_segment h, intercalate_segments]
  slicedFront := slicedFront?_eq h
  slicedSegment := slicedSegment?_eq h
  slicedAncestors := slicedAncestors?_eq h

/-- A text is a dotted name if and only if none of its pieces is empty, whether its characters are
read or its bytes; the name then answers as the list of the pieces, and it tells the text. -/
theorem parse_lists_segments (text : String) :
    ((parse text).isSome = true ↔ ∀ piece ∈ segments text, piece ≠ "") ∧
      parseBytes text = parse text ∧
      ∀ name, parse text = some name → name.ListsPieces text ∧
        ∀ text' name', parse text' = some name' → (name = name' ↔ text = text') := by
  have hfilled : "" ∉ segments text ↔ ∀ piece ∈ segments text, piece ≠ "" :=
    ⟨fun hnot _ hmem heq => hnot (heq ▸ hmem), fun hall hmem => hall _ hmem rfl⟩
  refine ⟨isSome_parse_iff.trans hfilled, parseBytes_eq text, fun name h => ?_⟩
  refine ⟨listsPieces_of_parse h, fun text' name' h' => ⟨?_, ?_⟩⟩
  · rintro rfl
    rw [← fullName_of_parse h, fullName_of_parse h']
  · rintro rfl
    exact Option.some.inj (h.symm.trans h')

theorem parse_lists_segments_accented :
    parse "größe.é.b" = some ⟨"größe.é.b", [7, 10]⟩ ∧ parse "größe..b" = none ∧
      ListsPieces ⟨"größe.é.b", [7, 10]⟩ "größe.é.b" ∧
      segment? ⟨"größe.é.b", [7, 10]⟩ 1 = some "é" ∧
      segment? ⟨"größe.é.b", [7, 10]⟩ 3 = none ∧
      firstSegments ⟨"größe.é.b", [7, 10]⟩ 2 = "größe.é" ∧
      (⟨"größe.é.b", [7, 10]⟩ : DottedName) ≠ ⟨"b", []⟩ := by
  have hparse : parse "größe.é.b" = some ⟨"größe.é.b", [7, 10]⟩ := by decide
  obtain ⟨hlists, htells⟩ := (parse_lists_segments "größe.é.b").2.2 _ hparse
  refine ⟨hparse, by decide, hlists, ?_, ?_, ?_, ?_⟩
  · exact hlists.segment 1 (by decide)
  · exact hlists.segment_beyond 3 (by decide)
  · exact hlists.firstSegments 2
  · exact mt (htells "b" _ (by decide)).mp (by decide)

end ForeignNamespace.DottedName

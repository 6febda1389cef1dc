import ForeignNamespace.Name.Dotted
import ForeignNamespace.Name.Path

/-!
Dotted names by their segments.

A reader of a dotted name works with byte positions.  Here the positions are traced back to the
pieces that the text falls into at its dots, and the prefixes to paths through packages.
-/

namespace ForeignNamespace

def segments (text : String) : List String := (text.toList.splitOn '.').map String.ofList

/-- The names met on the way down from a package. -/
def pathFrom (parent : String) : List String → List String
  | [] => []
  | segment :: rest => childName parent segment :: pathFrom (childName parent segment) rest

/-- The prefixes of a text that end before a dot or at its end, the shortest first. -/
def prefixes (text : String) : List String := pathFrom "" (segments text)

theorem not_mem_of_mem_splitOn {cs segment : List Char} (h : segment ∈ cs.splitOn '.') :
    '.' ∉ segment := by
  induction cs generalizing segment with
  | nil =>
      rw [List.splitOn_nil, List.mem_singleton] at h
      simp [h]
  | cons c cs ih =>
      rw [List.splitOn_cons_eq_if_modifyHead] at h
      split at h
      · rcases List.mem_cons.mp h with rfl | h
        · simp
        · exact ih h
      · rename_i hc
        obtain ⟨first, rest, hsplit⟩ := List.exists_cons_of_ne_nil (List.splitOn_ne_nil '.' cs)
        rw [hsplit, List.modifyHead_cons] at h
        rcases List.mem_cons.mp h with rfl | h
        · have hne : c ≠ '.' := by simpa using hc
          have hfirst : '.' ∉ first := ih (hsplit ▸ List.mem_cons_self)
          rw [List.mem_cons, not_or]
          exact ⟨hne.symm, hfirst⟩
        · exact ih (hsplit ▸ List.mem_cons_of_mem _ h)

theorem not_mem_of_mem_segments {text segment : String} (h : segment ∈ segments text) :
    '.' ∉ segment.toList := by
  obtain ⟨cs, hcs, rfl⟩ := List.mem_map.mp h
  rw [String.toList_ofList]
  exact not_mem_of_mem_splitOn hcs

theorem segments_ne_nil (text : String) : segments text ≠ [] := by
  simp [segments]

theorem segments_of_dotless {name : String} (h : '.' ∉ name.toList) : segments name = [name] := by
  rw [segments, List.splitOn_eq_singleton h, List.map_singleton, String.ofList_toList]

theorem segments_inj {name name' : String} (h : segments name = segments name') :
    name = name' := by
  have hofList : Function.Injective String.ofList := fun _ _ => String.ofList_inj.mp
  have hsplit := List.map_inj_right hofList |>.mp h
  have hjoin := congrArg (['.'].intercalate) hsplit
  rw [List.intercalate_splitOn, List.intercalate_splitOn] at hjoin
  exact String.toList_inj.mp hjoin

/-- The byte positions at which segments end, the first of which starts at the given position. -/
def segmentEnds : Nat → List (List Char) → List Nat
  | _, [] => []
  | start, segment :: rest =>
    (start + Utf8.length segment) :: segmentEnds (start + Utf8.length segment + 1) rest

theorem dotsFrom_append_length (position : Nat) (cs : List Char) :
    DottedName.dotsFrom position cs ++ [position + Utf8.length cs] =
      segmentEnds position (cs.splitOn '.') := by
  induction cs generalizing position with
  | nil => rfl
  | cons c cs ih =>
      rw [List.splitOn_cons_eq_if_modifyHead, DottedName.dotsFrom, Utf8.length]
      -- A dot ends the first segment; any other character makes it longer.
      by_cases hc : c = '.'
      · subst hc
        have hsize : '.'.utf8Size = 1 := rfl
        rw [if_pos rfl, if_pos (by rfl), segmentEnds, hsize, List.cons_append, ← Nat.add_assoc, ih]
        rfl
      · rw [if_neg hc, if_neg (by simpa using hc), ← Nat.add_assoc, ih]
        obtain ⟨first, rest, hsplit⟩ := List.exists_cons_of_ne_nil (List.splitOn_ne_nil '.' cs)
        rw [hsplit, List.modifyHead_cons, segmentEnds, segmentEnds, Utf8.length, Nat.add_assoc]

theorem length_pos_of_ne_nil {cs : List Char} (h : cs ≠ []) : 0 < Utf8.length cs := by
  obtain ⟨c, rest, rfl⟩ := List.exists_cons_of_ne_nil h
  have hsize := c.utf8Size_pos
  rw [Utf8.length]
  omega

theorem allSegmentsFilled_segmentEnds (start : Nat) (pieces : List (List Char)) :
    DottedName.allSegmentsFilled start (segmentEnds start pieces) = true ↔ [] ∉ pieces := by
  induction pieces generalizing start with
  | nil => simp [segmentEnds, DottedName.allSegmentsFilled]
  | cons segment rest ih =>
      rw [segmentEnds, DottedName.allSegmentsFilled, Bool.and_eq_true, ih, bne_iff_ne,
        List.mem_cons, not_or]
      refine and_congr_left fun _ => ?_
      cases segment with
      | nil => simp [Utf8.length]
      | cons c cs =>
          have hlength := length_pos_of_ne_nil (List.cons_ne_nil c cs)
          constructor
          · exact fun _ => (List.cons_ne_nil c cs).symm
          · intro _
            omega

namespace DottedName

variable {text : String} {name : DottedName}

/-- A text is a dotted name unless one of its segments is empty. -/
theorem parse_eq (text : String) :
    parse text = if "" ∈ segments text then none else some ⟨text, dotsFrom 0 text.toList⟩ := by
  have hends := dotsFrom_append_length 0 text.toList
  rw [Nat.zero_add] at hends
  have hempty : "" ∈ segments text ↔ [] ∈ text.toList.splitOn '.' := by
    simp [segments, ← String.toList_inj]
  rw [parse]
  simp only [hends, allSegmentsFilled_segmentEnds, hempty, ite_not]

theorem parse_eq_some_iff :
    parse text = some name ↔ "" ∉ segments text ∧ ⟨text, dotsFrom 0 text.toList⟩ = name := by
  rw [parse_eq]
  split
  · rename_i hempty
    exact ⟨nofun, fun h => absurd hempty h.1⟩
  · rename_i hfilled
    rw [Option.some_inj, and_iff_right hfilled]

theorem filled_of_parse (h : parse text = some name) : "" ∉ segments text :=
  (parse_eq_some_iff.mp h).1

theorem isSome_parse_iff : (parse text).isSome = true ↔ "" ∉ segments text := by
  rw [Option.isSome_iff_exists]
  constructor
  · rintro ⟨name, h⟩
    exact filled_of_parse h
  · intro hfilled
    exact ⟨_, parse_eq_some_iff.mpr ⟨hfilled, rfl⟩⟩

theorem fullName_of_parse (h : parse text = some name) : name.fullName = text := by
  rw [← (parse_eq_some_iff.mp h).2]

end DottedName

theorem cutLastDot_eq_none {cs : List Char} (h : '.' ∉ cs) : cutLastDot cs = none := by
  induction cs with
  | nil => rfl
  | cons c cs ih =>
      rw [List.mem_cons, not_or] at h
      simp only [cutLastDot, ih h.2, if_neg (Ne.symm h.1)]

theorem cutLastDot_append (before : List Char) {behind : List Char} (h : '.' ∉ behind) :
    cutLastDot (before ++ '.' :: behind) = some (before, behind) := by
  induction before with
  | nil => simp only [List.nil_append, cutLastDot, cutLastDot_eq_none h, if_true]
  | cons c cs ih => simp only [List.cons_append, cutLastDot, ih]

theorem eq_append_of_cutLastDot {cs before behind : List Char}
    (h : cutLastDot cs = some (before, behind)) : cs = before ++ '.' :: behind := by
  induction cs generalizing before with
  | nil => cases h
  | cons c cs ih =>
      simp only [cutLastDot] at h
      cases hcut : cutLastDot cs with
      | some cut =>
          rw [hcut] at h
          obtain ⟨rfl, rfl⟩ := Prod.mk.inj (Option.some.inj h)
          rw [List.cons_append, ← ih hcut]
      | none =>
          rw [hcut] at h
          by_cases hc : c = '.'
          · obtain ⟨rfl, rfl⟩ := Prod.mk.inj (Option.some.inj ((if_pos hc).symm.trans h))
            rw [hc, List.nil_append]
          · cases (if_neg hc).symm.trans h

/-- What lies behind the last dot has none. -/
theorem dotless_behind_cutLastDot (cs : List Char) :
    '.' ∉ match cutLastDot cs with
      | some (_, behind) => behind
      | none => cs := by
  induction cs with
  | nil => simp [cutLastDot]
  | cons c cs ih =>
      simp only [cutLastDot]
      cases hcut : cutLastDot cs with
      | some cut =>
          rw [hcut] at ih
          exact ih
      | none =>
          rw [hcut] at ih
          by_cases hc : c = '.'
          · simpa only [hc, if_true] using ih
          · simp only [hc, if_false, List.mem_cons, not_or]
            exact ⟨Ne.symm hc, ih⟩

theorem dotless_leafName (name : String) : '.' ∉ (leafName name).toList := by
  have hdotless := dotless_behind_cutLastDot name.toList
  rw [leafName]
  cases hcut : cutLastDot name.toList with
  | some cut =>
      rw [hcut] at hdotless
      simpa using hdotless
  | none =>
      rw [hcut] at hdotless
      exact hdotless

/-- A name with a parent is told by its parent and its last segment. -/
theorem eq_of_parentPackage {name parent : String} (h : parentPackage? name = some parent) :
    name = parent ++ "." ++ leafName name := by
  obtain ⟨⟨before, behind⟩, hcut, rfl⟩ := Option.map_eq_some_iff.mp h
  rw [← String.toList_inj, leafName, hcut]
  simpa using eq_append_of_cutLastDot hcut

theorem parent_ne_self {name parent : String} (h : parentPackage? name = some parent) :
    parent ≠ name := by
  intro heq
  have hname := congrArg String.length (eq_of_parentPackage h)
  rw [String.length_append, String.length_append, heq] at hname
  have hdot : ".".length = 1 := rfl
  omega

section Children

variable {parent child : String}

@[simp] theorem childName_empty (child : String) : childName "" child = child := rfl

theorem childName_of_ne (h : parent ≠ "") (child : String) :
    childName parent child = parent ++ "." ++ child :=
  if_neg h

theorem toList_childName (h : parent ≠ "") (child : String) :
    (childName parent child).toList = parent.toList ++ '.' :: child.toList := by
  simp [childName_of_ne h]

theorem childName_ne_empty (h : child ≠ "") : childName parent child ≠ "" := by
  by_cases hparent : parent = ""
  · rw [hparent, childName_empty]
    exact h
  · rw [Ne, ← String.toList_inj, toList_childName hparent]
    simp

theorem parentPackage_of_not_mem (h : '.' ∉ child.toList) : parentPackage? child = none := by
  rw [parentPackage?, cutLastDot_eq_none h, Option.map_none]

theorem parentPackage_childName (hparent : parent ≠ "") (hchild : '.' ∉ child.toList) :
    parentPackage? (childName parent child) = some parent := by
  rw [parentPackage?, toList_childName hparent, cutLastDot_append _ hchild, Option.map_some,
    String.ofList_toList]

theorem leafName_childName (hchild : '.' ∉ child.toList) :
    leafName (childName parent child) = child := by
  by_cases hparent : parent = ""
  · rw [hparent, childName_empty, leafName, cutLastDot_eq_none hchild]
  · rw [leafName, toList_childName hparent, cutLastDot_append _ hchild]
    exact String.ofList_toList

theorem childName_right_inj {child' : String} :
    childName parent child = childName parent child' ↔ child = child' := by
  rw [← String.toList_inj]
  by_cases hparent : parent = ""
  · simp [hparent, String.toList_inj]
  · simp [toList_childName hparent, String.toList_inj]

/-- A name tells the package that it is in and its own segment. -/
theorem childName_inj {parent' child' : String} (hchild : '.' ∉ child.toList)
    (hchild' : '.' ∉ child'.toList) (h : childName parent child = childName parent' child') :
    parent = parent' ∧ child = child' := by
  have hleaf : child = child' := by
    rw [← leafName_childName hchild, h, leafName_childName hchild']
  have henclosing := congrArg parentPackage? h
  refine ⟨?_, hleaf⟩
  by_cases hparent : parent = "" <;> by_cases hparent' : parent' = ""
  · rw [hparent, hparent']
  · rw [hparent, childName_empty, parentPackage_of_not_mem hchild,
      parentPackage_childName hparent' hchild'] at henclosing
    cases henclosing
  · rw [hparent', childName_empty, parentPackage_of_not_mem hchild',
      parentPackage_childName hparent hchild] at henclosing
    cases henclosing
  · rw [parentPackage_childName hparent hchild,
      parentPackage_childName hparent' hchild'] at henclosing
    exact Option.some.inj henclosing

end Children

/-- The names on the way down get longer and longer. -/
theorem length_lt_of_mem_pathFrom {parent name : String} {names : List String}
    (filled : "" ∉ names) (h : name ∈ pathFrom parent names) : parent.length < name.length := by
  induction names generalizing parent with
  | nil => exact absurd h List.not_mem_nil
  | cons segment rest ih =>
      rw [List.mem_cons, not_or] at filled
      have hchild : parent.length < (childName parent segment).length := by
        by_cases hparent : parent = ""
        · rw [hparent, childName_empty, String.length_empty]
          exact Nat.pos_of_ne_zero fun h => filled.1 (String.length_eq_zero_iff.mp h).symm
        · rw [childName_of_ne hparent, String.length_append, String.length_append]
          have hdot : ".".length = 1 := rfl
          omega
      rcases List.mem_cons.mp h with rfl | h
      · exact hchild
      · exact Nat.lt_trans hchild (ih filled.2 h)

theorem not_mem_pathFrom {parent : String} {names : List String} (filled : "" ∉ names) :
    parent ∉ pathFrom parent names := by
  intro hmem
  have hlt := length_lt_of_mem_pathFrom filled hmem
  omega

theorem nodup_pathFrom (parent : String) {names : List String} (filled : "" ∉ names) :
    (pathFrom parent names).Nodup := by
  induction names generalizing parent with
  | nil => exact List.nodup_nil
  | cons segment rest ih =>
      rw [List.mem_cons, not_or] at filled
      exact List.nodup_cons.mpr ⟨not_mem_pathFrom filled.2, ih _ filled.2⟩

/-- The parent of a name on the way down comes before it, or the way starts there. -/
theorem parentPackage_of_pathFrom {parent : String} {names front back : List String}
    {name enclosing : String} (dotless : ∀ segment ∈ names, '.' ∉ segment.toList)
    (h : pathFrom parent names = front ++ name :: back)
    (henclosing : parentPackage? name = some enclosing) :
    enclosing ∈ front ∨ enclosing = parent ∧ parent ≠ "" := by
  induction names generalizing parent front with
  | nil => simp [pathFrom] at h
  | cons segment rest ih =>
      have hsegment := dotless segment List.mem_cons_self
      rw [pathFrom] at h
      cases front with
      | nil =>
          obtain ⟨rfl, -⟩ := List.cons.inj h
          by_cases hparent : parent = ""
          · rw [hparent, childName_empty, parentPackage_of_not_mem hsegment] at henclosing
            cases henclosing
          · rw [parentPackage_childName hparent hsegment] at henclosing
            exact .inr ⟨(Option.some.inj henclosing).symm, hparent⟩
      | cons first front =>
          obtain ⟨rfl, htail⟩ := List.cons.inj h
          have hrest := fun s hs => dotless s (List.mem_cons_of_mem _ hs)
          rcases ih hrest htail with hmem | ⟨rfl, -⟩
          · exact .inl (List.mem_cons_of_mem _ hmem)
          · exact .inl List.mem_cons_self

/-- The text of a package's name with pieces behind it. -/
def textBehind (parent : String) (pieces : List (List Char)) : List Char :=
  parent.toList ++ '.' :: ['.'].intercalate pieces

theorem textBehind_singleton {parent : String} (hparent : parent ≠ "") (piece : List Char) :
    textBehind parent [piece] = (childName parent (String.ofList piece)).toList := by
  rw [textBehind, List.intercalate_singleton, toList_childName hparent, String.toList_ofList]

theorem textBehind_cons_cons {parent : String} (hparent : parent ≠ "") (piece next : List Char)
    (rest : List (List Char)) :
    textBehind parent (piece :: next :: rest) =
      textBehind (childName parent (String.ofList piece)) (next :: rest) := by
  rw [textBehind, List.intercalate_cons_cons, textBehind, toList_childName hparent,
    String.toList_ofList]
  simp

theorem take_length (cs : List Char) : Utf8.take (Utf8.length cs) cs = cs := by
  have htake := Utf8.take_length_append cs []
  rwa [List.append_nil] at htake

/-- The cuts of such a text at the ends of the pieces. -/
theorem map_take_textBehind {parent : String} (hparent : parent ≠ "")
    (pieces : List (List Char)) :
    (segmentEnds (Utf8.length parent.toList + 1) pieces).map (fun position =>
        String.ofList (Utf8.take position (textBehind parent pieces))) =
      pathFrom parent (pieces.map String.ofList) := by
  induction pieces generalizing parent with
  | nil => rfl
  | cons piece rest ih =>
      have hend : Utf8.length parent.toList + 1 + Utf8.length piece =
          Utf8.length (childName parent (String.ofList piece)).toList := by
        have hsize : '.'.utf8Size = 1 := rfl
        rw [toList_childName hparent, String.toList_ofList, Utf8.length_append, Utf8.length, hsize,
          Nat.add_assoc]
      rw [segmentEnds, hend, List.map_cons, List.map_cons, pathFrom]
      cases rest with
      | nil =>
          rw [textBehind_singleton hparent, take_length, String.ofList_toList]
          rfl
      | cons next rest =>
          have hchild : childName parent (String.ofList piece) ≠ "" := by
            rw [Ne, ← String.toList_inj, toList_childName hparent]
            simp
          rw [textBehind_cons_cons hparent, ih hchild, textBehind, Utf8.take_length_append,
            String.ofList_toList]

/-- The cuts of a text at the ends of its segments. -/
theorem map_take_segmentEnds {text : String} (h : "" ∉ segments text) :
    (segmentEnds 0 (text.toList.splitOn '.')).map (fun position =>
        String.ofList (Utf8.take position text.toList)) = prefixes text := by
  obtain ⟨piece, rest, hsplit⟩ := List.exists_cons_of_ne_nil (List.splitOn_ne_nil '.' text.toList)
  have htext : text.toList = ['.'].intercalate (piece :: rest) := by
    rw [← hsplit, List.intercalate_splitOn]
  have hpiece : String.ofList piece ≠ "" := by
    intro hpiece
    refine h ?_
    rw [segments, hsplit, List.map_cons, hpiece]
    exact List.mem_cons_self
  rw [prefixes, segments, hsplit, List.map_cons, pathFrom, childName_empty, segmentEnds,
    Nat.zero_add, List.map_cons, htext]
  cases rest with
  | nil =>
      rw [List.intercalate_singleton, take_length]
      rfl
  | cons next rest =>
      have hbehind : ['.'].intercalate (piece :: next :: rest) =
          textBehind (String.ofList piece) (next :: rest) := by
        rw [List.intercalate_cons_cons, textBehind, String.toList_ofList]
        simp
      have hends := map_take_textBehind hpiece (next :: rest)
      rw [String.toList_ofList] at hends
      rw [hbehind, hends, textBehind, String.toList_ofList, Utf8.take_length_append]

theorem ancestors_append_fullName {text : String} {name : DottedName}
    (h : DottedName.parse text = some name) :
    name.ancestors ++ [name.fullName] = prefixes text := by
  obtain ⟨hfilled, rfl⟩ := DottedName.parse_eq_some_iff.mp h
  have hends := dotsFrom_append_length 0 text.toList
  rw [Nat.zero_add] at hends
  rw [← map_take_segmentEnds hfilled, ← hends, List.map_append, List.map_singleton, take_length,
    String.ofList_toList]
  rfl

section Name

variable {name : DottedName} {k : Nat}

theorem isSimple_iff : name.isSimple = true ↔ name.depth = 1 := by
  rw [DottedName.isSimple, List.isEmpty_iff_length_eq_zero, DottedName.depth, Nat.succ_inj]

theorem firstSegments_of_lt (hk : k < name.dots.length) :
    name.firstSegments (k + 1) = name.upTo name.dots[k] := by
  rw [DottedName.firstSegments, if_neg (Nat.succ_ne_zero k), Nat.add_sub_cancel,
    List.getElem?_eq_getElem hk]

theorem firstSegments_of_le (hk : name.depth ≤ k) : name.firstSegments k = name.fullName := by
  rw [DottedName.depth] at hk
  rw [DottedName.firstSegments, if_neg (Nat.ne_zero_of_lt hk), List.getElem?_eq_none (by omega)]

end Name

theorem length_segmentEnds (start : Nat) (pieces : List (List Char)) :
    (segmentEnds start pieces).length = pieces.length := by
  induction pieces generalizing start with
  | nil => rfl
  | cons piece rest ih => rw [segmentEnds, List.length_cons, List.length_cons, ih]

/-- Pieces, each with the dot behind it. -/
def dotted (pieces : List (List Char)) : List Char := pieces.flatMap (· ++ ['.'])

theorem intercalate_append_cons (before : List (List Char)) (piece : List Char)
    (rest : List (List Char)) :
    ∃ tail, ['.'].intercalate (before ++ piece :: rest) = dotted before ++ (piece ++ tail) := by
  induction before with
  | nil =>
      cases rest with
      | nil => exact ⟨[], by simp [dotted]⟩
      | cons next rest => exact ⟨['.'] ++ ['.'].intercalate (next :: rest), by simp [dotted]⟩
  | cons first before ih =>
      obtain ⟨tail, htail⟩ := ih
      refine ⟨tail, ?_⟩
      cases before with
      | nil =>
          rw [List.nil_append] at htail
          rw [List.singleton_append, List.intercalate_cons_cons, htail]
          simp [dotted]
      | cons second before =>
          rw [List.cons_append] at htail
          rw [List.cons_append, List.cons_append, List.intercalate_cons_cons, htail]
          simp [dotted]

theorem segmentEnds_append_cons (start : Nat) (before : List (List Char)) (piece : List Char)
    (rest : List (List Char)) :
    (segmentEnds start (before ++ piece :: rest))[before.length]? =
      some (start + Utf8.length (dotted before) + Utf8.length piece) := by
  induction before generalizing start with
  | nil => rfl
  | cons first before ih =>
      have hsize : '.'.utf8Size = 1 := rfl
      rw [List.cons_append, segmentEnds, List.length_cons, List.getElem?_cons_succ, ih, dotted,
        dotted, List.flatMap_cons, Utf8.length_append, Utf8.length_append]
      simp only [Utf8.length, hsize]
      congr 1
      omega

theorem getD_append_singleton (positions : List Nat) (k last : Nat) :
    positions.getD k last = (positions ++ [last]).getD k last := by
  rw [List.getD_eq_getElem?_getD, List.getD_eq_getElem?_getD, List.getElem?_append]
  split
  · rfl
  · rename_i hk
    rw [List.getElem?_eq_none (Nat.le_of_not_lt hk)]
    cases k - positions.length with
    | zero => rfl
    | succ _ => rfl

section Parsed

variable {text : String} {name : DottedName}

theorem dots_append_length (h : DottedName.parse text = some name) :
    name.dots ++ [Utf8.length text.toList] = segmentEnds 0 (text.toList.splitOn '.') := by
  obtain ⟨-, rfl⟩ := DottedName.parse_eq_some_iff.mp h
  have hends := dotsFrom_append_length 0 text.toList
  rwa [Nat.zero_add] at hends

theorem depth_of_parse (h : DottedName.parse text = some name) :
    name.depth = (segments text).length := by
  have hlength := congrArg List.length (dots_append_length h)
  rw [length_segmentEnds, List.length_append, List.length_singleton] at hlength
  rw [DottedName.depth, segments, List.length_map, hlength]

/-- A segment starts at the front of its text or behind the dot that ends the one before. -/
theorem start_of_segment (h : DottedName.parse text = some name) {before : List (List Char)}
    {piece : List Char} {rest : List (List Char)}
    (hpieces : text.toList.splitOn '.' = before ++ piece :: rest) :
    (if before.length = 0 then 0 else name.dots.getD (before.length - 1) 0 + 1) =
      Utf8.length (dotted before) := by
  have hends := dots_append_length h
  rcases List.eq_nil_or_concat before with rfl | ⟨front, last, rfl⟩
  · rfl
  · rw [List.concat_eq_append] at hpieces ⊢
    rw [List.append_assoc, List.singleton_append] at hpieces
    have hend := segmentEnds_append_cons 0 front last (piece :: rest)
    rw [← hpieces, ← hends] at hend
    have hlength := congrArg List.length hends
    rw [length_segmentEnds, hpieces] at hlength
    simp only [List.length_append, List.length_cons, List.length_nil] at hlength
    have hlt : front.length < name.dots.length := by omega
    rw [List.getElem?_append_left hlt, Nat.zero_add] at hend
    have hsize : '.'.utf8Size = 1 := rfl
    rw [List.length_append, List.length_singleton, if_neg (Nat.succ_ne_zero _),
      Nat.add_sub_cancel, List.getD_eq_getElem?_getD, hend, dotted, dotted, List.flatMap_append,
      List.flatMap_singleton]
    simp only [Option.getD_some, Utf8.length_append, Utf8.length, hsize, Nat.add_zero]
    omega

/-- Where the segment at an index lies in its text. -/
theorem place_of_segment (h : DottedName.parse text = some name) {k : Nat} (hk : k < name.depth) :
    ∃ front piece tail, text.toList = front ++ (piece ++ tail) ∧
      (segments text)[k]? = some (String.ofList piece) ∧
      (if k = 0 then 0 else name.dots.getD (k - 1) 0 + 1) = Utf8.length front ∧
      name.dots.getD k (Utf8.length text.toList) = Utf8.length front + Utf8.length piece := by
  have hk' : k < (text.toList.splitOn '.').length := by
    rwa [depth_of_parse h, segments, List.length_map] at hk
  obtain ⟨before, piece, rest, hpieces, rfl⟩ : ∃ before piece rest,
      text.toList.splitOn '.' = before ++ piece :: rest ∧ before.length = k :=
    ⟨_, _, _, (List.take_append_drop k _).symm.trans
      (congrArg _ (List.drop_eq_getElem_cons hk')), List.length_take_of_le (Nat.le_of_lt hk')⟩
  obtain ⟨tail, htail⟩ := intercalate_append_cons before piece rest
  rw [← hpieces, List.intercalate_splitOn] at htail
  refine ⟨dotted before, piece, tail, htail, ?_, start_of_segment h hpieces, ?_⟩
  · rw [segments, hpieces, List.map_append, List.map_cons, ← List.length_map String.ofList,
      List.getElem?_append_right (Nat.le_refl _), Nat.sub_self]
    rfl
  · rw [getD_append_singleton, dots_append_length h, hpieces, List.getD_eq_getElem?_getD,
      segmentEnds_append_cons, Option.getD_some, Nat.zero_add]

/-- The segment at an index is the piece there. -/
theorem segment_of_parse (h : DottedName.parse text = some name) (k : Nat) :
    name.segment? k = (segments text)[k]? := by
  rw [DottedName.segment?]
  by_cases hk : k < name.depth
  · obtain ⟨front, piece, tail, htext, hpiece, hstart, hstop⟩ := place_of_segment h hk
    rw [if_pos hk, hpiece, DottedName.fullName_of_parse h]
    simp only [hstart, hstop, Utf8.slice]
    rw [htext, Utf8.drop_length_append, Nat.add_sub_cancel_left, Utf8.take_length_append]
  · rw [if_neg hk, List.getElem?_eq_none]
    rw [← depth_of_parse h]
    exact Nat.le_of_not_lt hk

theorem segment_of_lt (h : DottedName.parse text = some name) {k : Nat} (hk : k < name.depth) :
    ∃ segment ∈ segments text, name.segment? k = some segment := by
  rw [depth_of_parse h] at hk
  exact ⟨_, List.getElem_mem hk, (segment_of_parse h k).trans (List.getElem?_eq_getElem hk)⟩

/-- The first segments of a name make up one of its prefixes. -/
theorem firstSegments_of_parse (h : DottedName.parse text = some name) {k : Nat}
    (hk : k ≤ name.depth) : ("" :: prefixes text)[k]? = some (name.firstSegments k) := by
  cases k with
  | zero => rfl
  | succ k =>
      rw [List.getElem?_cons_succ, ← ancestors_append_fullName h, DottedName.ancestors,
        DottedName.firstSegments, if_neg (Nat.succ_ne_zero k), Nat.add_sub_cancel]
      rw [DottedName.depth] at hk
      rcases Nat.lt_or_ge k name.dots.length with hlt | hge
      · rw [List.getElem?_append_left (by rwa [List.length_map]), List.getElem?_map,
          List.getElem?_eq_getElem hlt]
        rfl
      · have heq : k = (name.dots.map name.upTo).length := by
          rw [List.length_map]
          omega
        rw [List.getElem?_eq_none hge, heq, List.getElem?_append_right (Nat.le_refl _),
          Nat.sub_self]
        rfl

end Parsed

/-- Each name on the way down is the child of the one before. -/
theorem getElem_pathFrom (parent : String) (names : List String) (k : Nat) :
    (pathFrom parent names)[k]? = names[k]?.bind fun segment =>
      (parent :: pathFrom parent names)[k]?.map fun above => childName above segment := by
  induction names generalizing parent k with
  | nil => rfl
  | cons segment rest ih =>
      cases k with
      | zero => rfl
      | succ k => exact ih (childName parent segment) k

theorem firstSegments_succ {text : String} {name : DottedName}
    (h : DottedName.parse text = some name) {k : Nat} (hk : k < name.depth) :
    name.firstSegments (k + 1) =
      childName (name.firstSegments k) ((name.segment? k).getD "") := by
  have hhere := firstSegments_of_parse h (Nat.le_of_lt hk)
  have hnext := firstSegments_of_parse h (Nat.succ_le_of_lt hk)
  obtain ⟨segment, -, hsegment⟩ := segment_of_lt h hk
  rw [List.getElem?_cons_succ, prefixes, getElem_pathFrom, ← prefixes, hhere,
    ← segment_of_parse h, hsegment] at hnext
  rw [hsegment]
  exact (Option.some.inj hnext).symm

theorem firstSegments_ne_empty {text : String} {name : DottedName}
    (h : DottedName.parse text = some name) {k : Nat} (hpos : 0 < k) (hk : k ≤ name.depth) :
    name.firstSegments k ≠ "" := by
  have hfront := firstSegments_of_parse h hk
  rw [List.getElem?_cons, if_neg (Nat.ne_of_gt hpos)] at hfront
  intro hempty
  rw [hempty] at hfront
  exact not_mem_pathFrom (DottedName.filled_of_parse h) (List.mem_of_getElem? hfront)

/-- A name is its last segment in the package of the segments in front of it. -/
theorem eq_childName_of_parse {text : String} {name : DottedName}
    (h : DottedName.parse text = some name) :
    ∃ own, name.segment? (name.depth - 1) = some own ∧ '.' ∉ own.toList ∧
      text = childName (name.firstSegments (name.depth - 1)) own := by
  have hlast : name.depth - 1 < name.depth := Nat.lt_succ_self _
  obtain ⟨own, hown, hsegment⟩ := segment_of_lt h hlast
  refine ⟨own, hsegment, not_mem_of_mem_segments hown, ?_⟩
  have hsucc := firstSegments_succ h hlast
  rw [hsegment, Option.getD_some] at hsucc
  have hwhole : name.firstSegments (name.depth - 1 + 1) = name.fullName :=
    firstSegments_of_le (Nat.le_refl name.depth)
  rw [← hsucc, hwhole, DottedName.fullName_of_parse h]

theorem parentPackage_of_parse {text : String} {name : DottedName}
    (h : DottedName.parse text = some name) (hsimple : name.isSimple = false) :
    parentPackage? text = some (name.firstSegments (name.depth - 1)) := by
  obtain ⟨own, -, hdotless, htext⟩ := eq_childName_of_parse h
  have hpos : 0 < name.depth - 1 := by
    rwa [DottedName.isSimple, List.isEmpty_eq_false_iff, ← List.length_pos_iff] at hsimple
  have hparent := firstSegments_ne_empty h hpos (Nat.sub_le _ _)
  rw [← parentPackage_childName hparent hdotless, ← htext]

theorem segments_childName {parent : String} (hparent : parent ≠ "") (child : String) :
    segments (childName parent child) = segments parent ++ segments child := by
  rw [segments, toList_childName hparent, List.splitOn_append_cons_self, List.map_append,
    ← segments, ← segments]

theorem pathFrom_mono {parent : String} {names names' : List String} (h : names <+: names') :
    pathFrom parent names <+: pathFrom parent names' := by
  obtain ⟨rest, rfl⟩ := h
  induction names generalizing parent with
  | nil => exact List.nil_prefix
  | cons segment names ih => exact List.cons_prefix_cons.mpr ⟨rfl, ih⟩

/-- The segments of a prefix are the first segments of the name. -/
theorem segments_getElem_prefixes {name : String} (filled : "" ∉ segments name) {k : Nat}
    {front : String} (h : (prefixes name)[k]? = some front) :
    segments front = (segments name).take (k + 1) := by
  induction k generalizing front with
  | zero =>
      rw [prefixes, getElem_pathFrom] at h
      obtain ⟨segment, hsegment, hfront⟩ := Option.bind_eq_some_iff.mp h
      obtain rfl : segment = front := by simpa using hfront
      have hdotless := not_mem_of_mem_segments (List.mem_of_getElem? hsegment)
      rw [segments_of_dotless hdotless, List.take_add_one, hsegment]
      rfl
  | succ k ih =>
      rw [prefixes, getElem_pathFrom] at h
      obtain ⟨segment, hsegment, hfront⟩ := Option.bind_eq_some_iff.mp h
      obtain ⟨above, habove, rfl⟩ := Option.map_eq_some_iff.mp hfront
      rw [List.getElem?_cons_succ] at habove
      have hdotless := not_mem_of_mem_segments (List.mem_of_getElem? hsegment)
      have hne : above ≠ "" := by
        rintro rfl
        exact not_mem_pathFrom filled (List.mem_of_getElem? habove)
      rw [segments_childName hne, segments_of_dotless hdotless, ih habove,
        List.take_add_one (i := k + 1), hsegment]
      rfl

theorem segments_of_mem_prefixes {name front : String} (filled : "" ∉ segments name)
    (h : front ∈ prefixes name) : segments front <+: segments name := by
  obtain ⟨k, hk⟩ := List.mem_iff_getElem?.mp h
  rw [segments_getElem_prefixes filled hk]
  exact List.take_prefix _ _

theorem eq_of_mem_prefixes {name name' : String} (filled : "" ∉ segments name)
    (h : name' ∈ prefixes name) (h' : name ∈ prefixes name') : name = name' := by
  have hfront := segments_of_mem_prefixes filled h
  have hfront' := segments_of_mem_prefixes (fun hmem => filled (hfront.subset hmem)) h'
  exact segments_inj (hfront'.eq_of_length_le hfront.length_le)

end ForeignNamespace

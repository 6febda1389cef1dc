import ForeignNamespace.ClassList
import ForeignNamespace.Proofs.DottedSegments

namespace ForeignNamespace

/-- Whether a text names a class: it is well-formed and names a package in front of the class. -/
def IsClassName (text : String) : Prop := "" ∉ segments text ∧ 2 ≤ (segments text).length

instance : DecidablePred IsClassName := fun text =>
  inferInstanceAs (Decidable ("" ∉ segments text ∧ 2 ≤ (segments text).length))

/-- Whether a package is around a class, directly or not. -/
def Encloses (package text : String) : Prop := package ∈ prefixes text ∧ package ≠ text

section Names

variable {text : String} {name : DottedName}

theorem isClassName_iff (h : DottedName.parse text = some name) :
    IsClassName text ↔ name.isSimple = false := by
  have hdepth := depth_of_parse h
  rw [DottedName.depth] at hdepth
  have hfilled := DottedName.filled_of_parse h
  rw [IsClassName, DottedName.isSimple, ← hdepth, List.isEmpty_eq_false_iff,
    ← List.length_pos_iff]
  constructor
  · rintro ⟨-, hlength⟩
    omega
  · intro hlength
    exact ⟨hfilled, by omega⟩

theorem parse_of_isClassName (h : IsClassName text) :
    ∃ name, DottedName.parse text = some name ∧ name.isSimple = false := by
  have hparse := DottedName.parse_eq_some_iff.mpr ⟨h.1, rfl⟩
  exact ⟨_, hparse, (isClassName_iff hparse).mp h⟩

theorem encloses_iff (h : DottedName.parse text = some name) {package : String} :
    Encloses package text ↔ ∃ k, k + 1 < name.depth ∧ package = name.firstSegments (k + 1) := by
  have hprefixes := ancestors_append_fullName h
  rw [DottedName.fullName_of_parse h] at hprefixes
  have hnodup : (name.ancestors ++ [text]).Nodup := by
    rw [hprefixes]
    exact nodup_pathFrom "" (DottedName.filled_of_parse h)
  have hproper : text ∉ name.ancestors := fun hmem =>
    (List.nodup_append.mp hnodup).2.2 text hmem text List.mem_cons_self rfl
  have hmem : Encloses package text ↔ package ∈ name.ancestors := by
    rw [Encloses, ← hprefixes, List.mem_append, List.mem_singleton]
    constructor
    · rintro ⟨hmem | heq, hne⟩
      · exact hmem
      · exact absurd heq hne
    · intro hmem
      exact ⟨.inl hmem, fun heq => hproper (heq ▸ hmem)⟩
  rw [hmem, DottedName.ancestors, List.mem_map]
  constructor
  · rintro ⟨position, hposition, rfl⟩
    obtain ⟨k, hk, rfl⟩ := List.mem_iff_getElem.mp hposition
    exact ⟨k, Nat.succ_lt_succ hk, (firstSegments_of_lt hk).symm⟩
  · rintro ⟨k, hk, rfl⟩
    have hk' : k < name.dots.length := Nat.lt_of_succ_lt_succ hk
    exact ⟨name.dots[k], List.getElem_mem hk', (firstSegments_of_lt hk').symm⟩

theorem encloses_childName_iff (h : DottedName.parse text = some name) {parent segment : String} :
    '.' ∉ segment.toList ∧ Encloses (childName parent segment) text ↔
      ∃ k, k + 1 < name.depth ∧ parent = name.firstSegments k ∧
        segment = (name.segment? k).getD "" := by
  rw [encloses_iff h]
  constructor
  · rintro ⟨hdotless, k, hk, heq⟩
    obtain ⟨own, hown, hsegment⟩ := segment_of_lt h (Nat.lt_of_succ_lt hk)
    rw [firstSegments_succ h (Nat.lt_of_succ_lt hk), hsegment] at heq
    obtain ⟨rfl, rfl⟩ := childName_inj hdotless (not_mem_of_mem_segments hown) heq
    exact ⟨k, hk, rfl, by rw [hsegment, Option.getD_some]⟩
  · rintro ⟨k, hk, rfl, rfl⟩
    obtain ⟨own, hown, hsegment⟩ := segment_of_lt h (Nat.lt_of_succ_lt hk)
    refine ⟨?_, k, hk, (firstSegments_succ h (Nat.lt_of_succ_lt hk)).symm⟩
    rw [hsegment]
    exact not_mem_of_mem_segments hown

end Names

namespace ClassList

/-- What is filed under a name; nothing, if the name is no package. -/
def contents (l : ClassList) (name : String) : Package := l.packages.getD name {}

section Update

variable (l : ClassList) (name : String) (change : Package → Package)

theorem contents_updatePackage (other : String) :
    (l.updatePackage name change).contents other =
      if name = other then change (l.contents other) else l.contents other := by
  simp only [contents, updatePackage, Std.ExtTreeMap.getD_insert, Std.compare_eq_iff_eq]
  split
  · rename_i heq
    rw [heq]
  · rfl

theorem mem_updatePackage {other : String} :
    other ∈ (l.updatePackage name change).packages ↔ name = other ∨ other ∈ l.packages := by
  simp [updatePackage, Std.ExtTreeMap.mem_insert]

end Update

section Link

variable {text : String} {name : DottedName} (l : ClassList)

theorem mem_linkPackage {depth : Nat} {other : String} :
    other ∈ (linkPackage name l depth).packages ↔
      name.firstSegments (depth + 1) = other ∨ name.firstSegments depth = other ∨
        other ∈ l.packages := by
  rw [linkPackage, mem_updatePackage, mem_updatePackage]

theorem contents_linkPackage (depth : Nat) (other : String) :
    (linkPackage name l depth).contents other =
      if name.firstSegments depth = other then
        { l.contents other with
          subPackages := (l.contents other).subPackages.insert ((name.segment? depth).getD "") }
      else l.contents other := by
  rw [linkPackage, contents_updatePackage, contents_updatePackage, id, ite_self]

def linkPackages (name : DottedName) (l : ClassList) (depth : Nat) : ClassList :=
  (List.range depth).foldl (linkPackage name) l

theorem linkPackages_succ (depth : Nat) :
    linkPackages name l (depth + 1) = linkPackage name (linkPackages name l depth) depth := by
  rw [linkPackages, List.range_succ, List.foldl_append]
  rfl

theorem classes_linkPackages (depth : Nat) :
    (linkPackages name l depth).classes = l.classes := by
  induction depth with
  | zero => rfl
  | succ depth ih =>
      rw [linkPackages_succ]
      exact ih

/-- Linking makes the first packages known and no others. -/
theorem mem_linkPackages {depth : Nat} {other : String} :
    other ∈ (linkPackages name l depth).packages ↔
      other ∈ l.packages ∨ 0 < depth ∧ ∃ k ≤ depth, other = name.firstSegments k := by
  induction depth with
  | zero => simp [linkPackages]
  | succ depth ih =>
      rw [linkPackages_succ, mem_linkPackage, ih]
      constructor
      · rintro (rfl | rfl | hmem | ⟨-, k, hk, rfl⟩)
        · exact .inr ⟨Nat.succ_pos _, depth + 1, Nat.le_refl _, rfl⟩
        · exact .inr ⟨Nat.succ_pos _, depth, Nat.le_succ _, rfl⟩
        · exact .inl hmem
        · exact .inr ⟨Nat.succ_pos _, k, Nat.le_succ_of_le hk, rfl⟩
      · rintro (hmem | ⟨-, k, hk, rfl⟩)
        · exact .inr (.inr (.inl hmem))
        · rcases Nat.eq_or_lt_of_le hk with rfl | hlt
          · exact .inl rfl
          · rcases Nat.eq_or_lt_of_le (Nat.le_of_lt_succ hlt) with rfl | hlt
            · exact .inr (.inl rfl)
            · exact .inr (.inr (.inr ⟨Nat.zero_lt_of_lt hlt, k, Nat.le_of_lt hlt, rfl⟩))

theorem mem_subPackages_linkPackages {depth : Nat} {parent segment : String} :
    segment ∈ ((linkPackages name l depth).contents parent).subPackages ↔
      segment ∈ (l.contents parent).subPackages ∨
        ∃ k < depth, parent = name.firstSegments k ∧ segment = (name.segment? k).getD "" := by
  induction depth with
  | zero => simp [linkPackages]
  | succ depth ih =>
      have hstep : segment ∈ ((linkPackages name l (depth + 1)).contents parent).subPackages ↔
          (parent = name.firstSegments depth ∧ segment = (name.segment? depth).getD "") ∨
            segment ∈ ((linkPackages name l depth).contents parent).subPackages := by
        rw [linkPackages_succ, contents_linkPackage]
        split
        · rename_i heq
          rw [Std.ExtTreeSet.mem_insert, Std.compare_eq_iff_eq, and_iff_right heq.symm]
          exact or_congr_left eq_comm
        · rename_i hne
          rw [or_iff_right fun hand => hne hand.1.symm]
      rw [hstep, ih]
      simp only [Nat.lt_succ_iff_lt_or_eq, or_and_right, exists_or, exists_eq_left]
      rw [or_left_comm, or_comm (a := parent = name.firstSegments depth ∧ _)]

theorem classes_contents_linkPackages (depth : Nat) (other : String) :
    ((linkPackages name l depth).contents other).classes = (l.contents other).classes := by
  induction depth with
  | zero => rfl
  | succ depth ih =>
      rw [linkPackages_succ, contents_linkPackage]
      split
      · exact ih
      · exact ih

end Link

/-- Whether an index is the one that holds these classes. -/
structure Indexes (l : ClassList) (known : String → Prop) : Prop where
  classes : ∀ {c}, c ∈ l.classes ↔ known c
  packages : ∀ {p}, p ∈ l.packages ↔ ∃ c, known c ∧ (p = "" ∨ Encloses p c)
  subPackages : ∀ {p s}, s ∈ (l.contents p).subPackages ↔
    '.' ∉ s.toList ∧ ∃ c, known c ∧ Encloses (childName p s) c
  filed : ∀ {p c}, c ∈ (l.contents p).classes ↔ known c ∧ parentPackage? c = some p

theorem Indexes.congr {l : ClassList} {known known' : String → Prop} (h : l.Indexes known)
    (heq : ∀ c, known c ↔ known' c) : l.Indexes known' := by
  rwa [show known' = known from funext fun c => propext (heq c).symm]

/-- A new class is filed under its package, and the packages around it are linked. -/
theorem Indexes.file {l : ClassList} {known : String → Prop} (h : l.Indexes known) {text : String}
    {name : DottedName} (hparse : DottedName.parse text = some name)
    (hsimple : name.isSimple = false) :
    (linkPackages name (updatePackage { l with classes := l.classes.insert text }
      (name.firstSegments (name.depth - 1)) fun p => { p with classes := p.classes.insert text })
        (name.depth - 1)).Indexes fun c => known c ∨ c = text := by
  have hdepth : 0 < name.depth - 1 := by
    rw [DottedName.isSimple, List.isEmpty_eq_false_iff, ← List.length_pos_iff] at hsimple
    exact hsimple
  constructor
  · intro c
    rw [classes_linkPackages]
    change c ∈ l.classes.insert text ↔ _
    rw [Std.ExtTreeSet.mem_insert, Std.compare_eq_iff_eq, h.classes, or_comm, eq_comm]
  · intro p
    -- The package of the class itself is the last of those that are linked.
    have hlinked : (name.firstSegments (name.depth - 1) = p ∨
        ∃ k ≤ name.depth - 1, p = name.firstSegments k) ↔ p = "" ∨ Encloses p text := by
      rw [encloses_iff hparse]
      constructor
      · rintro (rfl | ⟨k, hk, rfl⟩)
        · exact .inr ⟨name.depth - 2, by omega, congrArg _ (by omega)⟩
        · cases k with
          | zero => exact .inl rfl
          | succ k => exact .inr ⟨k, by omega, rfl⟩
      · rintro (rfl | ⟨k, hk, rfl⟩)
        · exact .inr ⟨0, Nat.zero_le _, rfl⟩
        · exact .inr ⟨k + 1, by omega, rfl⟩
    rw [mem_linkPackages, mem_updatePackage, h.packages]
    simp only [hdepth, true_and, or_and_right, exists_or, exists_eq_left, ← hlinked]
    rw [or_right_comm, or_comm]
  · intro p s
    rw [mem_subPackages_linkPackages, contents_updatePackage]
    have hkept : s ∈ (if name.firstSegments (name.depth - 1) = p then
        { l.contents p with classes := (l.contents p).classes.insert text }
        else l.contents p).subPackages ↔ s ∈ (l.contents p).subPackages := by
      split <;> exact Iff.rfl
    have hnew : (∃ k < name.depth - 1, p = name.firstSegments k ∧
        s = (name.segment? k).getD "") ↔
          '.' ∉ s.toList ∧ Encloses (childName p s) text := by
      rw [encloses_childName_iff hparse]
      exact exists_congr fun k => and_congr_left fun _ => by omega
    refine (or_congr hkept hnew).trans ?_
    rw [h.subPackages, ← and_or_left]
    simp only [or_and_right, exists_or, exists_eq_left]
  · intro p c
    rw [classes_contents_linkPackages, contents_updatePackage]
    have hparent := parentPackage_of_parse hparse hsimple
    have hfiled : c ∈ (l.contents p).classes ↔ known c ∧ parentPackage? c = some p := h.filed
    by_cases heq : name.firstSegments (name.depth - 1) = p
    · rw [if_pos heq]
      change c ∈ (l.contents p).classes.insert text ↔ _
      rw [Std.ExtTreeSet.mem_insert, Std.compare_eq_iff_eq, hfiled, or_and_right, or_comm]
      refine or_congr_right ⟨?_, fun hc => hc.1.symm⟩
      rintro rfl
      exact ⟨rfl, by rw [hparent, heq]⟩
    · rw [if_neg heq, or_and_right]
      refine hfiled.trans ?_
      refine (or_iff_left ?_).symm
      rintro ⟨rfl, hc⟩
      exact heq (Option.some.inj (hparent.symm.trans hc))

/-- A name is filed if it names a class, and passed over if it names none or is filed already. -/
theorem Indexes.addClass {l : ClassList} {known : String → Prop} (h : l.Indexes known)
    (text : String) : (l.addClass text).Indexes fun c => known c ∨ c = text ∧ IsClassName text := by
  rw [ClassList.addClass]
  split
  · rename_i hparse
    refine h.congr fun c => (or_iff_left ?_).symm
    rintro ⟨-, hname⟩
    obtain ⟨name, hname, -⟩ := parse_of_isClassName hname
    cases hparse.symm.trans hname
  · rename_i name hparse
    split
    · rename_i hskipped
      rcases Bool.or_eq_true_iff.mp hskipped with hsimple | hthere
      · refine h.congr fun c => (or_iff_left ?_).symm
        rintro ⟨-, hname⟩
        rw [isClassName_iff hparse, hsimple] at hname
        cases hname
      · refine h.congr fun c => (or_iff_left_of_imp ?_).symm
        rintro ⟨rfl, -⟩
        exact h.classes.mp (Std.ExtTreeSet.contains_iff_mem.mp hthere)
    · rename_i hnew
      have hsimple : name.isSimple = false := by
        rw [Bool.or_eq_true_iff, not_or] at hnew
        exact Bool.eq_false_iff.mpr hnew.1
      refine (h.file hparse hsimple).congr fun c => or_congr_right ?_
      rw [and_iff_left ((isClassName_iff hparse).mpr hsimple)]

theorem indexes_empty : ({} : ClassList).Indexes fun _ => False := by
  have hcontents : ∀ p, ({} : ClassList).contents p = {} := fun p => by
    simp [contents]
  constructor <;> simp [hcontents]

theorem indexes_ofNames (names : List String) :
    (ofNames names).Indexes fun c => c ∈ names ∧ IsClassName c := by
  have hfold : ∀ {l : ClassList} {known : String → Prop}, l.Indexes known →
      (names.foldl ClassList.addClass l).Indexes
        fun c => known c ∨ c ∈ names ∧ IsClassName c := by
    intro l known h
    induction names generalizing l known with
    | nil => exact h.congr fun c => by simp
    | cons name names ih =>
        refine (ih (h.addClass name)).congr fun c => ?_
        rw [List.mem_cons, or_assoc, or_and_right]
        refine or_congr_right (or_congr_left (and_congr_right ?_))
        rintro rfl
        exact Iff.rfl
  exact (hfold indexes_empty).congr fun c => by simp

def build (names : List String) (modules : List (String × ObjectId)) : ClassList :=
  modules.foldl (fun l m => l.withModule m.1 m.2) (ofNames names)

theorem build_eq (names : List String) (modules : List (String × ObjectId)) :
    ∃ attached, build names modules = { ofNames names with modules := attached } := by
  have hfold : ∀ l : ClassList, ∃ attached,
      modules.foldl (fun l m => l.withModule m.1 m.2) l = { l with modules := attached } := by
    intro l
    induction modules generalizing l with
    | nil => exact ⟨l.modules, rfl⟩
    | cons m modules ih => exact ih (l.withModule m.1 m.2)
  exact hfold (ofNames names)

theorem indexes_build (names : List String) (modules : List (String × ObjectId)) :
    (build names modules).Indexes fun c => c ∈ names ∧ IsClassName c := by
  obtain ⟨attached, hbuild⟩ := build_eq names modules
  rw [hbuild]
  have h := indexes_ofNames names
  exact ⟨h.classes, h.packages, h.subPackages, h.filed⟩

/-- Every package is listed by its parent, whatever names and modules a list is made from. -/
theorem mem_subPackages {names : List String} {modules : List (String × ObjectId)}
    {parent segment : String} (hdotless : '.' ∉ segment.toList)
    (h : (build names modules).isPackage (childName parent segment) = true) :
    segment ∈ ((build names modules).subPackages? parent).getD [] := by
  have hindex := indexes_build names modules
  rw [isPackage, Bool.and_eq_true, bne_iff_ne, Std.ExtTreeMap.contains_iff_mem,
    hindex.packages] at h
  obtain ⟨hne, c, hc, hempty | hencloses⟩ := h
  · exact absurd hempty hne
  · have hlisted := hindex.subPackages.mpr ⟨hdotless, c, hc, hencloses⟩
    rw [contents, Std.ExtTreeMap.getD_eq_getD_getElem?] at hlisted
    rw [subPackages?]
    cases hpackage : (build names modules).packages[parent]? with
    | none =>
        rw [hpackage] at hlisted
        simp at hlisted
    | some package =>
        rw [hpackage] at hlisted
        simpa using hlisted

end ForeignNamespace.ClassList

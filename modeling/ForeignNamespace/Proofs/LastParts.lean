import ForeignNamespace.Proofs.DottedSegments
import ForeignNamespace.Script.Name
import ForeignNamespace.Value
import Mathlib.Data.List.DropRight

namespace ForeignNamespace

/-- What stands behind the last character that is not kept. -/
theorem rtakeWhile_append {kept : Char → Bool} {front back : List Char}
    (hfront : ∀ c ∈ front.getLast?, kept c = false) (hback : ∀ c ∈ back, kept c = true) :
    (front ++ back).rtakeWhile kept = back := by
  have hnone : front.reverse.takeWhile kept = [] := by
    cases hreverse : front.reverse with
    | nil => rfl
    | cons c rest =>
        have hlast : front.getLast? = some c := by
          rw [← List.head?_reverse, hreverse, List.head?_cons]
        exact List.takeWhile_cons_of_neg (Bool.eq_false_iff.mp (hfront c hlast))
  have hall : ∀ c ∈ back.reverse, kept c = true := fun c hc => hback c (List.mem_reverse.mp hc)
  rw [List.rtakeWhile, List.reverse_append, List.takeWhile_append_of_pos hall, hnone,
    List.append_nil, List.reverse_reverse]

theorem simpleName_eq_leafName (name : String) : simpleName name = leafName name := by
  have hdotless := dotless_behind_cutLastDot name.toList
  have hkept {back : List Char} (hback : '.' ∉ back) : ∀ c ∈ back, decide (c ≠ '.') = true :=
    fun c hc => decide_eq_true fun heq => hback (heq ▸ hc)
  rw [leafName]
  cases hcut : cutLastDot name.toList with
  | some cut =>
      rw [hcut] at hdotless
      have htext : name.toList = (cut.1 ++ ['.']) ++ cut.2 := by
        rw [List.append_assoc]
        exact eq_append_of_cutLastDot hcut
      have hlast : ∀ c ∈ (cut.1 ++ ['.']).getLast?, decide (c ≠ '.') = false := by simp
      refine congrArg String.ofList ?_
      rw [htext]
      exact rtakeWhile_append hlast (hkept hdotless)
  | none =>
      rw [hcut] at hdotless
      have hlast : ∀ c ∈ ([] : List Char).getLast?, decide (c ≠ '.') = false := by simp
      have hall := rtakeWhile_append hlast (hkept hdotless)
      exact (congrArg String.ofList hall).trans String.ofList_toList

/-- Whether the path of a name through packages is the one that its segments tell. -/
structure DottedName.TellsPath (name : DottedName) (text : String) : Prop where
  top : parentPackage? text = none ↔ name.depth = 1
  parent : name.depth ≠ 1 → parentPackage? text = some (name.firstSegments (name.depth - 1))
  leaf : name.segment? (name.depth - 1) = some (leafName text)
  simpleName : ∀ c : ClassHandle, c.name = text →
    name.segment? (name.depth - 1) = some c.simpleName
  rejoined : childName ((parentPackage? text).getD "") (leafName text) = text

/-- Whether the names of a package's children tell the package and the child. -/
structure NamesChildren (package : String) : Prop where
  parent : package ≠ "" → ∀ child, '.' ∉ child.toList →
    parentPackage? (childName package child) = some package
  leaf : ∀ child, '.' ∉ child.toList → leafName (childName package child) = child
  injective : Function.Injective (childName package)
  wellFormed : ∀ child, (DottedName.parse (childName package child)).isSome = true ↔
    (DottedName.parse child).isSome = true ∧
      (package = "" ∨ (DottedName.parse package).isSome = true)

theorem tellsPath_of_parse {text : String} {name : DottedName}
    (h : DottedName.parse text = some name) : name.TellsPath text := by
  obtain ⟨own, hown, hdotless, htext⟩ := eq_childName_of_parse h
  have hleaf : leafName text = own := by rw [htext, leafName_childName hdotless]
  have hparent (hdepth : name.depth ≠ 1) :
      parentPackage? text = some (name.firstSegments (name.depth - 1)) :=
    parentPackage_of_parse h (Bool.eq_false_iff.mpr (mt isSimple_iff.mp hdepth))
  have htop (hdepth : name.depth = 1) : text = own ∧ parentPackage? text = none := by
    rw [hdepth, Nat.sub_self] at htext
    have hown' : text = own := htext
    exact ⟨hown', hown' ▸ parentPackage_of_not_mem hdotless⟩
  refine ⟨⟨fun hnone => ?_, fun hdepth => (htop hdepth).2⟩, hparent, ?_, ?_, ?_⟩
  · by_contra hdepth
    cases hnone.symm.trans (hparent hdepth)
  · rw [hown, hleaf]
  · rintro c rfl
    rw [hown, ClassHandle.simpleName, simpleName_eq_leafName, hleaf]
  · by_cases hdepth : name.depth = 1
    · rw [hleaf, (htop hdepth).2, Option.getD_none, childName_empty, (htop hdepth).1]
    · rw [hleaf, hparent hdepth, Option.getD_some, ← htext]

theorem isSome_parse_childName {package : String} (hpackage : package ≠ "") (child : String) :
    (DottedName.parse (childName package child)).isSome = true ↔
      (DottedName.parse child).isSome = true ∧ (DottedName.parse package).isSome = true := by
  rw [DottedName.isSome_parse_iff, DottedName.isSome_parse_iff, DottedName.isSome_parse_iff,
    segments_childName hpackage, List.mem_append, not_or, and_comm]

theorem namesChildren (package : String) : NamesChildren package where
  parent := fun hpackage _ hdotless => parentPackage_childName hpackage hdotless
  leaf := fun _ hdotless => leafName_childName hdotless
  injective := fun _ _ heq => childName_right_inj.mp heq
  wellFormed := fun child => by
    by_cases hpackage : package = ""
    · rw [hpackage, childName_empty, and_iff_left (.inl rfl)]
    · rw [isSome_parse_childName hpackage, or_iff_right hpackage]

/-- The path of a dotted name through packages is told by its segments, and the names of a package's
children tell the package and the child. -/
theorem paths_agree_with_segments :
    (∀ text name, DottedName.parse text = some name → name.TellsPath text) ∧
      ∀ package, NamesChildren package :=
  ⟨fun _ _ => tellsPath_of_parse, namesChildren⟩

theorem paths_agree_with_segments_accented :
    DottedName.parse "größe.é.b" = some ⟨"größe.é.b", [7, 10]⟩ ∧
      DottedName.TellsPath ⟨"größe.é.b", [7, 10]⟩ "größe.é.b" ∧
      parentPackage? "größe.é.b" = some "größe.é" ∧
      NamesChildren "größe.é" ∧
      parentPackage? (childName "größe.é" "b") = some "größe.é" := by
  have hparse : DottedName.parse "größe.é.b" = some ⟨"größe.é.b", [7, 10]⟩ := by decide
  have htells := paths_agree_with_segments.1 _ _ hparse
  have hchildren := paths_agree_with_segments.2 "größe.é"
  exact ⟨hparse, htells, htells.parent (by decide), hchildren,
    hchildren.parent (by decide) "b" (by decide)⟩

/-- Whether a text ends in one of both slashes. -/
def EndsInSlash (text : String) : Prop := ∃ front, text = front ++ "/" ∨ text = front ++ "\\"

/-- Whether a path is the given directory, which is empty or ends in a slash, and behind it the
given file name, which has no slash. -/
structure CutsPath (path directory file : String) : Prop where
  joined : path = directory ++ file
  slashed : directory = "" ∨ EndsInSlash directory
  plain : '/' ∉ file.toList ∧ '\\' ∉ file.toList

theorem EndsInSlash.append {text : String} (h : EndsInSlash text) (front : String) :
    EndsInSlash (front ++ text) := by
  obtain ⟨before, rfl | rfl⟩ := h
  · exact ⟨front ++ before, .inl String.append_assoc.symm⟩
  · exact ⟨front ++ before, .inr String.append_assoc.symm⟩

theorem isPathSeparator_iff {c : Char} : isPathSeparator c = true ↔ c = '/' ∨ c = '\\' := by
  simp [isPathSeparator]

theorem endsInSlash_of_getLast {cs : List Char} (hne : cs ≠ [])
    (h : isPathSeparator (cs.getLast hne) = true) : EndsInSlash (String.ofList cs) := by
  have hcs : String.ofList cs = String.ofList cs.dropLast ++ String.ofList [cs.getLast hne] := by
    rw [← String.ofList_append, List.dropLast_append_getLast hne]
  rcases isPathSeparator_iff.mp h with hlast | hlast
  · exact ⟨String.ofList cs.dropLast, .inl (by rw [hcs, hlast])⟩
  · exact ⟨String.ofList cs.dropLast, .inr (by rw [hcs, hlast])⟩

/-- Every path can be cut behind the last of its separators. -/
theorem exists_cutsPath (path : String) : ∃ directory file, CutsPath path directory file := by
  let kept : Char → Bool := fun c => !isPathSeparator c
  refine ⟨String.ofList (path.toList.rdropWhile kept), String.ofList (path.toList.rtakeWhile kept),
    ?_, ?_, ?_⟩
  · rw [← String.ofList_append, List.rdropWhile_append_rtakeWhile, String.ofList_toList]
  · by_cases hempty : path.toList.rdropWhile kept = []
    · exact .inl (congrArg String.ofList hempty)
    · have hlast := List.rdropWhile_last_not kept path.toList hempty
      exact .inr (endsInSlash_of_getLast hempty (by simpa [kept] using hlast))
  · have hkept {c : Char} (hc : isPathSeparator c = true) : c ∉ path.toList.rtakeWhile kept := by
      intro hmem
      have hnot := List.mem_rtakeWhile_imp hmem
      rw [Bool.not_eq_true', hc] at hnot
      cases hnot
    rw [String.toList_ofList]
    exact ⟨hkept rfl, hkept rfl⟩

namespace CutsPath

variable {path directory file : String}

theorem fileName_eq (h : CutsPath path directory file) : fileName path.toList = file.toList := by
  have hdirectory : ∀ c ∈ directory.toList.getLast?, (!isPathSeparator c) = false := by
    rcases h.slashed with rfl | ⟨front, rfl | rfl⟩
    · simp
    · simp [isPathSeparator]
    · simp [isPathSeparator]
  have hfile : ∀ c ∈ file.toList, (!isPathSeparator c) = true := by
    intro c hc
    rw [Bool.not_eq_true', ← Bool.not_eq_true, isPathSeparator_iff]
    rintro (rfl | rfl)
    · exact h.plain.1 hc
    · exact h.plain.2 hc
  rw [h.joined, String.toList_append]
  exact rtakeWhile_append hdirectory hfile

theorem unique (h : CutsPath path directory file) {directory' file' : String}
    (h' : CutsPath path directory' file') : directory' = directory ∧ file' = file := by
  have hfile : file' = file := String.toList_inj.mp (h'.fileName_eq.symm.trans h.fileName_eq)
  have hjoined := h'.joined.symm.trans h.joined
  rw [hfile] at hjoined
  exact ⟨String.append_left_inj _ |>.mp hjoined, hfile⟩

/-- Behind a further directory the file name is the same. -/
theorem behind (h : CutsPath path directory file) {front : String} (hfront : EndsInSlash front) :
    CutsPath (front ++ path) (front ++ directory) file where
  joined := by rw [h.joined, String.append_assoc]
  slashed := by
    rcases h.slashed with rfl | hslash
    · exact .inr (String.append_empty.symm ▸ hfront)
    · exact .inr (hslash.append front)
  plain := h.plain

theorem scriptName_eq (h : CutsPath path directory file) :
    scriptName path = String.ofList (withoutExtension file.toList) := by
  rw [scriptName, h.fileName_eq]

end CutsPath

theorem withoutExtension_append (stem : List Char) :
    withoutExtension (stem ++ ".py".toList) = stem := by
  have hsuffix : ".py".toList.isSuffixOf (stem ++ ".py".toList) = true :=
    List.isSuffixOf_iff_suffix.mpr (List.suffix_append _ _)
  rw [withoutExtension, if_pos hsuffix, List.length_append, Nat.add_sub_cancel, List.take_left]

theorem withoutExtension_of_not_suffix {file : List Char} (h : ¬".py".toList <:+ file) :
    withoutExtension file = file :=
  if_neg (mt List.isSuffixOf_iff_suffix.mp h)

/-- Whether a script is named for the file of its path, with one extension taken away. -/
structure NamesScript (path directory file : String) : Prop where
  named : scriptName path =
    if ".py".toList <:+ file.toList then String.ofList (file.toList.rdrop 3) else file
  plain : '/' ∉ (scriptName path).toList ∧ '\\' ∉ (scriptName path).toList
  rejoined : path = directory ++ scriptName path ∨ path = directory ++ scriptName path ++ ".py"
  once : ∀ stem, file = stem ++ ".py" → scriptName path = stem
  behind : ∀ front, EndsInSlash front → scriptName (front ++ path) = scriptName path

namespace CutsPath

variable {path directory file : String}

theorem scriptName_append {stem : String} (h : CutsPath path directory (stem ++ ".py")) :
    scriptName path = stem := by
  rw [h.scriptName_eq, String.toList_append, withoutExtension_append, String.ofList_toList]

theorem scriptName_of_not_suffix (h : CutsPath path directory file)
    (hplain : ¬".py".toList <:+ file.toList) : scriptName path = file := by
  rw [h.scriptName_eq, withoutExtension_of_not_suffix hplain, String.ofList_toList]

/-- A script is named for the whole file, or the file has the extension behind its name. -/
theorem file_cases (h : CutsPath path directory file) :
    file = scriptName path ++ ".py" ∧ ".py".toList <:+ file.toList ∨
      file = scriptName path ∧ ¬".py".toList <:+ file.toList := by
  by_cases hsuffix : ".py".toList <:+ file.toList
  · obtain ⟨stem, rfl⟩ : ∃ stem, file = stem ++ ".py" := by
      obtain ⟨stem, hstem⟩ := hsuffix
      refine ⟨String.ofList stem, ?_⟩
      rw [← String.toList_inj, String.toList_append, String.toList_ofList, hstem]
    exact .inl ⟨by rw [h.scriptName_append], hsuffix⟩
  · exact .inr ⟨(h.scriptName_of_not_suffix hsuffix).symm, hsuffix⟩

theorem namesScript (h : CutsPath path directory file) : NamesScript path directory file where
  named := by
    rcases h.file_cases with ⟨hfile, hsuffix⟩ | ⟨hfile, hplain⟩
    · have hname : file.toList.rdrop 3 = (scriptName path).toList := by
        rw [hfile, String.toList_append]
        exact List.rdrop_append_length
      rw [if_pos hsuffix, hname, String.ofList_toList]
    · rw [if_neg hplain]
      exact hfile.symm
  plain := by
    have hsub : (scriptName path).toList ⊆ file.toList := by
      rcases h.file_cases with ⟨hfile, -⟩ | ⟨hfile, -⟩
      · rw [hfile, String.toList_append]
        exact List.subset_append_left _ _
      · exact hfile ▸ List.Subset.refl _
    exact ⟨fun hmem => h.plain.1 (hsub hmem), fun hmem => h.plain.2 (hsub hmem)⟩
  rejoined := by
    rcases h.file_cases with ⟨hfile, -⟩ | ⟨hfile, -⟩
    · rw [String.append_assoc, ← hfile]
      exact .inr h.joined
    · rw [← hfile]
      exact .inl h.joined
  once := fun stem hstem => (hstem ▸ h).scriptName_append
  behind := fun front hfront => by
    rw [(h.behind hfront).scriptName_eq, h.scriptName_eq]

end CutsPath

/-- A path is cut in one way only, and the name of its script is the file name without one
extension: it has no separator, and no directory in front of the path changes it. -/
theorem scriptName_of_path (path : String) :
    (∃! cut : String × String, CutsPath path cut.1 cut.2) ∧
      ∀ directory file, CutsPath path directory file → NamesScript path directory file := by
  obtain ⟨directory, file, h⟩ := exists_cutsPath path
  refine ⟨⟨(directory, file), h, fun cut hcut => ?_⟩, fun _ _ h' => h'.namesScript⟩
  exact Prod.ext (h.unique hcut).1 (h.unique hcut).2

theorem scriptName_of_path_mixed :
    CutsPath "C:\\proj/rules\\check.py.py" "C:\\proj/rules\\" "check.py.py" ∧
      NamesScript "C:\\proj/rules\\check.py.py" "C:\\proj/rules\\" "check.py.py" ∧
      scriptName "C:\\proj/rules\\check.py.py" = "check.py" ∧
      scriptName ("/home/" ++ "C:\\proj/rules\\check.py.py") = "check.py" := by
  have hcuts : CutsPath "C:\\proj/rules\\check.py.py" "C:\\proj/rules\\" "check.py.py" :=
    ⟨by decide, .inr ⟨"C:\\proj/rules", .inr (by decide)⟩, by decide⟩
  have hnames := (scriptName_of_path _).2 _ _ hcuts
  have hname := hnames.once "check.py" (by decide)
  exact ⟨hcuts, hnames, hname, (hnames.behind "/home/" ⟨"/home", .inl (by decide)⟩).trans hname⟩

end ForeignNamespace

import ForeignNamespace.Proofs.ClassListIndex
import ForeignNamespace.Proofs.Utf8Order
import Mathlib.Data.Finset.Card
import Mathlib.Data.Finset.Dedup

namespace ForeignNamespace.ClassList

def classesAmong (names : List String) : Finset String := (names.filter (IsClassName ·)).toFinset

theorem mem_classesAmong {names : List String} {c : String} :
    c ∈ classesAmong names ↔ c ∈ names ∧ IsClassName c := by
  rw [classesAmong, List.mem_toFinset, List.mem_filter, decide_eq_true_iff]

/-- Whether texts are strictly increasing by their bytes. -/
def InByteOrder (texts : List String) : Prop :=
  texts.Pairwise fun s t => Utf8.bytes s < Utf8.bytes t

theorem inByteOrder_toList (texts : Std.ExtTreeSet String) : InByteOrder texts.toList :=
  Std.ExtTreeSet.ordered_toList.imp Utf8.compare_eq_lt_iff.mp

section Index

variable {l l' : ClassList} {known : String → Prop} {p : String}

theorem getElem_packages (h : p ∈ l.packages) : l.packages[p]? = some (l.contents p) := by
  obtain ⟨package, hpackage⟩ :=
    Option.isSome_iff_exists.mp (Std.ExtTreeMap.mem_iff_isSome_getElem?.mp h)
  rw [contents, Std.ExtTreeMap.getD_eq_getD_getElem?, hpackage, Option.getD_some]

theorem mem_of_getElem_packages {package : Package} (h : l.packages[p]? = some package) :
    p ∈ l.packages ∧ package = l.contents p := by
  have hmem : p ∈ l.packages := Std.ExtTreeMap.mem_iff_isSome_getElem?.mpr (by rw [h]; rfl)
  rw [getElem_packages hmem] at h
  exact ⟨hmem, (Option.some.inj h).symm⟩

namespace Indexes

theorem isPackage_iff (h : l.Indexes known) :
    l.isPackage p = true ↔ p ≠ "" ∧ ∃ c, known c ∧ Encloses p c := by
  rw [isPackage, Bool.and_eq_true, bne_iff_ne, Std.ExtTreeMap.contains_iff_mem, h.packages]
  refine and_congr_right fun hne => exists_congr fun c => and_congr_right fun _ => ?_
  exact or_iff_right hne

theorem mem_packages_iff (h : l.Indexes known) :
    p ∈ l.packages ↔ l.isPackage p = true ∨ p = "" ∧ ∃ c, known c := by
  rw [h.isPackage_iff, h.packages]
  by_cases hp : p = ""
  · simp [hp]
  · simp [hp]

theorem isSome_subPackages_iff (h : l.Indexes known) :
    (l.subPackages? p).isSome ↔ l.isPackage p = true ∨ p = "" ∧ ∃ c, known c := by
  rw [subPackages?, Option.isSome_map, ← Std.ExtTreeMap.mem_iff_isSome_getElem?,
    h.mem_packages_iff]

theorem isSome_classNames_iff (h : l.Indexes known) :
    (l.classNames? p).isSome ↔ l.isPackage p = true ∨ p = "" ∧ ∃ c, known c := by
  rw [classNames?, Option.isSome_map, ← Std.ExtTreeMap.mem_iff_isSome_getElem?,
    h.mem_packages_iff]

theorem subPackages_exact (h : l.Indexes known) (hknown : ∀ c, known c → IsClassName c)
    {subs : List String} (hsubs : l.subPackages? p = some subs) :
    InByteOrder subs ∧
      ∀ s, s ∈ subs ↔ '.' ∉ s.toList ∧ l.isPackage (childName p s) = true := by
  obtain ⟨package, hpackage, rfl⟩ := Option.map_eq_some_iff.mp hsubs
  obtain ⟨-, rfl⟩ := mem_of_getElem_packages hpackage
  refine ⟨inByteOrder_toList _, fun s => ?_⟩
  rw [Std.ExtTreeSet.mem_toList, h.subPackages, h.isPackage_iff]
  refine and_congr_right fun _ => (and_iff_right_of_imp ?_).symm
  rintro ⟨c, hc, hencloses⟩ hempty
  rw [hempty] at hencloses
  exact not_mem_pathFrom (hknown c hc).1 hencloses.1

theorem classNames_exact (h : l.Indexes known) {classes : List String}
    (hclasses : l.classNames? p = some classes) :
    InByteOrder classes ∧ ∀ c, c ∈ classes ↔ known c ∧ parentPackage? c = some p := by
  obtain ⟨package, hpackage, rfl⟩ := Option.map_eq_some_iff.mp hclasses
  obtain ⟨-, rfl⟩ := mem_of_getElem_packages hpackage
  refine ⟨inByteOrder_toList _, fun c => ?_⟩
  rw [Std.ExtTreeSet.mem_toList, h.filed]

theorem unique (h : l.Indexes known) (h' : l'.Indexes known) :
    l'.packages = l.packages ∧ l'.classes = l.classes := by
  constructor
  · apply Std.ExtTreeMap.ext_getElem?
    intro p
    have hmem : p ∈ l'.packages ↔ p ∈ l.packages := by rw [h'.packages, h.packages]
    have hcontents : l'.contents p = l.contents p := by
      rw [Package.mk.injEq]
      constructor
      · apply Std.ExtTreeSet.ext_mem
        intro s
        rw [h'.subPackages, h.subPackages]
      · apply Std.ExtTreeSet.ext_mem
        intro c
        rw [h'.filed, h.filed]
    by_cases hp : p ∈ l.packages
    · rw [getElem_packages hp, getElem_packages (hmem.mpr hp), hcontents]
    · rw [Std.ExtTreeMap.getElem?_eq_none hp,
        Std.ExtTreeMap.getElem?_eq_none fun hp' => hp (hmem.mp hp')]
  · apply Std.ExtTreeSet.ext_mem
    intro c
    rw [h'.classes, h.classes]

theorem resolveClass_eq (h : l.Indexes known) [DecidablePred known] :
    l.resolveClass p = if known p then some { name := p } else none := by
  rw [resolveClass]
  refine if_congr ?_ rfl rfl
  rw [Std.ExtTreeSet.contains_iff_mem, h.classes]

theorem size_eq {classes : Finset String} (h : l.Indexes (· ∈ classes)) :
    l.size = classes.card := by
  have hnodup : l.classes.toList.Nodup := Std.ExtTreeSet.distinct_toList.imp fun hne heq =>
    hne (Std.compare_eq_iff_eq.mpr heq)
  rw [size, ← Std.ExtTreeSet.length_toList, ← List.toFinset_card_of_nodup hnodup]
  congr 1
  ext c
  rw [List.mem_toFinset, Std.ExtTreeSet.mem_toList, h.classes]

end Indexes
end Index

/-- Whether a list answers the namespace of the given classes, and no more than it. -/
structure Exact (l : ClassList) (classes : Finset String) : Prop where
  isPackage : ∀ p, l.isPackage p = true ↔ p ≠ "" ∧ ∃ c ∈ classes, Encloses p c
  isSome_subPackages : ∀ p,
    (l.subPackages? p).isSome = true ↔ l.isPackage p = true ∨ p = "" ∧ classes.Nonempty
  subPackages : ∀ p subs, l.subPackages? p = some subs →
    InByteOrder subs ∧ ∀ s, s ∈ subs ↔ '.' ∉ s.toList ∧ l.isPackage (childName p s) = true
  isSome_classNames : ∀ p,
    (l.classNames? p).isSome = true ↔ l.isPackage p = true ∨ p = "" ∧ classes.Nonempty
  classNames : ∀ p own, l.classNames? p = some own →
    InByteOrder own ∧ ∀ c, c ∈ own ↔ c ∈ classes ∧ parentPackage? c = some p
  resolveClass : ∀ p, l.resolveClass p = if p ∈ classes then some { name := p } else none
  size : l.size = classes.card

/-- Whether two lists answer every question about packages and classes alike. -/
structure SameAnswers (l l' : ClassList) : Prop where
  isPackage : l.isPackage = l'.isPackage
  subPackages : l.subPackages? = l'.subPackages?
  classNames : l.classNames? = l'.classNames?
  resolveClass : l.resolveClass = l'.resolveClass
  size : l.size = l'.size
  isEmpty : l.isEmpty = l'.isEmpty

theorem indexes_classesAmong (names : List String) (modules : List (String × ObjectId)) :
    (build names modules).Indexes (· ∈ classesAmong names) :=
  (indexes_build names modules).congr fun _ => mem_classesAmong.symm

theorem exact_build (names : List String) (modules : List (String × ObjectId)) :
    (build names modules).Exact (classesAmong names) := by
  have h := indexes_classesAmong names modules
  exact
    { isPackage := fun _ => h.isPackage_iff
      isSome_subPackages := fun _ => h.isSome_subPackages_iff
      subPackages := fun _ _ => h.subPackages_exact fun _ hc => (mem_classesAmong.mp hc).2
      isSome_classNames := fun _ => h.isSome_classNames_iff
      classNames := fun _ _ => h.classNames_exact
      resolveClass := fun _ => h.resolveClass_eq
      size := h.size_eq }

theorem sameAnswers_of_eq {l l' : ClassList} (hpackages : l.packages = l'.packages)
    (hclasses : l.classes = l'.classes) : l.SameAnswers l' := by
  constructor
  · funext p
    rw [isPackage, isPackage, hpackages]
  · funext p
    rw [subPackages?, subPackages?, hpackages]
  · funext p
    rw [classNames?, classNames?, hpackages]
  · funext p
    rw [resolveClass, resolveClass, hclasses]
  · rw [size, size, hclasses]
  · rw [isEmpty, isEmpty, hclasses]

/-- A list answers exactly the namespace of the class names in it.  So the answers depend neither
on the order of the names, nor on repeated ones, nor on those that name no class, nor on the
modules that are attached. -/
theorem build_answers_namespace (names : List String) (modules : List (String × ObjectId)) :
    (build names modules).Exact (classesAmong names) ∧
      ∀ names' modules', classesAmong names' = classesAmong names →
        (build names' modules').SameAnswers (build names modules) := by
  refine ⟨exact_build names modules, fun names' modules' hsame => ?_⟩
  have h' := indexes_classesAmong names' modules'
  rw [hsame] at h'
  obtain ⟨hpackages, hclasses⟩ := (indexes_classesAmong names modules).unique h'
  exact sameAnswers_of_eq hpackages hclasses

theorem build_answers_namespace_reordered :
    classesAmong ["x", "c.D", "a..B", "a.b.C", "c.D"] = classesAmong ["a.b.C", "c.D"] ∧
      (build ["x", "c.D", "a..B", "a.b.C", "c.D"] [("m", { index := 0 })]).SameAnswers
        (build ["a.b.C", "c.D"] []) := by
  have hsame : classesAmong ["x", "c.D", "a..B", "a.b.C", "c.D"] =
      classesAmong ["a.b.C", "c.D"] := by decide
  exact ⟨hsame, (build_answers_namespace ["a.b.C", "c.D"] []).2 _ _ hsame⟩

end ForeignNamespace.ClassList
